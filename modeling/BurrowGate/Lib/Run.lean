import BurrowGate.Lib.Lists

/-!
# Runs of a partial step function

A system is a step function `σ → α → Option σ` and a predicate of initial
states; a refused action is `none`. `Reach` collects the states of the runs whose
every step meets a condition, so that one definition serves unconditional
invariants and invariants of restricted runs.
-/

namespace BurrowGate.Lib.Run

variable {σ α : Type*} {step : σ → α → Option σ} {C D : σ → α → Prop} {init : σ → Prop}

/-- States reached from an initial state by steps that all meet `C`. -/
inductive Reach (step : σ → α → Option σ) (C : σ → α → Prop) (init : σ → Prop) : σ → Prop
  | start {s : σ} : init s → Reach step C init s
  | next {s s' : σ} {a : α} :
      Reach step C init s → C s a → step s a = some s' → Reach step C init s'

/-- The condition of an unrestricted run. -/
def Any : σ → α → Prop := fun _ _ => True

/-- The invariant rule. The step premise may use that the state before is reachable. -/
theorem Reach.invariant {I : σ → Prop} (hinit : ∀ s, init s → I s)
    (hstep : ∀ s a s', Reach step C init s → I s → C s a → step s a = some s' → I s')
    {s : σ} (h : Reach step C init s) : I s := by
  induction h with
  | start h0 => exact hinit _ h0
  | next hr hc hs ih => exact hstep _ _ _ hr ih hc hs

theorem Reach.mono (hCD : ∀ s a, C s a → D s a) {s : σ} (h : Reach step C init s) :
    Reach step D init s := by
  induction h with
  | start h0 => exact .start h0
  | next _ hc hs ih => exact .next ih (hCD _ _ hc) hs

theorem Reach.any {s : σ} (h : Reach step C init s) : Reach step Any init s :=
  h.mono fun _ _ _ => trivial

/-- A step behind a guard that is not refused. -/
theorem of_guard {c : Prop} [Decidable c] {s s' : σ} (h : (if c then some s else none) = some s') :
    c ∧ s = s' := by
  rwa [Option.ite_none_right_eq_some, Option.some_inj] at h

/-- Execute a list of actions; the whole list is refused when one of them is. -/
def exec (step : σ → α → Option σ) : σ → List α → Option σ
  | s, [] => some s
  | s, a :: as => (step s a).bind fun s' => exec step s' as

/-- Execute a list of actions, refusing also those that do not meet the condition. -/
def execIf (step : σ → α → Option σ) (C : σ → α → Prop) [∀ s a, Decidable (C s a)] :
    σ → List α → Option σ
  | s, [] => some s
  | s, a :: as => if C s a then (step s a).bind fun s' => execIf step C s' as else none

theorem exec_reach {s s' : σ} {as : List α} (h : Reach step Any init s)
    (he : exec step s as = some s') : Reach step Any init s' := by
  induction as generalizing s with
  | nil => obtain rfl := Option.some.inj he; exact h
  | cons a as ih =>
      obtain ⟨t, ht, hrest⟩ := Option.bind_eq_some_iff.mp he
      exact ih (.next h trivial ht) hrest

theorem execIf_reach [∀ s a, Decidable (C s a)] {s s' : σ} {as : List α}
    (h : Reach step C init s) (he : execIf step C s as = some s') : Reach step C init s' := by
  induction as generalizing s with
  | nil => obtain rfl := Option.some.inj he; exact h
  | cons a as ih =>
      by_cases hc : C s a
      · simp only [execIf, hc, if_true] at he
        obtain ⟨t, ht, hrest⟩ := Option.bind_eq_some_iff.mp he
        exact ih (.next h hc ht) hrest
      · simp [execIf, hc] at he

/-! ## Runs of a total step function -/

section Total

variable {step : σ → α → σ} {I P : σ → Prop}

/-- Every state of the run meets `P`. -/
def Always (step : σ → α → σ) (P : σ → Prop) : σ → List α → Prop
  | s, [] => P s
  | s, a :: as => P s ∧ Always step P (step s a) as

/-- Every step of the run meets `C`. -/
def Meets (step : σ → α → σ) (C : σ → α → Prop) : σ → List α → Prop
  | _, [] => True
  | s, a :: as => C s a ∧ Meets step C (step s a) as

instance [∀ s a, Decidable (C s a)] (step : σ → α → σ) :
    ∀ (s : σ) (as : List α), Decidable (Meets step C s as)
  | _, [] => isTrue trivial
  | s, a :: as =>
      have := instDecidableMeets step (step s a) as
      inferInstanceAs (Decidable (C s a ∧ Meets step C (step s a) as))

theorem meets_of_forall (h : ∀ s a, C s a) (s : σ) (as : List α) : Meets step C s as := by
  induction as generalizing s with
  | nil => exact trivial
  | cons a as ih => exact ⟨h s a, ih _⟩

theorem Always.start {s : σ} {as : List α} (h : Always step P s as) : P s := by
  cases as with
  | nil => exact h
  | cons a as => exact h.1

theorem Always.last {s : σ} {as : List α} (h : Always step P s as) : P (as.foldl step s) := by
  induction as generalizing s with
  | nil => exact h
  | cons a as ih => exact ih h.2

/-- An invariant that the steps keep under the condition holds all along. -/
theorem always_of_meets (hP : ∀ s, I s → P s) (hstep : ∀ s a, I s → C s a → I (step s a)) {s : σ}
    (h : I s) {as : List α} (hmeets : Meets step C s as) : Always step P s as := by
  induction as generalizing s with
  | nil => exact hP s h
  | cons a as ih => exact ⟨hP s h, ih (hstep s a h hmeets.1) hmeets.2⟩

/-- An invariant that the steps keep under the condition, and under which no other step leads to a
state with `P`, makes the two the same of a run. -/
theorem always_iff_meets (hP : ∀ s, I s → P s) (hstep : ∀ s a, I s → C s a → I (step s a))
    (hmeets : ∀ s a, I s → P (step s a) → C s a) {s : σ} (h : I s) (as : List α) :
    Always step P s as ↔ Meets step C s as := by
  induction as generalizing s with
  | nil => exact ⟨fun _ => trivial, fun _ => hP s h⟩
  | cons a as ih =>
      constructor
      · rintro ⟨-, hrest⟩
        have hc := hmeets s a h hrest.start
        exact ⟨hc, (ih (hstep s a h hc)).mp hrest⟩
      · rintro ⟨hc, hrest⟩
        exact ⟨hP s h, (ih (hstep s a h hc)).mpr hrest⟩

end Total

end BurrowGate.Lib.Run
