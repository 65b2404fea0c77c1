import BurrowGate.Lib.Run

/-!
# Calls over one store

Calls run over a shared store, each from one suspension to the next; `callStep` is one such
stretch of a call. A call that runs alone leaves the slots of the others as they are.
-/

namespace BurrowGate.Lib.Calls

open Lib.Run Lib.Lists

variable {δ γ ε η : Type*}

structure System (δ γ : Type*) where
  store : δ
  calls : List γ

inductive Action (γ ε η : Type*)
  | start (c : γ)
  | call (i : Nat) (e : ε)
  /-- A change that no call makes. -/
  | world (w : η)

/-- A call starts as one that `starts` admits. -/
def step (starts : γ → Bool) (callStep : δ → γ → ε → Option (δ × γ)) (worldStep : δ → η → δ)
    (s : System δ γ) : Action γ ε η → Option (System δ γ)
  | .start c => if starts c then some { s with calls := s.calls ++ [c] } else none
  | .call i e =>
      s.calls[i]?.bind fun c =>
        (callStep s.store c e).map fun r => ⟨r.1, s.calls.set i r.2⟩
  | .world w => some { s with store := worldStep s.store w }

/-- One call runs through some events while nothing else happens. -/
def run (callStep : δ → γ → ε → Option (δ × γ)) : δ → γ → List ε → Option (δ × γ)
  | d, c, [] => some (d, c)
  | d, c, e :: es => (callStep d c e).bind fun r => run callStep r.1 r.2 es

variable {starts : γ → Bool} {callStep : δ → γ → ε → Option (δ × γ)} {worldStep : δ → η → δ}
variable {init : System δ γ → Prop} {s t : System δ γ} {c n : γ} {d : δ} {i : Nat}

theorem run_cons {c : γ} {d : δ} {d' : δ} {n : γ} {e : ε} {es : List ε}
    (h : callStep d c e = some (d', n)) : run callStep d c (e :: es) = run callStep d' n es := by
  rw [run, h]
  rfl

theorem run_append {c : γ} {d : δ} {d' : δ} {n : γ} {es : List ε} (fs : List ε)
    (h : run callStep d c es = some (d', n)) :
    run callStep d c (es ++ fs) = run callStep d' n fs := by
  induction es generalizing d c with
  | nil =>
      obtain ⟨rfl, rfl⟩ := Prod.mk.inj (Option.some.inj h)
      rfl
  | cons e es ih =>
      obtain ⟨r, hr, hrest⟩ := Option.bind_eq_some_iff.mp h
      rw [List.cons_append, run, hr]
      exact ih hrest

/-- What a call does alone is a run of the system. -/
theorem run_reach {es : List ε} (h : Reach (step starts callStep worldStep) Any init s)
    (hc : s.calls[i]? = some c) (hrun : run callStep s.store c es = some (d, n)) :
    Reach (step starts callStep worldStep) Any init ⟨d, s.calls.set i n⟩ := by
  induction es generalizing s c with
  | nil =>
      obtain ⟨rfl, rfl⟩ := Prod.mk.inj (Option.some.inj hrun)
      obtain ⟨hi, rfl⟩ := List.getElem?_eq_some_iff.mp hc
      rw [List.set_getElem_self]
      exact h
  | cons e es ih =>
      obtain ⟨r, hr, hrest⟩ := Option.bind_eq_some_iff.mp hrun
      have hstep : step starts callStep worldStep s (.call i e) =
          some ⟨r.1, s.calls.set i r.2⟩ := by
        rw [step, hc, Option.bind_some, hr]
        rfl
      have hslot : (s.calls.set i r.2)[i]? = some r.2 :=
        List.getElem?_set_self (List.getElem?_eq_some_iff.mp hc).1
      have hreach := ih (.next h trivial hstep) hslot hrest
      rw [List.set_set] at hreach
      exact hreach

theorem reach_trans {σ α : Type*} {step : σ → α → Option σ} {C : σ → α → Prop} {init : σ → Prop}
    {t u : σ} (h : Reach step C init t) (h' : Reach step C (· = t) u) : Reach step C init u := by
  induction h' with
  | start h0 => exact h0 ▸ h
  | next _ hc hs ih => exact .next ih hc hs

end BurrowGate.Lib.Calls
