import BurrowGate.Access.LoginFailures
import Mathlib.Data.List.Perm.Basic

/-!
# How many passwords can be guessed

A window of a key starts with the failure for which `record` sets a fresh entry, at the
clock of that attempt. The passwords that count into it are the wrong ones verified
after that and before the window ends, up to the first correct login for the key.

The check and the count of `authenticateAccessUser` are two awaits apart, so attempts in
flight are not counted by the check. `Admits` is the condition that they would have met
one that counts them.
-/

namespace BurrowGate.Access

open Js
open Lib
open Lib.Run

variable {env : LoginEnv} {L : TrackerLimits}

/-! ## What the history says -/

/-- Wrong passwords for `k` that were verified at a time in `p`, up to the first correct one. -/
def wrongPasswords (p : Nat → Bool) (k : Key) : List Verification → Nat
  | [] => 0
  | v :: vs =>
      if v.keys.contains k then
        if v.correct then 0 else (if p v.verifiedAt then 1 else 0) + wrongPasswords p k vs
      else wrongPasswords p k vs

/-- A correct login for `k`. -/
def closes (k : Key) (v : Verification) : Bool := v.correct && v.keys.contains k

/-- In no window are more than `maxFailures` wrong passwords verified. -/
def GuessesBounded (L : TrackerLimits) (s : LoginSystem) : Prop :=
  ∀ before v after k, s.history = before ++ v :: after → k ∈ v.opened →
    wrongPasswords (fun t => t < v.now + L.windowMs) k (v :: after) ≤ L.maxFailures

/-- The window of `k` that was opened last ends at `resetAt`, and `recorded` failures were
recorded in it. -/
def CurrentWindow (L : TrackerLimits) (history : List Verification) (k : Key)
    (resetAt recorded : Nat) : Prop :=
  ∃ before v after, history = before ++ v :: after ∧ k ∈ v.opened ∧
    (∀ w ∈ after, k ∉ w.opened ∧ closes k w = false) ∧
      resetAt = v.now + L.windowMs ∧ recorded = wrongPasswords (fun _ => true) k (v :: after)

/-! ## Conditions on a step -/

/-- The failures of `k` that are recorded in a window that runs. -/
def liveFailures (s : LoginSystem) (k : Key) : Nat :=
  match s.loginFailures.entries.get? k with
  | some e => if s.clock < e.resetAt then e.count else 0
  | none => 0

def Attempt.origin (a : Attempt) : List Key × Nat := (a.keys, a.now)

/-- The attempts for `k` that passed the check and have no outcome yet. -/
def inFlight (s : LoginSystem) (k : Key) : Nat :=
  (s.attempts.map Attempt.origin).countP fun o => o.1.contains k

/-- An attempt is let in only while the failures and the attempts in flight of each of its
keys are below the limit. -/
def Admits (env : LoginEnv) (L : TrackerLimits) (s : LoginSystem) : LoginAction → Prop
  | .call siteId ip usernameInput _ =>
      (status L s.loginFailures (callKeys env siteId ip usernameInput) s.clock).1 = 0 →
        ∀ k ∈ callKeys env siteId ip usernameInput, liveFailures s k + inFlight s k < L.maxFailures
  | _ => True

/-- The failure keys in use: those of the tracker, of the attempts and of a new attempt. -/
def keysInUse (env : LoginEnv) (s : LoginSystem) (a : LoginAction) : List Key :=
  let new := match a with
    | .call siteId ip usernameInput _ => callKeys env siteId ip usernameInput
    | _ => []
  (s.loginFailures.entries.keys ++ s.attempts.flatMap (·.keys) ++ new).dedup

def KeysFit (env : LoginEnv) (L : TrackerLimits) (s : LoginSystem) (a : LoginAction) : Prop :=
  (keysInUse env s a).length < L.maxKeys

instance : ∀ s a, Decidable (KeysFit env L s a) :=
  fun _ _ => inferInstanceAs (Decidable (_ < _))

instance (s : LoginSystem) : ∀ a, Decidable (Admits env L s a)
  | .call .. => inferInstanceAs (Decidable (_ → ∀ k ∈ _, _))
  | .tick _ | .lookedUp .. | .verified _ | .failed _ => isTrue trivial

/-! ## Counting -/

section Counting

variable {p : Nat → Bool} {k : Key}

theorem wrongPasswords_of_closes {vs : List Verification} (h : ∃ w ∈ vs, closes k w = true)
    (ws : List Verification) : wrongPasswords p k (vs ++ ws) = wrongPasswords p k vs := by
  induction vs with
  | nil => simp at h
  | cons v vs ih =>
      simp only [List.cons_append, wrongPasswords]
      by_cases hv : closes k v = true
      · obtain ⟨hcorrect, hmem⟩ := Bool.and_eq_true_iff.mp hv
        simp only [hcorrect, hmem, if_true]
      · have hrest : ∃ w ∈ vs, closes k w = true := by
          obtain ⟨w, hw, hc⟩ := h
          rcases List.mem_cons.mp hw with rfl | hw
          · exact absurd hc hv
          · exact ⟨w, hw, hc⟩
        rw [ih hrest]

theorem wrongPasswords_concat {vs : List Verification} (h : ∀ w ∈ vs, closes k w = false)
    (v : Verification) : wrongPasswords p k (vs ++ [v]) =
      wrongPasswords p k vs + wrongPasswords p k [v] := by
  induction vs with
  | nil => simp [wrongPasswords]
  | cons w ws ih =>
      have hw := h w List.mem_cons_self
      have hws := ih fun x hx => h x (List.mem_cons_of_mem _ hx)
      simp only [List.cons_append, wrongPasswords] at hws ⊢
      rw [hws]
      by_cases hmem : w.keys.contains k
      · have hcorrect : w.correct = false := by rwa [closes, hmem, Bool.and_true] at hw
        simp only [hmem, hcorrect, if_true, Bool.false_eq_true, if_false]
        omega
      · simp only [hmem]
        rfl

theorem wrongPasswords_singleton_eq_zero {v : Verification}
    (h : p v.verifiedAt = false ∨ k ∉ v.keys) : wrongPasswords p k [v] = 0 := by
  rcases h with h | h <;> simp [wrongPasswords, h]

theorem wrongPasswords_singleton_eq_one {v : Verification} (hp : p v.verifiedAt = true)
    (hk : k ∈ v.keys) (hv : v.correct = false) : wrongPasswords p k [v] = 1 := by
  simp [wrongPasswords, hp, hk, hv]

end Counting

/-- A split of a history with one more verification at its end. -/
theorem concat_eq_split {xs before after : List Verification} {x v : Verification}
    (h : xs ++ [x] = before ++ v :: after) :
    (∃ rest, after = rest ++ [x] ∧ xs = before ++ v :: rest) ∨ (after = [] ∧ v = x ∧ before = xs) := by
  rcases List.eq_nil_or_concat' after with rfl | ⟨rest, y, rfl⟩
  · obtain ⟨hxs, hx⟩ := List.append_inj' h rfl
    exact .inr ⟨rfl, (List.cons.inj hx).1.symm, hxs.symm⟩
  · have h' : xs ++ [x] = (before ++ v :: rest) ++ [y] := by simpa using h
    obtain ⟨hxs, hx⟩ := List.append_inj' h' rfl
    obtain rfl := (List.cons.inj hx).1
    exact .inl ⟨rest, rfl, hxs⟩

/-! ## What a step does -/

/-- Nothing is verified; entries leave the tracker, those that still run do not. -/
structure Quiet (s s' : LoginSystem) : Prop where
  history : s'.history = s.history
  clock : s.clock ≤ s'.clock
  size : s'.loginFailures.entries.size ≤ s.loginFailures.entries.size
  shrinks : ∀ k e, s'.loginFailures.entries.get? k = some e →
    s.loginFailures.entries.get? k = some e
  keeps : ∀ k e, s.loginFailures.entries.get? k = some e → s'.clock < e.resetAt →
    s'.loginFailures.entries.get? k = some e

theorem Quiet.of_eq {s s' : LoginSystem} (hhistory : s'.history = s.history)
    (hclock : s.clock ≤ s'.clock) (htracker : s'.loginFailures = s.loginFailures) :
    Quiet s s' := by
  refine ⟨hhistory, hclock, ?_, fun k e h => ?_, fun k e h _ => ?_⟩
  · rw [htracker]
  · rwa [htracker] at h
  · rwa [htracker]

theorem quiet_status {s s' : LoginSystem} (keys : List Key)
    (hhistory : s'.history = s.history) (hclock : s'.clock = s.clock)
    (htracker : s'.loginFailures = (status L s.loginFailures keys s.clock).2) : Quiet s s' := by
  have hentries : s'.loginFailures.entries =
      (statusFrom L s.clock 0 s.loginFailures.entries keys).2 := by rw [htracker]; rfl
  refine ⟨hhistory, hclock.ge, ?_, fun k e h => ?_, fun k e h hlive => ?_⟩
  · rw [hentries]
    exact statusFrom_size_le keys 0
  · rw [hentries] at h
    exact ((statusFrom_get? keys 0 k e).mp h).1
  · rw [hentries, statusFrom_get?]
    exact ⟨h, fun _ => hclock ▸ hlive⟩

theorem failureKeys_nodup (siteId ip username : List Char) :
    (failureKeys siteId ip username).Nodup := by
  simp only [failureKeys, List.nodup_cons, List.mem_singleton, List.not_mem_nil, not_false_iff,
    List.nodup_nil, and_true, List.append_assoc]
  intro h
  have htail := List.append_cancel_left (List.append_cancel_left h)
  have hsecond : some 'i' = some 'u' := congrArg (fun cs => cs[1]?) htail
  exact absurd hsecond (by decide)

theorem loginStep_cases {s s' : LoginSystem} {a : LoginAction} (h : loginStep env L s a = some s') :
    (Quiet s s' ∧ (s'.attempts.map Attempt.origin).Sublist (s.attempts.map Attempt.origin)) ∨
      (∃ siteId ip usernameInput passwordInput,
        a = .call siteId ip usernameInput passwordInput ∧ Quiet s s' ∧ s'.clock = s.clock ∧
          (status L s.loginFailures (callKeys env siteId ip usernameInput) s.clock).1 = 0 ∧
            s'.attempts.map Attempt.origin =
              s.attempts.map Attempt.origin ++ [(callKeys env siteId ip usernameInput, s.clock)]) ∨
        ∃ i attempt user, s.attempts[i]? = some attempt ∧
          s' = finishAttempt env L { s with attempts := s.attempts.eraseIdx i } attempt user := by
  cases a with
  | tick ms =>
      obtain rfl := Option.some.inj h
      exact .inl ⟨.of_eq rfl (Nat.le_add_right _ _) rfl, .refl _⟩
  | call siteId ip usernameInput passwordInput =>
      obtain rfl := Option.some.inj h
      simp only [beginAttempt]
      by_cases hpos : 0 < (status L s.loginFailures (callKeys env siteId ip usernameInput) s.clock).1
      · rw [if_pos hpos]
        exact .inl
          ⟨quiet_status (L := L) (callKeys env siteId ip usernameInput) rfl rfl rfl, .refl _⟩
      · rw [if_neg hpos]
        refine .inr (.inl ⟨siteId, ip, usernameInput, passwordInput, rfl,
          quiet_status (L := L) (callKeys env siteId ip usernameInput) rfl rfl rfl, rfl,
          Nat.eq_zero_of_not_pos hpos, ?_⟩)
        simp [Attempt.origin]
  | lookedUp i user =>
      simp only [loginStep] at h
      split at h
      · next attempt hi =>
        split at h
        · obtain rfl := Option.some.inj h
          refine .inl ⟨.of_eq rfl (le_refl _) rfl, ?_⟩
          rw [List.map_set, show Attempt.origin { attempt with stage := .verify user } =
            Attempt.origin attempt from rfl]
          have hi' : (s.attempts.map Attempt.origin)[i]? = some attempt.origin := by
            rw [List.getElem?_map, hi]; rfl
          obtain ⟨hlt, hget⟩ := List.getElem?_eq_some_iff.mp hi'
          rw [← hget, List.set_getElem_self]
        · cases h
      · cases h
  | verified i =>
      simp only [loginStep] at h
      split at h
      · next attempt hi =>
        split at h
        · cases h
        · next user _ => exact .inr (.inr ⟨i, attempt, user, hi, (Option.some.inj h).symm⟩)
      · cases h
  | failed i =>
      simp only [loginStep] at h
      split at h
      · obtain rfl := Option.some.inj h
        exact .inl ⟨.of_eq rfl (le_refl _) rfl, (List.eraseIdx_sublist _ _).map _⟩
      · cases h

/-! ## What holds on every run -/

/-- The tracker has what the history says, and no more than `maxKeys` entries. -/
structure Recorded (L : TrackerLimits) (s : LoginSystem) : Prop where
  nodup : ∀ o ∈ s.attempts.map Attempt.origin, o.1.Nodup
  past : ∀ o ∈ s.attempts.map Attempt.origin, o.2 ≤ s.clock
  opened : ∀ v ∈ s.history, ∀ k ∈ v.opened, v.correct = false ∧ k ∈ v.keys
  size : s.loginFailures.entries.size ≤ L.maxKeys
  windows : ∀ k e, s.loginFailures.entries.get? k = some e →
    CurrentWindow L s.history k e.resetAt e.count

theorem mem_openedKeys {t : LoginFailureTracker} {keys : List Key} {k : Key}
    (h : k ∈ openedKeys t keys) : k ∈ keys ∧ ∃ e, t.entries.get? k = some e ∧ e.count = 1 := by
  obtain ⟨hk, hany⟩ := List.mem_filter.mp h
  obtain ⟨e, he, hcount⟩ := (Option.any_eq_true _ _).mp hany
  exact ⟨hk, e, he, of_decide_eq_true hcount⟩

theorem not_closes_of_opened {s : LoginSystem} (hs : Recorded L s) {v : Verification}
    (hv : v ∈ s.history) {k : Key} (hk : k ∈ v.opened) : closes k v = false := by
  rw [closes, (hs.opened v hv k hk).1, Bool.false_and]

/-- One more verification that neither opens nor closes a window of `k`. -/
theorem CurrentWindow.concat {s : LoginSystem} (hs : Recorded L s) {k : Key} {resetAt n : Nat}
    (h : CurrentWindow L s.history k resetAt n) {x : Verification} (hopened : k ∉ x.opened)
    (hcloses : closes k x = false) :
    CurrentWindow L (s.history ++ [x]) k resetAt (n + wrongPasswords (fun _ => true) k [x]) := by
  obtain ⟨before, v, after, hsplit, hv, hafter, hreset, hn⟩ := h
  have hmem : v ∈ s.history := by rw [hsplit]; simp
  refine ⟨before, v, after ++ [x], by rw [hsplit]; simp, hv, fun w hw => ?_, hreset, ?_⟩
  · rcases List.mem_snoc.mp hw with hw | rfl
    · exact hafter w hw
    · exact ⟨hopened, hcloses⟩
  · rw [hn, ← List.cons_append, wrongPasswords_concat]
    intro w hw
    rcases List.mem_cons.mp hw with rfl | hw
    · exact not_closes_of_opened hs hmem hv
    · exact (hafter w hw).2

theorem CurrentWindow.pos {s : LoginSystem} (hs : Recorded L s) {k : Key} {resetAt n : Nat}
    (h : CurrentWindow L s.history k resetAt n) : 1 ≤ n := by
  obtain ⟨before, v, after, hsplit, hv, -, -, rfl⟩ := h
  obtain ⟨hcorrect, hk⟩ := hs.opened v (by rw [hsplit]; simp) k hv
  simp only [wrongPasswords, List.contains_iff_mem.mpr hk, hcorrect, if_true]
  exact Nat.le_add_right 1 _

theorem Quiet.windows {s s' : LoginSystem} (hq : Quiet s s') (hs : Recorded L s) (k : Key)
    (e : FailureEntry) (h : s'.loginFailures.entries.get? k = some e) :
    CurrentWindow L s'.history k e.resetAt e.count := by
  rw [hq.history]
  exact hs.windows k e (hq.shrinks k e h)

theorem recorded_initial {s : LoginSystem} (h : s.Initial) : Recorded L s := by
  obtain ⟨htracker, hattempts, hhistory⟩ := h
  refine ⟨?_, ?_, ?_, ?_, fun k e he => ?_⟩
  · simp [hattempts]
  · simp [hattempts]
  · simp [hhistory]
  · rw [htracker]
    exact Nat.zero_le _
  · rw [htracker] at he
    cases he

theorem recorded_finish (hmax : 1 ≤ L.maxKeys) {s : LoginSystem} (hs : Recorded L s) {i : Nat}
    {a : Attempt} (hi : s.attempts[i]? = some a) (user : Option AccessUserRecord) :
    Recorded L (finishAttempt env L { s with attempts := s.attempts.eraseIdx i } a user) := by
  have horigin : a.origin ∈ s.attempts.map Attempt.origin :=
    List.mem_map_of_mem (List.mem_of_getElem? hi)
  have hsub := ((List.eraseIdx_sublist s.attempts i).map Attempt.origin).subset
  have hnodup : a.keys.Nodup := hs.nodup _ horigin
  rw [finishAttempt]
  split
  · refine ⟨fun o ho => hs.nodup o (hsub ho), fun o ho => hs.past o (hsub ho), ?_, ?_, ?_⟩
    · intro v hv k hk
      rcases List.mem_snoc.mp hv with hv | rfl
      · exact hs.opened v hv k hk
      · cases hk
    · exact (foldl_erase_size_le a.keys).trans hs.size
    · intro k e he
      rw [show (clear s.loginFailures a.keys).entries.get? k = _ from foldl_erase_get? a.keys k] at he
      by_cases hk : k ∈ a.keys
      · rw [if_pos hk] at he
        cases he
      · rw [if_neg hk] at he
        have hnot : closes k ⟨a.keys, s.clock, a.now, true, []⟩ = false := by simp [closes, hk]
        have hwindow := (hs.windows k e he).concat hs List.not_mem_nil hnot
        rwa [wrongPasswords_singleton_eq_zero (.inr hk)] at hwindow
  · let failed : Verification :=
      ⟨a.keys, s.clock, a.now, false, openedKeys (record L s.loginFailures a.keys a.now) a.keys⟩
    refine ⟨fun o ho => hs.nodup o (hsub ho), fun o ho => hs.past o (hsub ho), ?_, ?_, ?_⟩
    · intro v hv k hk
      rcases List.mem_snoc.mp hv with hv | rfl
      · exact hs.opened v hv k hk
      · exact ⟨rfl, (mem_openedKeys hk).1⟩
    · exact foldl_recordKey_size_le hmax a.keys ((sweep_size_le _).trans hs.size)
    · intro k e he
      have hmember := he
      rcases foldl_recordKey_cases hnodup he with ⟨hk, rfl⟩ | ⟨hk, old, hold, rfl⟩ | ⟨hk, hsame⟩
      · refine ⟨s.history, _, [], rfl, ?_, by simp, rfl, ?_⟩
        · exact List.mem_filter.mpr ⟨hk, by rw [hmember]; rfl⟩
        · rw [wrongPasswords_singleton_eq_one rfl hk rfl]
      · have hwindow := hs.windows k old (sweep_get? hold)
        have hone := hwindow.pos hs
        have hextended := hwindow.concat hs (x := failed)
          (fun hmem => ?_) rfl
        · rwa [wrongPasswords_singleton_eq_one rfl hk rfl] at hextended
        · obtain ⟨-, e, he', hcount⟩ := mem_openedKeys hmem
          obtain rfl := Option.some.inj (hmember.symm.trans he')
          have : old.count + 1 = 1 := hcount
          omega
      · have hwindow := (hs.windows k e (sweep_get? hsame)).concat hs
          (x := failed)
          (fun hmem => hk (mem_openedKeys hmem).1) rfl
        rwa [wrongPasswords_singleton_eq_zero (.inr hk)] at hwindow

theorem recorded_step (hmax : 1 ≤ L.maxKeys) {s s' : LoginSystem} {a : LoginAction}
    (hs : Recorded L s) (h : loginStep env L s a = some s') : Recorded L s' := by
  rcases loginStep_cases h with ⟨hq, hsub⟩ |
    ⟨siteId, ip, usernameInput, passwordInput, rfl, hq, hclock, -, hattempts⟩ |
    ⟨i, attempt, user, hi, rfl⟩
  · exact ⟨fun o ho => hs.nodup o (hsub.subset ho),
      fun o ho => (hs.past o (hsub.subset ho)).trans hq.clock,
      by rw [hq.history]; exact hs.opened, hq.size.trans hs.size, hq.windows hs⟩
  · have hmem : ∀ o ∈ s'.attempts.map Attempt.origin, o ∈ s.attempts.map Attempt.origin ∨
        o = (callKeys env siteId ip usernameInput, s.clock) := by
      intro o ho
      rw [hattempts] at ho
      simpa using ho
    refine ⟨fun o ho => ?_, fun o ho => ?_, by rw [hq.history]; exact hs.opened,
      hq.size.trans hs.size, hq.windows hs⟩
    · rcases hmem o ho with ho | rfl
      · exact hs.nodup o ho
      · exact failureKeys_nodup _ _ _
    · rcases hmem o ho with ho | rfl
      · exact (hs.past o ho).trans hq.clock
      · exact hq.clock
  · exact recorded_finish hmax hs hi user

theorem recorded_reach (hmax : 1 ≤ L.maxKeys) {C : LoginSystem → LoginAction → Prop}
    {s : LoginSystem} (h : Reach (loginStep env L) C LoginSystem.Initial s) : Recorded L s :=
  h.invariant (fun _ => recorded_initial) fun _ _ _ _ hs _ hstep => recorded_step hmax hs hstep

/-! ## What holds while attempts in flight are counted -/

/-- For an opened window: a correct login closed it, it is over, or the tracker still has it. -/
structure Budgeted (L : TrackerLimits) (s : LoginSystem) : Prop where
  running : ∀ before v after k, s.history = before ++ v :: after → k ∈ v.opened →
    (∃ w ∈ after, closes k w = true) ∨ v.now + L.windowMs ≤ s.clock ∨
      s.loginFailures.entries.get? k =
        some ⟨wrongPasswords (fun t => t < v.now + L.windowMs) k (v :: after), v.now + L.windowMs⟩
  budget : ∀ k, liveFailures s k + inFlight s k ≤ L.maxFailures
  bounded : GuessesBounded L s

theorem liveFailures_le {s : LoginSystem} {k : Key} {n : Nat}
    (h : ∀ e, s.loginFailures.entries.get? k = some e → s.clock < e.resetAt → e.count ≤ n) :
    liveFailures s k ≤ n := by
  rw [liveFailures]
  split
  · next e he =>
    split
    · next hlt => exact h e he hlt
    · exact Nat.zero_le _
  · exact Nat.zero_le _

theorem le_liveFailures {s : LoginSystem} {k : Key} {e : FailureEntry}
    (h : s.loginFailures.entries.get? k = some e) (hlt : s.clock < e.resetAt) :
    e.count ≤ liveFailures s k := by
  rw [liveFailures, h]
  simp [hlt]

theorem Quiet.liveFailures_le {s s' : LoginSystem} (hq : Quiet s s') (k : Key) :
    liveFailures s' k ≤ liveFailures s k :=
  Access.liveFailures_le fun e he hlt =>
    le_liveFailures (hq.shrinks k e he) (hq.clock.trans_lt hlt)

theorem inFlight_le {s s' : LoginSystem} (k : Key)
    (h : (s'.attempts.map Attempt.origin).Sublist (s.attempts.map Attempt.origin)) :
    inFlight s' k ≤ inFlight s k :=
  h.countP_le

/-- An attempt that ends is no longer in flight. -/
theorem inFlight_eraseIdx {s : LoginSystem} {i : Nat} {a : Attempt} (hi : s.attempts[i]? = some a)
    {k : Key} (hk : k ∈ a.keys) :
    ((s.attempts.eraseIdx i).map Attempt.origin).countP (fun o => o.1.contains k) + 1 =
      inFlight s k := by
  obtain ⟨hlt, rfl⟩ := List.getElem?_eq_some_iff.mp hi
  have hperm := (List.getElem_cons_eraseIdx_perm hlt).map Attempt.origin
  rw [inFlight, ← hperm.countP_eq, List.map_cons, List.countP_cons_of_pos]
  exact List.contains_iff_mem.mpr hk

theorem budgeted_initial {s : LoginSystem} (h : s.Initial) : Budgeted L s := by
  obtain ⟨htracker, hattempts, hhistory⟩ := h
  refine ⟨fun before v after k hsplit => ?_, fun k => ?_, fun before v after k hsplit => ?_⟩
  · simp [hhistory] at hsplit
  · rw [liveFailures, htracker, inFlight, hattempts]
    exact Nat.zero_le _
  · simp [hhistory] at hsplit

theorem Quiet.running {s s' : LoginSystem} (hq : Quiet s s') (hs : Budgeted L s)
    (before : List Verification) (v : Verification) (after : List Verification) (k : Key)
    (hsplit : s'.history = before ++ v :: after) (hk : k ∈ v.opened) :
    (∃ w ∈ after, closes k w = true) ∨ v.now + L.windowMs ≤ s'.clock ∨
      s'.loginFailures.entries.get? k =
        some ⟨wrongPasswords (fun t => t < v.now + L.windowMs) k (v :: after),
          v.now + L.windowMs⟩ := by
  rw [hq.history] at hsplit
  rcases hs.running before v after k hsplit hk with hclosed | hover | hentry
  · exact .inl hclosed
  · exact .inr (.inl (hover.trans hq.clock))
  · by_cases hover : v.now + L.windowMs ≤ s'.clock
    · exact .inr (.inl hover)
    · exact .inr (.inr (hq.keeps k _ hentry (Nat.lt_of_not_le hover)))

theorem Quiet.bounded {s s' : LoginSystem} (hq : Quiet s s') (hs : Budgeted L s) :
    GuessesBounded L s' := by
  intro before v after k hsplit
  exact hs.bounded before v after k (hq.history ▸ hsplit)

/-- The bound follows for a window that the last verification left open. -/
theorem bounded_concat {s s' : LoginSystem} (hr : Recorded L s) (hs : Budgeted L s)
    {x : Verification} (hhistory : s'.history = s.history ++ [x]) (hx : x.verifiedAt = s'.clock)
    (hrunning : ∀ before v after k, s'.history = before ++ v :: after → k ∈ v.opened →
      (∃ w ∈ after, closes k w = true) ∨ v.now + L.windowMs ≤ s'.clock ∨
        s'.loginFailures.entries.get? k =
          some ⟨wrongPasswords (fun t => t < v.now + L.windowMs) k (v :: after),
            v.now + L.windowMs⟩)
    (hbudget : ∀ k, liveFailures s' k + inFlight s' k ≤ L.maxFailures) : GuessesBounded L s' := by
  intro before v after k hsplit hk
  have hlate : v.now + L.windowMs ≤ s'.clock →
      wrongPasswords (fun t => t < v.now + L.windowMs) k [x] = 0 := by
    intro hover
    refine wrongPasswords_singleton_eq_zero (.inl ?_)
    rw [hx]
    exact decide_eq_false (Nat.not_lt.mpr hover)
  rcases concat_eq_split (hhistory.symm.trans hsplit) with ⟨rest, rfl, hprior⟩ | ⟨rfl, rfl, -⟩
  · have hbound := hs.bounded before v rest k hprior hk
    have hv : closes k v = false := not_closes_of_opened hr (by rw [hprior]; simp) hk
    by_cases hclosed : ∃ w ∈ v :: rest, closes k w = true
    · rwa [← List.cons_append, wrongPasswords_of_closes hclosed]
    · have hopen : ∀ w ∈ v :: rest, closes k w = false := by simpa using hclosed
      by_cases hover : v.now + L.windowMs ≤ s'.clock
      · rwa [← List.cons_append, wrongPasswords_concat hopen, hlate hover]
      · rcases hrunning before v (rest ++ [x]) k hsplit hk with ⟨w, hw, hwc⟩ | hover' | hentry
        · rcases List.mem_snoc.mp hw with hw | rfl
          · exact absurd hwc (by rw [hopen w (List.mem_cons_of_mem _ hw)]; decide)
          · have hzero : wrongPasswords (fun t => t < v.now + L.windowMs) k [w] = 0 := by
              obtain ⟨hcorrect, hmem⟩ := Bool.and_eq_true_iff.mp hwc
              simp only [wrongPasswords, hmem, hcorrect, if_true]
            rwa [← List.cons_append, wrongPasswords_concat hopen, hzero]
        · exact absurd hover' hover
        · have hlive := le_liveFailures hentry (Nat.lt_of_not_le hover)
          have := hbudget k
          dsimp only at hlive
          omega
  · rcases hrunning before v [] k hsplit hk with ⟨w, hw, -⟩ | hover | hentry
    · cases hw
    · rw [hlate hover]
      exact Nat.zero_le _
    · by_cases hover : v.now + L.windowMs ≤ s'.clock
      · rw [hlate hover]
        exact Nat.zero_le _
      · have hlive := le_liveFailures hentry (Nat.lt_of_not_le hover)
        have := hbudget k
        dsimp only at hlive
        omega

/-- The tracker after a correct login has no entry for its keys, and all others. -/
theorem budgeted_correct {s : LoginSystem} (hr : Recorded L s) (hs : Budgeted L s) {i : Nat}
    {a : Attempt} {user : Option AccessUserRecord}
    (haccepted : accepted env a.password user = true) :
    Budgeted L (finishAttempt env L { s with attempts := s.attempts.eraseIdx i } a user) := by
  rw [finishAttempt, if_pos haccepted]
  have hentry : ∀ k, (clear s.loginFailures a.keys).entries.get? k =
      if k ∈ a.keys then none else s.loginFailures.entries.get? k := foldl_erase_get? a.keys
  refine (fun hrunning hbudget => ⟨hrunning, hbudget, bounded_concat hr hs rfl rfl hrunning hbudget⟩)
    ?_ ?_
  · intro before v after k hsplit hk
    rcases concat_eq_split hsplit with ⟨rest, rfl, hprior⟩ | ⟨-, rfl, -⟩
    · rcases hs.running before v rest k hprior hk with ⟨w, hw, hwc⟩ | hover | hold
      · exact .inl ⟨w, List.mem_append_left _ hw, hwc⟩
      · exact .inr (.inl hover)
      · by_cases hclosed : ∃ w ∈ rest, closes k w = true
        · obtain ⟨w, hw, hwc⟩ := hclosed
          exact .inl ⟨w, List.mem_append_left _ hw, hwc⟩
        by_cases hmem : k ∈ a.keys
        · exact .inl ⟨_, List.mem_append_right _ List.mem_cons_self, by simp [closes, hmem]⟩
        · have hopen : ∀ w ∈ v :: rest, closes k w = false := by
            intro w hw
            rcases List.mem_cons.mp hw with rfl | hw
            · exact not_closes_of_opened hr (by rw [hprior]; simp) hk
            · exact Bool.eq_false_iff.mpr fun h => hclosed ⟨w, hw, h⟩
          refine .inr (.inr ?_)
          rw [hentry, if_neg hmem, hold, ← List.cons_append, wrongPasswords_concat hopen,
            wrongPasswords_singleton_eq_zero (.inr hmem), Nat.add_zero]
    · cases hk
  · intro k
    have hflight : inFlight { s with attempts := s.attempts.eraseIdx i } k ≤ inFlight s k :=
      inFlight_le k ((List.eraseIdx_sublist _ _).map _)
    have hlive : liveFailures { s with loginFailures := clear s.loginFailures a.keys } k ≤
        liveFailures s k := by
      refine liveFailures_le fun e he hlt => ?_
      rw [show _ = _ from hentry k] at he
      split at he
      · cases he
      · exact le_liveFailures he hlt
    exact (Nat.add_le_add hlive hflight).trans (hs.budget k)

/-- A failure adds one to the entries of its keys that run, or opens their windows. -/
theorem budgeted_wrong {s : LoginSystem} (hr : Recorded L s) (hs : Budgeted L s) {i : Nat}
    {a : Attempt} (hi : s.attempts[i]? = some a) {user : Option AccessUserRecord}
    (hrefused : accepted env a.password user = false) {U : List Key} (hU : U.length < L.maxKeys)
    (hkeys : a.keys ⊆ U) (htracker : s.loginFailures.entries.keys ⊆ U) :
    Budgeted L (finishAttempt env L { s with attempts := s.attempts.eraseIdx i } a user) := by
  have horigin : a.origin ∈ s.attempts.map Attempt.origin :=
    List.mem_map_of_mem (List.mem_of_getElem? hi)
  have hpast : a.now ≤ s.clock := hr.past _ horigin
  have hswept : (sweep s.loginFailures a.now).entries.keys ⊆ U := by
    intro k hk
    obtain ⟨e, he⟩ := OrderedMap.mem_keys.mp hk
    exact htracker (OrderedMap.mem_keys.mpr ⟨e, sweep_get? he⟩)
  have hentry : ∀ k, (record L s.loginFailures a.keys a.now).entries.get? k =
      if k ∈ a.keys then some (counted L a.now ((sweep s.loginFailures a.now).entries.get? k))
      else (sweep s.loginFailures a.now).entries.get? k :=
    foldl_recordKey_fits hU (hr.nodup _ horigin) hkeys hswept
  rw [finishAttempt, if_neg (by rw [hrefused]; decide)]
  refine (fun hrunning hbudget => ⟨hrunning, hbudget, bounded_concat hr hs rfl rfl hrunning hbudget⟩)
    ?_ ?_
  · intro before v after k hsplit hk
    by_cases hover : v.now + L.windowMs ≤ s.clock
    · exact .inr (.inl hover)
    have hlive : s.clock < v.now + L.windowMs := Nat.lt_of_not_le hover
    rcases concat_eq_split hsplit with ⟨rest, rfl, hprior⟩ | ⟨rfl, rfl, -⟩
    · rcases hs.running before v rest k hprior hk with ⟨w, hw, hwc⟩ | hover' | hold
      · exact .inl ⟨w, List.mem_append_left _ hw, hwc⟩
      · exact .inr (.inl hover')
      · by_cases hclosed : ∃ w ∈ rest, closes k w = true
        · obtain ⟨w, hw, hwc⟩ := hclosed
          exact .inl ⟨w, List.mem_append_left _ hw, hwc⟩
        have hopen : ∀ w ∈ v :: rest, closes k w = false := by
          intro w hw
          rcases List.mem_cons.mp hw with rfl | hw
          · exact not_closes_of_opened hr (by rw [hprior]; simp) hk
          · exact Bool.eq_false_iff.mpr fun h => hclosed ⟨w, hw, h⟩
        have hkept := sweep_get?_of_lt hold (hpast.trans_lt hlive)
        refine .inr (.inr ?_)
        rw [hentry, hkept, ← List.cons_append, wrongPasswords_concat hopen]
        by_cases hmem : k ∈ a.keys
        · have hone := wrongPasswords_singleton_eq_one (k := k)
            (p := fun t => t < v.now + L.windowMs)
            (v := ⟨a.keys, s.clock, a.now, false,
              openedKeys (record L s.loginFailures a.keys a.now) a.keys⟩)
            (decide_eq_true hlive) hmem rfl
          rw [if_pos hmem, hone]
          simp only [counted, hpast.trans_lt hlive, if_true]
        · rw [if_neg hmem, wrongPasswords_singleton_eq_zero (.inr hmem), Nat.add_zero]
    · obtain ⟨hmem, e, he, hcount⟩ := mem_openedKeys hk
      have hone := wrongPasswords_singleton_eq_one (k := k) (p := fun t => t < a.now + L.windowMs)
        (v := ⟨a.keys, s.clock, a.now, false,
          openedKeys (record L s.loginFailures a.keys a.now) a.keys⟩)
        (decide_eq_true hlive) hmem rfl
      refine .inr (.inr ?_)
      have hfresh : e = ⟨1, a.now + L.windowMs⟩ := by
        have he' := he
        rw [hentry, if_pos hmem] at he'
        obtain rfl := Option.some.inj he'
        cases hold : (sweep s.loginFailures a.now).entries.get? k with
        | none => rfl
        | some old =>
            have hpos := (hr.windows k old (sweep_get? hold)).pos hr
            rw [hold] at hcount
            simp only [counted] at hcount ⊢
            split
            · next hlt =>
              rw [if_pos hlt] at hcount
              dsimp only at hcount
              omega
            · rfl
      rw [he, hfresh]
      exact congrArg (fun n => some (FailureEntry.mk n _)) hone.symm
  · intro k
    have hflight : inFlight { s with attempts := s.attempts.eraseIdx i } k ≤ inFlight s k :=
      inFlight_le k ((List.eraseIdx_sublist _ _).map _)
    have hbudget := hs.budget k
    by_cases hmem : k ∈ a.keys
    · have hended := inFlight_eraseIdx hi hmem
      have hlive : liveFailures { s with loginFailures := record L s.loginFailures a.keys a.now } k ≤
          liveFailures s k + 1 := by
        refine liveFailures_le fun e he hlt => ?_
        rw [show _ = _ from hentry k, if_pos hmem] at he
        obtain rfl := Option.some.inj he
        cases hold : (sweep s.loginFailures a.now).entries.get? k with
        | none => exact Nat.le_add_left _ _
        | some old =>
            rw [hold] at hlt
            simp only [counted] at hlt ⊢
            split
            · next h =>
              rw [if_pos h] at hlt
              exact Nat.succ_le_succ (le_liveFailures (sweep_get? hold) hlt)
            · exact Nat.le_add_left _ _
      change liveFailures { s with loginFailures := record L s.loginFailures a.keys a.now } k +
        inFlight { s with attempts := s.attempts.eraseIdx i } k ≤ L.maxFailures
      change inFlight { s with attempts := s.attempts.eraseIdx i } k + 1 = inFlight s k at hended
      omega
    · have hlive : liveFailures { s with loginFailures := record L s.loginFailures a.keys a.now } k ≤
          liveFailures s k := by
        refine liveFailures_le fun e he hlt => ?_
        rw [show _ = _ from hentry k, if_neg hmem] at he
        exact le_liveFailures (sweep_get? he) hlt
      exact (Nat.add_le_add hlive hflight).trans hbudget

/-- The condition of the runs in which guessing is bounded. -/
def CountsInFlight (env : LoginEnv) (L : TrackerLimits) (s : LoginSystem) (a : LoginAction) : Prop :=
  KeysFit env L s a ∧ Admits env L s a

instance : ∀ s a, Decidable (CountsInFlight env L s a) :=
  fun _ _ => inferInstanceAs (Decidable (_ ∧ _))

theorem budgeted_step {s s' : LoginSystem} {a : LoginAction} (hr : Recorded L s)
    (hs : Budgeted L s) (hcond : CountsInFlight env L s a) (h : loginStep env L s a = some s') :
    Budgeted L s' := by
  rcases loginStep_cases h with ⟨hq, hsub⟩ |
    ⟨siteId, ip, usernameInput, passwordInput, rfl, hq, -, hstatus, hattempts⟩ |
    ⟨i, attempt, user, hi, rfl⟩
  · exact ⟨hq.running hs, fun k => (Nat.add_le_add (hq.liveFailures_le k)
      (inFlight_le k hsub)).trans (hs.budget k), hq.bounded hs⟩
  · refine ⟨hq.running hs, fun k => ?_, hq.bounded hs⟩
    have hlive := hq.liveFailures_le k
    have hflight : inFlight s' k = inFlight s k +
        if (callKeys env siteId ip usernameInput).contains k then 1 else 0 := by
      rw [inFlight, hattempts, List.countP_append, List.countP_singleton]
      rfl
    by_cases hk : k ∈ callKeys env siteId ip usernameInput
    · have hadmits := hcond.2 hstatus k hk
      rw [if_pos (List.contains_iff_mem.mpr hk)] at hflight
      omega
    · have hbudget := hs.budget k
      rw [if_neg (by simpa using hk)] at hflight
      omega
  · have hused : ∀ k, k ∈ s.loginFailures.entries.keys ∨ k ∈ attempt.keys →
        k ∈ keysInUse env s a := by
      intro k hk
      refine List.mem_dedup.mpr (List.mem_append_left _ (List.mem_append.mpr ?_))
      exact hk.imp_right fun hk =>
        List.mem_flatMap.mpr ⟨attempt, List.mem_of_getElem? hi, hk⟩
    by_cases haccepted : accepted env attempt.password user = true
    · exact budgeted_correct hr hs haccepted
    · exact budgeted_wrong hr hs hi (Bool.eq_false_iff.mpr haccepted) hcond.1
        (fun k hk => hused k (.inr hk)) fun k hk => hused k (.inl hk)

theorem budgeted_reach (hmax : 1 ≤ L.maxKeys) {s : LoginSystem}
    (h : Reach (loginStep env L) (CountsInFlight env L) LoginSystem.Initial s) : Budgeted L s :=
  h.invariant (fun _ => budgeted_initial) fun _ _ _ hr hs hc hstep =>
    budgeted_step (recorded_reach hmax hr) hs hc hstep

/-! ## Guessing is bounded -/

/-- Where attempts in flight count, a window has at most `maxFailures` wrong passwords. On
every run the tracker stays within `maxKeys`, and a refused attempt has a key with
`maxFailures` recorded failures in a window that runs. -/
theorem password_guessing_bounded (hmax : 1 ≤ L.maxKeys) :
    (∀ s, Reach (loginStep env L) (CountsInFlight env L) LoginSystem.Initial s →
      GuessesBounded L s) ∧
    ∀ s, Reach (loginStep env L) Any LoginSystem.Initial s →
      s.loginFailures.entries.size ≤ L.maxKeys ∧
      ∀ siteId ip usernameInput,
        0 < (status L s.loginFailures (callKeys env siteId ip usernameInput) s.clock).1 →
          ∃ k ∈ callKeys env siteId ip usernameInput, ∃ resetAt recorded,
            CurrentWindow L s.history k resetAt recorded ∧ s.clock < resetAt ∧
              L.maxFailures ≤ recorded := by
  refine ⟨fun s h => (budgeted_reach hmax h).bounded, fun s h => ?_⟩
  have hr := recorded_reach hmax h
  refine ⟨hr.size, fun siteId ip usernameInput hrefused => ?_⟩
  have hpos : 0 < (statusFrom L s.clock 0 s.loginFailures.entries
    (callKeys env siteId ip usernameInput)).1 := hrefused
  obtain ⟨k, hk, e, he, hlive, hcount⟩ := statusFrom_refuses hpos
  exact ⟨k, hk, e.resetAt, e.count, hr.windows k e he, hlive, hcount⟩

section Attack

/-- `verify` is true of equal texts here, and the hash of no password is the dummy's. -/
def plainEnv : LoginEnv where
  toLowerCase cs := cs.map Char.toLower
  passwordVerify password hash := password = hash
  dummyHash := "dummy".toList

def guess (password : String) : LoginAction :=
  .call "s1".toList "203.0.113.9".toList (.string "admin".toList) (.string password.toList)

def answered : List LoginAction :=
  [.lookedUp 0 (some { passwordHash := "secret".toList, enabled := 1 }), .verified 0]

/-- Eight attempts one after another, the ninth one refused. -/
def sequentialGuesses : List LoginAction :=
  (List.replicate 8 (guess "wrong" :: answered)).flatten ++ [guess "wrong"]

/-- Nine attempts that all pass the check before the first of them is verified. -/
def parallelGuesses : List LoginAction :=
  List.replicate 9 (guess "wrong") ++ (List.replicate 9 answered).flatten

def LoginSystem.start : LoginSystem := ⟨0, .new, [], []⟩

theorem start_initial : LoginSystem.start.Initial := ⟨rfl, rfl, rfl⟩

/-- How many wrong passwords for `k` the history has from its first verification on. -/
def firstWindowGuesses (L : TrackerLimits) (s : LoginSystem) (k : Key) : Nat :=
  match s.history with
  | [] => 0
  | v :: after =>
      if v.opened.contains k then wrongPasswords (fun t => t < v.now + L.windowMs) k (v :: after)
      else 0

theorem firstWindowGuesses_le {s : LoginSystem} (h : GuessesBounded L s) (k : Key) :
    firstWindowGuesses L s k ≤ L.maxFailures := by
  rw [firstWindowGuesses]
  split
  · exact Nat.zero_le _
  · next v after hhistory =>
    split
    · next hk => exact h [] v after k hhistory (List.contains_iff_mem.mp hk)
    · exact Nat.zero_le _

theorem password_guessing_bounded_sequential :
    ∃ s, execIf (loginStep plainEnv (loginLimits 100)) (CountsInFlight plainEnv (loginLimits 100))
        LoginSystem.start sequentialGuesses = some s ∧ s.history.length = 8 ∧
      GuessesBounded (loginLimits 100) s ∧ s.loginFailures.entries.size ≤ 100 := by
  obtain ⟨s, hs, hlength⟩ := (Option.any_eq_true ..).mp
    (show (execIf (loginStep plainEnv (loginLimits 100)) (CountsInFlight plainEnv (loginLimits 100))
      LoginSystem.start sequentialGuesses).any
      (fun s => s.history.length = 8) = true by decide +kernel)
  have hreach := execIf_reach (.start start_initial) hs
  obtain ⟨hbounded, hrun⟩ :=
    @password_guessing_bounded plainEnv (loginLimits 100) (by decide)
  exact ⟨s, hs, of_decide_eq_true hlength, hbounded s hreach, (hrun s hreach.any).1⟩

theorem parallel_guesses_unbounded :
    ¬ ∀ s, Reach (loginStep plainEnv (loginLimits 100)) (KeysFit plainEnv (loginLimits 100))
      LoginSystem.Initial s → GuessesBounded (loginLimits 100) s := by
  intro h
  obtain ⟨s, hs, hnine⟩ := (Option.any_eq_true ..).mp
    (show (execIf (loginStep plainEnv (loginLimits 100)) (KeysFit plainEnv (loginLimits 100))
      LoginSystem.start parallelGuesses).any
      (fun s => firstWindowGuesses (loginLimits 100) s "site:s1:user:admin".toList = 9)
        = true by decide +kernel)
  have hbound := firstWindowGuesses_le (h s (execIf_reach (.start start_initial) hs))
    "site:s1:user:admin".toList
  rw [of_decide_eq_true hnine] at hbound
  exact absurd hbound (by decide)

end Attack

end BurrowGate.Access
