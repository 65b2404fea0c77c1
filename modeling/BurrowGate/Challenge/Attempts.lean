import BurrowGate.Challenge.InOrder

/-!
# Rejected answers are counted

The rejections of a step are its recorded attempts and those a call has yet to record, and
with the evaluations under way they stay within the limit.
-/

namespace BurrowGate.Challenge

open Lib.Run Lib.Calls Lib.Lists Lib.Table

/-- The call has a rejection of the step to record. -/
def ChallengeCall.failing (id : Nat) : ChallengeCall → Bool
  | .failStepAttempt row => row.id = id
  | _ => false

section Calls

variable {id : Nat} {flow : ChallengeFlowRecord} {row : ChallengeStepRecord}
variable {caller : CurrentStepCaller}

@[simp] theorem failing_evaluate : (ChallengeCall.evaluate flow row).failing id = false := (rfl)

@[simp] theorem failing_insertStep :
    (ChallengeCall.insertStep flow row caller).failing id = false := (rfl)

@[simp] theorem failing_failStepAttempt :
    (ChallengeCall.failStepAttempt row).failing id = decide (row.id = id) := (rfl)

@[simp] theorem failing_done : ChallengeCall.done.failing id = false := (rfl)

@[simp] theorem attempting_evaluate :
    (ChallengeCall.evaluate flow row).attempting id = decide (row.id = id) := rfl

@[simp] theorem attempting_insertStep :
    (ChallengeCall.insertStep flow row caller).attempting id = false := rfl

@[simp] theorem attempting_failStepAttempt :
    (ChallengeCall.failStepAttempt row).attempting id = decide (row.id = id) := rfl

@[simp] theorem attempting_done : ChallengeCall.done.attempting id = false := (rfl)

end Calls

structure Counted (config : ChallengeConfig) (s : ChallengeSystem) : Prop where
  recorded : ∀ row ∈ s.store.steps,
    s.store.rejected.count row.id = row.attempts + s.calls.countP (·.failing row.id)
  room : ∀ row ∈ s.store.steps,
    row.attempts + s.calls.countP (·.attempting row.id) ≤ config.maxChallengeAttempts
  known : ∀ id ∈ s.store.rejected, id ∈ (keys s.store.steps).map Prod.fst

variable {config : ChallengeConfig} {s : ChallengeSystem} {store : ChallengeStore}
variable {i : Nat} {c n : ChallengeCall}

theorem attempting_of_failing {id : Nat} (h : c.failing id = true) : c.attempting id = true := by
  cases c with
  | failStepAttempt row => exact h
  | _ => cases h

theorem Counted.bounded (h : Counted config s) {row : ChallengeStepRecord}
    (hrow : row ∈ s.store.steps) :
    s.store.rejected.count row.id ≤ config.maxChallengeAttempts := by
  have hmono : s.calls.countP (·.failing row.id) ≤ s.calls.countP (·.attempting row.id) :=
    List.countP_mono_left fun _ _ => attempting_of_failing
  have hrecorded := h.recorded row hrow
  have hroom := h.room row hrow
  omega

/-! ## One call goes on -/

/-- A call that neither begins an evaluation nor has one to record goes on. -/
theorem Counted.goOn (h : Counted config s) (hc : s.calls[i]? = some c)
    (hsteps : ∀ row ∈ store.steps, ∃ before ∈ s.store.steps, before.id = row.id ∧
      before.attempts = row.attempts)
    (hkeys : ∀ id ∈ (keys s.store.steps).map Prod.fst, id ∈ (keys store.steps).map Prod.fst)
    (hrejected : store.rejected = s.store.rejected)
    (hfailing : ∀ id, n.failing id = c.failing id)
    (hattempting : ∀ id, n.attempting id = true → c.attempting id = true) :
    Counted config ⟨store, s.calls.set i n⟩ := by
  refine ⟨fun row hrow => ?_, fun row hrow => ?_, ?_⟩
  · obtain ⟨before, hbefore, hid, hattempts⟩ := hsteps row hrow
    have hrecorded := h.recorded before hbefore
    have hcount := countP_set (a := n) (p := (·.failing row.id)) hc
    rw [hfailing row.id] at hcount
    rw [hid, hattempts] at hrecorded
    change store.rejected.count row.id = row.attempts + (s.calls.set i n).countP _
    rw [hrejected]
    omega
  · obtain ⟨before, hbefore, hid, hattempts⟩ := hsteps row hrow
    have hroom := h.room before hbefore
    have hcount := countP_set (a := n) (p := (·.attempting row.id)) hc
    rw [hid, hattempts] at hroom
    change row.attempts + (s.calls.set i n).countP _ ≤ _
    have hle : (if n.attempting row.id = true then 1 else 0) ≤
        if c.attempting row.id = true then 1 else 0 := by
      split
      · rename_i hn
        exact Nat.le_of_eq (if_pos (hattempting row.id hn)).symm
      · exact Nat.zero_le _
    omega
  · rw [hrejected]
    exact fun id hid => hkeys id (h.known id hid)

theorem rows_unique (h : InOrder s) {row row' : ChallengeStepRecord} (hrow : row ∈ s.store.steps)
    (hrow' : row' ∈ s.store.steps) (hid : row.id = row'.id) : row = row' := by
  have hids := h.ids
  rw [keys, List.map_map] at hids
  exact eq_of_key hids hrow hrow' hid

/-- An evaluation begins while there is room for it. -/
theorem Counted.begin (h : Counted config s) (hs : InOrder s) (hc : s.calls[i]? = some c)
    (hfailing : ∀ id, c.failing id = false) (hattempting : ∀ id, c.attempting id = false)
    {flow : ChallengeFlowRecord} {row : ChallengeStepRecord} (hrow : row ∈ s.store.steps)
    (hroom : row.attempts + s.calls.countP (·.attempting row.id) < config.maxChallengeAttempts) :
    Counted config ⟨s.store, s.calls.set i (.evaluate flow row)⟩ := by
  refine ⟨fun other hother => ?_, fun other hother => ?_, h.known⟩
  · have hrecorded := h.recorded other hother
    have hcount := countP_set (a := .evaluate flow row) (p := (·.failing other.id)) hc
    rw [hfailing other.id] at hcount
    change s.store.rejected.count other.id = other.attempts + (s.calls.set i _).countP _
    simp only [failing_evaluate, Bool.false_eq_true, if_false] at hcount
    omega
  · have hbefore := h.room other hother
    have hcount := countP_set (a := .evaluate flow row) (p := (·.attempting other.id)) hc
    rw [hattempting other.id] at hcount
    change other.attempts + (s.calls.set i _).countP _ ≤ _
    by_cases hid : row.id = other.id
    · obtain rfl := rows_unique hs hrow hother hid
      simp only [attempting_evaluate, decide_true, Bool.false_eq_true, if_true, if_false] at hcount
      omega
    · simp only [attempting_evaluate, hid, decide_false, Bool.false_eq_true, if_false] at hcount
      omega

/-- The first evaluation of a step that was just inserted. -/
theorem Counted.insert (h : Counted config s) (hs : InOrder s)
    {flow : ChallengeFlowRecord} {row : ChallengeStepRecord} {caller : CurrentStepCaller}
    (hc : s.calls[i]? = some (.insertStep flow row caller)) :
    Counted config ⟨{ s.store with steps := s.store.steps ++ [row] },
      s.calls.set i (withStep config flow row caller)⟩ := by
  obtain ⟨-, -, -, hattempts, -, hnew⟩ := hs.fits _ (List.mem_of_getElem? hc)
  have hfailing : ∀ id, (withStep config flow row caller).failing id = false := by
    intro id
    cases caller with
    | page => rfl
    | next => rfl
    | verify =>
        rw [withStep]
        split
        · rfl
        · rfl
  have hattempting : ∀ id, (withStep config flow row caller).attempting id = true →
      row.id = id := by
    intro id hid
    cases caller with
    | page => cases hid
    | next => cases hid
    | verify =>
        rw [withStep] at hid
        split at hid
        · cases hid
        · exact of_decide_eq_true hid
  -- no call is at a row that was not there
  have hidle : s.calls.countP (·.attempting row.id) = 0 := by
    refine List.countP_eq_zero.mpr fun d hd hat => hnew ?_
    have hfits := hs.fits d hd
    cases d with
    | evaluate flow' row' =>
        rw [← show row'.id = row.id from of_decide_eq_true hat]
        exact List.mem_map.mpr ⟨_, hfits.2, rfl⟩
    | failStepAttempt row' =>
        rw [← show row'.id = row.id from of_decide_eq_true hat]
        exact hfits
    | _ => cases hat
  have hkeys : (keys (s.store.steps ++ [row])).map Prod.fst =
      (keys s.store.steps).map Prod.fst ++ [row.id] := by
    rw [keys, keys, List.map_append, List.map_append]
    rfl
  refine ⟨fun other hother => ?_, fun other hother => ?_, fun id hid => ?_⟩
  · have hcount := countP_set (a := withStep config flow row caller)
      (p := (·.failing other.id)) hc
    rw [hfailing other.id] at hcount
    change s.store.rejected.count other.id = other.attempts + (s.calls.set i _).countP _
    rcases List.mem_snoc.mp hother with hold | rfl
    · have hrecorded := h.recorded other hold
      simp only [failing_insertStep, Bool.false_eq_true, if_false] at hcount
      omega
    · have hnone : s.store.rejected.count other.id = 0 :=
        List.count_eq_zero.mpr fun hin => hnew (h.known _ hin)
      have hle : s.calls.countP (·.failing other.id) ≤ s.calls.countP (·.attempting other.id) :=
        List.countP_mono_left fun _ _ => attempting_of_failing
      simp only [failing_insertStep, Bool.false_eq_true, if_false] at hcount
      omega
  · have hcount := countP_set (a := withStep config flow row caller)
      (p := (·.attempting other.id)) hc
    change other.attempts + (s.calls.set i _).countP _ ≤ _
    have hmax := config.atLeastOne
    rw [attempting_insertStep] at hcount
    rcases List.mem_snoc.mp hother with hold | rfl
    · have hroom := h.room other hold
      have hne : (withStep config flow row caller).attempting other.id = false := by
        refine Bool.eq_false_iff.mpr fun hat => hnew ?_
        rw [hattempting other.id hat]
        exact List.mem_map.mpr ⟨_, List.mem_map.mpr ⟨other, hold, rfl⟩, rfl⟩
      rw [hne] at hcount
      omega
    · simp only [Bool.false_eq_true, if_false] at hcount
      have hle : (if (withStep config flow other caller).attempting other.id = true then 1 else 0) ≤
          1 := by
        split
        · exact Nat.le_refl _
        · exact Nat.zero_le _
      omega
  · rw [hkeys]
    exact List.mem_append_left _ (h.known id hid)

/-- A rejection is recorded. -/
theorem Counted.fail (h : Counted config s) {row : ChallengeStepRecord}
    (hc : s.calls[i]? = some (.failStepAttempt row)) :
    Counted config ⟨{ s.store with steps := updateStep row.id (·.failed) s.store.steps },
      s.calls.set i .done⟩ := by
  refine ⟨fun other hother => ?_, fun other hother => ?_, fun id hid => ?_⟩
  · have hcount := countP_set (a := ChallengeCall.done) (p := (·.failing other.id)) hc
    change s.store.rejected.count other.id = other.attempts + (s.calls.set i _).countP _
    rcases mem_updateWhere hother with ⟨hold, hne⟩ | ⟨before, hbefore, heq, rfl⟩
    · have hrecorded := h.recorded other hold
      simp only [failing_failStepAttempt, failing_done, Ne.symm hne, decide_false,
        Bool.false_eq_true, if_false] at hcount
      omega
    · have hrecorded := h.recorded before hbefore
      simp only [ChallengeStepRecord.failed, heq, failing_failStepAttempt, failing_done,
        decide_true, Bool.false_eq_true, if_true, if_false] at hcount hrecorded ⊢
      omega
  · have hcount := countP_set (a := ChallengeCall.done) (p := (·.attempting other.id)) hc
    change other.attempts + (s.calls.set i _).countP _ ≤ _
    rcases mem_updateWhere hother with ⟨hold, hne⟩ | ⟨before, hbefore, heq, rfl⟩
    · have hroom := h.room other hold
      simp only [attempting_failStepAttempt, attempting_done, Ne.symm hne, decide_false,
        Bool.false_eq_true, if_false] at hcount
      omega
    · have hroom := h.room before hbefore
      simp only [ChallengeStepRecord.failed, heq, attempting_failStepAttempt, attempting_done,
        decide_true, Bool.false_eq_true, if_true, if_false] at hcount hroom ⊢
      omega
  · rw [keys_updateStep failed_keys]
    exact h.known id hid

/-- An answer is rejected, its call has the rejection to record. -/
theorem Counted.reject (h : Counted config s) (hs : InOrder s) {flow : ChallengeFlowRecord}
    {row : ChallengeStepRecord} (hc : s.calls[i]? = some (.evaluate flow row)) :
    Counted config ⟨{ s.store with rejected := s.store.rejected ++ [row.id] },
      s.calls.set i (.failStepAttempt row)⟩ := by
  refine ⟨fun other hother => ?_, fun other hother => ?_, fun id hid => ?_⟩
  · have hrecorded := h.recorded other hother
    have hcount := countP_set (a := ChallengeCall.failStepAttempt row)
      (p := (·.failing other.id)) hc
    change (s.store.rejected ++ [row.id]).count other.id =
      other.attempts + (s.calls.set i _).countP _
    rw [List.count_append, List.count_singleton]
    simp only [failing_evaluate, failing_failStepAttempt, Bool.false_eq_true, if_false,
      decide_eq_true_eq, beq_iff_eq] at hcount ⊢
    omega
  · have hroom := h.room other hother
    have hcount := countP_set (a := ChallengeCall.failStepAttempt row)
      (p := (·.attempting other.id)) hc
    change other.attempts + (s.calls.set i _).countP _ ≤ _
    rw [attempting_failStepAttempt, attempting_evaluate] at hcount
    omega
  · rcases List.mem_snoc.mp hid with hold | hlast
    · exact h.known id hold
    · rw [hlast]
      exact List.mem_map.mpr ⟨_, (hs.fits _ (List.mem_of_getElem? hc)).2, rfl⟩

/-! ## One step -/

theorem not_failing_of_attempting (h : ∀ id, c.attempting id = false) (id : Nat) :
    c.failing id = false := by
  cases hf : c.failing id with
  | false => rfl
  | true =>
      have hat := attempting_of_failing hf
      rw [h id] at hat
      cases hat

/-- A call goes on outside of an evaluation. -/
theorem Counted.quiet (h : Counted config s) (hc : s.calls[i]? = some c)
    (hsteps : store.steps = s.store.steps) (hrejected : store.rejected = s.store.rejected)
    (hca : ∀ id, c.attempting id = false) (hna : ∀ id, n.attempting id = false) :
    Counted config ⟨store, s.calls.set i n⟩ := by
  refine h.goOn hc ?_ ?_ hrejected (fun id => ?_) fun id hid => ?_
  · rw [hsteps]
    exact fun row hrow => ⟨row, hrow, rfl, rfl⟩
  · rw [hsteps]
    exact fun _ hid => hid
  · rw [not_failing_of_attempting hca, not_failing_of_attempting hna]
  · rw [hna] at hid
    cases hid

theorem Counted.resolve (h : Counted config s) (hs : InOrder s) (hc : s.calls[i]? = some c)
    (ha : answersInTime config s c .resolves = true)
    (hstep : resolveCall config s.store c = some (store, n)) :
    Counted config ⟨store, s.calls.set i n⟩ := by
  cases c with
  | flow caller =>
      rw [resolveCall] at hstep
      split at hstep
      · obtain ⟨rfl, rfl⟩ := Prod.mk.inj (Option.some.inj hstep)
        exact h.quiet hc rfl rfl (fun _ => rfl) fun _ => rfl
      · obtain ⟨rfl, rfl⟩ := Prod.mk.inj (Option.some.inj hstep)
        split
        · exact h.quiet hc rfl rfl (fun _ => rfl) fun _ => rfl
        · exact h.quiet hc rfl rfl (fun _ => rfl) fun _ => rfl
  | site | create | updateFlowStep | completeFlow | createAccessSession =>
      obtain ⟨rfl, rfl⟩ := Prod.mk.inj (Option.some.inj hstep)
      exact h.quiet hc rfl rfl (fun _ => rfl) fun _ => rfl
  | step flow caller =>
      obtain ⟨rfl, rfl⟩ := Prod.mk.inj (Option.some.inj hstep)
      cases hfound : stepAt s.store.steps flow.currentStep with
      | some existing =>
          cases caller with
          | page => exact h.quiet hc rfl rfl (fun _ => rfl) fun _ => rfl
          | next => exact h.quiet hc rfl rfl (fun _ => rfl) fun _ => rfl
          | verify =>
              rw [answersInTime, hfound, Option.all_some, Bool.or_eq_true, decide_eq_true_eq,
                decide_eq_true_eq] at ha
              change Counted config ⟨s.store, s.calls.set i (withStep config flow existing .verify)⟩
              rw [withStep]
              split
              · exact h.quiet hc rfl rfl (fun _ => rfl) fun _ => rfl
              · rename_i hattempts
                exact h.begin hs hc (fun _ => rfl) (fun _ => rfl)
                  (List.mem_of_find?_eq_some hfound) (ha.resolve_right hattempts)
      | none =>
          cases hspec : flow.policy[flow.currentStep]? with
          | none => exact h.quiet hc rfl rfl (fun _ => rfl) fun _ => rfl
          | some spec => exact h.quiet hc rfl rfl (fun _ => rfl) fun _ => rfl
  | insertStep flow row caller =>
      rw [resolveCall] at hstep
      split at hstep
      · obtain ⟨rfl, rfl⟩ := Prod.mk.inj (Option.some.inj hstep)
        exact h.quiet hc rfl rfl (fun _ => rfl) fun _ => rfl
      · obtain ⟨rfl, rfl⟩ := Prod.mk.inj (Option.some.inj hstep)
        exact h.insert hs hc
  | evaluate flow row => cases hstep
  | failStepAttempt row =>
      obtain ⟨rfl, rfl⟩ := Prod.mk.inj (Option.some.inj hstep)
      exact h.fail hc
  | consumeStep flow row consumedAt =>
      rw [resolveCall] at hstep
      split at hstep
      · obtain ⟨rfl, rfl⟩ := Prod.mk.inj (Option.some.inj hstep)
        exact h.quiet hc rfl rfl (fun _ => rfl) fun _ => rfl
      · obtain ⟨rfl, rfl⟩ := Prod.mk.inj (Option.some.inj hstep)
        exact h.quiet hc rfl rfl (fun _ => rfl) fun _ => rfl
  | completeStep flow row consumedAt =>
      obtain ⟨rfl, rfl⟩ := Prod.mk.inj (Option.some.inj hstep)
      refine h.goOn hc (fun other hother => ?_) (fun id hid => ?_) rfl (fun id => ?_)
        fun id hid => ?_
      · rcases mem_updateWhere hother with ⟨hold, -⟩ | ⟨before, hbefore, -, rfl⟩
        · exact ⟨other, hold, rfl, rfl⟩
        · refine ⟨before, hbefore, (completed_keys consumedAt before).1.symm, ?_⟩
          rw [ChallengeStepRecord.completed]
          split
          · rfl
          · rfl
      · rw [keys_updateStep (completed_keys consumedAt)]
        exact hid
      · split
        · rfl
        · rfl
      · split at hid
        · exact hid
        · exact hid
  | done => cases hstep

theorem Counted.step {t : ChallengeSystem} {a : ChallengeAction} (h : Counted config s)
    (hs : InOrder s) (ha : AnswersInTime config s a) (hstep : challengeStep config s a = some t) :
    Counted config t := by
  cases a with
  | start c =>
      rw [challengeStep, Lib.Calls.step] at hstep
      split at hstep
      · rename_i hstarts
        obtain rfl := Option.some.inj hstep
        have hidle : ∀ id, c.attempting id = false := by
          intro id
          rw [startsFlow, Bool.or_eq_true, decide_eq_true_eq, decide_eq_true_eq] at hstarts
          rcases hstarts with rfl | rfl
          · rfl
          · rfl
        refine ⟨fun row hrow => ?_, fun row hrow => ?_, h.known⟩
        · change _ = _ + (s.calls ++ [c]).countP _
          rw [List.countP_append, List.countP_singleton, not_failing_of_attempting hidle]
          exact h.recorded row hrow
        · change _ + (s.calls ++ [c]).countP _ ≤ _
          rw [List.countP_append, List.countP_singleton, hidle]
          exact h.room row hrow
      · cases hstep
  | world ms =>
      obtain rfl := Option.some.inj hstep
      exact ⟨h.recorded, h.room, h.known⟩
  | call i e =>
      obtain ⟨c, hc, hrest⟩ := Option.bind_eq_some_iff.mp hstep
      obtain ⟨⟨store, n⟩, hcall, rfl⟩ := Option.map_eq_some_iff.mp hrest
      rw [AnswersInTime, hc, Option.all_some] at ha
      cases e with
      | resolves => exact h.resolve hs hc ha hcall
      | verified success =>
          cases c with
          | evaluate flow row =>
              rw [challengeCall, answerCall] at hcall
              split at hcall
              · obtain ⟨rfl, rfl⟩ := Prod.mk.inj (Option.some.inj hcall)
                exact h.goOn hc (fun row hrow => ⟨row, hrow, rfl, rfl⟩) (fun _ hid => hid) rfl
                  (fun _ => rfl) fun _ hid => (by cases hid)
              · obtain ⟨rfl, rfl⟩ := Prod.mk.inj (Option.some.inj hcall)
                exact h.reject hs hc
          | _ => cases hcall
      | throws =>
          rw [challengeCall] at hcall
          split at hcall
          · cases hcall
          · obtain ⟨rfl, rfl⟩ := Prod.mk.inj (Option.some.inj hcall)
            refine h.goOn hc (fun row hrow => ⟨row, hrow, rfl, rfl⟩) (fun _ hid => hid) rfl
              (fun id => ?_) fun id hid => (by cases hid)
            cases c with
            | failStepAttempt row => cases ha
            | _ => rfl

/-- In a run that meets the condition every rejection is counted. -/
theorem counted_of_reach (h : Reach (challengeStep config) (AnswersInTime config) StartsFlow s) :
    Counted config s := by
  refine h.invariant (fun s hstart => ?_) fun s a t hreach hs ha hstep =>
    hs.step (inOrder_of_reach hreach) ha hstep
  obtain ⟨-, -, ⟨hsteps, -, -⟩, ⟨-, hrejected⟩, -⟩ := hstart
  refine ⟨?_, ?_, ?_⟩
  · rw [hsteps]
    exact fun _ hrow => (by cases hrow)
  · rw [hsteps]
    exact fun _ hrow => (by cases hrow)
  · rw [hrejected]
    exact fun _ hid => (by cases hid)

end BurrowGate.Challenge
