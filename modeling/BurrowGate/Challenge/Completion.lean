import BurrowGate.Challenge.Attempts

/-!
# A flow can be completed

From a flow at a step that is not used up, one new call after the other completes the
remaining steps alone. A call that has consumed a step first moves the flow on.
-/

namespace BurrowGate.Challenge

open Lib.Run Lib.Calls Lib.Lists

variable {config : ChallengeConfig} {s : ChallengeSystem} {store : ChallengeStore}
variable {i : Nat} {c n : ChallengeCall}

/-! ## One step alone -/

/-- A new call can complete the current step. -/
structure Ready (config : ChallengeConfig) (store : ChallengeStore) : Prop where
  pending : store.flow.status = .pending
  inTime : store.now < store.flow.expiresAt
  more : store.flow.currentStep < store.flow.policy.length
  current : ∀ row, stepAt store.steps store.flow.currentStep = some row →
    row.attempts < config.maxChallengeAttempts ∧
      store.consumptions.any (·.stepId = row.id) = false
  reached : ∀ row ∈ store.steps, row.stepIndex ≤ store.flow.currentStep ∧ row.id < store.nextId
  fresh : ∀ a ∈ store.consumptions, a.stepId < store.nextId

/-- The store while an answer for the current step is evaluated. -/
structure Evaluating (config : ChallengeConfig) (store before : ChallengeStore)
    (row : ChallengeStepRecord) : Prop where
  flow : store.flow = before.flow
  sessions : store.sessions = before.sessions
  now : store.now = before.now
  free : store.consumptions.any (·.stepId = row.id) = false
  rowId : row.id < store.nextId
  reached : ∀ row ∈ store.steps, row.stepIndex ≤ store.flow.currentStep ∧ row.id < store.nextId
  fresh : ∀ a ∈ store.consumptions, a.stepId < store.nextId

theorem withStep_verify {flow : ChallengeFlowRecord} {row : ChallengeStepRecord}
    (h : row.attempts < config.maxChallengeAttempts) :
    withStep config flow row .verify = .evaluate flow row := by
  rw [withStep, if_neg (Nat.not_le.mpr h)]

/-- A call of `verifyFlow` that runs alone comes to evaluate its answer. -/
theorem Ready.evaluates (h : Ready config store) :
    ∃ events after row, run (challengeCall config) store (.flow .verify) events =
      some (after, .evaluate store.flow row) ∧ Evaluating config after store row := by
  have hflow : challengeCall config store (.flow .verify) .resolves =
      some (store, .site store.flow) := by
    rw [challengeCall, resolveCall]
    have hopen : ¬(store.flow.status ≠ .pending ∨ store.flow.expiresAt ≤ store.now) := by
      rintro (hstatus | hle)
      · exact hstatus h.pending
      · exact Nat.not_le.mpr h.inTime hle
    rw [if_neg hopen, if_pos rfl]
  cases hfound : stepAt store.steps store.flow.currentStep with
  | some row =>
      obtain ⟨hattempts, hfree⟩ := h.current row hfound
      have hrow := List.mem_of_find?_eq_some hfound
      refine ⟨[.resolves, .resolves, .resolves], store, row, ?_,
        ⟨rfl, rfl, rfl, hfree, (h.reached row hrow).2, h.reached, h.fresh⟩⟩
      have hread : challengeCall config store (.step store.flow .verify) .resolves =
          some (store, .evaluate store.flow row) := by
        rw [challengeCall, resolveCall, hfound]
        exact congrArg (fun call => some (store, call)) (withStep_verify hattempts)
      exact (run_cons hflow).trans ((run_cons rfl).trans (run_cons hread))
  | none =>
      obtain ⟨spec, hspec⟩ : ∃ spec, store.flow.policy[store.flow.currentStep]? = some spec :=
        ⟨_, List.getElem?_eq_getElem h.more⟩
      let row := newStep store store.flow spec
      let created : ChallengeStore := { store with nextId := store.nextId + 1 }
      let inserted : ChallengeStore := { created with steps := store.steps ++ [row] }
      have hattempts : row.attempts < config.maxChallengeAttempts := config.atLeastOne
      have hinsert : challengeCall config created (.insertStep store.flow row .verify) .resolves =
          some (inserted, .evaluate store.flow row) := by
        have hnone : ¬(stepAt created.steps row.stepIndex).isSome = true := by
          rw [show stepAt created.steps row.stepIndex = none from hfound]
          exact Bool.false_ne_true
        rw [challengeCall, resolveCall, if_neg hnone, withStep_verify hattempts]
      refine ⟨[.resolves, .resolves, .resolves, .resolves, .resolves], inserted, row, ?_,
        ⟨rfl, rfl, rfl, ?_, Nat.lt_succ_self _, fun other hother => ?_,
          fun a ha => Nat.lt_succ_of_lt (h.fresh a ha)⟩⟩
      · have hread : challengeCall config store (.step store.flow .verify) .resolves =
            some (store, .create store.flow spec .verify) := by
          rw [challengeCall, resolveCall, hfound, hspec]
          rfl
        exact (run_cons hflow).trans ((run_cons rfl).trans ((run_cons hread).trans
          ((run_cons rfl).trans (run_cons hinsert))))
      · refine List.any_eq_false.mpr fun a ha heq => ?_
        have hid : a.stepId = store.nextId := of_decide_eq_true heq
        exact Nat.lt_irrefl _ (hid ▸ h.fresh a ha)
      · rcases List.mem_snoc.mp hother with hold | rfl
        · exact ⟨(h.reached other hold).1, Nat.lt_succ_of_lt (h.reached other hold).2⟩
        · exact ⟨Nat.le_refl _, Nat.lt_succ_self _⟩

/-- The store after the answer was accepted and the step consumed and completed. -/
def consumedStore (store : ChallengeStore) (row : ChallengeStepRecord) : ChallengeStore :=
  { store with
    accepted := store.accepted ++ [⟨row.id, store.now⟩]
    consumptions := store.consumptions ++ [⟨row.id, store.now⟩]
    steps := updateStep row.id (·.completed store.now) store.steps }

theorem run_consumes {flow : ChallengeFlowRecord} {row : ChallengeStepRecord}
    (hfree : store.consumptions.any (·.stepId = row.id) = false) :
    run (challengeCall config) store (.evaluate flow row) [.verified true, .resolves, .resolves] =
      some (consumedStore store row, if flow.currentStep + 1 < flow.policy.length
        then .updateFlowStep flow else .completeFlow flow) := by
  let accepted : ChallengeStore :=
    { store with accepted := store.accepted ++ [⟨row.id, store.now⟩] }
  let consumed : ChallengeStore :=
    { accepted with consumptions := store.consumptions ++ [⟨row.id, store.now⟩] }
  have hconsume : challengeCall config accepted (.consumeStep flow row store.now) .resolves =
      some (consumed, .completeStep flow row store.now) := by
    have hopen : ¬accepted.consumptions.any (·.stepId = row.id) = true := by
      rw [show accepted.consumptions.any (·.stepId = row.id) = false from hfree]
      exact Bool.false_ne_true
    rw [challengeCall, resolveCall, if_neg hopen]
  have hcomplete : challengeCall config consumed (.completeStep flow row store.now) .resolves =
      some (consumedStore store row, if flow.currentStep + 1 < flow.policy.length
        then .updateFlowStep flow else .completeFlow flow) := rfl
  exact (run_cons rfl).trans ((run_cons hconsume).trans (run_cons hcomplete))

/-- The call completes the current step: the next one is ready, or there is a session. -/
theorem Ready.completes (h : Ready config store) :
    ∃ events after n, run (challengeCall config) store (.flow .verify) events = some (after, n) ∧
      (after.sessions ≠ [] ∨ (Ready config after ∧ after.flow.policy = store.flow.policy ∧
        after.flow.currentStep = store.flow.currentStep + 1)) := by
  obtain ⟨events, before, row, hevents, hat⟩ := h.evaluates
  have hconsumes : run (challengeCall config) before (.evaluate store.flow row)
      [.verified true, .resolves, .resolves] = _ := run_consumes hat.free
  by_cases hmore : store.flow.currentStep + 1 < store.flow.policy.length
  · rw [if_pos hmore] at hconsumes
    refine ⟨events ++
      ([ChallengeEvent.verified true, .resolves, .resolves] ++ [ChallengeEvent.resolves]), _, _,
      (run_append _ hevents).trans ((run_append _ hconsumes).trans rfl), .inr ⟨?_, ?_, rfl⟩⟩
    · refine ⟨?_, ?_, ?_, fun other hother => ?_, fun other hother => ?_, fun a ha => ?_⟩
      · exact (congrArg _ hat.flow).trans h.pending
      · change before.now < before.flow.expiresAt
        rw [hat.now, hat.flow]
        exact h.inTime
      · change store.flow.currentStep + 1 < before.flow.policy.length
        rw [hat.flow]
        exact hmore
      · -- the rows are those up to the step that was completed
        obtain ⟨k, hk, hkey⟩ := List.mem_map.mp (show (other.id, store.flow.currentStep + 1) ∈
          keys before.steps by
            have hkeys := mem_of_stepAt hother
            rwa [consumedStore, keys_updateStep (completed_keys _)] at hkeys)
        have hle := (hat.reached k hk).1
        rw [hat.flow] at hle
        have hindex := (Prod.mk.inj hkey).2
        omega
      · obtain ⟨k, hk, hkey⟩ := List.mem_map.mp (show (other.id, other.stepIndex) ∈
          keys before.steps by
            have hkeys : (other.id, other.stepIndex) ∈ keys (consumedStore before row).steps :=
              List.mem_map.mpr ⟨other, hother, rfl⟩
            rwa [consumedStore, keys_updateStep (completed_keys _)] at hkeys)
        obtain ⟨hid, hindex⟩ := Prod.mk.inj hkey
        have hle := hat.reached k hk
        rw [hat.flow, hid, hindex] at hle
        exact ⟨Nat.le_succ_of_le hle.1, hle.2⟩
      · rcases List.mem_snoc.mp ha with hold | hlast
        · exact hat.fresh a hold
        · rw [hlast]
          exact hat.rowId
    · change before.flow.policy = store.flow.policy
      rw [hat.flow]
  · rw [if_neg hmore] at hconsumes
    refine ⟨events ++
      ([ChallengeEvent.verified true, .resolves, .resolves] ++ [ChallengeEvent.resolves, .resolves]), _, _,
      (run_append _ hevents).trans ((run_append _ hconsumes).trans rfl), .inl ?_⟩
    exact List.append_ne_nil_of_right_ne_nil _ (List.cons_ne_nil _ _)

/-! ## The remaining steps -/

theorem Completable.of_reach {t : ChallengeSystem}
    (h : Reach (challengeStep config) Any (· = s) t) (ht : Completable config t) :
    Completable config s := by
  obtain ⟨u, hu, hsession⟩ := ht
  exact ⟨u, reach_trans h hu, hsession⟩

/-- One call after the other completes the remaining steps. -/
theorem completable_of_ready (h : Ready config s.store) : Completable config s := by
  -- by induction on the number of the remaining steps
  obtain ⟨remaining, hremaining⟩ : ∃ remaining,
      s.store.flow.policy.length = s.store.flow.currentStep + remaining :=
    Nat.exists_eq_add_of_le (Nat.le_of_lt h.more)
  induction remaining generalizing s with
  | zero => exact absurd h.more (by omega)
  | succ remaining ih =>
      obtain ⟨events, after, n, hrun, hafter⟩ := h.completes
      have hstart : Reach (challengeStep config) Any (· = s)
          { s with calls := s.calls ++ [ChallengeCall.flow .verify] } := by
        refine .next (.start rfl) (a := .start (.flow .verify)) trivial ?_
        rw [challengeStep, Lib.Calls.step,
          if_pos (show startsFlow (.flow .verify) = true by decide)]
      have hslot : (s.calls ++ [ChallengeCall.flow .verify])[s.calls.length]? =
          some (.flow .verify) := List.getElem?_concat_length
      refine .of_reach (run_reach hstart hslot hrun) ?_
      rcases hafter with hsession | ⟨hready, hpolicy, hcurrent⟩
      · exact ⟨_, .start rfl, hsession⟩
      · refine ih hready ?_
        change after.flow.policy.length = after.flow.currentStep + remaining
        rw [hpolicy, hcurrent]
        omega

/-- The current step of an idle flow can be answered unless its attempts are used up. -/
theorem ready_of_idle (h : InOrder s) (hpending : s.store.flow.status = .pending)
    (hcurrent : s.store.flow.currentStep = s.store.consumptions.length)
    (hmore : s.store.consumptions.length < s.store.flow.policy.length)
    (hnow : s.store.now < s.store.flow.expiresAt)
    (hattempts : ∀ row, stepAt s.store.steps s.store.flow.currentStep = some row →
      row.attempts < config.maxChallengeAttempts ∨
        s.store.consumptions.any (·.stepId = row.id) = true) : Ready config s.store := by
  have hfree : ∀ row, stepAt s.store.steps s.store.flow.currentStep = some row →
      s.store.consumptions.any (·.stepId = row.id) = false := by
    intro row hrow
    refine List.any_eq_false.mpr fun a ha heq => ?_
    -- the consumed rows are the first ones, and no two rows have one identifier
    have hin : row.id ∈ ((keys s.store.steps).map Prod.fst).take s.store.consumptions.length := by
      rw [← h.consumed, ← of_decide_eq_true heq]
      exact List.mem_map.mpr ⟨a, ha, rfl⟩
    obtain ⟨k, hk⟩ := List.getElem?_of_mem hin
    rw [List.getElem?_take] at hk
    split at hk
    · rename_i hlt
      have hat : ((keys s.store.steps).map Prod.fst)[s.store.flow.currentStep]? = some row.id := by
        rw [List.getElem?_map, h.getElem?_keys (mem_of_stepAt hrow)]
        rfl
      have hsame := (List.getElem?_inj (List.getElem?_eq_some_iff.mp hk).1 h.ids).mp
        (hk.trans hat.symm)
      omega
    · cases hk
  refine ⟨hpending, hnow, hcurrent ▸ hmore, fun row hrow => ⟨?_, hfree row hrow⟩,
    fun row hrow => ⟨?_, ?_⟩, fun a ha => ?_⟩
  · refine (hattempts row hrow).resolve_right fun hconsumed => ?_
    rw [hfree row hrow] at hconsumed
    cases hconsumed
  · have hindex : row.stepIndex ∈ (keys s.store.steps).map Prod.snd :=
      List.mem_map.mpr ⟨_, List.mem_map.mpr ⟨row, hrow, rfl⟩, rfl⟩
    rw [h.indices, List.mem_range] at hindex
    have hreached := h.reached
    omega
  · exact h.fresh _ (List.mem_map.mpr ⟨_, List.mem_map.mpr ⟨row, hrow, rfl⟩, rfl⟩)
  · have hin : a.stepId ∈ s.store.consumptions.map (·.stepId) := List.mem_map.mpr ⟨a, ha, rfl⟩
    rw [h.consumed] at hin
    exact h.fresh _ (List.mem_of_mem_take hin)

/-! ## The call that moves the flow -/

theorem reach_resolve (hc : s.calls[i]? = some c)
    (h : resolveCall config s.store c = some (store, n)) :
    Reach (challengeStep config) Any (· = s) ⟨store, s.calls.set i n⟩ :=
  run_reach (.start rfl) hc
    (show run (challengeCall config) s.store c [.resolves] = some (store, n) from run_cons h)

theorem completable_of_createAccessSession {flow : ChallengeFlowRecord}
    (hc : s.calls[i]? = some (.createAccessSession flow)) : Completable config s :=
  ⟨_, reach_resolve hc rfl, List.append_ne_nil_of_right_ne_nil _ (List.cons_ne_nil _ _)⟩

theorem completable_of_completeFlow {flow : ChallengeFlowRecord}
    (hc : s.calls[i]? = some (.completeFlow flow)) : Completable config s :=
  .of_reach (reach_resolve hc rfl) (completable_of_createAccessSession
    (List.getElem?_set_self (List.getElem?_eq_some_iff.mp hc).1))

/-- After the flow has moved on, no row of the next step is there. -/
theorem completable_of_updateFlowStep (h : InOrder s) {flow : ChallengeFlowRecord}
    (hc : s.calls[i]? = some (.updateFlowStep flow))
    (hnow : s.store.now < s.store.flow.expiresAt) : Completable config s := by
  obtain ⟨⟨hat, hpending, hmore⟩, -⟩ := h.busy hc rfl
  refine .of_reach (reach_resolve hc rfl)
    (completable_of_ready (ready_of_idle (h.moveOn hc) hpending ?_ hmore hnow fun row hrow => ?_))
  · change flow.currentStep + 1 = s.store.consumptions.length
    rw [hat.current]
    exact hat.last
  · have hkey : (row.id, flow.currentStep + 1) ∈ keys s.store.steps := mem_of_stepAt hrow
    have hlt := (List.getElem?_eq_some_iff.mp (h.getElem?_keys hkey)).1
    rw [keys, List.length_map, hat.current] at hlt
    exact absurd h.reached (Nat.not_le.mpr hlt)

/-- The remaining steps of a flow can be completed, unless it has expired or the attempts of
its current step are used up. -/
theorem InOrder.completable (h : InOrder s) (hpolicy : s.store.flow.policy ≠ [])
    (hnow : s.store.now < s.store.flow.expiresAt)
    (hattempts : ∀ row, stepAt s.store.steps s.store.flow.currentStep = some row →
      row.attempts < config.maxChallengeAttempts ∨
        s.store.consumptions.any (·.stepId = row.id) = true) : Completable config s := by
  rcases h.phase with ⟨hidle, -⟩ | ⟨i, c, hc, hbusy, -⟩
  · rcases hidle with ⟨-, hpending, hcurrent, hmore⟩ | ⟨hsession, -⟩
    · exact completable_of_ready (ready_of_idle h hpending hcurrent (hmore.resolve_right hpolicy)
        hnow hattempts)
    · refine ⟨s, .start rfl, fun hnone => ?_⟩
      rw [hnone] at hsession
      cases hsession
  · cases c with
    | createAccessSession flow => exact completable_of_createAccessSession hc
    | completeFlow flow => exact completable_of_completeFlow hc
    | updateFlowStep flow => exact completable_of_updateFlowStep h hc hnow
    | completeStep flow row consumedAt =>
        have ht := h.complete hc
        have hreach : Reach (challengeStep config) Any (· = s) _ := reach_resolve hc rfl
        have hslot := (List.getElem?_eq_some_iff.mp hc).1
        split at ht
        · rename_i hmore
          rw [if_pos hmore] at hreach
          exact .of_reach hreach
            (completable_of_updateFlowStep ht (List.getElem?_set_self hslot) hnow)
        · rename_i hmore
          rw [if_neg hmore] at hreach
          exact .of_reach hreach (completable_of_completeFlow (List.getElem?_set_self hslot))
    | _ => exact hbusy.elim

/-! ## The law -/

/-- A session is created after every step of the policy was consumed. -/
theorem InOrder.earned (h : InOrder s) (hsession : s.store.sessions ≠ []) : Earned s.store := by
  have hall : s.store.consumptions.length = s.store.flow.policy.length := by
    rcases h.phase with ⟨hidle, -⟩ | ⟨i, c, -, hbusy, -⟩
    · rcases hidle with ⟨hnone, -⟩ | ⟨-, -, hall, -⟩
      · exact absurd hnone hsession
      · exact hall
    · obtain ⟨_, hat⟩ := hbusy.atConsumed
      exact absurd hat.noSession hsession
  have hcount := h.consumed_le
  have hinPolicy := h.inPolicy
  have hlength : s.store.steps.length = s.store.flow.policy.length := by omega
  refine ⟨?_, ?_, h.inTime⟩
  · have hindices := h.indices
    rw [keys, List.map_map, hlength] at hindices
    exact hindices
  · have hconsumed := h.consumed
    rw [List.take_of_length_le, keys, List.map_map] at hconsumed
    · exact hconsumed
    · rw [List.length_map, keys, List.length_map]
      omega

theorem InOrder.once (h : InOrder s) : s.store.sessions.length ≤ 1 := by
  rcases h.phase with ⟨hidle, -⟩ | ⟨i, c, -, hbusy, -⟩
  · rcases hidle with ⟨hnone, -⟩ | ⟨hone, -⟩
    · rw [hnone]
      exact Nat.zero_le _
    · exact Nat.le_of_eq hone
  · obtain ⟨_, hat⟩ := hbusy.atConsumed
    rw [hat.noSession]
    exact Nat.zero_le _

/-- While evaluations only begin within the attempts that are left, answers are accepted before
the flow expires and no repository call fails after an answer, a flow is used once. -/
theorem challenge_single_use (config : ChallengeConfig)
    (h : Reach (challengeStep config) (AnswersInTime config) StartsFlow s) :
    SingleUse config s := by
  have hinOrder := inOrder_of_reach h
  have hcounted := counted_of_reach h
  exact ⟨hinOrder.once, hinOrder.earned, fun row hrow => hcounted.bounded hrow,
    hinOrder.completable⟩

/-! ## Runs -/

def exampleConfig : ChallengeConfig := ⟨1, Nat.le_refl 1, Nat.le_of_ble_eq_true rfl⟩

def exampleFlow : ChallengeFlowRecord where
  id := "flow_1".toList
  siteId := "site_1".toList
  returnPath := "/".toList
  clientIp := "198.51.100.1".toList
  userAgentHash := "ua".toList
  currentStep := 0
  policy := [⟨"pow-sha256".toList, []⟩, ⟨"turnstile".toList, []⟩]
  status := .pending
  expiresAt := 120000
  completedAt := none

def exampleStart : ChallengeSystem where
  store :=
    { now := 0
      flow := exampleFlow
      steps := []
      consumptions := []
      sessions := []
      nextId := 0
      accepted := []
      rejected := [] }
  calls := []

theorem exampleStart_starts : StartsFlow exampleStart :=
  ⟨rfl, rfl, ⟨rfl, rfl, rfl⟩, ⟨rfl, rfl⟩, rfl⟩

/-- The `i`-th call answers a step whose row it inserts, or that is there. -/
def answered (i : Nat) (reads : Nat) (success : Bool) : List ChallengeAction :=
  (.start (.flow .verify) : ChallengeAction) ::
    List.replicate reads (.call i .resolves : ChallengeAction) ++
    [(.call i (.verified success) : ChallengeAction)]

/-- Two correct answers, one after the other. -/
def completedFlow : List ChallengeAction :=
  answered 0 5 true ++ List.replicate 6 (.call 0 .resolves : ChallengeAction) ++
    answered 1 3 true ++ List.replicate 4 (.call 1 .resolves : ChallengeAction)

theorem challenge_single_use_completed :
    ∃ s, execIf (challengeStep exampleConfig) (AnswersInTime exampleConfig) exampleStart
        completedFlow = some s ∧ s.store.sessions.length = 1 ∧ SingleUse exampleConfig s := by
  have hrun : (execIf (challengeStep exampleConfig) (AnswersInTime exampleConfig) exampleStart
      completedFlow).any (fun s => s.store.sessions.length = 1) = true := by decide +kernel
  obtain ⟨s, hs, hsession⟩ := (Option.any_eq_true ..).mp hrun
  exact ⟨s, hs, of_decide_eq_true hsession,
    challenge_single_use exampleConfig (execIf_reach (.start exampleStart_starts) hs)⟩

/-- One attempt is allowed, and two wrong answers are evaluated at once. -/
def answeredTwice : List ChallengeAction :=
  [(.start (.flow .page) : ChallengeAction)] ++
    List.replicate 4 (.call 0 .resolves : ChallengeAction) ++
    [(.start (.flow .verify) : ChallengeAction), .start (.flow .verify)] ++
      List.replicate 3 (.call 1 .resolves : ChallengeAction) ++
        List.replicate 3 (.call 2 .resolves : ChallengeAction) ++
          [(.call 1 (.verified false) : ChallengeAction), .call 2 (.verified false)]

theorem answers_exceed_attempts :
    ¬ ∀ (config : ChallengeConfig) (s : ChallengeSystem),
      Reach (challengeStep config) Any StartsFlow s → SingleUse config s := by
  intro h
  have hrun : (exec (challengeStep exampleConfig) exampleStart answeredTwice).any (fun s =>
      s.store.steps.any fun row => s.store.rejected.count row.id = 2) = true := by decide +kernel
  obtain ⟨s, hs, htwice⟩ := (Option.any_eq_true ..).mp hrun
  obtain ⟨row, hrow, hcount⟩ := List.any_eq_true.mp htwice
  have hbounded := (h exampleConfig s (exec_reach (.start exampleStart_starts) hs)).bounded row hrow
  rw [of_decide_eq_true hcount] at hbounded
  exact absurd hbounded (by decide)

end BurrowGate.Challenge
