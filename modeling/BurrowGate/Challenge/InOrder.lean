import BurrowGate.Challenge.Flow
import Mathlib.Data.List.Nodup

/-!
# Steps are consumed in order

The consumed steps are the first ones. One call at a time has consumed a step and not moved
the flow on yet; while there is none, the flow is at the first step not consumed.
-/

namespace BurrowGate.Challenge

open Lib.Run Lib.Calls Lib.Lists Lib.Table

/-! ## The invariant -/

/-- The identifiers and indices of the rows. -/
def keys (steps : List ChallengeStepRecord) : List (Nat × Nat) :=
  steps.map fun row => (row.id, row.stepIndex)

theorem keys_updateStep {f : ChallengeStepRecord → ChallengeStepRecord}
    (hf : ∀ row, (f row).id = row.id ∧ (f row).stepIndex = row.stepIndex) (id : Nat)
    (steps : List ChallengeStepRecord) : keys (updateStep id f steps) = keys steps := by
  rw [keys, updateStep, updateWhere, List.map_map]
  refine List.map_congr_left fun row _ => ?_
  change ((if row.id = id then f row else row).id, (if row.id = id then f row else row).stepIndex) =
    (row.id, row.stepIndex)
  split
  · rw [(hf row).1, (hf row).2]
  · rfl

theorem failed_keys (row : ChallengeStepRecord) :
    row.failed.id = row.id ∧ row.failed.stepIndex = row.stepIndex :=
  ⟨rfl, rfl⟩

theorem completed_keys (now : Nat) (row : ChallengeStepRecord) :
    (row.completed now).id = row.id ∧ (row.completed now).stepIndex = row.stepIndex := by
  rw [ChallengeStepRecord.completed]
  split
  · exact ⟨rfl, rfl⟩
  · exact ⟨rfl, rfl⟩

/-- The flow as a call has read it, at this step or an earlier one. -/
structure ReadFlow (store : ChallengeStore) (flow : ChallengeFlowRecord) : Prop where
  policy : flow.policy = store.flow.policy
  expiresAt : flow.expiresAt = store.flow.expiresAt
  step : flow.currentStep ≤ store.flow.currentStep

def Fits (store : ChallengeStore) : ChallengeCall → Prop
  | .flow _ | .done => True
  | .site flow | .step flow _ | .completeStep flow _ _ | .updateFlowStep flow | .completeFlow flow
  | .createAccessSession flow => ReadFlow store flow
  | .create flow _ _ => ReadFlow store flow ∧ flow.currentStep < store.flow.policy.length
  | .insertStep flow row _ =>
      ReadFlow store flow ∧ flow.currentStep < store.flow.policy.length ∧
        row.stepIndex = flow.currentStep ∧ row.attempts = 0 ∧ row.id < store.nextId ∧
          row.id ∉ (keys store.steps).map Prod.fst
  | .evaluate flow row => ReadFlow store flow ∧ (row.id, flow.currentStep) ∈ keys store.steps
  | .failStepAttempt row => row.id ∈ (keys store.steps).map Prod.fst
  | .consumeStep flow row consumedAt =>
      ReadFlow store flow ∧ (row.id, flow.currentStep) ∈ keys store.steps ∧
        consumedAt < store.flow.expiresAt ∧ ⟨row.id, consumedAt⟩ ∈ store.accepted

/-- The identifier that the call is about to insert. -/
def ChallengeCall.inserting : ChallengeCall → Option Nat
  | .insertStep _ row _ => some row.id
  | _ => none

/-- The call has consumed a step and has not moved the flow on. -/
def ChallengeCall.moving : ChallengeCall → Bool
  | .completeStep .. | .updateFlowStep _ | .completeFlow _ | .createAccessSession _ => true
  | _ => false

/-- No call is moving the flow. -/
def Idle (store : ChallengeStore) : Prop :=
  (store.sessions = [] ∧ store.flow.status = .pending ∧
    store.flow.currentStep = store.consumptions.length ∧
      (store.consumptions.length < store.flow.policy.length ∨ store.flow.policy = [])) ∨
  (store.sessions.length = 1 ∧ store.flow.status = .completed ∧
    store.consumptions.length = store.flow.policy.length ∧
      store.flow.currentStep < store.flow.policy.length)

/-- The flow is at the step that was consumed last. -/
structure AtConsumed (store : ChallengeStore) (flow : ChallengeFlowRecord) : Prop where
  noSession : store.sessions = []
  current : flow.currentStep = store.flow.currentStep
  last : store.flow.currentStep + 1 = store.consumptions.length

/-- What the call that moves the flow has left to do. -/
def Busy (store : ChallengeStore) : ChallengeCall → Prop
  | .completeStep flow _ _ => AtConsumed store flow ∧ store.flow.status = .pending
  | .updateFlowStep flow => AtConsumed store flow ∧ store.flow.status = .pending ∧
      store.consumptions.length < store.flow.policy.length
  | .completeFlow flow => AtConsumed store flow ∧ store.flow.status = .pending ∧
      store.consumptions.length = store.flow.policy.length
  | .createAccessSession flow => AtConsumed store flow ∧ store.flow.status = .completed ∧
      store.consumptions.length = store.flow.policy.length
  | _ => False

def Phase (s : ChallengeSystem) : Prop :=
  (Idle s.store ∧ ∀ c ∈ s.calls, c.moving = false) ∨
    ∃ (i : Nat) (c : ChallengeCall), s.calls[i]? = some c ∧ Busy s.store c ∧
      ∀ (k : Nat) (d : ChallengeCall), s.calls[k]? = some d → d.moving = true → k = i

structure InOrder (s : ChallengeSystem) : Prop where
  indices : (keys s.store.steps).map Prod.snd = List.range s.store.steps.length
  ids : ((keys s.store.steps).map Prod.fst).Nodup
  fresh : ∀ id ∈ (keys s.store.steps).map Prod.fst, id < s.store.nextId
  consumed : s.store.consumptions.map (·.stepId) =
    ((keys s.store.steps).map Prod.fst).take s.store.consumptions.length
  reached : s.store.steps.length ≤ s.store.flow.currentStep + 1
  inPolicy : s.store.steps.length ≤ s.store.flow.policy.length
  inTime : ∀ c ∈ s.store.consumptions,
    c ∈ s.store.accepted ∧ c.consumedAt < s.store.flow.expiresAt
  fits : ∀ c ∈ s.calls, Fits s.store c
  inserts : ∀ (i k : Nat) (c d : ChallengeCall) (id : Nat), s.calls[i]? = some c →
    s.calls[k]? = some d → c.inserting = some id → d.inserting = some id → i = k
  phase : Phase s

variable {s : ChallengeSystem} {store : ChallengeStore} {i : Nat} {c n : ChallengeCall}

theorem ReadFlow.mono {flow : ChallengeFlowRecord} (h : ReadFlow s.store flow)
    (hpolicy : store.flow.policy = s.store.flow.policy)
    (hexpires : store.flow.expiresAt = s.store.flow.expiresAt)
    (hstep : s.store.flow.currentStep ≤ store.flow.currentStep) : ReadFlow store flow :=
  ⟨h.policy.trans hpolicy.symm, h.expiresAt.trans hexpires.symm, Nat.le_trans h.step hstep⟩

/-- What a call has read stays right while rows and acceptances are only added. -/
theorem Fits.mono (h : Fits s.store c) (hpolicy : store.flow.policy = s.store.flow.policy)
    (hexpires : store.flow.expiresAt = s.store.flow.expiresAt)
    (hstep : s.store.flow.currentStep ≤ store.flow.currentStep)
    (hkeys : ∀ k ∈ keys s.store.steps, k ∈ keys store.steps)
    (hnext : s.store.nextId ≤ store.nextId)
    (haccepted : ∀ a ∈ s.store.accepted, a ∈ store.accepted)
    (hinserting : ∀ id, c.inserting = some id → id ∉ (keys store.steps).map Prod.fst) :
    Fits store c := by
  have hread : ∀ flow, ReadFlow s.store flow → ReadFlow store flow :=
    fun flow hflow => hflow.mono hpolicy hexpires hstep
  cases c with
  | flow caller => exact trivial
  | done => exact trivial
  | site flow => exact hread _ h
  | step flow caller => exact hread _ h
  | completeStep flow row consumedAt => exact hread _ h
  | updateFlowStep flow => exact hread _ h
  | completeFlow flow => exact hread _ h
  | createAccessSession flow => exact hread _ h
  | create flow spec caller => exact ⟨hread _ h.1, hpolicy ▸ h.2⟩
  | insertStep flow row caller =>
      obtain ⟨hflow, hlt, hindex, hattempts, hid, -⟩ := h
      exact ⟨hread _ hflow, hpolicy ▸ hlt, hindex, hattempts, Nat.lt_of_lt_of_le hid hnext,
        hinserting _ rfl⟩
  | evaluate flow row => exact ⟨hread _ h.1, hkeys _ h.2⟩
  | failStepAttempt row =>
      obtain ⟨k, hk, heq⟩ := List.mem_map.mp h
      exact List.mem_map.mpr ⟨k, hkeys k hk, heq⟩
  | consumeStep flow row consumedAt =>
      obtain ⟨hflow, hkey, htime, hacc⟩ := h
      exact ⟨hread _ hflow, hkeys _ hkey, hexpires ▸ htime, haccepted _ hacc⟩

theorem not_inserted {id : Nat} (h : InOrder s) (hc : c ∈ s.calls) (hid : c.inserting = some id) :
    id ∉ (keys s.store.steps).map Prod.fst ∧ id < s.store.nextId := by
  have hfits := h.fits c hc
  cases c with
  | insertStep flow row caller =>
      obtain rfl := Option.some.inj hid
      exact ⟨hfits.2.2.2.2.2, hfits.2.2.2.2.1⟩
  | _ => cases hid

/-- Two calls do not insert one identifier after a call goes on with its own or a new one. -/
theorem inserts_set (h : InOrder s) (hc : s.calls[i]? = some c)
    (hinsert : ∀ id, n.inserting = some id → c.inserting = some id ∨ s.store.nextId ≤ id)
    {j k : Nat} {d e : ChallengeCall} {id : Nat} (hd : (s.calls.set i n)[j]? = some d)
    (he : (s.calls.set i n)[k]? = some e) (hdi : d.inserting = some id)
    (hei : e.inserting = some id) : j = k := by
  have hother : ∀ (m : Nat) (f : ChallengeCall), s.calls[m]? = some f → f.inserting = some id →
      n.inserting = some id → m = i := by
    intro m f hf hfi hni
    rcases hinsert id hni with hci | hle
    · exact h.inserts m i f c id hf hc hfi hci
    · exact absurd (not_inserted h (List.mem_of_getElem? hf) hfi).2 (Nat.not_lt.mpr hle)
  rcases getElem?_set_cases hd with ⟨rfl, rfl⟩ | ⟨-, hold⟩
  · rcases getElem?_set_cases he with ⟨rfl, rfl⟩ | ⟨-, hold'⟩
    · rfl
    · exact (hother k e hold' hei hdi).symm
  · rcases getElem?_set_cases he with ⟨rfl, rfl⟩ | ⟨-, hold'⟩
    · exact hother j d hold hdi hei
    · exact h.inserts j k d e id hold hold' hdi hei

theorem moving_of_busy (h : Busy store c) : c.moving = true := by
  cases c with
  | completeStep | updateFlowStep | completeFlow | createAccessSession => rfl
  | _ => exact h.elim

theorem Idle.congr {before : ChallengeStore} (h : Idle before) (hflow : store.flow = before.flow)
    (hconsumptions : store.consumptions = before.consumptions)
    (hsessions : store.sessions = before.sessions) : Idle store := by
  unfold Idle at h ⊢
  rw [hsessions, hflow, hconsumptions]
  exact h

theorem Busy.congr {before : ChallengeStore} (h : Busy before c)
    (hflow : store.flow = before.flow) (hconsumptions : store.consumptions = before.consumptions)
    (hsessions : store.sessions = before.sessions) : Busy store c := by
  have hat : ∀ flow, AtConsumed before flow → AtConsumed store flow := by
    rintro flow ⟨hnone, hcurrent, hlast⟩
    refine ⟨hsessions.trans hnone, ?_, ?_⟩
    · rw [hflow]
      exact hcurrent
    · rw [hflow, hconsumptions]
      exact hlast
  cases c with
  | completeStep flow row consumedAt =>
      refine ⟨hat _ h.1, ?_⟩
      rw [hflow]
      exact h.2
  | updateFlowStep flow =>
      refine ⟨hat _ h.1, ?_⟩
      rw [hflow, hconsumptions]
      exact h.2
  | completeFlow flow =>
      refine ⟨hat _ h.1, ?_⟩
      rw [hflow, hconsumptions]
      exact h.2
  | createAccessSession flow =>
      refine ⟨hat _ h.1, ?_⟩
      rw [hflow, hconsumptions]
      exact h.2
  | _ => exact h.elim

theorem Busy.atConsumed (h : Busy store c) :
    ∃ flow, AtConsumed store flow := by
  cases c with
  | completeStep | updateFlowStep | completeFlow | createAccessSession => exact ⟨_, h.1⟩
  | _ => exact h.elim

/-- A call that moves the flow is the only one. -/
theorem InOrder.busy (h : InOrder s) (hc : s.calls[i]? = some c) (hmoving : c.moving = true) :
    Busy s.store c ∧ ∀ (k : Nat) (d : ChallengeCall), s.calls[k]? = some d →
      d.moving = true → k = i := by
  rcases h.phase with ⟨-, hnone⟩ | ⟨j, d, hd, hbusy, honly⟩
  · rw [hnone c (List.mem_of_getElem? hc)] at hmoving
    cases hmoving
  · obtain rfl := honly i c hc hmoving
    obtain rfl := Option.some.inj (hc.symm.trans hd)
    exact ⟨hbusy, honly⟩

/-- The phase while a call that does not move the flow goes on. -/
theorem phase_set (h : Phase s) (hc : s.calls[i]? = some c) (hcm : c.moving = false)
    (hnm : n.moving = false) (hidle : Idle s.store → Idle store)
    (hbusy : ∀ d, Busy s.store d → Busy store d) : Phase ⟨store, s.calls.set i n⟩ := by
  rcases h with ⟨hphase, hnone⟩ | ⟨j, d, hd, hphase, honly⟩
  · refine .inl ⟨hidle hphase, fun d hd => ?_⟩
    rcases List.mem_or_eq_of_mem_set hd with hold | rfl
    · exact hnone d hold
    · exact hnm
  · have hne : i ≠ j := by
      rintro rfl
      obtain rfl := Option.some.inj (hc.symm.trans hd)
      rw [moving_of_busy hphase] at hcm
      cases hcm
    refine .inr ⟨j, d, (List.getElem?_set_ne hne).trans hd, hbusy d hphase, fun k e he hm => ?_⟩
    rcases getElem?_set_cases he with ⟨-, rfl⟩ | ⟨-, hold⟩
    · rw [hnm] at hm
      cases hm
    · exact honly k e hold hm

/-- The phase after the call that moves the flow has gone on. -/
theorem phase_busy (honly : ∀ (k : Nat) (d : ChallengeCall), s.calls[k]? = some d →
    d.moving = true → k = i) (hi : i < s.calls.length) (hbusy : Busy store n) :
    Phase ⟨store, s.calls.set i n⟩ := by
  refine .inr ⟨i, n, List.getElem?_set_self hi, hbusy, fun k d hd hm => ?_⟩
  rcases getElem?_set_cases hd with ⟨rfl, -⟩ | ⟨-, hold⟩
  · rfl
  · exact honly k d hold hm

theorem phase_idle (honly : ∀ (k : Nat) (d : ChallengeCall), s.calls[k]? = some d →
    d.moving = true → k = i) (hnm : n.moving = false) (hidle : Idle store) :
    Phase ⟨store, s.calls.set i n⟩ := by
  refine .inl ⟨hidle, fun d hd => ?_⟩
  obtain ⟨k, hk⟩ := List.getElem?_of_mem hd
  rcases getElem?_set_cases hk with ⟨-, rfl⟩ | ⟨hne, hold⟩
  · exact hnm
  · cases hm : d.moving with
    | false => rfl
    | true => exact absurd (honly k d hold hm) hne

/-! ## One call goes on -/

theorem length_of_keys {steps steps' : List ChallengeStepRecord} (h : keys steps = keys steps') :
    steps.length = steps'.length := by
  have hlength := congrArg List.length h
  rwa [keys, keys, List.length_map, List.length_map] at hlength

/-- A call goes on and leaves what the order rests on, apart from the phase. -/
theorem InOrder.carry (h : InOrder s) (hc : s.calls[i]? = some c)
    (hkeys : keys store.steps = keys s.store.steps)
    (hconsumptions : store.consumptions = s.store.consumptions)
    (hpolicy : store.flow.policy = s.store.flow.policy)
    (hexpires : store.flow.expiresAt = s.store.flow.expiresAt)
    (hstep : s.store.flow.currentStep ≤ store.flow.currentStep)
    (hnext : s.store.nextId ≤ store.nextId)
    (haccepted : ∀ a ∈ s.store.accepted, a ∈ store.accepted) (hfits : Fits store n)
    (hinsert : ∀ id, n.inserting = some id → c.inserting = some id ∨ s.store.nextId ≤ id)
    (hphase : Phase ⟨store, s.calls.set i n⟩) : InOrder ⟨store, s.calls.set i n⟩ := by
  have hlength := length_of_keys hkeys
  refine ⟨?_, ?_, ?_, ?_, ?_, ?_, ?_, fun d hd => ?_, ?_, hphase⟩
  · rw [hkeys, hlength]
    exact h.indices
  · rw [hkeys]
    exact h.ids
  · rw [hkeys]
    exact fun id hid => Nat.lt_of_lt_of_le (h.fresh id hid) hnext
  · rw [hkeys, hconsumptions]
    exact h.consumed
  · rw [hlength]
    exact Nat.le_trans h.reached (Nat.succ_le_succ hstep)
  · rw [hlength, hpolicy]
    exact h.inPolicy
  · rw [hconsumptions, hexpires]
    exact fun a ha => ⟨haccepted a (h.inTime a ha).1, (h.inTime a ha).2⟩
  · rcases List.mem_or_eq_of_mem_set hd with hold | rfl
    · refine (h.fits d hold).mono hpolicy hexpires hstep ?_ hnext haccepted ?_
      · rw [hkeys]
        exact fun _ hk => hk
      · rw [hkeys]
        exact fun id hid => (not_inserted h hold hid).1
    · exact hfits
  · intro j k d e id hd he hdi hei
    exact inserts_set h hc hinsert hd he hdi hei

/-- A call that does not move the flow goes on. -/
theorem InOrder.goOn (h : InOrder s) (hc : s.calls[i]? = some c) (hcm : c.moving = false)
    (hnm : n.moving = false) (hkeys : keys store.steps = keys s.store.steps)
    (hconsumptions : store.consumptions = s.store.consumptions) (hflow : store.flow = s.store.flow)
    (hsessions : store.sessions = s.store.sessions) (hnext : s.store.nextId ≤ store.nextId)
    (haccepted : ∀ a ∈ s.store.accepted, a ∈ store.accepted) (hfits : Fits store n)
    (hinsert : ∀ id, n.inserting = some id → c.inserting = some id ∨ s.store.nextId ≤ id) :
    InOrder ⟨store, s.calls.set i n⟩ :=
  h.carry hc hkeys hconsumptions (congrArg _ hflow) (congrArg _ hflow)
    (Nat.le_of_eq (congrArg _ hflow.symm)) hnext haccepted hfits hinsert
    (phase_set h.phase hc hcm hnm (·.congr hflow hconsumptions hsessions)
      fun _ hd => hd.congr hflow hconsumptions hsessions)

/-- The number of consumed steps is that of their rows. -/
theorem InOrder.consumed_le (h : InOrder s) :
    s.store.consumptions.length ≤ s.store.steps.length := by
  have hlength := congrArg List.length h.consumed
  simp only [List.length_map, List.length_take, keys] at hlength
  omega

/-- The row at an index. -/
theorem InOrder.getElem?_keys (h : InOrder s) {id index : Nat}
    (hkey : (id, index) ∈ keys s.store.steps) :
    (keys s.store.steps)[index]? = some (id, index) := by
  obtain ⟨k, hk⟩ := List.getElem?_of_mem hkey
  have hsnd : ((keys s.store.steps).map Prod.snd)[k]? = some index := by
    rw [List.getElem?_map, hk]
    rfl
  rw [h.indices] at hsnd
  obtain ⟨hlt, heq⟩ := List.getElem?_eq_some_iff.mp hsnd
  rw [List.getElem_range] at heq
  subst heq
  exact hk

/-- A row that is not consumed comes after those that are. -/
theorem InOrder.le_of_not_consumed (h : InOrder s) {id index : Nat}
    (hkey : (id, index) ∈ keys s.store.steps)
    (hfree : s.store.consumptions.any (·.stepId = id) = false) :
    s.store.consumptions.length ≤ index := by
  by_contra hlt
  have hin : id ∈ s.store.consumptions.map (·.stepId) := by
    rw [h.consumed]
    refine List.mem_of_getElem? (i := index) ?_
    rw [List.getElem?_take, if_pos (Nat.lt_of_not_le hlt), List.getElem?_map, h.getElem?_keys hkey]
    rfl
  obtain ⟨a, ha, rfl⟩ := List.mem_map.mp hin
  rw [List.any_eq_false] at hfree
  exact hfree a ha (decide_eq_true rfl)

/-- The first step not consumed is consumed. -/
theorem InOrder.consume (h : InOrder s) {flow : ChallengeFlowRecord} {row : ChallengeStepRecord}
    {consumedAt : Nat} (hc : s.calls[i]? = some (.consumeStep flow row consumedAt))
    (hfree : s.store.consumptions.any (·.stepId = row.id) = false) :
    InOrder ⟨{ s.store with consumptions := s.store.consumptions ++ [⟨row.id, consumedAt⟩] },
      s.calls.set i (.completeStep flow row consumedAt)⟩ := by
  obtain ⟨hread, hkey, htime, haccepted⟩ := h.fits _ (List.mem_of_getElem? hc)
  have hle := h.le_of_not_consumed hkey hfree
  have hstep := hread.step
  have hcount := h.consumed_le
  have hinPolicy := h.inPolicy
  have hslot : flow.currentStep < s.store.steps.length := by
    have hlt := (List.getElem?_eq_some_iff.mp (h.getElem?_keys hkey)).1
    rwa [keys, List.length_map] at hlt
  -- the flow is at this step, and no call has consumed it and not moved on
  have hphase : s.store.sessions = [] ∧ s.store.flow.status = .pending ∧
      s.store.flow.currentStep = s.store.consumptions.length ∧ ∀ d ∈ s.calls, d.moving = false := by
    rcases h.phase with ⟨hidle, hnone⟩ | ⟨j, d, hd, hbusy, -⟩
    · rcases hidle with ⟨hsessions, hstatus, hcurrent, -⟩ | ⟨-, -, hall, -⟩
      · exact ⟨hsessions, hstatus, hcurrent, hnone⟩
      · omega
    · obtain ⟨_, hlast⟩ := hbusy.atConsumed
      have := hlast.last
      omega
  obtain ⟨hsessions, hstatus, hcurrent, hnone⟩ := hphase
  have heq : flow.currentStep = s.store.consumptions.length := by omega
  refine ⟨h.indices, h.ids, h.fresh, ?_, h.reached, h.inPolicy, fun a ha => ?_, fun d hd => ?_,
    ?_, ?_⟩
  · change (s.store.consumptions ++ [_]).map _ = List.take (s.store.consumptions ++ [_]).length _
    rw [List.map_append, h.consumed, List.length_append, List.length_singleton, List.take_add_one,
      ← heq, List.getElem?_map, h.getElem?_keys hkey]
    rfl
  · rcases List.mem_snoc.mp ha with hold | rfl
    · exact h.inTime a hold
    · exact ⟨haccepted, htime⟩
  · rcases List.mem_or_eq_of_mem_set hd with hold | rfl
    · exact (h.fits d hold).mono rfl rfl (Nat.le_refl _) (fun _ hk => hk) (Nat.le_refl _)
        (fun _ ha => ha) fun id hid => (not_inserted h hold hid).1
    · exact hread.mono rfl rfl (Nat.le_refl _)
  · intro j k d e id hd he hdi hei
    exact inserts_set h hc (fun _ hid => (by cases hid)) hd he hdi hei
  · refine phase_busy (fun k d hd hm => ?_) (List.getElem?_eq_some_iff.mp hc).1
      ⟨⟨hsessions, heq.trans hcurrent.symm, ?_⟩, hstatus⟩
    · rw [hnone d (List.mem_of_getElem? hd)] at hm
      cases hm
    · change s.store.flow.currentStep + 1 = (s.store.consumptions ++ [_]).length
      rw [hcurrent, List.length_append, List.length_singleton]

/-- The row of the current step is inserted when it is not there. -/
theorem InOrder.insert (h : InOrder s) {flow : ChallengeFlowRecord} {row : ChallengeStepRecord}
    {caller : CurrentStepCaller} (hc : s.calls[i]? = some (.insertStep flow row caller))
    (hfree : stepAt s.store.steps row.stepIndex = none) (hnm : n.moving = false)
    (hni : n.inserting = none)
    (hfits : Fits { s.store with steps := s.store.steps ++ [row] } n) :
    InOrder ⟨{ s.store with steps := s.store.steps ++ [row] }, s.calls.set i n⟩ := by
  obtain ⟨hread, hlt, hindex, -, hid, hnew⟩ := h.fits _ (List.mem_of_getElem? hc)
  have hkeys : keys (s.store.steps ++ [row]) = keys s.store.steps ++ [(row.id, row.stepIndex)] := by
    rw [keys, List.map_append]
    rfl
  have hstep := hread.step
  have hcount := h.consumed_le
  have hcurrent : s.store.flow.currentStep ≤ s.store.consumptions.length := by
    rcases h.phase with ⟨hidle, -⟩ | ⟨j, d, -, hbusy, -⟩
    · rcases hidle with ⟨-, -, hcurrent, -⟩ | ⟨-, -, hall, hcurrent⟩
      · omega
      · omega
    · obtain ⟨_, hlast⟩ := hbusy.atConsumed
      have := hlast.last
      omega
  -- every smaller index has its row
  have hnext : s.store.steps.length = flow.currentStep := by
    by_contra hne
    have hslot : flow.currentStep < (keys s.store.steps).length := by
      rw [keys, List.length_map]
      omega
    have hsnd : ((keys s.store.steps).map Prod.snd)[flow.currentStep]? = some flow.currentStep := by
      rw [h.indices, List.getElem?_range (by rw [keys, List.length_map] at hslot; exact hslot)]
    obtain ⟨k, hk, heq⟩ := List.mem_map.mp (List.mem_of_getElem? hsnd)
    obtain ⟨found, hfound, rfl⟩ := List.mem_map.mp hk
    have hnone := List.find?_eq_none.mp hfree found hfound
    exact hnone (decide_eq_true (heq.trans hindex.symm))
  refine ⟨?_, ?_, ?_, ?_, ?_, ?_, h.inTime, fun d hd => ?_, ?_, ?_⟩
  · rw [hkeys, List.map_append, h.indices, List.length_append, List.length_singleton,
      List.range_succ, List.map_singleton, hindex, hnext]
  · rw [hkeys, List.map_append, List.map_singleton]
    exact List.nodup_append.mpr ⟨h.ids, List.nodup_singleton _, fun a ha b hb => by
      rw [List.mem_singleton.mp hb]
      rintro rfl
      exact hnew ha⟩
  · rw [hkeys, List.map_append, List.map_singleton]
    intro other hother
    rcases List.mem_snoc.mp hother with hold | hlast
    · exact h.fresh other hold
    · rw [hlast]
      exact hid
  · rw [hkeys, List.map_append, h.consumed, List.take_append_of_le_length]
    rw [List.length_map, keys, List.length_map]
    exact hcount
  · rw [List.length_append, List.length_singleton]
    change _ ≤ s.store.flow.currentStep + 1
    omega
  · rw [List.length_append, List.length_singleton]
    change _ ≤ s.store.flow.policy.length
    omega
  · obtain ⟨k, hk⟩ := List.getElem?_of_mem hd
    rcases getElem?_set_cases hk with ⟨-, rfl⟩ | ⟨hne, hold⟩
    · exact hfits
    · refine (h.fits d (List.mem_of_getElem? hold)).mono rfl rfl (Nat.le_refl _) ?_
        (Nat.le_refl _) (fun _ ha => ha) fun other hother hmem => ?_
      · rw [hkeys]
        exact fun k hk => List.mem_append_left _ hk
      · rw [hkeys, List.map_append] at hmem
        rcases List.mem_snoc.mp hmem with hin | rfl
        · exact (not_inserted h (List.mem_of_getElem? hold) hother).1 hin
        · exact hne (h.inserts k i d _ _ hold hc hother rfl)
  · intro j k d e id hd he hdi hei
    refine inserts_set h hc (fun _ hid => ?_) hd he hdi hei
    rw [hni] at hid
    cases hid
  · exact phase_set h.phase hc rfl hnm (·.congr rfl rfl rfl) fun d hd => hd.congr rfl rfl rfl

/-- The call that has consumed a step goes on to move the flow or to complete it. -/
theorem InOrder.complete (h : InOrder s) {flow : ChallengeFlowRecord} {row : ChallengeStepRecord}
    {consumedAt : Nat} (hc : s.calls[i]? = some (.completeStep flow row consumedAt)) :
    InOrder ⟨{ s.store with steps := updateStep row.id (·.completed consumedAt) s.store.steps },
      s.calls.set i (if flow.currentStep + 1 < flow.policy.length then .updateFlowStep flow
        else .completeFlow flow)⟩ := by
  obtain ⟨hbusy, honly⟩ := h.busy hc rfl
  obtain ⟨hat, hstatus⟩ := hbusy
  have hread : ReadFlow s.store flow := h.fits _ (List.mem_of_getElem? hc)
  have hslot := (List.getElem?_eq_some_iff.mp hc).1
  have hcurrent := hat.current
  have hlast := hat.last
  have hcount := Nat.le_trans h.consumed_le h.inPolicy
  have hpolicy := congrArg List.length hread.policy
  have hkeys := keys_updateStep (completed_keys consumedAt) row.id s.store.steps
  split
  · rename_i hmore
    refine h.carry hc hkeys rfl rfl rfl (Nat.le_refl _) (Nat.le_refl _) (fun _ ha => ha)
      (hread.mono rfl rfl (Nat.le_refl _)) (fun _ hid => (by cases hid))
      (phase_busy honly hslot ⟨⟨hat.noSession, hcurrent, hlast⟩, hstatus, ?_⟩)
    change s.store.consumptions.length < s.store.flow.policy.length
    omega
  · rename_i hmore
    refine h.carry hc hkeys rfl rfl rfl (Nat.le_refl _) (Nat.le_refl _) (fun _ ha => ha)
      (hread.mono rfl rfl (Nat.le_refl _)) (fun _ hid => (by cases hid))
      (phase_busy honly hslot ⟨⟨hat.noSession, hcurrent, hlast⟩, hstatus, ?_⟩)
    change s.store.consumptions.length = s.store.flow.policy.length
    omega

/-- The flow moves on to the next step. -/
theorem InOrder.moveOn (h : InOrder s) {flow : ChallengeFlowRecord}
    (hc : s.calls[i]? = some (.updateFlowStep flow)) :
    InOrder ⟨{ s.store with flow := { s.store.flow with currentStep := flow.currentStep + 1 } },
      s.calls.set i (.step { flow with currentStep := flow.currentStep + 1 } .next)⟩ := by
  obtain ⟨⟨hat, hstatus, hmore⟩, honly⟩ := h.busy hc rfl
  have hread : ReadFlow s.store flow := h.fits _ (List.mem_of_getElem? hc)
  refine h.carry hc rfl rfl rfl rfl ?_ (Nat.le_refl _) (fun _ ha => ha)
    ⟨hread.policy, hread.expiresAt, Nat.le_refl _⟩ (fun _ hid => (by cases hid))
    (phase_idle honly rfl (.inl ⟨hat.noSession, hstatus, ?_, .inl hmore⟩))
  · change s.store.flow.currentStep ≤ flow.currentStep + 1
    rw [hat.current]
    exact Nat.le_succ _
  · change flow.currentStep + 1 = s.store.consumptions.length
    rw [hat.current]
    exact hat.last

theorem InOrder.completeFlow (h : InOrder s) {flow : ChallengeFlowRecord}
    (hc : s.calls[i]? = some (.completeFlow flow)) :
    InOrder ⟨{ s.store with flow := s.store.flow.completed s.store.now },
      s.calls.set i (.createAccessSession flow)⟩ := by
  obtain ⟨⟨hat, hstatus, hall⟩, honly⟩ := h.busy hc rfl
  have hread : ReadFlow s.store flow := h.fits _ (List.mem_of_getElem? hc)
  rw [ChallengeFlowRecord.completed, if_pos hstatus]
  exact h.carry hc rfl rfl rfl rfl (Nat.le_refl _) (Nat.le_refl _) (fun _ ha => ha)
    ⟨hread.policy, hread.expiresAt, hread.step⟩ (fun _ hid => (by cases hid))
    (phase_busy honly (List.getElem?_eq_some_iff.mp hc).1
      ⟨⟨hat.noSession, hat.current, hat.last⟩, rfl, hall⟩)

theorem InOrder.createAccessSession (h : InOrder s) {flow : ChallengeFlowRecord}
    {session : AccessSession} (hc : s.calls[i]? = some (.createAccessSession flow)) :
    InOrder ⟨{ s.store with sessions := s.store.sessions ++ [session] },
      s.calls.set i .done⟩ := by
  obtain ⟨⟨hat, hstatus, hall⟩, honly⟩ := h.busy hc rfl
  have hlast := hat.last
  refine h.carry hc rfl rfl rfl rfl (Nat.le_refl _) (Nat.le_refl _) (fun _ ha => ha) trivial
    (fun _ hid => (by cases hid)) (phase_idle honly rfl (.inr ⟨?_, hstatus, hall, ?_⟩))
  · change (s.store.sessions ++ [session]).length = 1
    rw [hat.noSession]
    rfl
  · change s.store.flow.currentStep < s.store.flow.policy.length
    omega

/-! ## One step -/

variable {config : ChallengeConfig}

theorem withStep_moving (flow : ChallengeFlowRecord) (row : ChallengeStepRecord)
    (caller : CurrentStepCaller) : (withStep config flow row caller).moving = false := by
  cases caller with
  | page => rfl
  | next => rfl
  | verify =>
      rw [withStep]
      split
      · rfl
      · rfl

theorem withStep_inserting (flow : ChallengeFlowRecord) (row : ChallengeStepRecord)
    (caller : CurrentStepCaller) : (withStep config flow row caller).inserting = none := by
  cases caller with
  | page => rfl
  | next => rfl
  | verify =>
      rw [withStep]
      split
      · rfl
      · rfl

theorem withStep_fits {flow : ChallengeFlowRecord} {row : ChallengeStepRecord}
    (caller : CurrentStepCaller) (hread : ReadFlow store flow)
    (hkey : (row.id, flow.currentStep) ∈ keys store.steps) :
    Fits store (withStep config flow row caller) := by
  cases caller with
  | page => exact trivial
  | next => exact trivial
  | verify =>
      rw [withStep]
      split
      · exact trivial
      · exact ⟨hread, hkey⟩

theorem mem_of_stepAt {steps : List ChallengeStepRecord} {index : Nat} {row : ChallengeStepRecord}
    (h : stepAt steps index = some row) : (row.id, index) ∈ keys steps := by
  have hindex : row.stepIndex = index := by
    simpa using List.find?_some h
  exact List.mem_map.mpr ⟨row, List.mem_of_find?_eq_some h, by rw [hindex]⟩

/-- A call goes on without a change of the store. -/
theorem InOrder.read (h : InOrder s) (hc : s.calls[i]? = some c) (hcm : c.moving = false)
    (hnm : n.moving = false) (hni : n.inserting = none) (hfits : Fits s.store n) :
    InOrder ⟨s.store, s.calls.set i n⟩ := by
  refine h.goOn hc hcm hnm rfl rfl rfl rfl (Nat.le_refl _) (fun _ ha => ha) hfits fun id hid => ?_
  rw [hni] at hid
  cases hid

theorem InOrder.resolve (h : InOrder s) (hc : s.calls[i]? = some c)
    (hstep : resolveCall config s.store c = some (store, n)) :
    InOrder ⟨store, s.calls.set i n⟩ := by
  have hfits := h.fits c (List.mem_of_getElem? hc)
  cases c with
  | flow caller =>
      rw [resolveCall] at hstep
      have hread : ReadFlow s.store s.store.flow := ⟨rfl, rfl, Nat.le_refl _⟩
      split at hstep
      · obtain ⟨rfl, rfl⟩ := Prod.mk.inj (Option.some.inj hstep)
        exact h.read hc rfl rfl rfl trivial
      · obtain ⟨rfl, rfl⟩ := Prod.mk.inj (Option.some.inj hstep)
        split
        · exact h.read hc rfl rfl rfl hread
        · exact h.read hc rfl rfl rfl hread
  | site flow =>
      obtain ⟨rfl, rfl⟩ := Prod.mk.inj (Option.some.inj hstep)
      exact h.read hc rfl rfl rfl hfits
  | step flow caller =>
      obtain ⟨rfl, rfl⟩ := Prod.mk.inj (Option.some.inj hstep)
      have hread : ReadFlow s.store flow := hfits
      cases hfound : stepAt s.store.steps flow.currentStep with
      | some existing =>
          exact h.read hc rfl (withStep_moving ..) (withStep_inserting ..)
            (withStep_fits caller hread (mem_of_stepAt hfound))
      | none =>
          cases hspec : flow.policy[flow.currentStep]? with
          | none => exact h.read hc rfl rfl rfl trivial
          | some spec =>
              have hlt := (List.getElem?_eq_some_iff.mp hspec).1
              rw [hread.policy] at hlt
              exact h.read hc rfl rfl rfl ⟨hread, hlt⟩
  | create flow spec caller =>
      obtain ⟨rfl, rfl⟩ := Prod.mk.inj (Option.some.inj hstep)
      refine h.goOn hc rfl rfl rfl rfl rfl rfl (Nat.le_succ _) (fun _ ha => ha)
        ⟨hfits.1.mono rfl rfl (Nat.le_refl _), hfits.2, rfl, rfl, Nat.lt_succ_self _,
          fun hmem => ?_⟩
        fun id hid => ?_
      · exact Nat.lt_irrefl _ (h.fresh _ hmem)
      · obtain rfl := Option.some.inj hid
        exact .inr (Nat.le_refl _)
  | insertStep flow row caller =>
      rw [resolveCall] at hstep
      split at hstep
      · obtain ⟨rfl, rfl⟩ := Prod.mk.inj (Option.some.inj hstep)
        exact h.read hc rfl rfl rfl trivial
      · rename_i hfree
        obtain ⟨rfl, rfl⟩ := Prod.mk.inj (Option.some.inj hstep)
        refine h.insert hc (Option.not_isSome_iff_eq_none.mp hfree) (withStep_moving ..)
          (withStep_inserting ..) (withStep_fits caller
            ⟨hfits.1.policy, hfits.1.expiresAt, hfits.1.step⟩ ?_)
        rw [← hfits.2.2.1]
        exact List.mem_map.mpr ⟨row, List.mem_append_right _ List.mem_cons_self, rfl⟩
  | evaluate flow row => cases hstep
  | failStepAttempt row =>
      obtain ⟨rfl, rfl⟩ := Prod.mk.inj (Option.some.inj hstep)
      exact h.goOn hc rfl rfl (keys_updateStep failed_keys ..) rfl rfl rfl
        (Nat.le_refl _) (fun _ ha => ha) trivial fun _ hid => (by cases hid)
  | consumeStep flow row consumedAt =>
      rw [resolveCall] at hstep
      split at hstep
      · obtain ⟨rfl, rfl⟩ := Prod.mk.inj (Option.some.inj hstep)
        exact h.read hc rfl rfl rfl trivial
      · rename_i hfree
        obtain ⟨rfl, rfl⟩ := Prod.mk.inj (Option.some.inj hstep)
        exact h.consume hc (Bool.eq_false_iff.mpr hfree)
  | completeStep flow row consumedAt =>
      obtain ⟨rfl, rfl⟩ := Prod.mk.inj (Option.some.inj hstep)
      exact h.complete hc
  | updateFlowStep flow =>
      obtain ⟨rfl, rfl⟩ := Prod.mk.inj (Option.some.inj hstep)
      exact h.moveOn hc
  | completeFlow flow =>
      obtain ⟨rfl, rfl⟩ := Prod.mk.inj (Option.some.inj hstep)
      exact h.completeFlow hc
  | createAccessSession flow =>
      obtain ⟨rfl, rfl⟩ := Prod.mk.inj (Option.some.inj hstep)
      exact h.createAccessSession hc
  | done => cases hstep

theorem InOrder.answer (h : InOrder s) (hc : s.calls[i]? = some c) {success : Bool}
    (htime : success = true → ∀ flow row, c = .evaluate flow row → s.store.now < flow.expiresAt)
    (hstep : answerCall s.store success c = some (store, n)) :
    InOrder ⟨store, s.calls.set i n⟩ := by
  have hfits := h.fits c (List.mem_of_getElem? hc)
  cases c with
  | evaluate flow row =>
      obtain ⟨hread, hkey⟩ := hfits
      rw [answerCall] at hstep
      split at hstep
      · rename_i hsuccess
        obtain ⟨rfl, rfl⟩ := Prod.mk.inj (Option.some.inj hstep)
        have htime := htime hsuccess flow row rfl
        rw [hread.expiresAt] at htime
        exact h.goOn hc rfl rfl rfl rfl rfl rfl (Nat.le_refl _)
          (fun _ ha => List.mem_append_left _ ha)
          ⟨hread.mono rfl rfl (Nat.le_refl _), hkey, htime,
            List.mem_append_right _ List.mem_cons_self⟩ fun _ hid => (by cases hid)
      · obtain ⟨rfl, rfl⟩ := Prod.mk.inj (Option.some.inj hstep)
        exact h.goOn hc rfl rfl rfl rfl rfl rfl (Nat.le_refl _) (fun _ ha => ha)
          (List.mem_map.mpr ⟨_, hkey, rfl⟩) fun _ hid => (by cases hid)
  | _ => cases hstep

theorem InOrder.start (h : InOrder s) (hc : startsFlow c = true) :
    InOrder { s with calls := s.calls ++ [c] } := by
  have hcases : ∃ caller, c = .flow caller := by
    rw [startsFlow, Bool.or_eq_true, decide_eq_true_eq, decide_eq_true_eq] at hc
    exact hc.elim (⟨_, ·⟩) (⟨_, ·⟩)
  obtain ⟨caller, rfl⟩ := hcases
  refine ⟨h.indices, h.ids, h.fresh, h.consumed, h.reached, h.inPolicy, h.inTime, fun d hd => ?_,
    fun j k d e id hd he hdi hei => ?_, ?_⟩
  · rcases List.mem_snoc.mp hd with hold | rfl
    · exact h.fits d hold
    · exact trivial
  · rcases getElem?_concat_cases hd with hd | ⟨-, rfl⟩
    · rcases getElem?_concat_cases he with he | ⟨-, rfl⟩
      · exact h.inserts j k d e id hd he hdi hei
      · cases hei
    · cases hdi
  · rcases h.phase with ⟨hidle, hnone⟩ | ⟨j, d, hd, hbusy, honly⟩
    · refine .inl ⟨hidle, fun d hd => ?_⟩
      rcases List.mem_snoc.mp hd with hold | rfl
      · exact hnone d hold
      · rfl
    · refine .inr ⟨j, d, ?_, hbusy, fun k e he hm => ?_⟩
      · exact (List.getElem?_append_left (List.getElem?_eq_some_iff.mp hd).1).trans hd
      · rcases getElem?_concat_cases he with hold | ⟨-, rfl⟩
        · exact honly k e hold hm
        · cases hm

theorem InOrder.pass (h : InOrder s) (ms : Nat) :
    InOrder { s with store := passTime s.store ms } := by
  refine ⟨h.indices, h.ids, h.fresh, h.consumed, h.reached, h.inPolicy, h.inTime, fun d hd => ?_,
    h.inserts, ?_⟩
  · exact (h.fits d hd).mono rfl rfl (Nat.le_refl _) (fun _ hk => hk) (Nat.le_refl _)
      (fun _ ha => ha) fun id hid => (not_inserted h hd hid).1
  · exact h.phase.imp (fun ⟨hidle, hnone⟩ => ⟨hidle.congr rfl rfl rfl, hnone⟩)
      fun ⟨j, d, hd, hbusy, honly⟩ => ⟨j, d, hd, hbusy.congr rfl rfl rfl, honly⟩

theorem InOrder.step {t : ChallengeSystem} {a : ChallengeAction} (h : InOrder s)
    (ha : AnswersInTime config s a) (hstep : challengeStep config s a = some t) : InOrder t := by
  cases a with
  | start c =>
      rw [challengeStep, Lib.Calls.step] at hstep
      split at hstep
      · rename_i hstarts
        obtain rfl := Option.some.inj hstep
        exact h.start hstarts
      · cases hstep
  | world ms =>
      obtain rfl := Option.some.inj hstep
      exact h.pass ms
  | call i e =>
      obtain ⟨c, hc, hrest⟩ := Option.bind_eq_some_iff.mp hstep
      obtain ⟨⟨store, n⟩, hcall, rfl⟩ := Option.map_eq_some_iff.mp hrest
      rw [AnswersInTime, hc, Option.all_some] at ha
      cases e with
      | resolves => exact h.resolve hc hcall
      | verified success =>
          refine h.answer hc (fun hsuccess flow row heq => ?_) hcall
          subst hsuccess heq
          exact of_decide_eq_true ha
      | throws =>
          have hmoving : c.moving = false := by
            cases c with
            | completeStep | updateFlowStep | completeFlow | createAccessSession => cases ha
            | _ => rfl
          rw [challengeCall] at hcall
          split at hcall
          · cases hcall
          · obtain ⟨rfl, rfl⟩ := Prod.mk.inj (Option.some.inj hcall)
            exact h.read hc hmoving rfl rfl trivial

theorem inOrder_start (h : StartsFlow s) : InOrder s := by
  obtain ⟨hpending, hfirst, ⟨hsteps, hconsumptions, hsessions⟩, -, hcalls⟩ := h
  have hnoCall : ∀ c, c ∉ s.calls := by
    rw [hcalls]
    exact fun _ hc => (by cases hc)
  refine ⟨?_, ?_, ?_, ?_, ?_, ?_, ?_, fun c hc => absurd hc (hnoCall c),
    fun j k c d id hc => absurd (List.mem_of_getElem? hc) (hnoCall c), .inl ⟨.inl
      ⟨hsessions, hpending, ?_, ?_⟩, fun c hc => absurd hc (hnoCall c)⟩⟩
  · rw [hsteps]
    rfl
  · rw [hsteps]
    exact List.nodup_nil
  · rw [hsteps]
    exact fun _ hid => (by cases hid)
  · rw [hsteps, hconsumptions]
    rfl
  · rw [hsteps]
    exact Nat.zero_le _
  · rw [hsteps]
    exact Nat.zero_le _
  · rw [hconsumptions]
    exact fun _ ha => (by cases ha)
  · rw [hfirst, hconsumptions]
    rfl
  · rw [hconsumptions]
    cases s.store.flow.policy with
    | nil => exact .inr rfl
    | cons => exact .inl (Nat.succ_pos _)

/-- In a run that meets the condition the steps are consumed in order. -/
theorem inOrder_of_reach (h : Reach (challengeStep config) (AnswersInTime config) StartsFlow s) :
    InOrder s :=
  h.invariant (fun _ => inOrder_start) fun _ _ _ _ hs ha hstep => hs.step ha hstep

end BurrowGate.Challenge
