import BurrowGate.PendingChange.PendingChanges

/-!
# A change is applied at most once

The due rows are a snapshot, and neither the scheduler nor an apply-now claims a row
before it calls the applier. `Orderly` is the condition that they would have met one that
claims it, and that the outcome of an applier that succeeded is stored. Its runs are runs
of the claimed jobs.
-/

namespace BurrowGate.PendingChange

open Lib.ClaimedJobs
open Lib.Run

variable {env : PendingChangeEnv}

/-! ## The ledger of the jobs -/

/-- A row that is not applied waits, also one that failed. -/
def statusOf (table : List PendingChangeRecord) (id : ChangeId) : JobStatus :=
  match pendingChangeById table id with
  | none => .absent
  | some row => if row.status = .applied then .done else .waiting

def DueStage.held : DueStage → List (ChangeId × Bool)
  | .applying row _ => [(row.id, false)]
  | .storing _ update _ => [(update.id, update.status = .applied)]
  | .reading _ | .rows _ => []

def NowStage.held : NowStage → List (ChangeId × Bool)
  | .applying row => [(row.id, false)]
  | .deleting id => [(id, true)]
  | .reading _ | .found _ => []

/-- The changes whose applier was called and whose outcome is not stored. -/
def held (s : ChangeSystem) : List (ChangeId × Bool) :=
  s.due.toList.flatMap DueStage.held ++ s.now.flatMap NowStage.held

def ledger (s : ChangeSystem) : Ledger ChangeId where
  status := statusOf s.table
  held := held s
  gone id := .deleted id ∈ s.cancels ∨ .withdrawn id ∈ s.history
  history := s.history

/-! ## The condition -/

/-- The row of the change is there and not applied, and nobody else has the change. -/
def Claimable (s : ChangeSystem) (id : ChangeId) : Prop :=
  statusOf s.table id = .waiting ∧ ((held s).map Prod.fst).contains id = false

instance (s : ChangeSystem) (id : ChangeId) : Decidable (Claimable s id) :=
  inferInstanceAs (Decidable (_ ∧ _))

theorem Claimable.not_held {s : ChangeSystem} {id : ChangeId} (h : Claimable s id) :
    id ∉ (held s).map Prod.fst := by
  intro hmem
  have hheld := h.2
  rw [List.contains_iff_mem.mpr hmem] at hheld
  cases hheld

/-- The change whose applier a step would call. -/
def calls (env : PendingChangeEnv) (s : ChangeSystem) : ChangeAction → Option ChangeId
  | .dueNext =>
      match s.due with
      | some (.rows (row :: _)) =>
          if env.appliers.contains row.entityType then some row.id else none
      | _ => none
  | .nowCalls i =>
      match s.now[i]? with
      | some (.found row) => if env.appliers.contains row.entityType then some row.id else none
      | _ => none
  | _ => none

/-- The step is the repository call that stores a success, and it throws. -/
def losesSuccess (s : ChangeSystem) : ChangeAction → Bool
  | .dueFails _ =>
      match s.due with
      | some (.storing _ update _) => update.status = .applied
      | _ => false
  | .nowFails i =>
      match s.now[i]? with
      | some (.deleting _) => true
      | _ => false
  | _ => false

/-- An applier is called for a change that can be claimed, and a success is stored. -/
def Orderly (env : PendingChangeEnv) (s : ChangeSystem) (a : ChangeAction) : Prop :=
  (∀ id, calls env s a = some id → Claimable s id) ∧ losesSuccess s a = false

/-! ## What the steps do to the ledger -/

theorem pendingChangeById_update (table : List PendingChangeRecord) (u : StatusUpdate)
    (id : ChangeId) : pendingChangeById (updatePendingChangeStatus table u) id =
      (pendingChangeById table id).map fun row =>
        if row.id = u.id then
          { row with
            status := u.status
            attempts := u.attempts
            applyAt := u.applyAt
            lastError := u.lastError
            appliedAt := u.appliedAt }
        else row := by
  rw [pendingChangeById, updatePendingChangeStatus, List.find?_map, pendingChangeById]
  congr 2
  funext row
  simp only [Function.comp]
  split <;> rfl

theorem statusOf_update_ne (table : List PendingChangeRecord) {u : StatusUpdate} {id : ChangeId}
    (h : id ≠ u.id) : statusOf (updatePendingChangeStatus table u) id = statusOf table id := by
  rw [statusOf, statusOf, pendingChangeById_update]
  cases hrow : pendingChangeById table id with
  | none => rfl
  | some row =>
      have hid : row.id = id := by simpa using List.find?_some hrow
      simp [hid, h]

theorem statusOf_update_absent (table : List PendingChangeRecord) (u : StatusUpdate)
    (id : ChangeId) (h : statusOf table id = .absent) :
    statusOf (updatePendingChangeStatus table u) id = .absent := by
  rw [statusOf, pendingChangeById_update]
  rw [statusOf] at h
  cases hrow : pendingChangeById table id with
  | none => rfl
  | some row =>
      simp only [hrow] at h
      split at h <;> cases h

theorem statusOf_update_applied (table : List PendingChangeRecord) {u : StatusUpdate}
    (h : u.status = .applied) : statusOf (updatePendingChangeStatus table u) u.id ≠ .waiting := by
  rw [statusOf, pendingChangeById_update]
  cases hrow : pendingChangeById table u.id with
  | none => simp
  | some row =>
      have hid : row.id = u.id := by simpa using List.find?_some hrow
      simp [hid, h]

theorem statusOf_delete_self (table : List PendingChangeRecord) (id : ChangeId) :
    statusOf (deletePendingChange table id) id = .absent := by
  have hnone : pendingChangeById (deletePendingChange table id) id = none := by
    simp [pendingChangeById, deletePendingChange]
  rw [statusOf, hnone]

theorem statusOf_delete_ne (table : List PendingChangeRecord) {id x : ChangeId} (h : x ≠ id) :
    statusOf (deletePendingChange table id) x = statusOf table x := by
  have hsame : pendingChangeById (deletePendingChange table id) x = pendingChangeById table x := by
    rw [pendingChangeById, deletePendingChange, List.find?_filter, pendingChangeById]
    congr 1
    funext row
    by_cases hrow : row.id = x
    · simp [hrow, h]
    · simp [hrow]
  rw [statusOf, hsame, statusOf]

/-- What is held apart from one apply-now. -/
def heldWithout (s : ChangeSystem) (i : Nat) : List (ChangeId × Bool) :=
  s.due.toList.flatMap DueStage.held ++ (s.now.eraseIdx i).flatMap NowStage.held

theorem held_perm {s : ChangeSystem} {i : Nat} {stage : NowStage} (h : s.now[i]? = some stage) :
    (held s).Perm (stage.held ++ heldWithout s i) := by
  obtain ⟨hlt, rfl⟩ := List.getElem?_eq_some_iff.mp h
  have hperm := (List.getElem_cons_eraseIdx_perm hlt).flatMap_right NowStage.held
  exact (hperm.symm.append_left _).trans (List.perm_append_comm_assoc _ _ _)

theorem held_set_perm {s : ChangeSystem} {i : Nat} (hlt : i < s.now.length) (stage : NowStage) :
    (s.due.toList.flatMap DueStage.held ++ (s.now.set i stage).flatMap NowStage.held).Perm
      (stage.held ++ heldWithout s i) := by
  have hperm := (List.set_perm_cons_eraseIdx hlt stage).flatMap_right NowStage.held
  exact (hperm.append_left _).trans (List.perm_append_comm_assoc _ _ _)

/-! ## Refinement -/

/-- A step that touches neither the table nor what is held, and adds no event. -/
theorem refines_same {s s' : ChangeSystem} (htable : s'.table = s.table)
    (hheld : (held s').Perm (held s)) (hcancels : s'.cancels = s.cancels)
    (hhistory : s'.history = s.history) : Step (ledger s) (ledger s') := by
  refine .same ?_ hheld (fun x => ?_) hhistory
  · simp only [ledger, htable]
  · simp only [ledger, hcancels, hhistory]

/-- An apply-now that held nothing goes on and holds nothing. -/
theorem refines_now {s s' : ChangeSystem} {i : Nat} {stage : NowStage} (hi : s.now[i]? = some stage)
    (hstage : stage.held = []) (htable : s'.table = s.table) (hdue : s'.due = s.due)
    (hnow : s'.now = s.now.eraseIdx i ∨ ∃ stage', s'.now = s.now.set i stage' ∧ stage'.held = [])
    (hcancels : s'.cancels = s.cancels) (hhistory : s'.history = s.history) :
    Step (ledger s) (ledger s') := by
  have hbefore : (held s).Perm (heldWithout s i) := by
    have h := held_perm hi
    rwa [hstage] at h
  refine refines_same htable ?_ hcancels hhistory
  rcases hnow with herase | ⟨stage', hset, hempty⟩
  · rw [held, hdue, herase]
    exact hbefore.symm
  · have hafter := held_set_perm (List.getElem?_eq_some_iff.mp hi).1 stage'
    rw [hempty] at hafter
    rw [held, hdue, hset]
    exact hafter.trans hbefore.symm

theorem due_refines {s s' : ChangeSystem} {a : ChangeAction} {stage : DueStage}
    (hdue : s.due = some stage) (hcond : Orderly env s a) (h : dueStep env s a stage = some s') :
    Step (ledger s) (ledger s') := by
  have hheld : held s = stage.held ++ s.now.flatMap NowStage.held := by
    simp [held, hdue]
  cases stage with
  | reading now =>
      cases a <;> simp only [dueStep, reduceCtorEq] at h
      case dueRead due =>
          split at h
          · obtain rfl := Option.some.inj h
            exact refines_same rfl (.of_eq hheld.symm) rfl rfl
          · cases h
      case dueFails message =>
          obtain rfl := Option.some.inj h
          exact refines_same rfl (.of_eq hheld.symm) rfl rfl
  | rows due =>
      cases a <;> simp only [dueStep, reduceCtorEq] at h
      obtain rfl := Option.some.inj h
      cases due with
      | nil => exact refines_same rfl (.of_eq hheld.symm) rfl rfl
      | cons row rest =>
          rw [dueNext]
          split
          · next happlier =>
            have hclaim : Claimable s row.id := hcond.1 row.id (by
              simp only [calls, hdue]
              exact if_pos happlier)
            refine .call row.id hclaim.1 hclaim.not_held rfl ?_ (fun x => ?_) rfl
            · change (held _).Perm ((row.id, false) :: held s)
              rw [hheld]
              exact .refl _
            · simp [ledger]
          · exact refines_same rfl (.of_eq hheld.symm) rfl rfl
  | applying row rest =>
      cases a <;> simp only [dueStep, reduceCtorEq] at h
      case dueResolves =>
          obtain rfl := Option.some.inj h
          refine .succeed row.id (s.now.flatMap NowStage.held) (.of_eq hheld) rfl ?_ (fun x => ?_) rfl
          · exact .refl _
          · simp [ledger]
      case dueRejects message =>
          obtain rfl := Option.some.inj h
          refine refines_same rfl (.of_eq ?_) rfl rfl
          rw [hheld]
          simp only [held, Option.toList_some, List.flatMap_cons, List.flatMap_nil, List.append_nil,
            DueStage.held, failureUpdate]
          split <;> rfl
  | storing row update rest =>
      cases a <;> simp only [dueStep, reduceCtorEq] at h
      case dueStored =>
          obtain rfl := Option.some.inj h
          have hrest : held { s with
              table := updatePendingChangeStatus s.table update, due := some (.rows rest) } =
              s.now.flatMap NowStage.held := rfl
          by_cases happlied : update.status = .applied
          · rw [DueStage.held, happlied] at hheld
            exact .store update.id _ (.of_eq hheld) (fun x hx => statusOf_update_ne s.table hx)
              (statusOf_update_absent s.table update update.id)
              (statusOf_update_applied s.table happlied) (.of_eq hrest) (fun x => .rfl) rfl
          · rw [DueStage.held, decide_eq_false happlied] at hheld
            exact .release update.id _ (.of_eq hheld) (fun x hx => statusOf_update_ne s.table hx)
              (statusOf_update_absent s.table update update.id) (.of_eq hrest) (fun x => .rfl) rfl
      case dueFails message =>
          have hfailed : update.status ≠ .applied := by
            have hnot := hcond.2
            simpa [losesSuccess, hdue] using hnot
          have hs' : s' = { s with due := none } := by
            cases hstatus : update.status with
            | applied => exact absurd hstatus hfailed
            | pending => simpa [hstatus, eq_comm] using h
            | failed => simpa [hstatus, eq_comm] using h
          subst hs'
          rw [DueStage.held, decide_eq_false hfailed] at hheld
          exact .release update.id _ (.of_eq hheld) (fun x _ => rfl) id (.refl _) (fun x => .rfl) rfl

theorem now_refines {s s' : ChangeSystem} {a : ChangeAction} {i : Nat} {stage : NowStage}
    (hi : s.now[i]? = some stage) (hcond : Orderly env s a)
    (hindex : ∀ j, a = .nowCalls j ∨ a = .nowFails j → j = i)
    (h : nowStep env s i a stage = some s') : Step (ledger s) (ledger s') := by
  have hlt : i < s.now.length := (List.getElem?_eq_some_iff.mp hi).1
  have hbefore := held_perm hi
  cases stage with
  | reading id =>
      cases a <;> simp only [nowStep, reduceCtorEq] at h
      case nowRead j =>
          split at h
          · next row _ =>
            obtain rfl := Option.some.inj h
            exact refines_now hi rfl rfl rfl (.inr ⟨.found row, rfl, rfl⟩) rfl rfl
          · obtain rfl := Option.some.inj h
            exact refines_now hi rfl rfl rfl (.inl rfl) rfl rfl
      case nowFails j =>
          obtain rfl := Option.some.inj h
          exact refines_now hi rfl rfl rfl (.inl rfl) rfl rfl
  | found row =>
      cases a <;> simp only [nowStep, reduceCtorEq] at h
      case nowCalls j =>
          split at h
          · next happlier =>
            obtain rfl := hindex j (.inl rfl)
            obtain rfl := Option.some.inj h
            have hclaim : Claimable s row.id := hcond.1 row.id (by
              simp only [calls, hi]
              exact if_pos happlier)
            have hnone : NowStage.held (.found row) = [] := rfl
            rw [hnone, List.nil_append] at hbefore
            refine .call row.id hclaim.1 hclaim.not_held rfl ?_ (fun x => by simp [ledger]) rfl
            exact (held_set_perm hlt (.applying row)).trans (hbefore.symm.cons _)
          · obtain rfl := Option.some.inj h
            exact refines_now hi rfl rfl rfl (.inl rfl) rfl rfl
  | applying row =>
      cases a <;> simp only [nowStep, reduceCtorEq] at h
      case nowResolves j =>
          obtain rfl := Option.some.inj h
          exact .succeed row.id (heldWithout s i) hbefore rfl
            (held_set_perm hlt (.deleting row.id)) (fun x => by simp [ledger]) rfl
      case nowRejects j =>
          obtain rfl := Option.some.inj h
          exact .release row.id (heldWithout s i) hbefore (fun x _ => rfl) id (.refl _)
            (fun x => .rfl) rfl
  | deleting id =>
      cases a <;> simp only [nowStep, reduceCtorEq] at h
      case nowDeleted j =>
          obtain rfl := Option.some.inj h
          have habsent := statusOf_delete_self s.table id
          refine .store id (heldWithout s i) hbefore (fun x hx => statusOf_delete_ne s.table hx)
            (fun _ => habsent) ?_ (.refl _) (fun x => .rfl) rfl
          exact fun hwaiting => by
            rw [show statusOf (deletePendingChange s.table id) id = .waiting from hwaiting] at habsent
            cases habsent
      case nowFails j =>
          obtain rfl := hindex j (.inr rfl)
          have hlost := hcond.2
          simp [losesSuccess, hi] at hlost

theorem mem_set_cancels {s : ChangeSystem} {i : Nat} {stage stage' : CancelStage} {id : ChangeId}
    (hi : s.cancels[i]? = some stage) (hstage : stage ≠ .deleted id) :
    .deleted id ∈ s.cancels.set i stage' ↔ stage' = .deleted id ∨ .deleted id ∈ s.cancels := by
  obtain ⟨hlt, hget⟩ := List.getElem?_eq_some_iff.mp hi
  have hafter := (List.set_perm_cons_eraseIdx hlt stage').mem_iff (a := CancelStage.deleted id)
  have hbefore := (List.getElem_cons_eraseIdx_perm hlt).mem_iff (a := CancelStage.deleted id)
  rw [hget] at hbefore
  rw [hafter, ← hbefore, List.mem_cons, List.mem_cons, eq_comm]
  have hne : CancelStage.deleted id ≠ stage := hstage.symm
  simp [hne]

theorem mem_eraseIdx_cancels {s : ChangeSystem} {i : Nat} {stage : CancelStage} {id : ChangeId}
    (hi : s.cancels[i]? = some stage) (hstage : stage ≠ .deleted id) :
    .deleted id ∈ s.cancels.eraseIdx i ↔ .deleted id ∈ s.cancels := by
  obtain ⟨hlt, hget⟩ := List.getElem?_eq_some_iff.mp hi
  have hbefore := (List.getElem_cons_eraseIdx_perm hlt).mem_iff (a := CancelStage.deleted id)
  rw [hget] at hbefore
  have hne : CancelStage.deleted id ≠ stage := hstage.symm
  rw [← hbefore, List.mem_cons]
  simp [hne]

/-- A cancellation that deletes nothing. -/
theorem refines_cancel {s s' : ChangeSystem} {i : Nat} {stage : CancelStage}
    (hi : s.cancels[i]? = some stage) (hstage : ∀ id, stage ≠ .deleted id)
    (htable : s'.table = s.table) (hdue : s'.due = s.due) (hnow : s'.now = s.now)
    (hcancels : s'.cancels = s.cancels.eraseIdx i ∨
      ∃ stage', s'.cancels = s.cancels.set i stage' ∧ ∀ id, stage' ≠ .deleted id)
    (hhistory : s'.history = s.history) : Step (ledger s) (ledger s') := by
  refine .same (by simp only [ledger, htable]) (.of_eq ?_) (fun x => ?_) hhistory
  · simp only [ledger, held, hdue, hnow]
  · simp only [ledger, hhistory]
    rcases hcancels with herase | ⟨stage', hset, hstage'⟩
    · rw [herase, mem_eraseIdx_cancels hi (hstage x)]
    · rw [hset, mem_set_cancels hi (hstage x)]
      simp [hstage' x]

theorem cancel_refines {s s' : ChangeSystem} {a : ChangeAction} {i : Nat} {stage : CancelStage}
    (hi : s.cancels[i]? = some stage) (h : cancelStep s i a stage = some s') :
    Step (ledger s) (ledger s') := by
  cases stage with
  | reading id =>
      cases a <;> simp only [cancelStep, reduceCtorEq] at h
      case cancelRead j =>
          split at h
          · obtain rfl := Option.some.inj h
            exact refines_cancel hi (by simp) rfl rfl rfl (.inr ⟨.deleting id, rfl, by simp⟩) rfl
          · obtain rfl := Option.some.inj h
            exact refines_cancel hi (by simp) rfl rfl rfl (.inl rfl) rfl
      case cancelFails j =>
          obtain rfl := Option.some.inj h
          exact refines_cancel hi (by simp) rfl rfl rfl (.inl rfl) rfl
  | deleting id =>
      cases a <;> simp only [cancelStep, reduceCtorEq] at h
      case cancelDeleted j =>
          obtain rfl := Option.some.inj h
          refine .withdraw id (fun x hx => statusOf_delete_ne s.table hx)
            (statusOf_delete_self s.table id) (.refl _) (fun x => ?_) rfl
          simp only [ledger]
          rw [mem_set_cancels hi (by simp), CancelStage.deleted.injEq, or_assoc, eq_comm]
      case cancelFails j =>
          obtain rfl := Option.some.inj h
          exact refines_cancel hi (by simp) rfl rfl rfl (.inl rfl) rfl
  | deleted id =>
      cases a <;> simp only [cancelStep, reduceCtorEq] at h
      obtain rfl := Option.some.inj h
      have hmem : .deleted id ∈ s.cancels := List.mem_of_getElem? hi
      refine .withdrawn id (.inl hmem) rfl (.refl _) (fun x => ?_) rfl
      simp only [ledger, List.mem_append, List.mem_singleton, JobEvent.withdrawn.injEq]
      by_cases hx : x = id
      · subst hx
        simp [hmem]
      · have hne : CancelStage.deleted id ≠ .deleted x := fun h => hx (CancelStage.deleted.inj h).symm
        rw [mem_eraseIdx_cancels hi hne]
        simp [hx]

/-- An orderly step is a step of the claimed jobs. -/
theorem changeStep_refines {s s' : ChangeSystem} {a : ChangeAction} (hcond : Orderly env s a)
    (h : changeStep env s a = some s') : Step (ledger s) (ledger s') := by
  cases a
  case tick ms =>
    obtain rfl := Option.some.inj h
    exact refines_same rfl (.refl _) rfl rfl
  case applyDue replica =>
    simp only [changeStep] at h
    split at h
    · obtain rfl := Option.some.inj h
      exact refines_same rfl (.refl _) rfl rfl
    · next hrunning =>
      obtain rfl := Option.some.inj h
      have hnone : s.due = none := by
        cases hdue : s.due with
        | none => rfl
        | some stage => simp [hdue] at hrunning
      exact refines_same rfl (.of_eq (by simp [held, hnone, DueStage.held])) rfl rfl
  case applyNow id =>
    obtain rfl := Option.some.inj h
    refine refines_same rfl (.of_eq ?_) rfl rfl
    simp [held, NowStage.held]
  case cancel id =>
    obtain rfl := Option.some.inj h
    refine .same rfl (.refl _) (fun x => ?_) rfl
    simp [ledger]
  case dueRead | dueNext | dueResolves | dueRejects | dueStored | dueFails =>
    obtain ⟨stage, hdue, hstep⟩ := Option.bind_eq_some_iff.mp h
    exact due_refines hdue hcond hstep
  case nowRead | nowCalls | nowResolves | nowRejects | nowDeleted | nowFails =>
    obtain ⟨stage, hi, hstep⟩ := Option.bind_eq_some_iff.mp h
    refine now_refines hi hcond (fun j hj => ?_) hstep
    rcases hj with hj | hj <;> cases hj <;> rfl
  case cancelRead | cancelDeleted | cancelReturns | cancelFails =>
    obtain ⟨stage, hi, hstep⟩ := Option.bind_eq_some_iff.mp h
    exact cancel_refines hi hstep

/-! ## Every orderly run -/

/-- On a run whose appliers are called for claimable changes and whose successes are stored,
the applier of a change succeeds at most once, and it is not called after a cancellation
of the change returned. -/
theorem pending_change_applied_once {s : ChangeSystem}
    (h : Reach (changeStep env) (Orderly env) ChangeSystem.Initial s) :
    AtMostOnce s.history ∧ NeverAfterWithdrawal s.history := by
  have hs : Sound (ledger s) := by
    refine h.invariant (fun s hinit => ?_) fun s a s' _ hs hcond hstep =>
      sound_step hs (changeStep_refines hcond hstep)
    obtain ⟨-, hdue, hnow, hcancels, hhistory⟩ := hinit
    exact sound_start (by simp [ledger, held, hdue, hnow])
      (by simp [ledger, hcancels, hhistory]) hhistory
  exact ⟨hs.once, hs.ordered⟩

section Snapshot

def streamEnv : PendingChangeEnv :=
  { maxAttempts := 5, retryBackoffSeconds := 60, appliers := [.site, .stream] }

def dueRow (id : String) : PendingChangeRecord :=
  { id := id.toList, entityType := .stream, entityId := id.toList, changesJson := "\x7b\x7d".toList,
    applyAt := 1000, status := .pending, attempts := 0, lastError := none, appliedAt := none }

def ChangeSystem.twoDue : ChangeSystem :=
  { clock := 5000, table := [dueRow "p1", dueRow "p2"], due := none, now := [], cancels := [],
    history := [] }

theorem twoDue_initial : ChangeSystem.twoDue.Initial := by
  refine ⟨?_, rfl, rfl, rfl, rfl⟩
  decide

/-- The second change is cancelled first; the applier of the first one fails once. -/
def orderlyActions : List ChangeAction :=
  [.cancel "p2".toList, .cancelRead 0, .cancelDeleted 0, .cancelReturns 0, .applyDue false,
    .dueRead [dueRow "p1"], .dueNext, .dueRejects "busy".toList, .dueStored, .dueNext,
    .applyNow "p1".toList, .nowRead 0, .nowCalls 0, .nowResolves 0, .nowDeleted 0]

/-- The scheduler has read both rows and is in the applier of the first one. -/
def snapshotActions : List ChangeAction :=
  [.applyDue false, .dueRead [dueRow "p1", dueRow "p2"], .dueNext]

def appliedMeanwhile : List ChangeAction :=
  snapshotActions ++ [ChangeAction.applyNow "p2".toList, .nowRead 0, .nowCalls 0, .nowResolves 0,
    .nowDeleted 0, .dueResolves, .dueStored, .dueNext, .dueResolves]

def cancelledMeanwhile : List ChangeAction :=
  snapshotActions ++ [ChangeAction.cancel "p2".toList, .cancelRead 0, .cancelDeleted 0,
    .cancelReturns 0, .dueResolves, .dueStored, .dueNext]

instance : ∀ s a, Decidable (Orderly streamEnv s a) := fun s a =>
  inferInstanceAs (Decidable ((∀ id, calls streamEnv s a = some id → Claimable s id) ∧ _))

theorem pending_change_applied_once_orderly :
    ∃ s, execIf (changeStep streamEnv) (Orderly streamEnv) .twoDue orderlyActions = some s ∧
      .succeeded "p1".toList ∈ s.history ∧ AtMostOnce s.history ∧
        NeverAfterWithdrawal s.history := by
  obtain ⟨s, hs, happlied⟩ := (Option.any_eq_true ..).mp
    (show (execIf (changeStep streamEnv) (Orderly streamEnv) .twoDue orderlyActions).any
      (fun s => s.history.contains (.succeeded "p1".toList)) = true by decide +kernel)
  exact ⟨s, hs, List.contains_iff_mem.mp happlied,
    pending_change_applied_once (execIf_reach (.start twoDue_initial) hs)⟩

/-- Without the condition a change is applied twice, and one is applied after its
cancellation. -/
theorem pending_change_applied_again :
    (¬ ∀ s, Reach (changeStep streamEnv) Any ChangeSystem.Initial s → AtMostOnce s.history) ∧
      ¬ ∀ s, Reach (changeStep streamEnv) Any ChangeSystem.Initial s →
        NeverAfterWithdrawal s.history := by
  constructor
  · intro h
    obtain ⟨s, hs, htwice⟩ := (Option.any_eq_true ..).mp
      (show (exec (changeStep streamEnv) .twoDue appliedMeanwhile).any
        (fun s => s.history.count (.succeeded "p2".toList) = 2) = true by decide +kernel)
    have honce := h s (exec_reach (.start twoDue_initial) hs) "p2".toList
    rw [of_decide_eq_true htwice] at honce
    exact absurd honce (by decide)
  · intro h
    obtain ⟨s, hs, hhistory⟩ := (Option.any_eq_true ..).mp
      (show (exec (changeStep streamEnv) .twoDue cancelledMeanwhile).any
        (fun s => s.history = [.called "p1".toList, .withdrawn "p2".toList, .succeeded "p1".toList,
          .called "p2".toList]) = true by decide +kernel)
    have hnever := h s (exec_reach (.start twoDue_initial) hs) [.called "p1".toList]
      [.succeeded "p1".toList, .called "p2".toList] "p2".toList (of_decide_eq_true hhistory)
    exact hnever (by simp)

end Snapshot

end BurrowGate.PendingChange
