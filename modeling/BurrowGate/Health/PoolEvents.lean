import BurrowGate.Health.OriginHealth
import BurrowGate.Lib.Run
import BurrowGate.Lib.TransitionLog
import Mathlib.Data.List.Nodup
import Mathlib.Data.List.Perm.Basic

/-!
# Pool health events form a chain

A check reads the state of the pool before its writes and recomputes it after them, so
two checks can record the same transition, and a check that outlives the removal of its
site recomputes the pool of no origins. On runs where a check recomputes only a pool that is
in the state it has read, inserts its transition in turn and is not overtaken by the removal
of the site, the recorded transitions lead from the first state to the current one.
-/

namespace BurrowGate.Health

open Lib Lib.Run

/-! ## What is recorded -/

def OriginHealthEvent.transition (e : OriginHealthEvent) : OriginHealthState × OriginHealthState :=
  (e.fromState, e.toState)

def HealthOutput.transition? : HealthOutput → Option (OriginHealthState × OriginHealthState)
  | .poolEvent e => some e.transition
  | _ => none

def HealthOutput.notice? : HealthOutput → Option NotificationEventType
  | .notification n => some n.eventType
  | _ => none

/-- The transitions of the inserted pool events, in insertion order. -/
def recorded (s : HealthSystem) : List (OriginHealthState × OriginHealthState) :=
  s.produced.filterMap HealthOutput.transition?

/-- The pool event that a check is about to insert. -/
def RunningCheck.due (check : RunningCheck) : Option (OriginId × OriginHealthEvent) :=
  match check.stage with
  | .savingPool c next | .insertingPoolEvent c next =>
      some (check.origin, poolEvent c.previousPool.state next c.result)
  | _ => none

theorem due_origin {check : RunningCheck} {d : OriginId × OriginHealthEvent}
    (h : check.due = some d) : d.1 = check.origin := by
  obtain ⟨origin, stage⟩ := check
  cases stage <;> cases h <;> rfl

/-- The notification that a check is about to send. -/
def RunningCheck.notice (check : RunningCheck) : Option NotificationEventType :=
  match check.stage with
  | .notifying n => some n.eventType
  | _ => none

def noticesSent (s : HealthSystem) (t : NotificationEventType) : Nat :=
  (s.produced.filterMap HealthOutput.notice?).count t

def noticesDue (s : HealthSystem) (t : NotificationEventType) : Nat :=
  (s.checks.filterMap RunningCheck.notice).count t

/-- The recorded transitions of which the source sends a notification. -/
def noticesOwed (s : HealthSystem) (t : NotificationEventType) : Nat :=
  ((recorded s).filterMap fun e => poolNotice e.1 e.2).count t

/-- No check has a transition to insert. -/
def Settled (s : HealthSystem) : Prop := ∀ check ∈ s.checks, check.due = none

/-! ## The condition -/

def CheckStage.isFetching : CheckStage → Bool
  | .fetching _ => true
  | _ => false

def CheckStage.pastRecompute : CheckStage → Bool
  | .savingPool _ _ | .insertingPoolEvent _ _ | .notifying _ => true
  | _ => false

/-- A check recomputes a pool that is in the state the check has read, transitions are inserted in
the order they were computed, and no write of a check fails after it recomputed the pool. -/
def checkSerial (s : HealthSystem) (check : RunningCheck) : HealthAction → Bool
  | .recompute _ =>
      match check.stage with
      | .recomputing c => c.previousPool.state = s.poolState
      | _ => true
  | .poolEventInserted _ => s.computed.head?.all fun d => d.1 = check.origin
  | .writeFails _ => !check.stage.pastRecompute
  | _ => true

/-- The site is removed while its checks still wait for replies. -/
def serial (s : HealthSystem) (a : HealthAction) : Bool :=
  match a with
  | .removeSite => s.checks.all fun check => check.stage.isFetching
  | .recompute i | .poolEventInserted i | .writeFails i =>
      s.checks[i]?.all fun check => checkSerial s check a
  | _ => true

def Serial (s : HealthSystem) (a : HealthAction) : Prop := serial s a = true

/-! ## The invariant -/

structure Serialized (p : OriginHealthState) (s : HealthSystem) : Prop where
  chained : ∃ q, Chained p (recorded s ++ s.computed.map fun d => d.2.transition) q ∧
    (s.removedAt = none → q = s.poolState)
  due : s.computed.Perm (s.checks.filterMap RunningCheck.due)
  running : (s.checks.map (·.origin)).Nodup
  notices : ∀ t, t = .poolUnhealthy ∨ t = .poolRecovered →
    noticesSent s t + noticesDue s t = noticesOwed s t
  quiet : ∀ n, s.removedAt = some n → s.produced.length = n ∧ s.pool = none ∧ s.runtime = [] ∧
    ∀ check ∈ s.checks, check.stage.isFetching = true

theorem serialized_start {p : OriginHealthState} {s : HealthSystem} (h : s.Initial p) :
    Serialized p s := by
  obtain ⟨hpool, hchecks, hproduced, hcomputed, hremoved⟩ := h
  refine ⟨⟨p, ?_, fun _ => hpool.symm⟩, ?_, ?_, fun t _ => ?_, fun n hn => ?_⟩
  · simp [recorded, hproduced, hcomputed]
  · simp [hchecks, hcomputed]
  · simp [hchecks]
  · simp [noticesSent, noticesDue, noticesOwed, recorded, hproduced, hchecks]
  · rw [hremoved] at hn
    cases hn

/-! ## One check goes on -/

section OneCheck

/-- The checks after one of them goes on, or ends. -/
def checksAfter (checks : List RunningCheck) (i : Nat) : Option RunningCheck → List RunningCheck
  | none => checks.eraseIdx i
  | some check => checks.set i check

variable {checks : List RunningCheck} {i : Nat} {old : RunningCheck} {u : Option RunningCheck}

theorem checks_perm (hi : checks[i]? = some old) :
    checks.Perm (old :: checks.eraseIdx i) := by
  obtain ⟨hlt, rfl⟩ := List.getElem?_eq_some_iff.mp hi
  exact (List.getElem_cons_eraseIdx_perm hlt).symm

theorem checksAfter_perm (hi : checks[i]? = some old) :
    (checksAfter checks i u).Perm (u.toList ++ checks.eraseIdx i) := by
  obtain ⟨hlt, -⟩ := List.getElem?_eq_some_iff.mp hi
  cases u with
  | none => exact .refl _
  | some check => exact List.set_perm_cons_eraseIdx hlt check

theorem filterMap_perm {β : Type} (f : RunningCheck → Option β) (hi : checks[i]? = some old) :
    (checks.filterMap f).Perm ((f old).toList ++ (checks.eraseIdx i).filterMap f) := by
  refine ((checks_perm hi).filterMap f).trans (.of_eq ?_)
  rw [List.filterMap_cons]
  cases f old <;> rfl

theorem filterMap_after_perm {β : Type} (f : RunningCheck → Option β)
    (hi : checks[i]? = some old) :
    ((checksAfter checks i u).filterMap f).Perm
      ((u.bind f).toList ++ (checks.eraseIdx i).filterMap f) := by
  refine ((checksAfter_perm hi).filterMap f).trans (.of_eq ?_)
  rw [List.filterMap_append]
  cases u with
  | none => rfl
  | some check =>
      change List.filterMap f [check] ++ _ = (f check).toList ++ _
      cases hf : f check <;> simp [hf]

theorem running_after (hi : checks[i]? = some old) (hnodup : (checks.map (·.origin)).Nodup)
    (hnew : ∀ check ∈ u, check.origin = old.origin) :
    ((checksAfter checks i u).map (·.origin)).Nodup := by
  rw [((checks_perm hi).map _).nodup_iff, List.map_cons] at hnodup
  rw [((checksAfter_perm hi).map _).nodup_iff, List.map_append]
  cases u with
  | none => exact (List.nodup_cons.mp hnodup).2
  | some check =>
      change (check.origin :: _).Nodup
      rw [hnew check rfl]
      exact hnodup

end OneCheck

variable {p : OriginHealthState} {site : HealthSite} {s s' : HealthSystem} {i : Nat}
  {old : RunningCheck} {u : Option RunningCheck}

theorem noticesDue_after (hi : s.checks[i]? = some old)
    (hchecks : s'.checks = checksAfter s.checks i u) (t : NotificationEventType) :
    noticesDue s' t + old.notice.toList.count t =
      noticesDue s t + (u.bind RunningCheck.notice).toList.count t := by
  have hbefore := (filterMap_perm RunningCheck.notice hi).count_eq t
  have hafter := (filterMap_after_perm (u := u) RunningCheck.notice hi).count_eq t
  rw [noticesDue, noticesDue, hchecks, hbefore, hafter, List.count_append, List.count_append]
  omega

/-- The queue of transitions is not touched. -/
theorem serialized_same (hs : Serialized p s) (hi : s.checks[i]? = some old)
    (hchecks : s'.checks = checksAfter s.checks i u)
    (horigin : ∀ check ∈ u, check.origin = old.origin)
    (hdue : u.bind RunningCheck.due = old.due) (hcomputed : s'.computed = s.computed)
    (hrecorded : recorded s' = recorded s) (hpool : s'.poolState = s.poolState)
    (hremoved : s'.removedAt = s.removedAt)
    (hquiet : ∀ n, s.removedAt = some n → s'.produced.length = n ∧ s'.pool = none ∧
      s'.runtime = [] ∧ ∀ check ∈ s'.checks, check.stage.isFetching = true)
    (hnotices : ∀ t, t = .poolUnhealthy ∨ t = .poolRecovered →
      noticesSent s' t + (u.bind RunningCheck.notice).toList.count t =
        noticesSent s t + old.notice.toList.count t) : Serialized p s' := by
  obtain ⟨q, hchained, hq⟩ := hs.chained
  refine ⟨⟨q, ?_, fun h => (hq (hremoved ▸ h)).trans hpool.symm⟩, ?_, ?_, fun t ht => ?_,
    fun n hn => hquiet n (hremoved ▸ hn)⟩
  · rw [hrecorded, hcomputed]
    exact hchained
  · have hafter := filterMap_after_perm (u := u) RunningCheck.due hi
    rw [hdue] at hafter
    rw [hchecks, hcomputed]
    exact hs.due.trans ((filterMap_perm RunningCheck.due hi).trans hafter.symm)
  · rw [hchecks]
    exact running_after hi hs.running horigin
  · have hdueCount := noticesDue_after hi hchecks t
    have hsent := hnotices t ht
    have hbefore := hs.notices t ht
    rw [noticesOwed, hrecorded, ← noticesOwed]
    omega

/-- A write of something else than the pool's events and notifications. -/
theorem serialized_write {output : HealthOutput} (hs : Serialized p s)
    (hi : s.checks[i]? = some old) (hlive : s.removedAt = none)
    (htransition : output.transition? = none)
    (hnotice : ∀ t, t = .poolUnhealthy ∨ t = .poolRecovered →
      output.notice?.toList.count t + (u.bind RunningCheck.notice).toList.count t =
        old.notice.toList.count t)
    (hproduced : s'.produced = s.produced ++ [output])
    (hchecks : s'.checks = checksAfter s.checks i u)
    (horigin : ∀ check ∈ u, check.origin = old.origin)
    (hdue : u.bind RunningCheck.due = old.due) (hcomputed : s'.computed = s.computed)
    (hpool : s'.poolState = s.poolState) (hremoved : s'.removedAt = none) : Serialized p s' := by
  have hrecorded : recorded s' = recorded s := by
    rw [recorded, hproduced, List.filterMap_append, List.filterMap_cons_none htransition]
    exact List.append_nil _
  refine serialized_same hs hi hchecks horigin hdue hcomputed hrecorded hpool
    (hremoved.trans hlive.symm) (fun n hn => absurd (hlive.symm.trans hn) nofun) fun t ht => ?_
  have hsent : noticesSent s' t = noticesSent s t + output.notice?.toList.count t := by
    rw [noticesSent, hproduced, List.filterMap_append, List.count_append]
    cases hn : output.notice? <;> simp [noticesSent, hn]
  have := hnotice t ht
  omega

/-- Nothing is written and no notification is due. -/
theorem serialized_silent (hs : Serialized p s) (hi : s.checks[i]? = some old)
    (hlive : s.removedAt = none) (hold : old.notice = none)
    (hnew : ∀ t, t = .poolUnhealthy ∨ t = .poolRecovered →
      (u.bind RunningCheck.notice).toList.count t = 0)
    (hproduced : s'.produced = s.produced)
    (hchecks : s'.checks = checksAfter s.checks i u)
    (horigin : ∀ check ∈ u, check.origin = old.origin)
    (hdue : u.bind RunningCheck.due = old.due) (hcomputed : s'.computed = s.computed)
    (hpool : s'.poolState = s.poolState) (hremoved : s'.removedAt = none) : Serialized p s' := by
  have hrecorded : recorded s' = recorded s := by rw [recorded, hproduced, recorded]
  refine serialized_same hs hi hchecks horigin hdue hcomputed hrecorded hpool
    (hremoved.trans hlive.symm) (fun n hn => absurd (hlive.symm.trans hn) nofun) fun t ht => ?_
  rw [hold, hnew t ht, noticesSent, hproduced, ← noticesSent]
  rfl

theorem count_backendNotice (check : RunningCheck) (c : CheckResult) {t : NotificationEventType}
    (ht : t = .poolUnhealthy ∨ t = .poolRecovered) :
    ((backendNotice check c).map (·.eventType)).toList.count t = 0 := by
  rw [backendNotice]
  split_ifs <;> rcases ht with rfl | rfl <;> rfl

/-- The transition that a check computes goes to the end of the queue. -/
theorem serialized_computed {d : OriginId × OriginHealthEvent} (hs : Serialized p s)
    (hi : s.checks[i]? = some old) (hlive : s.removedAt = none)
    (hold : old.due = none ∧ old.notice = none)
    (hnew : u.bind RunningCheck.due = some d ∧ u.bind RunningCheck.notice = none)
    (hchecks : s'.checks = checksAfter s.checks i u)
    (horigin : ∀ check ∈ u, check.origin = old.origin)
    (hcomputed : s'.computed = s.computed ++ [d]) (hproduced : s'.produced = s.produced)
    (hremoved : s'.removedAt = none) (hfrom : d.2.fromState = s.poolState)
    (hto : d.2.toState = s'.poolState) (hne : d.2.fromState ≠ d.2.toState) : Serialized p s' := by
  have hrecorded : recorded s' = recorded s := by rw [recorded, hproduced, recorded]
  obtain ⟨q, hchained, hq⟩ := hs.chained
  obtain rfl := hq hlive
  refine ⟨⟨s'.poolState, ?_, fun _ => rfl⟩, ?_, ?_, fun t ht => ?_, fun n hn => ?_⟩
  · rw [hrecorded, hcomputed, List.map_append, ← List.append_assoc, ← hto]
    exact hchained.concat (e := d.2.transition) hfrom hne
  · have hbefore := filterMap_perm RunningCheck.due hi
    have hafter := filterMap_after_perm (u := u) RunningCheck.due hi
    rw [hold.1] at hbefore
    rw [hnew.1] at hafter
    rw [hchecks, hcomputed]
    exact (List.perm_append_singleton d _).trans
      (((hs.due.trans hbefore).cons d).trans hafter.symm)
  · rw [hchecks]
    exact running_after hi hs.running horigin
  · have hdueCount := noticesDue_after hi hchecks t
    rw [hold.2, hnew.2] at hdueCount
    have hbefore := hs.notices t ht
    rw [noticesOwed, hrecorded, ← noticesOwed, noticesSent, hproduced, ← noticesSent]
    simp only [Option.toList_none, List.count_nil] at hdueCount
    omega
  · rw [hremoved] at hn
    cases hn

/-- The first transition of the queue is inserted. -/
theorem serialized_inserted {d : OriginId × OriginHealthEvent} (hs : Serialized p s)
    (hi : s.checks[i]? = some old) (hlive : s.removedAt = none) (hid : d.1 = old.origin)
    (hold : old.due = some d ∧ old.notice = none)
    (hhead : ∀ first ∈ s.computed.head?, first.1 = old.origin)
    (hnew : u.bind RunningCheck.due = none)
    (hnotice : u.bind RunningCheck.notice = poolNotice d.2.fromState d.2.toState)
    (hchecks : s'.checks = checksAfter s.checks i u)
    (horigin : ∀ check ∈ u, check.origin = old.origin)
    (hcomputed : s'.computed = s.computed.filter (·.1 ≠ old.origin))
    (hproduced : s'.produced = s.produced ++ [HealthOutput.poolEvent d.2])
    (hpool : s'.poolState = s.poolState) (hremoved : s'.removedAt = none) : Serialized p s' := by
  have hbefore := filterMap_perm RunningCheck.due hi
  rw [hold.1] at hbefore
  have hperm : s.computed.Perm (d :: (s.checks.eraseIdx i).filterMap RunningCheck.due) :=
    hs.due.trans hbefore
  -- no other check of the origin runs, so no other transition is its
  have hothers : ∀ x ∈ (s.checks.eraseIdx i).filterMap RunningCheck.due, x.1 ≠ old.origin := by
    intro x hx hsame
    obtain ⟨check, hcheck, hx⟩ := List.mem_filterMap.mp hx
    have hnodup := hs.running
    rw [((checks_perm hi).map _).nodup_iff, List.map_cons] at hnodup
    exact (List.nodup_cons.mp hnodup).1
      (List.mem_map.mpr ⟨check, hcheck, (due_origin hx).symm.trans hsame⟩)
  obtain ⟨rest, hqueue⟩ : ∃ rest, s.computed = d :: rest := by
    cases hc : s.computed with
    | nil => exact absurd (hperm.mem_iff.mpr List.mem_cons_self) (by simp [hc])
    | cons first rest =>
        have hfirst : first.1 = old.origin := hhead first (by rw [hc]; rfl)
        have hmem : first ∈ d :: (s.checks.eraseIdx i).filterMap RunningCheck.due :=
          hperm.mem_iff.mp (by rw [hc]; exact List.mem_cons_self)
        rcases List.mem_cons.mp hmem with rfl | hmem
        · exact ⟨rest, rfl⟩
        · exact absurd hfirst (hothers first hmem)
  rw [hqueue] at hperm
  have hrest := List.perm_cons d |>.mp hperm
  have hfilter : s.computed.filter (·.1 ≠ old.origin) = rest := by
    rw [hqueue, List.filter_cons_of_neg (by simp [hid]), List.filter_eq_self]
    intro x hx
    exact decide_eq_true (hothers x (hrest.mem_iff.mp hx))
  have hrecorded : recorded s' = recorded s ++ [d.2.transition] := by
    rw [recorded, hproduced, List.filterMap_append]
    rfl
  obtain ⟨q, hchained, hq⟩ := hs.chained
  refine ⟨⟨q, ?_, fun _ => (hq hlive).trans hpool.symm⟩, ?_, ?_, fun t ht => ?_, fun n hn => ?_⟩
  · rw [hrecorded, hcomputed, hfilter]
    rw [hqueue] at hchained
    rw [List.append_assoc]
    exact hchained
  · have hafter := filterMap_after_perm (u := u) RunningCheck.due hi
    rw [hnew] at hafter
    rw [hchecks, hcomputed, hfilter]
    exact hrest.trans hafter.symm
  · rw [hchecks]
    exact running_after hi hs.running horigin
  · have hdueCount := noticesDue_after hi hchecks t
    rw [hold.2, hnotice] at hdueCount
    have hcount := hs.notices t ht
    have hsent : noticesSent s' t = noticesSent s t := by
      rw [noticesSent, hproduced, List.filterMap_append, List.count_append]
      rfl
    have howed : noticesOwed s' t =
        noticesOwed s t + (poolNotice d.2.fromState d.2.toState).toList.count t := by
      rw [noticesOwed, hrecorded, List.filterMap_append, List.count_append, noticesOwed]
      cases hn : poolNotice d.2.fromState d.2.toState <;>
        simp [hn, OriginHealthEvent.transition]
    simp only [Option.toList_none, List.count_nil] at hdueCount
    omega
  · rw [hremoved] at hn
    cases hn

/-! ## The steps -/

theorem replied_serialized {result : HealthCheckResult} {checkedAt : Nat} (hs : Serialized p s)
    (hi : s.checks[i]? = some old) (hstage : old.stage = .fetching checkedAt) :
    Serialized p (replied site s i old result) := by
  obtain ⟨origin, stage⟩ := old
  obtain rfl : stage = .fetching checkedAt := hstage
  rw [replied]
  cases hremoved : s.removedAt with
  | none =>
      split
      · exact serialized_silent (u := none) hs hi hremoved rfl (fun _ _ => rfl) rfl rfl
          (fun _ h => by cases h) rfl rfl rfl hremoved
      · exact serialized_silent (u := some _) hs hi hremoved rfl (fun _ _ => rfl) rfl rfl
          (fun _ h => by cases h; rfl) rfl rfl rfl hremoved
  | some n =>
      obtain ⟨hlength, hpool, hruntime, hfetching⟩ := hs.quiet n hremoved
      rw [hruntime]
      refine serialized_same (u := none) hs hi rfl (fun _ h => by cases h) rfl rfl rfl rfl rfl
        (fun m hm => ?_) fun _ _ => rfl
      obtain rfl : n = m := Option.some.inj (hremoved.symm.trans hm)
      exact ⟨hlength, hpool, hruntime,
        fun check hcheck => hfetching check (List.mem_of_mem_eraseIdx hcheck)⟩

theorem recompute_serialized {c : CheckResult} (hs : Serialized p s)
    (hi : s.checks[i]? = some old) (hstage : old.stage = .recomputing c)
    (hlive : s.removedAt = none) (hcond : c.previousPool.state = s.poolState) :
    Serialized p (recompute site s i old c) := by
  obtain ⟨origin, stage⟩ := old
  obtain rfl : stage = .recomputing c := hstage
  rw [recompute]
  dsimp only
  split
  · next hsame =>
    have hpool : c.previousPool.state = s.poolState := hcond
    cases hnotice : backendNotice ⟨origin, .recomputing c⟩ c with
    | none =>
        exact serialized_silent (u := none) hs hi hlive rfl (fun _ _ => rfl) rfl rfl
          (fun _ h => by cases h) rfl rfl (hsame.symm.trans hpool) hlive
    | some n =>
        refine serialized_silent (u := some ⟨origin, .notifying n⟩) hs hi hlive rfl
          (fun t ht => ?_) rfl rfl (fun _ h => by cases h; rfl) rfl rfl (hsame.symm.trans hpool)
          hlive
        have hcount := count_backendNotice ⟨origin, .recomputing c⟩ c ht
        rw [hnotice] at hcount
        exact hcount
  · next hchanged =>
    exact serialized_computed (u := some ⟨origin, .savingPool c _⟩) hs hi hlive ⟨rfl, rfl⟩
      ⟨rfl, rfl⟩ rfl (fun _ h => by cases h; rfl) rfl rfl hlive hcond rfl hchanged

/-- Only checks that wait for a reply are left of a removed site. -/
theorem live_of_stage (hs : Serialized p s) (hi : s.checks[i]? = some old)
    (hstage : old.stage.isFetching = false) : s.removedAt = none := by
  cases hremoved : s.removedAt with
  | none => rfl
  | some n =>
      obtain ⟨-, -, -, hfetching⟩ := hs.quiet n hremoved
      rw [hfetching old (List.mem_of_getElem? hi)] at hstage
      cases hstage

theorem failed_serialized (hs : Serialized p s) (hi : s.checks[i]? = some old)
    (hlive : s.removedAt = none) (hold : old.due = none ∧ old.notice = none) :
    Serialized p
      (endCheck { s with computed := s.computed.filter (·.1 ≠ old.origin) } i) := by
  have hcomputed : s.computed.filter (·.1 ≠ old.origin) = s.computed := by
    refine List.filter_eq_self.mpr fun d hd => decide_eq_true fun hsame => ?_
    obtain ⟨check, hcheck, hdue⟩ := List.mem_filterMap.mp (hs.due.mem_iff.mp hd)
    have heq : check = old := List.inj_on_of_nodup_map hs.running hcheck
      (List.mem_of_getElem? hi) ((due_origin hdue).symm.trans hsame)
    rw [heq, hold.1] at hdue
    cases hdue
  exact serialized_silent (u := none) hs hi hlive hold.2 (fun _ _ => rfl) rfl rfl
    (fun _ h => by cases h) hold.1.symm hcomputed rfl hlive

theorem writeStep_serialized {a : HealthAction} (hs : Serialized p s)
    (hi : s.checks[i]? = some old) (hcond : checkSerial s old a = true)
    (h : writeStep site s i old a old.stage = some s') : Serialized p s' := by
  obtain ⟨origin, stage⟩ := old
  cases stage with
  | fetching checkedAt =>
      cases a <;> simp only [writeStep, reduceCtorEq] at h
      obtain rfl := Option.some.inj h
      exact replied_serialized hs hi rfl
  | addingLatency c =>
      have hlive := live_of_stage hs hi rfl
      cases a <;> simp only [writeStep, reduceCtorEq] at h
      case latencyAdded j =>
          split at h <;> obtain rfl := Option.some.inj h <;>
            exact serialized_silent (u := some _) hs hi hlive rfl (fun _ _ => rfl) rfl rfl
              (fun _ h => by cases h; rfl) rfl rfl rfl hlive
      case writeFails j =>
          obtain rfl := Option.some.inj h
          exact failed_serialized hs hi hlive ⟨rfl, rfl⟩
  | savingBackend c =>
      have hlive := live_of_stage hs hi rfl
      cases a <;> simp only [writeStep, reduceCtorEq] at h
      case backendSaved j =>
          split at h <;> obtain rfl := Option.some.inj h <;>
            exact serialized_write (u := some _) hs hi hlive rfl (fun _ _ => rfl) rfl rfl
              (fun _ h => by cases h; rfl) rfl rfl rfl hlive
      case writeFails j =>
          obtain rfl := Option.some.inj h
          exact failed_serialized hs hi hlive ⟨rfl, rfl⟩
  | insertingBackendEvent c =>
      have hlive := live_of_stage hs hi rfl
      cases a <;> simp only [writeStep, reduceCtorEq] at h
      case backendEventInserted j =>
          obtain rfl := Option.some.inj h
          exact serialized_write (u := some _) hs hi hlive rfl (fun _ _ => rfl) rfl rfl
            (fun _ h => by cases h; rfl) rfl rfl rfl hlive
      case writeFails j =>
          obtain rfl := Option.some.inj h
          exact failed_serialized hs hi hlive ⟨rfl, rfl⟩
  | recomputing c =>
      have hlive := live_of_stage hs hi rfl
      cases a <;> simp only [writeStep, reduceCtorEq] at h
      obtain rfl := Option.some.inj h
      exact recompute_serialized hs hi rfl hlive (of_decide_eq_true hcond)
  | savingPool c next =>
      have hlive := live_of_stage hs hi rfl
      cases a <;> simp only [writeStep, reduceCtorEq] at h
      case poolSaved j =>
          obtain rfl := Option.some.inj h
          exact serialized_write (u := some _) hs hi hlive rfl (fun _ _ => rfl) rfl rfl
            (fun _ h => by cases h; rfl) rfl rfl rfl hlive
      case writeFails j => cases hcond
  | insertingPoolEvent c next =>
      have hlive := live_of_stage hs hi rfl
      cases a <;> simp only [writeStep, reduceCtorEq] at h
      case poolEventInserted j =>
          obtain rfl := Option.some.inj h
          have hhead : ∀ first ∈ s.computed.head?, first.1 = origin := fun first hfirst => by
            have hall : s.computed.head?.all (fun d => d.1 = origin) = true := hcond
            rw [Option.mem_def.mp hfirst] at hall
            exact of_decide_eq_true hall
          cases hnotice : poolNotice c.previousPool.state next.state with
          | none =>
              exact serialized_inserted (u := none) hs hi hlive rfl ⟨rfl, rfl⟩ hhead rfl
                hnotice.symm rfl (fun _ h => by cases h) rfl rfl rfl hlive
          | some eventType =>
              exact serialized_inserted
                (u := some ⟨origin, .notifying (notifyTransition eventType none c.result)⟩)
                hs hi hlive rfl ⟨rfl, rfl⟩ hhead rfl hnotice.symm rfl (fun _ h => by cases h; rfl)
                rfl rfl rfl hlive
      case writeFails j => cases hcond
  | notifying n =>
      have hlive := live_of_stage hs hi rfl
      cases a <;> simp only [writeStep, reduceCtorEq] at h
      case notified j =>
          obtain rfl := Option.some.inj h
          exact serialized_write (u := none) hs hi hlive rfl (fun _ _ => rfl) rfl rfl
            (fun _ h => by cases h) rfl rfl rfl hlive
      case writeFails j => cases hcond

/-! ## Every run -/

theorem healthStep_serialized {a : HealthAction} (hs : Serialized p s) (hcond : Serial s a)
    (h : healthStep site s a = some s') : Serialized p s' := by
  cases a
  case tick ms =>
    obtain rfl := Option.some.inj h
    exact ⟨hs.chained, hs.due, hs.running, hs.notices, hs.quiet⟩
  case start id =>
    simp only [healthStep] at h
    split at h
    case isFalse => cases h
    case isTrue hstart =>
      obtain rfl := Option.some.inj h
      obtain ⟨hruntime, hfree⟩ := Bool.and_eq_true_iff.mp hstart
      have hdue : (s.checks ++ [RunningCheck.mk id (.fetching s.clock)]).filterMap RunningCheck.due =
          s.checks.filterMap RunningCheck.due := by
        rw [List.filterMap_append]
        exact List.append_nil _
      have hnotice : (s.checks ++ [RunningCheck.mk id (.fetching s.clock)]).filterMap RunningCheck.notice =
          s.checks.filterMap RunningCheck.notice := by
        rw [List.filterMap_append]
        exact List.append_nil _
      refine ⟨hs.chained, hs.due.trans (.of_eq hdue.symm), ?_, fun t ht => ?_, fun n hn => ?_⟩
      · rw [List.map_append, List.nodup_append]
        refine ⟨hs.running, List.nodup_singleton _, fun x hx y hy => ?_⟩
        obtain ⟨check, hcheck, rfl⟩ := List.mem_map.mp hx
        obtain rfl := List.mem_singleton.mp hy
        exact of_decide_eq_true (List.all_eq_true.mp hfree check hcheck)
      · have hbefore := hs.notices t ht
        rw [noticesDue, hnotice, ← noticesDue]
        exact hbefore
      · obtain ⟨-, -, hempty, -⟩ := hs.quiet n hn
        rw [hempty] at hruntime
        simp at hruntime
  case removeSite =>
    obtain rfl := Option.some.inj h
    obtain ⟨q, hchained, hq⟩ := hs.chained
    refine ⟨⟨q, hchained, fun hn => ?_⟩, hs.due, hs.running, hs.notices, fun n hn => ?_⟩
    · cases hremoved : s.removedAt <;> simp [hremoved] at hn
    · refine ⟨?_, rfl, rfl, List.all_eq_true.mp hcond⟩
      cases hremoved : s.removedAt with
      | none =>
          rw [hremoved] at hn
          exact Option.some.inj hn
      | some m =>
          rw [hremoved] at hn
          exact (hs.quiet m hremoved).1.trans (Option.some.inj hn)
  case recompute | poolEventInserted | writeFails =>
    obtain ⟨check, hi, hstep⟩ := Option.bind_eq_some_iff.mp h
    refine writeStep_serialized hs hi ?_ hstep
    have hall : s.checks[_]?.all (fun check => checkSerial s check _) = true := hcond
    rw [hi] at hall
    exact hall
  all_goals
    obtain ⟨check, hi, hstep⟩ := Option.bind_eq_some_iff.mp h
    exact writeStep_serialized hs hi rfl hstep

/-- On a serial run the transitions of the inserted pool events lead from the state before the run
to the state of the pool, up to those about to be inserted; each of them is notified once,
and nothing is written after the removal of the site returned, nor is the pool stored again. -/
theorem pool_events_chained {p : OriginHealthState} {site : HealthSite} {s : HealthSystem}
    (h : Reach (healthStep site) Serial (HealthSystem.Initial p) s) :
    (∃ q, Chained p (recorded s) q ∧ (s.removedAt = none → Settled s → q = s.poolState)) ∧
      (∀ t, t = .poolUnhealthy ∨ t = .poolRecovered →
        noticesSent s t + noticesDue s t = noticesOwed s t) ∧
      ∀ n, s.removedAt = some n → s.produced.length = n ∧ s.pool = none := by
  have hs : Serialized p s := h.invariant (fun _ hinit => serialized_start hinit)
    fun _ _ _ _ hs hcond hstep => healthStep_serialized hs hcond hstep
  refine ⟨?_, hs.notices, fun n hn => ⟨(hs.quiet n hn).1, (hs.quiet n hn).2.1⟩⟩
  obtain ⟨r, hchained, hr⟩ := hs.chained
  obtain ⟨q, hrecorded, hrest⟩ := hchained.of_append
  refine ⟨q, hrecorded, fun hlive hsettled => ?_⟩
  have hnone : s.checks.filterMap RunningCheck.due = [] :=
    List.filterMap_eq_nil_iff.mpr hsettled
  have hcomputed : s.computed = [] := List.Perm.eq_nil (hnone ▸ hs.due)
  rw [hcomputed] at hrest
  exact (Chained.nil_iff.mp hrest).trans (hr hlive)

section TwoChecks

def healthOrigin (id : String) : RuntimeOrigin :=
  { id := id.toList, enabled := true, status := emptyStatus .healthy 0, lastPersistedAt := 0 }

def checkedSite : HealthSite :=
  { enabled := true, healthCheckEnabled := true, failureThreshold := some 1,
    recoveryThreshold := some 1 }

/-- Two healthy origins. -/
def HealthSystem.twoOrigins : HealthSystem :=
  { clock := 1000, runtime := [healthOrigin "a", healthOrigin "b"],
    pool := some (emptyStatus .healthy 0), checks := [], produced := [], computed := [],
    removedAt := none }

theorem twoOrigins_initial : HealthSystem.twoOrigins.Initial .healthy := ⟨rfl, rfl, rfl, rfl, rfl⟩

def failed : Except (List Char) Nat := .error "timeout".toList

/-- The check at the head of the list, up to the recomputation of the pool. -/
def checkUpToRecompute (id : String) : List HealthAction :=
  [.start id.toList, .replied 0 failed 5, .latencyAdded 0, .backendSaved 0, .backendEventInserted 0,
    .recompute 0]

/-- Both origins fail, one check after the other; then the site is removed. -/
def oneAfterTheOther : List HealthAction :=
  checkUpToRecompute "a" ++ [HealthAction.notified 0] ++ checkUpToRecompute "b" ++
    [HealthAction.poolSaved 0, .poolEventInserted 0, .notified 0, .removeSite]

/-- Both checks read the pool before one of them recomputes it. -/
def sideBySide : List HealthAction :=
  [.start "a".toList, .start "b".toList, .replied 0 failed 5, .replied 1 failed 5, .latencyAdded 0,
    .backendSaved 0, .backendEventInserted 0, .recompute 0, .poolSaved 0, .poolEventInserted 0,
    .latencyAdded 1, .backendSaved 1, .backendEventInserted 1, .recompute 1, .poolSaved 1,
    .poolEventInserted 1]

/-- The site is removed while a check stores its latency. -/
def removedMeanwhile : List HealthAction :=
  [.start "a".toList, .replied 0 failed 5, .removeSite, .latencyAdded 0, .backendSaved 0]

instance : ∀ s a, Decidable (Serial s a) := fun s a =>
  inferInstanceAs (Decidable (serial s a = true))

theorem pool_events_chained_oneAfterTheOther :
    ∃ s, execIf (healthStep checkedSite) Serial .twoOrigins oneAfterTheOther = some s ∧
      recorded s = [(.healthy, .unhealthy)] ∧
      (∃ q, Chained .healthy (recorded s) q ∧
        (s.removedAt = none → Settled s → q = s.poolState)) ∧
      (∀ t, t = .poolUnhealthy ∨ t = .poolRecovered →
        noticesSent s t + noticesDue s t = noticesOwed s t) ∧
      ∀ n, s.removedAt = some n → s.produced.length = n ∧ s.pool = none := by
  obtain ⟨s, hs, hone⟩ := (Option.any_eq_true ..).mp
    (show (execIf (healthStep checkedSite) Serial .twoOrigins oneAfterTheOther).any
      (fun s => recorded s = [(.healthy, .unhealthy)]) = true by decide +kernel)
  exact ⟨s, hs, of_decide_eq_true hone,
    pool_events_chained (execIf_reach (.start twoOrigins_initial) hs)⟩

/-- Without the condition a transition is recorded twice, and a removed site gets a status. -/
theorem pool_event_recorded_twice :
    (¬ ∀ s, Reach (healthStep checkedSite) Any (HealthSystem.Initial .healthy) s →
      ∃ q, Chained .healthy (recorded s) q) ∧
    ¬ ∀ s, Reach (healthStep checkedSite) Any (HealthSystem.Initial .healthy) s →
      ∀ n, s.removedAt = some n → s.produced.length = n := by
  constructor
  · intro h
    obtain ⟨s, hs, htwice⟩ := (Option.any_eq_true ..).mp
      (show (exec (healthStep checkedSite) .twoOrigins sideBySide).any
        (fun s => recorded s = [(.healthy, .unhealthy), (.healthy, .unhealthy)])
          = true by decide +kernel)
    obtain ⟨q, hchained⟩ := h s (exec_reach (.start twoOrigins_initial) hs)
    rw [of_decide_eq_true htwice] at hchained
    exact absurd hchained.2.2.1 (by decide)
  · intro h
    obtain ⟨s, hs, hlate⟩ := (Option.any_eq_true ..).mp
      (show (exec (healthStep checkedSite) .twoOrigins removedMeanwhile).any
        (fun s => s.removedAt = some 0 && s.produced.length = 1) = true by decide +kernel)
    obtain ⟨hremoved, hlength⟩ := Bool.and_eq_true_iff.mp hlate
    have hquiet := h s (exec_reach (.start twoOrigins_initial) hs) 0 (of_decide_eq_true hremoved)
    rw [of_decide_eq_true hlength] at hquiet
    exact absurd hquiet (by decide)

end TwoChecks

end BurrowGate.Health
