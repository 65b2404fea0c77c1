import BurrowGate.Health.OriginHealth
import BurrowGate.Lib.TrailingRun

/-!
# What the state of an origin says about its checks

The two counters are the lengths of the last runs of failures and of successes. An incident
is a latch: a long enough run of failures opens it, and only a long enough run of later
successes closes it. A change of the configuration begins both runs anew and leaves an
incident open.
-/

namespace BurrowGate.Health

open Lib

def healthStatusAfterConfigurationChange (current : Option OriginHealthStatus) (enabled : Bool)
    (now : Nat) : OriginHealthStatus :=
  match current with
  | none => emptyStatus (if enabled then .unknown else .disabled) now
  | some current =>
      { current with
        state :=
          if enabled then if current.state = .unhealthy then .unhealthy else .unknown
          else .disabled
        consecutiveFailures := 0
        consecutiveSuccesses := 0
        updatedAt := now }

/-- What happens to the status of an origin whose health checks stay enabled. -/
inductive HealthEvent
  | check (result : HealthCheckResult)
  | configurationChange (now : Nat)

def HealthEvent.fails : HealthEvent → Bool
  | .check result => !result.healthy
  | .configurationChange _ => false

def HealthEvent.succeeds : HealthEvent → Bool
  | .check result => result.healthy
  | .configurationChange _ => false

def afterEvent (failureThreshold recoveryThreshold : Nat) (status : OriginHealthStatus) :
    HealthEvent → OriginHealthStatus
  | .check result => advanceOriginHealthState status result failureThreshold recoveryThreshold
  | .configurationChange now => healthStatusAfterConfigurationChange (some status) true now

def afterEvents (failureThreshold recoveryThreshold : Nat) (status : OriginHealthStatus)
    (events : List HealthEvent) : OriginHealthStatus :=
  events.foldl (afterEvent failureThreshold recoveryThreshold) status

/-- A run of failures has ended in an incident, and no run of successes has ended it since. -/
def IncidentOpen (failureThreshold recoveryThreshold : Nat) (events : List HealthEvent) : Prop :=
  Latched HealthEvent.fails HealthEvent.succeeds failureThreshold recoveryThreshold events

/-- No check has ended since the start or the last change of the configuration. -/
def AwaitsCheck (events : List HealthEvent) : Prop :=
  ∀ event, events.getLast? = some event → ∃ now, event = .configurationChange now

variable {f r : Nat} {events : List HealthEvent} {start status : OriginHealthStatus}

theorem not_succeeds_of_fails (event : HealthEvent) (h : event.fails = true) :
    event.succeeds = false := by
  cases event with
  | check result =>
      simp only [HealthEvent.fails, Bool.not_eq_true'] at h
      exact h
  | configurationChange now => rfl

theorem awaitsCheck_concat {event : HealthEvent} :
    AwaitsCheck (events ++ [event]) ↔ ∃ now, event = .configurationChange now := by
  simp [AwaitsCheck]

/-- The status holds what the history of events says. -/
structure Reflects (f r : Nat) (events : List HealthEvent) (status : OriginHealthStatus) :
    Prop where
  failures : status.consecutiveFailures = trailing HealthEvent.fails events
  successes : status.consecutiveSuccesses = trailing HealthEvent.succeeds events
  unhealthy : status.state = .unhealthy ↔ IncidentOpen f r events
  healthy : ¬ IncidentOpen f r events →
    (status.state = .healthy ↔ EndsIn HealthEvent.succeeds r events)
  otherwise : ¬ IncidentOpen f r events → ¬ EndsIn HealthEvent.succeeds r events →
    (AwaitsCheck events ∧ status.state = .unknown) ∨
      (¬ AwaitsCheck events ∧ status.state = .degraded)

/-! ## The four cases -/

section Cases

variable (hfailures : status.consecutiveFailures = trailing HealthEvent.fails events)
  (hsuccesses : status.consecutiveSuccesses = trailing HealthEvent.succeeds events)
include hfailures hsuccesses

theorem Reflects.of_incident (hopen : IncidentOpen f r events)
    (hstate : status.state = .unhealthy) : Reflects f r events status where
  failures := hfailures
  successes := hsuccesses
  unhealthy := iff_of_true hstate hopen
  healthy hclosed := absurd hopen hclosed
  otherwise hclosed := absurd hopen hclosed

theorem Reflects.of_recovered (hclosed : ¬ IncidentOpen f r events)
    (hrun : EndsIn HealthEvent.succeeds r events) (hstate : status.state = .healthy) :
    Reflects f r events status where
  failures := hfailures
  successes := hsuccesses
  unhealthy := by
    rw [hstate]
    exact iff_of_false (by decide) hclosed
  healthy _ := iff_of_true hstate hrun
  otherwise _ hno := absurd hrun hno

theorem Reflects.of_other (hclosed : ¬ IncidentOpen f r events)
    (hrun : ¬ EndsIn HealthEvent.succeeds r events)
    (hstate : (AwaitsCheck events ∧ status.state = .unknown) ∨
      (¬ AwaitsCheck events ∧ status.state = .degraded)) : Reflects f r events status where
  failures := hfailures
  successes := hsuccesses
  unhealthy := by
    refine iff_of_false ?_ hclosed
    rcases hstate with ⟨-, hstate⟩ | ⟨-, hstate⟩ <;> rw [hstate] <;> decide
  healthy _ := by
    refine iff_of_false ?_ hrun
    rcases hstate with ⟨-, hstate⟩ | ⟨-, hstate⟩ <;> rw [hstate] <;> decide
  otherwise _ _ := hstate

end Cases

theorem Reflects.of_start (hf : 0 < f) (hr : 0 < r) (hstate : start.state = .unknown)
    (hfailures : start.consecutiveFailures = 0) (hsuccesses : start.consecutiveSuccesses = 0) :
    Reflects f r [] start := by
  apply Reflects.of_other hfailures hsuccesses (not_latched_nil hf)
  · rw [endsIn_iff, trailing_nil]
    omega
  · exact .inl ⟨fun _ h => (by cases h), hstate⟩

/-! ## One event -/

theorem incidentOpen_success (events : List HealthEvent) (hf : 0 < f)
    (hr : 0 < r) {result : HealthCheckResult}
    (h : result.healthy = true) :
    IncidentOpen f r (events ++ [HealthEvent.check result]) ↔
      IncidentOpen f r events ∧ ¬ r ≤ trailing HealthEvent.succeeds events + 1 := by
  rw [IncidentOpen, latched_concat not_succeeds_of_fails hf hr, endsIn_iff, endsIn_iff,
    trailing_concat, trailing_concat]
  simp only [HealthEvent.fails, HealthEvent.succeeds, h, Bool.not_true, Bool.false_eq_true,
    ↓reduceIte]
  constructor
  · rintro (hset | hopen)
    · omega
    · exact hopen
  · exact .inr

theorem incidentOpen_failure (events : List HealthEvent) (hf : 0 < f)
    (hr : 0 < r) {result : HealthCheckResult}
    (h : result.healthy = false) :
    IncidentOpen f r (events ++ [HealthEvent.check result]) ↔
      f ≤ trailing HealthEvent.fails events + 1 ∨ IncidentOpen f r events := by
  rw [IncidentOpen, latched_concat not_succeeds_of_fails hf hr, endsIn_iff, endsIn_iff,
    trailing_concat, trailing_concat]
  simp only [HealthEvent.fails, HealthEvent.succeeds, h, Bool.not_false, Bool.false_eq_true,
    ↓reduceIte]
  have hpositive : ¬ r ≤ 0 := by omega
  rw [and_iff_left hpositive, IncidentOpen]

theorem incidentOpen_change (events : List HealthEvent) (now : Nat) (hf : 0 < f) (hr : 0 < r) :
    IncidentOpen f r (events ++ [HealthEvent.configurationChange now]) ↔ IncidentOpen f r events := by
  rw [IncidentOpen, latched_concat not_succeeds_of_fails hf hr, endsIn_iff, endsIn_iff,
    trailing_concat, trailing_concat]
  simp only [HealthEvent.fails, HealthEvent.succeeds, Bool.false_eq_true, ↓reduceIte]
  have hfailures : ¬ f ≤ 0 := by omega
  have hsuccesses : ¬ r ≤ 0 := by omega
  rw [or_iff_right (fun h => hfailures h), and_iff_left hsuccesses, IncidentOpen]

theorem advance_success (status : OriginHealthStatus) {result : HealthCheckResult}
    (h : result.healthy = true) :
    (advanceOriginHealthState status result f r).state =
      if r ≤ status.consecutiveSuccesses + 1 then .healthy
      else if status.state = .unhealthy then .unhealthy else .degraded := by
  rw [advanceOriginHealthState, if_pos h]

theorem advance_failure (status : OriginHealthStatus) {result : HealthCheckResult}
    (h : result.healthy = false) :
    (advanceOriginHealthState status result f r).state =
      if f ≤ status.consecutiveFailures + 1 ∨ status.state = .unhealthy then .unhealthy
      else .degraded := by
  by_cases hthreshold : f ≤ status.consecutiveFailures + 1 <;>
    simp [advanceOriginHealthState, h, hthreshold]

theorem advance_failures (result : HealthCheckResult) :
    (advanceOriginHealthState status result f r).consecutiveFailures =
      if result.healthy then 0 else status.consecutiveFailures + 1 := by
  simp only [advanceOriginHealthState]
  split
  · rfl
  · split <;> rfl

theorem advance_successes (result : HealthCheckResult) :
    (advanceOriginHealthState status result f r).consecutiveSuccesses =
      if result.healthy then status.consecutiveSuccesses + 1 else 0 := by
  simp only [advanceOriginHealthState]
  split
  · rfl
  · split <;> rfl

theorem not_awaitsCheck {result : HealthCheckResult} :
    ¬ AwaitsCheck (events ++ [HealthEvent.check result]) := by
  rw [awaitsCheck_concat]
  rintro ⟨now, hnow⟩
  cases hnow

theorem Reflects.success (hf : 0 < f) (hr : 0 < r) (h : Reflects f r events status)
    {result : HealthCheckResult} (hhealthy : result.healthy = true) :
    Reflects f r (events ++ [HealthEvent.check result]) (advanceOriginHealthState status result f r) := by
  have hopen := incidentOpen_success events hf hr hhealthy
  have hfailures : (advanceOriginHealthState status result f r).consecutiveFailures =
      trailing HealthEvent.fails (events ++ [HealthEvent.check result]) := by
    rw [advance_failures, if_pos hhealthy, trailing_concat, HealthEvent.fails, hhealthy]
    rfl
  have hsuccesses : (advanceOriginHealthState status result f r).consecutiveSuccesses =
      trailing HealthEvent.succeeds (events ++ [HealthEvent.check result]) := by
    rw [advance_successes, if_pos hhealthy, trailing_concat, HealthEvent.succeeds, hhealthy,
      h.successes]
    rfl
  have hrun : EndsIn HealthEvent.succeeds r (events ++ [HealthEvent.check result]) ↔
      r ≤ trailing HealthEvent.succeeds events + 1 := by
    rw [endsIn_iff, trailing_concat, HealthEvent.succeeds, if_pos hhealthy]
  have hstate := advance_success (f := f) (r := r) status hhealthy
  rw [h.successes] at hstate
  by_cases hthreshold : r ≤ trailing HealthEvent.succeeds events + 1
  · rw [if_pos hthreshold] at hstate
    apply Reflects.of_recovered hfailures hsuccesses _ (hrun.mpr hthreshold) hstate
    intro hincident
    exact (hopen.mp hincident).2 hthreshold
  · rw [if_neg hthreshold] at hstate
    by_cases hincident : IncidentOpen f r events
    · rw [if_pos (h.unhealthy.mpr hincident)] at hstate
      exact .of_incident hfailures hsuccesses (hopen.mpr ⟨hincident, hthreshold⟩) hstate
    · rw [if_neg (fun hs => hincident (h.unhealthy.mp hs))] at hstate
      apply Reflects.of_other hfailures hsuccesses
      · intro hi
        exact hincident (hopen.mp hi).1
      · intro hlast
        exact hthreshold (hrun.mp hlast)
      · exact .inr ⟨not_awaitsCheck, hstate⟩

theorem Reflects.failure (hf : 0 < f) (hr : 0 < r) (h : Reflects f r events status)
    {result : HealthCheckResult} (hfailed : result.healthy = false) :
    Reflects f r (events ++ [HealthEvent.check result]) (advanceOriginHealthState status result f r) := by
  have hopen := incidentOpen_failure events hf hr hfailed
  have hnot : ¬ result.healthy = true := Bool.not_eq_true _ ▸ hfailed
  have hfailures : (advanceOriginHealthState status result f r).consecutiveFailures =
      trailing HealthEvent.fails (events ++ [HealthEvent.check result]) := by
    rw [advance_failures, if_neg hnot, trailing_concat, HealthEvent.fails, hfailed, h.failures]
    rfl
  have hsuccesses : (advanceOriginHealthState status result f r).consecutiveSuccesses =
      trailing HealthEvent.succeeds (events ++ [HealthEvent.check result]) := by
    rw [advance_successes, if_neg hnot, trailing_concat, HealthEvent.succeeds, if_neg hnot]
  have hstate := advance_failure (f := f) (r := r) status hfailed
  rw [h.failures] at hstate
  have hcause := or_congr_right (a := f ≤ trailing HealthEvent.fails events + 1) h.unhealthy
  by_cases hincident : f ≤ trailing HealthEvent.fails events + 1 ∨ status.state = .unhealthy
  · rw [if_pos hincident] at hstate
    exact .of_incident hfailures hsuccesses (hopen.mpr (hcause.mp hincident)) hstate
  · rw [if_neg hincident] at hstate
    apply Reflects.of_other hfailures hsuccesses
    · intro hi
      exact hincident (hcause.mpr (hopen.mp hi))
    · rw [endsIn_iff, ← hsuccesses, advance_successes, if_neg hnot]
      omega
    · exact .inr ⟨not_awaitsCheck, hstate⟩

theorem Reflects.change (hf : 0 < f) (hr : 0 < r) (h : Reflects f r events status) (now : Nat) :
    Reflects f r (events ++ [HealthEvent.configurationChange now])
      (healthStatusAfterConfigurationChange (some status) true now) := by
  have hopen := incidentOpen_change events now hf hr
  have hfailures : trailing HealthEvent.fails (events ++ [HealthEvent.configurationChange now]) = 0 := by
    rw [trailing_concat]
    rfl
  have hsuccesses :
      trailing HealthEvent.succeeds (events ++ [HealthEvent.configurationChange now]) = 0 := by
    rw [trailing_concat]
    rfl
  have hstate : (healthStatusAfterConfigurationChange (some status) true now).state =
      if status.state = .unhealthy then .unhealthy else .unknown := rfl
  by_cases hincident : IncidentOpen f r events
  · rw [if_pos (h.unhealthy.mpr hincident)] at hstate
    exact .of_incident hfailures.symm hsuccesses.symm (hopen.mpr hincident) hstate
  · rw [if_neg (fun hs => hincident (h.unhealthy.mp hs))] at hstate
    apply Reflects.of_other hfailures.symm hsuccesses.symm
    · intro hi
      exact hincident (hopen.mp hi)
    · rw [endsIn_iff, hsuccesses]
      omega
    · exact .inl ⟨awaitsCheck_concat.mpr ⟨now, rfl⟩, hstate⟩

theorem reflects_afterEvents (hf : 0 < f) (hr : 0 < r) (hstate : start.state = .unknown)
    (hfailures : start.consecutiveFailures = 0) (hsuccesses : start.consecutiveSuccesses = 0)
    (events : List HealthEvent) : Reflects f r events (afterEvents f r start events) := by
  induction events using List.reverseRecOn with
  | nil => exact .of_start hf hr hstate hfailures hsuccesses
  | append_singleton events event ih =>
      rw [afterEvents, List.foldl_append, List.foldl_cons, List.foldl_nil]
      cases event with
      | check result =>
          by_cases hhealthy : result.healthy = true
          · exact ih.success hf hr hhealthy
          · exact ih.failure hf hr (Bool.eq_false_of_not_eq_true hhealthy)
      | configurationChange now => exact ih.change hf hr now

/-! ## The state after any history -/

/-- Until a first check the state is unknown, so a history is not empty where it is degraded.
The last two clauses are about an incident that was open when the configuration changed. -/
theorem health_hysteresis (hf : 1 ≤ f) (hr : 1 ≤ r) (hstate : start.state = .unknown)
    (hfailures : start.consecutiveFailures = 0) (hsuccesses : start.consecutiveSuccesses = 0)
    (events : List HealthEvent) :
    let state := (afterEvents f r start events).state
    (state = .unhealthy ↔ IncidentOpen f r events) ∧
      (¬ IncidentOpen f r events → (state = .healthy ↔ EndsIn HealthEvent.succeeds r events)) ∧
        (¬ IncidentOpen f r events → ¬ EndsIn HealthEvent.succeeds r events →
          (AwaitsCheck events ∧ state = .unknown) ∨ (¬ AwaitsCheck events ∧ state = .degraded)) ∧
          ∀ before now later, events = before ++ .configurationChange now :: later →
            (afterEvents f r start before).state = .unhealthy →
              ((∀ part, part <+: later → ¬ EndsIn HealthEvent.succeeds r part) →
                state = .unhealthy) ∧
              (EndsIn HealthEvent.succeeds r later → state = .healthy) := by
  have hall := reflects_afterEvents hf hr hstate hfailures hsuccesses events
  refine ⟨hall.unhealthy, hall.healthy, hall.otherwise, ?_⟩
  intro before now later hevents hbefore
  have hincident :=
    (reflects_afterEvents hf hr hstate hfailures hsuccesses before).unhealthy.mp hbefore
  constructor
  · intro hnone
    rw [hall.unhealthy, hevents, List.append_cons]
    apply Latched.append not_succeeds_of_fails hf hr _ _ hnone
    · exact (incidentOpen_change before now hf hr).mpr hincident
    · rw [trailing_concat]
      rfl
  · intro hrun
    have hlast : EndsIn HealthEvent.succeeds r events := by
      rw [endsIn_iff] at hrun ⊢
      rw [hevents, List.append_cons]
      exact hrun.trans (le_trailing_append ..)
    exact (hall.healthy (not_latched_of_endsIn not_succeeds_of_fails hf hr hlast)).mpr hlast

/-- Two failures open an incident, a change of the configuration keeps it, and two successes
after the change close it. -/
theorem health_hysteresis_recovered :
    let start := emptyStatus .unknown 0
    let failed : HealthEvent := .check ⟨false, none, 0, none, 1⟩
    let passed : HealthEvent := .check ⟨true, some 200, 0, none, 2⟩
    let events := [failed, failed, passed, .configurationChange 3, passed, passed]
    (afterEvents 2 2 start (events.take 5)).state = .unhealthy ∧
      (afterEvents 2 2 start events).state = .healthy := by
  intro start failed passed events
  have hall := @health_hysteresis 2 2 start (by decide) (by decide) rfl rfl rfl events
  refine ⟨rfl, (hall.2.2.2 [failed, failed, passed] 3 [passed, passed] rfl rfl).2 ?_⟩
  exact ⟨[], [passed, passed], rfl, rfl, by simp [passed, HealthEvent.succeeds]⟩

/-- Before the first check neither run has been seen, and the state is not degraded. -/
theorem unknown_before_first_check :
    let state := (afterEvents 1 1 (emptyStatus .unknown 0) []).state
    ¬ IncidentOpen 1 1 [] ∧ ¬ EndsIn HealthEvent.succeeds 1 [] ∧ state ≠ .degraded := by
  refine ⟨not_latched_nil Nat.one_pos, ?_, by decide⟩
  rw [endsIn_iff, trailing_nil]
  omega

end BurrowGate.Health
