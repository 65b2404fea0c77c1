import Mathlib.Algebra.Order.Field.Rat
import Mathlib.Data.Rat.Floor

/-!
# `origin-health-service.ts`: the checks of one site

Checks of different origins of a site run beside each other. Each is suspended in the
request to its origin and at its database writes. The effect of a write and what follows
it up to the next write are one step, since no step reads what the writes store; only
the pool is recomputed in a step of its own. The configuration does not change.
-/

namespace BurrowGate.Health

abbrev OriginId : Type := List Char

inductive OriginHealthState
  | unknown
  | healthy
  | degraded
  | unhealthy
  | disabled
  deriving DecidableEq

structure HealthCheckResult where
  healthy : Bool
  status : Option Nat
  latencyMs : ℚ
  error : Option (List Char)
  checkedAt : Nat

/-- A status of the pool, or of an origin, without its ids. -/
structure OriginHealthStatus where
  state : OriginHealthState
  consecutiveFailures : Nat
  consecutiveSuccesses : Nat
  lastCheckedAt : Option Nat
  lastHealthyAt : Option Nat
  lastUnhealthyAt : Option Nat
  lastStatus : Option Nat
  lastLatencyMs : Option Int
  lastError : Option (List Char)
  updatedAt : Nat

/-- The columns of the site that checks read. -/
structure HealthSite where
  enabled : Bool
  healthCheckEnabled : Bool
  failureThreshold : Option Nat
  recoveryThreshold : Option Nat

/-! ## Statuses -/

/-- `Math.round(x)` -/
def mathRound (x : ℚ) : Int := (x + 1 / 2).floor

def advanceOriginHealthState (current : OriginHealthStatus) (result : HealthCheckResult)
    (failureThreshold recoveryThreshold : Nat) : OriginHealthStatus :=
  let next := { current with
    lastCheckedAt := some result.checkedAt
    lastStatus := result.status
    lastLatencyMs := some (max 0 (mathRound result.latencyMs))
    lastError := result.error
    updatedAt := result.checkedAt }
  if result.healthy then
    let successes := current.consecutiveSuccesses + 1
    { next with
      consecutiveFailures := 0
      consecutiveSuccesses := successes
      lastHealthyAt := some result.checkedAt
      state :=
        if recoveryThreshold ≤ successes then .healthy
        else if current.state = .unhealthy then .unhealthy else .degraded }
  else
    let failures := current.consecutiveFailures + 1
    if failureThreshold ≤ failures then
      { next with
        consecutiveSuccesses := 0
        consecutiveFailures := failures
        state := .unhealthy
        lastUnhealthyAt :=
          if current.state = .unhealthy then next.lastUnhealthyAt else some result.checkedAt }
    else
      { next with
        consecutiveSuccesses := 0
        consecutiveFailures := failures
        state := if current.state = .unhealthy then .unhealthy else .degraded }

def emptyStatus (state : OriginHealthState) (now : Nat) : OriginHealthStatus :=
  { state
    consecutiveFailures := 0
    consecutiveSuccesses := 0
    lastCheckedAt := none
    lastHealthyAt := none
    lastUnhealthyAt := none
    lastStatus := none
    lastLatencyMs := none
    lastError := none
    updatedAt := now }

def aggregateState (statuses : List OriginHealthStatus) (healthEnabled : Bool) :
    OriginHealthState :=
  if !healthEnabled then .disabled
  else if statuses.isEmpty then .unhealthy
  else if statuses.any (·.state = .healthy) then .healthy
  else if statuses.any (·.state = .degraded) then .degraded
  else if statuses.any fun s => s.state = .unknown || s.state = .disabled then .unknown
  else .unhealthy

/-- The first status with the greatest `last_checked_at`: the head after the stable sort. -/
def latestStatus : List OriginHealthStatus → Option OriginHealthStatus
  | [] => none
  | status :: statuses =>
      match latestStatus statuses with
      | none => some status
      | some later =>
          if status.lastCheckedAt.getD 0 < later.lastCheckedAt.getD 0 then some later
          else some status

/-- `Math.max(latestAt ?? 0, Number(status.last_healthy_at ?? 0)) || null` over the statuses. -/
def latestHealthyAt (statuses : List OriginHealthStatus) : Option Nat :=
  statuses.foldl
    (fun latestAt status =>
      let newest := max (latestAt.getD 0) (status.lastHealthyAt.getD 0)
      if newest = 0 then none else some newest) none

structure RuntimeOrigin where
  id : OriginId
  enabled : Bool
  status : OriginHealthStatus
  lastPersistedAt : Nat

def HealthSite.checks (site : HealthSite) : Bool := site.enabled && site.healthCheckEnabled

/-- The new pool status; the caller stores it in `poolStatuses`. -/
def recomputePool (site : HealthSite) (runtime : List RuntimeOrigin) (now : Nat)
    (previous : Option OriginHealthStatus) (preserveIncident : Bool) : OriginHealthStatus :=
  let statuses := (runtime.filter (·.enabled)).map (·.status)
  let state := aggregateState statuses site.checks
  let latest := latestStatus statuses
  let wasUnhealthy := previous.any (·.state = .unhealthy)
  { state :=
      if preserveIncident && site.checks && wasUnhealthy && state ≠ .healthy then .unhealthy
      else state
    consecutiveFailures := (statuses.map (·.consecutiveFailures)).sum
    consecutiveSuccesses := (statuses.map (·.consecutiveSuccesses)).sum
    lastCheckedAt :=
      (latest.bind (·.lastCheckedAt)).or (previous.bind (·.lastCheckedAt))
    lastHealthyAt := latestHealthyAt statuses
    lastUnhealthyAt :=
      if state = .unhealthy && !wasUnhealthy then some now
      else previous.bind (·.lastUnhealthyAt)
    lastStatus := latest.bind (·.lastStatus)
    lastLatencyMs := latest.bind (·.lastLatencyMs)
    lastError :=
      if state = .unhealthy then some "No healthy origin is available".toList else none
    updatedAt := now }

/-- `performCheck`: the reply is an HTTP status or the bounded text of what `fetch` threw. -/
def checkResult (reply : Except (List Char) Nat) (latencyMs : ℚ) (checkedAt : Nat) :
    HealthCheckResult :=
  match reply with
  | .error message =>
      { healthy := false, status := none, latencyMs, error := some message, checkedAt }
  | .ok status =>
      let healthy := 200 ≤ status && status < 300
      { healthy
        status := some status
        latencyMs
        error :=
          if healthy then none
          else some ("Health endpoint returned HTTP ".toList ++ Nat.toDigits 10 status)
        checkedAt }

/-! ## What a check writes -/

inductive NotificationEventType
  | originUnhealthy
  | originRecovered
  | poolUnhealthy
  | poolRecovered
  deriving DecidableEq

/-- An event of the pool, or of an origin, without its ids. -/
structure OriginHealthEvent where
  fromState : OriginHealthState
  toState : OriginHealthState
  status : Option Nat
  latencyMs : Int
  error : Option (List Char)
  createdAt : Nat

/-- The arguments of `recordSiteEvent` that depend on the check. -/
structure HealthNotification where
  eventType : NotificationEventType
  origin : Option OriginId
  status : Option Nat
  latencyMs : Int
  reason : Option (List Char)
  occurredAt : Nat

inductive HealthOutput
  | backendStatus (id : OriginId) (status : OriginHealthStatus)
  | backendEvent (id : OriginId) (event : OriginHealthEvent)
  | poolStatus (status : OriginHealthStatus)
  | poolEvent (event : OriginHealthEvent)
  | notification (n : HealthNotification)

def backendEvent (fromState : OriginHealthState) (status : OriginHealthStatus)
    (result : HealthCheckResult) : OriginHealthEvent :=
  { fromState
    toState := status.state
    status := result.status
    latencyMs := mathRound result.latencyMs
    error := result.error
    createdAt := result.checkedAt }

def poolEvent (fromState : OriginHealthState) (status : OriginHealthStatus)
    (result : HealthCheckResult) : OriginHealthEvent :=
  { fromState
    toState := status.state
    status := result.status
    latencyMs := mathRound result.latencyMs
    error := status.lastError
    createdAt := result.checkedAt }

def notifyTransition (eventType : NotificationEventType) (origin : Option OriginId)
    (result : HealthCheckResult) : HealthNotification :=
  { eventType
    origin
    status := result.status
    latencyMs := mathRound result.latencyMs
    reason := result.error
    occurredAt := result.checkedAt }

/-! ## The state -/

/-- The constants of `runCheck` after the request. -/
structure CheckResult where
  result : HealthCheckResult
  previousBackend : OriginHealthStatus
  nextBackend : OriginHealthStatus
  previousPool : OriginHealthStatus
  /-- `runtime.lastPersistedAt`, which only this check writes while it runs -/
  lastPersistedAt : Nat

/-- Where a check is suspended; in `recomputing` its backend writes are done. -/
inductive CheckStage
  | fetching (checkedAt : Nat)
  | addingLatency (c : CheckResult)
  | savingBackend (c : CheckResult)
  | insertingBackendEvent (c : CheckResult)
  | recomputing (c : CheckResult)
  | savingPool (c : CheckResult) (next : OriginHealthStatus)
  | insertingPoolEvent (c : CheckResult) (next : OriginHealthStatus)
  | notifying (n : HealthNotification)

structure RunningCheck where
  origin : OriginId
  stage : CheckStage

/-- `pool` is the entry of `poolStatuses`. `produced` are the writes that took effect, `computed`
the transitions of the pool whose event is still to be inserted, oldest first, and
`removedAt` the number of writes when `removeSite` returned; no step reads these. -/
structure HealthSystem where
  clock : Nat
  runtime : List RuntimeOrigin
  pool : Option OriginHealthStatus
  checks : List RunningCheck
  produced : List HealthOutput
  computed : List (OriginId × OriginHealthEvent)
  removedAt : Option Nat

/-- The state that `runCheck` compares with. -/
def HealthSystem.poolState (s : HealthSystem) : OriginHealthState :=
  (s.pool.map (·.state)).getD .unknown

/-- No check runs, and the pool is in state `p`. -/
def HealthSystem.Initial (p : OriginHealthState) (s : HealthSystem) : Prop :=
  s.poolState = p ∧ s.checks = [] ∧ s.produced = [] ∧ s.computed = [] ∧ s.removedAt = none

inductive HealthAction
  | tick (ms : Nat)
  | start (id : OriginId)
  | replied (i : Nat) (reply : Except (List Char) Nat) (latencyMs : ℚ)
  | latencyAdded (i : Nat)
  | backendSaved (i : Nat)
  | backendEventInserted (i : Nat)
  | recompute (i : Nat)
  | poolSaved (i : Nat)
  | poolEventInserted (i : Nat)
  | notified (i : Nat)
  | writeFails (i : Nat)
  | removeSite

/-! ## The steps -/

def statusPersistInterval : Nat := 5 * 60000

def CheckResult.backendTransitioned (c : CheckResult) : Bool :=
  c.previousBackend.state ≠ c.nextBackend.state

def setStage (s : HealthSystem) (i : Nat) (check : RunningCheck) (stage : CheckStage) :
    HealthSystem :=
  { s with checks := s.checks.set i { check with stage := stage } }

def endCheck (s : HealthSystem) (i : Nat) : HealthSystem :=
  { s with checks := s.checks.eraseIdx i }

def setRuntime (s : HealthSystem) (id : OriginId) (f : RuntimeOrigin → RuntimeOrigin) :
    HealthSystem :=
  { s with runtime := s.runtime.map fun origin => if origin.id = id then f origin else origin }

def produce (s : HealthSystem) (output : HealthOutput) : HealthSystem :=
  { s with produced := s.produced ++ [output] }

/-- From the reply up to the first write. -/
def replied (site : HealthSite) (s : HealthSystem) (i : Nat) (check : RunningCheck)
    (result : HealthCheckResult) : HealthSystem :=
  match s.runtime.find? (·.id = check.origin) with
  -- the site was removed meanwhile
  | none => endCheck s i
  | some origin =>
      let next := advanceOriginHealthState origin.status result
        (site.failureThreshold.getD 3) (site.recoveryThreshold.getD 2)
      let previousPool := s.pool.getD (emptyStatus .unknown s.clock)
      setStage (setRuntime s check.origin fun origin => { origin with status := next }) i check
        (.addingLatency ⟨result, origin.status, next, previousPool, origin.lastPersistedAt⟩)

/-- The notification about the origin when the pool did not change. -/
def backendNotice (check : RunningCheck) (c : CheckResult) : Option HealthNotification :=
  if c.backendTransitioned then
    if c.nextBackend.state = .unhealthy then
      some (notifyTransition .originUnhealthy (some check.origin) c.result)
    else if c.previousBackend.state = .unhealthy && c.nextBackend.state = .healthy then
      some (notifyTransition .originRecovered (some check.origin) c.result)
    else none
  else none

def poolNotice (fromState toState : OriginHealthState) : Option NotificationEventType :=
  if toState = .unhealthy then some .poolUnhealthy
  else if fromState = .unhealthy && toState = .healthy then some .poolRecovered
  else none

/-- The last thing a check does is the notification, if there is one. -/
def notify (s : HealthSystem) (i : Nat) (check : RunningCheck) :
    Option HealthNotification → HealthSystem
  | none => endCheck s i
  | some n => setStage s i check (.notifying n)

def recompute (site : HealthSite) (s : HealthSystem) (i : Nat) (check : RunningCheck)
    (c : CheckResult) : HealthSystem :=
  let next := recomputePool site s.runtime s.clock (some c.previousPool) false
  let s := { s with pool := some next }
  if c.previousPool.state = next.state then notify s i check (backendNotice check c)
  else
    setStage { s with
      computed := s.computed ++ [(check.origin, poolEvent c.previousPool.state next c.result)] }
      i check (.savingPool c next)

def writeStep (site : HealthSite) (s : HealthSystem) (i : Nat) (check : RunningCheck) :
    HealthAction → CheckStage → Option HealthSystem
  | .replied _ reply latencyMs, .fetching checkedAt =>
      some (replied site s i check (checkResult reply latencyMs checkedAt))
  | .latencyAdded _, .addingLatency c =>
      if c.backendTransitioned ||
          c.lastPersistedAt + statusPersistInterval ≤ c.result.checkedAt then
        some (setStage s i check (.savingBackend c))
      else some (setStage s i check (.recomputing c))
  | .backendSaved _, .savingBackend c =>
      let s := setRuntime (produce s (.backendStatus check.origin c.nextBackend)) check.origin
        fun origin => { origin with lastPersistedAt := c.result.checkedAt }
      if c.backendTransitioned then some (setStage s i check (.insertingBackendEvent c))
      else some (setStage s i check (.recomputing c))
  | .backendEventInserted _, .insertingBackendEvent c =>
      some (setStage (produce s (.backendEvent check.origin
        (backendEvent c.previousBackend.state c.nextBackend c.result))) i check (.recomputing c))
  | .recompute _, .recomputing c => some (recompute site s i check c)
  | .poolSaved _, .savingPool c next =>
      some (setStage (produce s (.poolStatus next)) i check (.insertingPoolEvent c next))
  | .poolEventInserted _, .insertingPoolEvent c next =>
      let s := produce s (.poolEvent (poolEvent c.previousPool.state next c.result))
      some (notify { s with computed := s.computed.filter (·.1 ≠ check.origin) } i check
        ((poolNotice c.previousPool.state next.state).map fun eventType =>
          notifyTransition eventType none c.result))
  | .notified _, .notifying n => some (endCheck (produce s (.notification n)) i)
  -- the `catch`; `performCheck` and the recomputation do not throw
  | .writeFails _, .fetching _ | .writeFails _, .recomputing _ => none
  | .writeFails _, _ =>
      some (endCheck { s with computed := s.computed.filter (·.1 ≠ check.origin) } i)
  | _, _ => none

def healthStep (site : HealthSite) (s : HealthSystem) (a : HealthAction) : Option HealthSystem :=
  match a with
  | .tick ms => some { s with clock := s.clock + ms }
  | .start id =>
      if site.checks && s.runtime.any (fun origin => origin.id = id && origin.enabled) &&
          s.checks.all (·.origin ≠ id) then
        some { s with checks := s.checks ++ [⟨id, .fetching s.clock⟩] }
      else none
  | .removeSite =>
      some { s with
        runtime := []
        pool := none
        removedAt := s.removedAt.or (some s.produced.length) }
  | .replied i _ _ | .latencyAdded i | .backendSaved i | .backendEventInserted i | .recompute i
  | .poolSaved i | .poolEventInserted i | .notified i | .writeFails i =>
      s.checks[i]?.bind fun check => writeStep site s i check a check.stage

end BurrowGate.Health
