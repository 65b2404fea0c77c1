import Mathlib.Algebra.Order.Ring.Nat
import Mathlib.Data.List.MinMax
import Mathlib.Data.Prod.Lex

/-!
# `notification-service.ts`: events, outbox rows and the delivery worker

Events are recorded by any number of calls beside the worker and the retention deletions.
Each call is suspended at its inserts; the row of an insert is built before it takes
effect. `ι` are the ids in the order in which the database compares them; `randomId` does
not repeat one. A webhook may do anything, and a repository call may throw.
-/

namespace BurrowGate.Notification

inductive Destination
  | site (id : List Char)
  | stream (id : List Char)
  deriving DecidableEq

inductive OutboxStatus
  | pending
  | delivered
  | failed
  deriving DecidableEq

/-- `site_id` and `stream_id` are both null in a global event. -/
structure NotificationEventRecord (ι : Type) where
  id : ι
  scope : Option Destination
  createdAt : Nat
  deriving DecidableEq

structure NotificationOutboxRecord (ι : Type) where
  id : ι
  eventId : ι
  destination : Destination
  status : OutboxStatus
  attempts : Nat
  nextAttemptAt : Nat
  lastError : Option (List Char)
  createdAt : Nat
  deliveredAt : Option Nat
  deriving DecidableEq

def maxAlertAttempts : Nat := 8

variable {ι : Type} [LinearOrder ι]

/-! ## The query -/

/-- The order of `ORDER BY created_at ASC, id ASC`. -/
def key (row : NotificationOutboxRecord ι) : ℕ ×ₗ ι := toLex (row.createdAt, row.id)

/-- The subquery of `pendingNotificationOutbox`. -/
def oldestPending (outbox : List (NotificationOutboxRecord ι)) (d : Destination) :
    Option (NotificationOutboxRecord ι) :=
  (outbox.filter fun row => row.status = .pending && row.destination = d).argmin key

/-- `row` meets the conditions of `pendingNotificationOutbox`, the join included. -/
def deliverable (outbox : List (NotificationOutboxRecord ι))
    (events : List (NotificationEventRecord ι)) (now : Nat) (row : NotificationOutboxRecord ι) :
    Bool :=
  row.status = .pending && row.nextAttemptAt ≤ now && events.any (·.id = row.eventId) &&
    (oldestPending outbox row.destination).any (·.id = row.id)

/-- An answer of `pendingNotificationOutbox`: up to `limit` rows in the order of `created_at`. -/
def pendingAnswer (outbox : List (NotificationOutboxRecord ι))
    (events : List (NotificationEventRecord ι)) (now limit : Nat)
    (answer : List (NotificationOutboxRecord ι)) : Bool :=
  let rows := outbox.filter (deliverable outbox events now)
  answer.all (fun row => rows.contains row) && answer.length = min limit rows.length &&
    decide (answer.Pairwise fun a b => a.id ≠ b.id ∧ a.createdAt ≤ b.createdAt) &&
      rows.all fun row =>
        answer.contains row || answer.all fun taken => taken.createdAt ≤ row.createdAt

/-! ## Updates -/

/-- The arguments of `updateNotificationOutboxDelivery`. -/
structure DeliveryUpdate where
  status : OutboxStatus
  attempts : Nat
  nextAttemptAt : Nat
  lastError : Option (List Char)
  deliveredAt : Option Nat

def NotificationOutboxRecord.updated (row : NotificationOutboxRecord ι) (u : DeliveryUpdate) :
    NotificationOutboxRecord ι :=
  { row with
    status := u.status
    attempts := u.attempts
    nextAttemptAt := u.nextAttemptAt
    lastError := u.lastError
    deliveredAt := u.deliveredAt }

def updateNotificationOutboxDelivery (outbox : List (NotificationOutboxRecord ι)) (id : ι)
    (u : DeliveryUpdate) : List (NotificationOutboxRecord ι) :=
  outbox.map fun row => if row.id = id then row.updated u else row

/-- The update when the destination is gone. -/
def disabledUpdate (now : Nat) (row : NotificationOutboxRecord ι) : DeliveryUpdate :=
  { status := .failed
    attempts := row.attempts + 1
    nextAttemptAt := now
    lastError := some "Notification destination is no longer enabled".toList
    deliveredAt := none }

def deliveredUpdate (now : Nat) (row : NotificationOutboxRecord ι) : DeliveryUpdate :=
  { status := .delivered
    attempts := row.attempts + 1
    nextAttemptAt := now
    lastError := none
    deliveredAt := some now }

/-- The `catch` of `deliverOne`; `jitter` is `Math.round(Math.random() * 1_000)`. -/
def failureUpdate (now jitter : Nat) (row : NotificationOutboxRecord ι) (message : List Char) :
    DeliveryUpdate :=
  let attempts := row.attempts + 1
  let delay := min (60 * 60000) (5000 * 2 ^ (attempts - 1))
  { status := if maxAlertAttempts ≤ attempts then .failed else .pending
    attempts
    nextAttemptAt := now + delay + jitter
    lastError := some message
    deliveredAt := none }

/-! ## The state -/

/-- A `record…Event` call: in the insert of its event, between two rows, in the insert of a row. -/
inductive RecordStage (ι : Type)
  | insertingEvent (event : NotificationEventRecord ι) (targets : List Destination)
  | queueing (eventId : ι) (targets : List Destination)
  | insertingOutbox (row : NotificationOutboxRecord ι) (targets : List Destination)

/-- `deliverPending`: idle, in the query, between two deliveries, in `resolveTarget`, in the
request, in the update; `attempted` is whether the update follows a request. -/
inductive WorkerStage (ι : Type)
  | idle
  | reading (now : Nat)
  | deliveries (rest : List (NotificationOutboxRecord ι))
  | resolving (row : NotificationOutboxRecord ι) (rest : List (NotificationOutboxRecord ι))
  | attempting (row : NotificationOutboxRecord ι) (rest : List (NotificationOutboxRecord ι))
  | storing (row : NotificationOutboxRecord ι) (update : DeliveryUpdate) (attempted : Bool)
      (rest : List (NotificationOutboxRecord ι))

/-- `issued` are the ids drawn so far. `settled` are the rows as they were delivered or failed, the
latest first, and `tried` the rows of the requests made so far; no step reads these two. -/
structure OutboxSystem (ι : Type) where
  clock : Nat
  events : List (NotificationEventRecord ι)
  outbox : List (NotificationOutboxRecord ι)
  recordings : List (RecordStage ι)
  worker : WorkerStage ι
  issued : List ι
  settled : List (NotificationOutboxRecord ι)
  tried : List ι

/-- Empty tables, nothing under way. -/
def OutboxSystem.Initial (s : OutboxSystem ι) : Prop :=
  s.events = [] ∧ s.outbox = [] ∧ s.recordings = [] ∧ s.worker = .idle ∧ s.issued = [] ∧
    s.settled = [] ∧ s.tried = []

/-- `record` gets the destinations that are enabled for the event type. A retention deletion takes
the rows it matches among `ids`, so that it may be any batch. -/
inductive OutboxAction (ι : Type)
  | setClock (now : Nat)
  | record (id : ι) (scope : Option Destination) (targets : List Destination)
  | eventInserted (i : Nat)
  | queueNext (i : Nat) (id : ι)
  | outboxInserted (i : Nat)
  | recordFails (i : Nat)
  | pruneOutbox (d : Destination) (cutoff : Nat) (ids : List ι)
  | pruneEvents (scope : Option Destination) (cutoff : Nat) (ids : List ι)
  | poll
  | pendingRead (answer : List (NotificationOutboxRecord ι))
  | readFails
  | deliverNext
  | resolved (enabled : Bool)
  | replied (ok : Bool) (jitter : Nat) (message : List Char)
  | stored
  | storeFails (jitter : Nat) (message : List Char)
  | restart

/-! ## The steps -/

/-- A site or stream event is queued for its own destination only. -/
def targetsOf (scope : Option Destination) (targets : List Destination) : Bool :=
  match scope with
  | some d => targets.all (· = d) && targets.length ≤ 1
  | none => true

/-- The row that `insertOutbox` inserts. -/
def insertOutbox (now : Nat) (id eventId : ι) (target : Destination) : NotificationOutboxRecord ι :=
  { id
    eventId
    destination := target
    status := .pending
    attempts := 0
    nextAttemptAt := now
    lastError := none
    createdAt := now
    deliveredAt := none }

/-- A retention batch of `notification_events`. -/
def prunesEvent (scope : Option Destination) (cutoff : Nat) (ids : List ι)
    (event : NotificationEventRecord ι) : Bool :=
  event.scope = scope && event.createdAt < cutoff && ids.contains event.id

/-- A retention batch of `notification_outbox`. -/
def prunesRow (d : Destination) (cutoff : Nat) (ids : List ι) (row : NotificationOutboxRecord ι) :
    Bool :=
  row.destination = d && row.createdAt < cutoff && row.status ≠ .pending && ids.contains row.id

def recordStep (s : OutboxSystem ι) (i : Nat) :
    OutboxAction ι → RecordStage ι → Option (OutboxSystem ι)
  | .eventInserted _, .insertingEvent event targets =>
      some { s with
        events := s.events ++ [event]
        recordings := s.recordings.set i (.queueing event.id targets) }
  | .queueNext _ _, .queueing _ [] =>
      some { s with recordings := s.recordings.eraseIdx i }
  | .queueNext _ id, .queueing eventId (target :: targets) =>
      if s.issued.contains id then none
      else
        some { s with
          issued := id :: s.issued
          recordings := s.recordings.set i
            (.insertingOutbox (insertOutbox s.clock id eventId target) targets) }
  | .outboxInserted _, .insertingOutbox row targets =>
      some { s with
        outbox := s.outbox ++ [row]
        recordings := s.recordings.set i (.queueing row.eventId targets) }
  | .recordFails _, _ => some { s with recordings := s.recordings.eraseIdx i }
  | _, _ => none

def workerStep (s : OutboxSystem ι) : OutboxAction ι → WorkerStage ι → Option (OutboxSystem ι)
  | .poll, .idle => some { s with worker := .reading s.clock }
  | .poll, _ => some s
  | .pendingRead answer, .reading now =>
      if pendingAnswer s.outbox s.events now 5 answer then
        some { s with worker := .deliveries answer }
      else none
  | .readFails, .reading _ => some { s with worker := .idle }
  | .deliverNext, .deliveries [] => some { s with worker := .idle }
  | .deliverNext, .deliveries (row :: rest) => some { s with worker := .resolving row rest }
  | .readFails, .resolving _ _ => some { s with worker := .idle }
  | .resolved true, .resolving row rest =>
      some { s with worker := .attempting row rest, tried := row.id :: s.tried }
  | .resolved false, .resolving row rest =>
      some { s with worker := .storing row (disabledUpdate s.clock row) false rest }
  | .replied ok jitter message, .attempting row rest =>
      let update :=
        if ok then deliveredUpdate s.clock row else failureUpdate s.clock jitter row message
      some { s with worker := .storing row update true rest }
  | .stored, .storing row update _ rest =>
      some { s with
        outbox := updateNotificationOutboxDelivery s.outbox row.id update
        settled := if update.status = .pending then s.settled else row.updated update :: s.settled
        worker := .deliveries rest }
  | .storeFails jitter message, .storing row update attempted rest =>
      -- the update of a delivery is inside the `try`, the others end `deliverPending`
      if update.status = .delivered then
        some { s with
          worker := .storing row (failureUpdate s.clock jitter row message) attempted rest }
      else some { s with worker := .idle }
  | _, _ => none

def outboxStep (s : OutboxSystem ι) (a : OutboxAction ι) : Option (OutboxSystem ι) :=
  match a with
  | .setClock now => some { s with clock := now }
  | .record id scope targets =>
      if s.issued.contains id || !targetsOf scope targets then none
      else
        some { s with
          issued := id :: s.issued
          recordings := s.recordings ++
            [RecordStage.insertingEvent { id, scope, createdAt := s.clock } targets] }
  | .eventInserted i | .queueNext i _ | .outboxInserted i | .recordFails i =>
      s.recordings[i]?.bind (recordStep s i a)
  | .pruneOutbox d cutoff ids =>
      some { s with outbox := s.outbox.filter fun row => !prunesRow d cutoff ids row }
  | .pruneEvents scope cutoff ids =>
      some { s with events := s.events.filter fun event => !prunesEvent scope cutoff ids event }
  | .poll | .pendingRead _ | .readFails | .deliverNext | .resolved _ | .replied _ _ _ | .stored
  | .storeFails _ _ => workerStep s a s.worker
  | .restart => some { s with recordings := [], worker := .idle }

end BurrowGate.Notification
