import BurrowGate.Lib.ClaimedJobs
import BurrowGate.Lib.Run

/-!
# `pending-change-service.ts`: applying scheduled changes

The scheduler and any number of apply-now and cancel calls run on one node. Each is
suspended at its repository calls and at the applier; a step is what happens at one of
these, so every interleaving is a run. A repository call has its effect in one step and
the caller goes on in a later one. `JSON.parse` does not throw here: `stagePendingChange`
wrote the text. `history` has the calls and the successes of appliers and the returns of
`cancelPendingChange`; no step reads it.
-/

namespace BurrowGate.PendingChange

open Lib.ClaimedJobs

abbrev ChangeId : Type := List Char

inductive PendingChangeEntityType
  | site
  | stream
  deriving DecidableEq

inductive PendingChangeStatus
  | pending
  | applied
  | failed
  deriving DecidableEq

/-- The columns that applying and cancelling read or write. -/
structure PendingChangeRecord where
  id : ChangeId
  entityType : PendingChangeEntityType
  entityId : List Char
  changesJson : List Char
  applyAt : Nat
  status : PendingChangeStatus
  attempts : Nat
  lastError : Option (List Char)
  appliedAt : Option Nat
  deriving DecidableEq

/-- `config.pendingChanges`, and the types with a registered applier. -/
structure PendingChangeEnv where
  maxAttempts : Nat
  retryBackoffSeconds : Nat
  appliers : List PendingChangeEntityType

/-! ## The table -/

def pendingChangeById (table : List PendingChangeRecord) (id : ChangeId) :
    Option PendingChangeRecord :=
  table.find? (·.id = id)

def isDue (now : Nat) (row : PendingChangeRecord) : Bool :=
  row.status = .pending && row.applyAt ≤ now

/-- An answer of `duePendingChanges`: up to `limit` due rows, in the order of `applyAt`. -/
def dueAnswer (table : List PendingChangeRecord) (now limit : Nat)
    (due : List PendingChangeRecord) : Bool :=
  due.all (fun row => table.contains row && isDue now row) &&
    due.length = min limit (table.filter (isDue now)).length &&
      decide (due.Pairwise fun a b => a.id ≠ b.id ∧ a.applyAt ≤ b.applyAt) &&
        (table.filter (isDue now)).all fun row =>
          due.contains row || due.all fun taken => taken.applyAt ≤ row.applyAt

/-- The arguments of `updatePendingChangeStatus`. -/
structure StatusUpdate where
  id : ChangeId
  status : PendingChangeStatus
  attempts : Nat
  applyAt : Nat
  lastError : Option (List Char)
  appliedAt : Option Nat

def updatePendingChangeStatus (table : List PendingChangeRecord) (u : StatusUpdate) :
    List PendingChangeRecord :=
  table.map fun row =>
    if row.id = u.id then
      { row with
        status := u.status
        attempts := u.attempts
        applyAt := u.applyAt
        lastError := u.lastError
        appliedAt := u.appliedAt }
    else row

def deletePendingChange (table : List PendingChangeRecord) (id : ChangeId) :
    List PendingChangeRecord :=
  table.filter (·.id ≠ id)

/-! ## The three operations -/

/-- `applyDuePendingChanges`: reading the due rows, between two rows, in the applier, in the
status update. -/
inductive DueStage
  | reading (now : Nat)
  | rows (due : List PendingChangeRecord)
  | applying (row : PendingChangeRecord) (rest : List PendingChangeRecord)
  | storing (row : PendingChangeRecord) (update : StatusUpdate) (rest : List PendingChangeRecord)

/-- `applyPendingChangeNow` -/
inductive NowStage
  | reading (id : ChangeId)
  | found (row : PendingChangeRecord)
  | applying (row : PendingChangeRecord)
  | deleting (id : ChangeId)

/-- `cancelPendingChange` -/
inductive CancelStage
  | reading (id : ChangeId)
  | deleting (id : ChangeId)
  | deleted (id : ChangeId)

/-- `running` of the source is that `due` is some. -/
structure ChangeSystem where
  clock : Nat
  table : List PendingChangeRecord
  due : Option DueStage
  now : List NowStage
  cancels : List CancelStage
  history : List (JobEvent ChangeId)

/-- `id` is the primary key of the table. -/
def ChangeSystem.Initial (s : ChangeSystem) : Prop :=
  (s.table.map (·.id)).Nodup ∧ s.due = none ∧ s.now = [] ∧ s.cancels = [] ∧ s.history = []

/-- An applier that is called is `applierCalled`; it then resolves or rejects. `dueFails` and its
siblings are a repository call that throws. -/
inductive ChangeAction
  | tick (ms : Nat)
  | applyDue (replica : Bool)
  | dueRead (due : List PendingChangeRecord)
  | dueNext
  | dueResolves
  | dueRejects (message : List Char)
  | dueStored
  | dueFails (message : List Char)
  | applyNow (id : ChangeId)
  | nowRead (i : Nat)
  | nowCalls (i : Nat)
  | nowResolves (i : Nat)
  | nowRejects (i : Nat)
  | nowDeleted (i : Nat)
  | nowFails (i : Nat)
  | cancel (id : ChangeId)
  | cancelRead (i : Nat)
  | cancelDeleted (i : Nat)
  | cancelReturns (i : Nat)
  | cancelFails (i : Nat)

/-- The `catch` of the loop. -/
def failureUpdate (env : PendingChangeEnv) (clock : Nat) (row : PendingChangeRecord)
    (message : List Char) : StatusUpdate :=
  let attempts := row.attempts + 1
  if env.maxAttempts ≤ attempts then
    { id := row.id, status := .failed, attempts, applyAt := row.applyAt, lastError := some message,
      appliedAt := none }
  else
    { id := row.id, status := .pending, attempts,
      applyAt := clock + env.retryBackoffSeconds * 1000, lastError := some message,
      appliedAt := none }

def successUpdate (clock : Nat) (row : PendingChangeRecord) : StatusUpdate :=
  { id := row.id, status := .applied, attempts := row.attempts, applyAt := row.applyAt,
    lastError := none, appliedAt := some clock }

/-- The loop between two awaits: the next row that has an applier is handed to it. -/
def dueNext (env : PendingChangeEnv) (s : ChangeSystem) : List PendingChangeRecord → ChangeSystem
  | [] => { s with due := none }
  | row :: rest =>
      if env.appliers.contains row.entityType then
        { s with
          due := some (.applying row rest)
          history := s.history ++ [JobEvent.called row.id] }
      else { s with due := some (.rows rest) }

def dueStep (env : PendingChangeEnv) (s : ChangeSystem) : ChangeAction → DueStage → Option ChangeSystem
  | .dueRead due, .reading now =>
      if dueAnswer s.table now 100 due then some { s with due := some (.rows due) } else none
  | .dueNext, .rows due => some (dueNext env s due)
  | .dueResolves, .applying row rest =>
      some { s with
        due := some (.storing row (successUpdate s.clock row) rest)
        history := s.history ++ [JobEvent.succeeded row.id] }
  | .dueRejects message, .applying row rest =>
      some { s with due := some (.storing row (failureUpdate env s.clock row message) rest) }
  | .dueStored, .storing _ update rest =>
      some { s with
        table := updatePendingChangeStatus s.table update
        due := some (.rows rest) }
  | .dueFails message, .storing row update rest =>
      -- the update of a success is inside the `try`, the other one is in its `catch`
      match update.status with
      | .applied =>
          some { s with due := some (.storing row (failureUpdate env s.clock row message) rest) }
      | .pending | .failed => some { s with due := none }
  | .dueFails _, .reading _ => some { s with due := none }
  | _, _ => none

def nowStep (env : PendingChangeEnv) (s : ChangeSystem) (i : Nat) :
    ChangeAction → NowStage → Option ChangeSystem
  | .nowRead _, .reading id =>
      match pendingChangeById s.table id with
      | some row => some { s with now := s.now.set i (.found row) }
      | none => some { s with now := s.now.eraseIdx i }
  | .nowCalls _, .found row =>
      if env.appliers.contains row.entityType then
        some { s with
          now := s.now.set i (.applying row)
          history := s.history ++ [JobEvent.called row.id] }
      else some { s with now := s.now.eraseIdx i }
  | .nowResolves _, .applying row =>
      some { s with
        now := s.now.set i (.deleting row.id)
        history := s.history ++ [JobEvent.succeeded row.id] }
  | .nowRejects _, .applying _ => some { s with now := s.now.eraseIdx i }
  | .nowDeleted _, .deleting id =>
      some { s with
        table := deletePendingChange s.table id
        now := s.now.eraseIdx i }
  | .nowFails _, .reading _ | .nowFails _, .deleting _ => some { s with now := s.now.eraseIdx i }
  | _, _ => none

def cancelStep (s : ChangeSystem) (i : Nat) : ChangeAction → CancelStage → Option ChangeSystem
  | .cancelRead _, .reading id =>
      match pendingChangeById s.table id with
      | some _ => some { s with cancels := s.cancels.set i (.deleting id) }
      | none => some { s with cancels := s.cancels.eraseIdx i }
  | .cancelDeleted _, .deleting id =>
      some { s with
        table := deletePendingChange s.table id
        cancels := s.cancels.set i (.deleted id) }
  | .cancelReturns _, .deleted id =>
      some { s with
        cancels := s.cancels.eraseIdx i
        history := s.history ++ [JobEvent.withdrawn id] }
  | .cancelFails _, .reading _ | .cancelFails _, .deleting _ =>
      some { s with cancels := s.cancels.eraseIdx i }
  | _, _ => none

def changeStep (env : PendingChangeEnv) (s : ChangeSystem) (a : ChangeAction) :
    Option ChangeSystem :=
  match a with
  | .tick ms => some { s with clock := s.clock + ms }
  | .applyDue replica =>
      if replica || s.due.isSome then some s else some { s with due := some (.reading s.clock) }
  | .dueRead _ | .dueNext | .dueResolves | .dueRejects _ | .dueStored | .dueFails _ =>
      s.due.bind (dueStep env s a)
  | .applyNow id => some { s with now := s.now ++ [NowStage.reading id] }
  | .nowRead i | .nowCalls i | .nowResolves i | .nowRejects i | .nowDeleted i | .nowFails i =>
      s.now[i]?.bind (nowStep env s i a)
  | .cancel id => some { s with cancels := s.cancels ++ [CancelStage.reading id] }
  | .cancelRead i | .cancelDeleted i | .cancelReturns i | .cancelFails i =>
      s.cancels[i]?.bind (cancelStep s i a)

end BurrowGate.PendingChange
