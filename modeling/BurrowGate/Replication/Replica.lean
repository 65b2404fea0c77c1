import BurrowGate.Replication.Changelog

/-!
# The replica's handlers

`handleMessage` and what it awaits: `runCatchUp`, `applyRow` and
`performBootstrapSnapshot`. A handler is suspended at each of its `await`s, and
`Stage` says where. The message queue runs one handler at a time, but
`connectToPrimary` starts a new queue, and a handler of an earlier connection
that is still running goes on beside it.
-/

namespace BurrowGate.Replication

open Lib.Log


/-- What called `runCatchUp`, or `applyRow` directly. -/
inductive Purpose
  | proceedAfterKeyVerified
  | heartbeat (latestSeq : Nat)
  | change
  deriving DecidableEq

/-- Where a handler is suspended. `thenCatchUp` is set when `runCatchUp` follows the snapshot. -/
inductive Stage (E V : Type*)
  | fetch
  | requested (since : Nat)
  | fetchLatest (rows : List (ReplicationChangelogRow E V))
  | page (rows : List (ReplicationChangelogRow E V)) (latestSeq : Nat)
  | apply (rows : List (ReplicationChangelogRow E V)) (more : Bool)
  | applying (row : ReplicationChangelogRow E V) (rest : List (ReplicationChangelogRow E V))
      (more : Bool)
  | applied (row : ReplicationChangelogRow E V) (rest : List (ReplicationChangelogRow E V))
      (more : Bool)
  | snapshot (thenCatchUp : Bool)
  | reconcile (s : Snapshot E V) (thenCatchUp : Bool)
  | reconciled (seq : Nat) (thenCatchUp : Bool)
  | awaitSnapshot (thenCatchUp : Bool)
  | finish

/-- `origin` is a history variable: what is to be remembered of the primary whose answer or push
the handler works on. -/
structure Handler (E V O : Type*) where
  generation : Nat
  purpose : Purpose
  stage : Stage E V
  origin : Option O

/-- A replica process and its database. -/
structure Replica (E V O : Type*) where
  store : Store E V
  cursor : Nat
  connectionGeneration : Nat
  connected : Bool
  handlers : List (Handler E V O)

variable {E V O : Type*} [DecidableEq E]

/-- `bootstrapInFlight` is set. -/
def Stage.inSnapshot : Stage E V → Bool
  | .snapshot _ | .reconcile _ _ | .reconciled _ _ => true
  | _ => false

def Replica.bootstrapInFlight (r : Replica E V O) : Bool := r.handlers.any fun h => h.stage.inSnapshot

/-- The queue of the current connection has nothing running. -/
def Replica.idle (r : Replica E V O) : Bool :=
  r.handlers.all fun h => h.generation ≠ r.connectionGeneration

def Replica.start (r : Replica E V O) (purpose : Purpose) (stage : Stage E V) (origin : Option O) :
    Replica E V O :=
  { r with
    handlers := { generation := r.connectionGeneration, purpose, stage, origin } :: r.handlers }

def connectToPrimary (r : Replica E V O) : Replica E V O :=
  { r with connectionGeneration := r.connectionGeneration + 1 }

def handleReplicaClose (r : Replica E V O) : Replica E V O :=
  { r with connectionGeneration := r.connectionGeneration + 1, connected := false }

def bootstrapSnapshot (r : Replica E V O) (thenCatchUp : Bool) : Stage E V :=
  if r.bootstrapInFlight then .awaitSnapshot thenCatchUp else .snapshot thenCatchUp

/-- `proceedAfterKeyVerified`, up to its first `await`. -/
def proceedAfterKeyVerified (r : Replica E V O) : Replica E V O :=
  r.start .proceedAfterKeyVerified
    (if r.store.bootstrapped then .fetch else bootstrapSnapshot r true) none

def handleHeartbeat (r : Replica E V O) (latestSeq : Nat) : Replica E V O :=
  if r.connected ∧ r.cursor < latestSeq then r.start (.heartbeat latestSeq) .fetch none else r

def handleChange (r : Replica E V O) (row : ReplicationChangelogRow E V) (origin : O) :
    Replica E V O :=
  if r.connected = false ∨ row.seq ≤ r.cursor then r
  else if r.cursor + 1 < row.seq then r.start .change .fetch none
  else r.start .change (.apply [row] false) (some origin)

/-- The visible and the invisible gap of `runCatchUp`. -/
def hitsGap (cursor : Nat) (rows : List (ReplicationChangelogRow E V)) (latestSeq : Nat) : Bool :=
  match rows with
  | [] => cursor < latestSeq
  | first :: _ => cursor + 1 < first.seq

def afterSnapshot (thenCatchUp : Bool) : Stage E V := if thenCatchUp then .fetch else .finish

/-- What the handler does once `runCatchUp` or `applyRow` has returned. -/
def finishHandler (r : Replica E V O) : Purpose → Replica E V O
  | .proceedAfterKeyVerified => { r with connected := true }
  | .heartbeat latestSeq =>
      if r.cursor < latestSeq then { r with connectionGeneration := r.connectionGeneration + 1 }
      else r
  | .change => r

/-- The next segment of `h`, a handler of `r` that is not among `r.handlers`. The requests of
`fetchChangelogPage` and `performBootstrapSnapshot` are answered from `primary` as it is now. -/
def resumeHandler (pageSize : Nat) (primary : Store E V) (origin : O) (r : Replica E V O)
    (h : Handler E V O) : Option (Replica E V O) :=
  let goOn (r : Replica E V O) (stage : Stage E V) : Option (Replica E V O) :=
    some { r with handlers := { h with stage } :: r.handlers }
  let answered (stage : Stage E V) : Option (Replica E V O) :=
    some { r with handlers := { h with stage, origin := some origin } :: r.handlers }
  match h.stage with
  | .fetch => goOn r (.requested r.cursor)
  | .requested since => answered (.fetchLatest (changelogSince primary since pageSize))
  | .fetchLatest rows => goOn r (.page rows (latestChangelogSeq primary))
  | .page rows latestSeq =>
      if hitsGap r.cursor rows latestSeq then goOn r (bootstrapSnapshot r false)
      else goOn r (.apply rows (pageSize ≤ rows.length))
  | .apply [] more => goOn r (if more then .fetch else .finish)
  | .apply (row :: rest) more =>
      if row.seq ≤ r.cursor then goOn r (.apply rest more) else goOn r (.applying row rest more)
  | .applying row rest more =>
      goOn { r with store := applyReplicatedChange r.store row } (.applied row rest more)
  | .applied row rest more =>
      goOn
        { r with
          store := updateReplicationCursor r.store row.seq
          cursor := max r.cursor row.seq }
        (.apply rest more)
  | .snapshot thenCatchUp => answered (.reconcile (fullSnapshot primary) thenCatchUp)
  | .reconcile s thenCatchUp =>
      goOn { r with store := reconcileToSnapshot r.store s } (.reconciled s.seq thenCatchUp)
  | .reconciled seq thenCatchUp =>
      goOn { r with store := markBootstrapped r.store seq, cursor := seq }
        (afterSnapshot thenCatchUp)
  | .awaitSnapshot thenCatchUp =>
      if r.bootstrapInFlight then none else goOn r (afterSnapshot thenCatchUp)
  | .finish => some (finishHandler r h.purpose)

/-- The awaited call throws; a transaction that throws has been rolled back. `force` is set when
the row has failed often enough for `forceRebootstrapNow`. -/
def failHandler (r : Replica E V O) (h : Handler E V O) (force : Bool) :
    Option (Replica E V O) :=
  let closed := { r with connectionGeneration := r.connectionGeneration + 1 }
  match h.stage with
  | .requested _ | .fetchLatest _ | .page _ _ | .applied _ _ _ | .snapshot _ | .reconcile _ _ |
    .reconciled _ _ => some closed
  | .applying _ _ _ =>
      some (if force then { closed with store := forceRebootstrap r.store } else closed)
  | _ => none

/-- The number a transaction has reached but the cursor has not recorded yet. -/
def Stage.unrecorded : Stage E V → Option Nat
  | .applied row _ _ => some row.seq
  | .reconciled seq _ => some seq
  | _ => none

/-- The number up to which the replica has taken the log: its cursor, or the number its running
handler is about to write there. -/
def Replica.position (r : Replica E V O) : Nat :=
  (r.handlers.findSome? fun h => h.stage.unrecorded).getD r.cursor

end BurrowGate.Replication
