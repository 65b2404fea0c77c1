import BurrowGate.Ha.Process

/-!
# One node: durable tables, process memory, messages

A handler of `ha-election-service.ts` or `ha-mesh-service.ts` runs without
interruption between two `await`s. Where it waits for the database it is kept as
a `Task` (or, for the election timer, a `Tick`) holding the local variables the
rest of the handler reads; committing the transaction and going on afterwards
are separate events, so other handlers and restarts can come in between.

A node's address stands for the node. A WebSocket is a connection number; a
message on it names the number, and both ends learn of a close on their own.
-/

namespace BurrowGate.Ha


inductive HaConnectionState
  | unknown
  | connected
  | disconnected
  | keyMismatch
  | epochMismatch
  | versionMismatch
  | connectionRejected
  deriving DecidableEq

/-- The arguments `startCampaign` captures for `runCampaign`. -/
structure Campaign (N : Type*) where
  term : Nat
  ownCursor : Nat
  connectivityGeneration : Nat
  expectedPrimaryUrl : Option N
  deriving DecidableEq

structure VoteResponse where
  voteGranted : Bool
  voterTerm : Nat
  deriving DecidableEq

/-- Where the election timer's `tick` is suspended; `idle` when `tickRunning` is false. -/
inductive Tick (N : Type*)
  | idle
  | countMembers
  | readFence
  | checkFence (fencedAt : Option Nat)
  | clearFence
  | setFence (fencedAt : Nat)
  | recover
  | discover (disconnectedMs : Nat)
  | selfVote (c : Campaign N)
  | selfVoted (c : Campaign N) (granted : Bool)
  | collect (c : Campaign N) (responses : List (N × VoteResponse))
  | newerTerm (c : Campaign N) (voterTerm : Nat)
  | activate (c : Campaign N)
  | activated (c : Campaign N) (persisted : Bool)

/-- Other suspended handlers. The first constructor of each pair waits for its
transaction, the second holds the transaction's answer. -/
inductive Task (N : Type*)
  | fenceForTerm (term fencedAt : Nat) (candidate : N)
  | fencedForTerm (term : Nat) (candidate : N) (persistedTerm : Option Nat)
  | adoptTerm (term : Nat) (candidate : N) (candidateCursor : Nat)
  | adoptedTerm (term : Nat) (candidate : N) (candidateCursor : Nat) (persistedTerm : Option Nat)
  | grantVote (term : Nat) (candidate : N)
  | grantedVote (term : Nat) (candidate : N) (granted : Bool)
  | adoptPrimary (primary : N) (epoch : Nat)
  | adoptedPrimary (primary : N) (epoch : Nat) (adopted : Bool)
  | fenceAuthority (epoch : Nat) (source : N) (observedAt conn : Nat)
  | announced (source : N) (conn : Nat)
  | persistHelloEpoch (epoch conn : Nat)
  | catchUp (conn : Nat)
  | readIntent (target : N) (conn : Nat)
  | prepare (target : N) (conn promotionId : Nat)
  | saveIntent (intent : HaPromotionIntent N) (conn : Nat)
  | resumePrepare (intent : HaPromotionIntent N) (conn : Nat)
  | sendPromote (intent : HaPromotionIntent N) (conn : Nat) (resumed : Bool)
  | awaitApplied (intent : HaPromotionIntent N) (conn : Nat) (resumed : Bool)
  | completeIntent (intent : HaPromotionIntent N) (resumed : Bool)
  | completedIntent (intent : HaPromotionIntent N) (resumed completed : Bool)
  | clearIntent (intent : HaPromotionIntent N)
  | applyRoleChange (intent : HaPromotionIntent N) (conn : Nat)
  | appliedRoleChange (intent : HaPromotionIntent N) (conn : Nat) (persisted : Bool)

/-- A replica's entry in the primary's `nodes` map. -/
structure HaClusterNode where
  ws : Nat
  lastSeenAt : Nat

inductive Message (N : Type*)
  | voteRequest (receiver : N) (term : Nat) (candidate : N) (candidateCursor : Nat)
  | voteResponse (receiver : N) (term : Nat) (voter : N) (response : VoteResponse)
  | announcePrimary (receiver primary : N) (epoch : Nat)
  | whoIsPrimary (peer : N) (epoch : Nat) (primary : Option N) (role : Role)
  | openStream (conn : Nat) (node primary : N)
  | hello (conn epoch : Nat)
  | primaryRedirect (conn : Nat) (primary : N) (epoch : Nat)
  | announce (conn : Nat) (node : N) (epoch : Nat)
  | heartbeat (conn : Nat)
  | cursor (conn : Nat) (node : N)
  | promote (conn : Nat) (intent : HaPromotionIntent N)
  | promoteAppliedAck (conn promotionId : Nat) (success : Bool)
  deriving DecidableEq

instance {N : Type*} [DecidableEq N] : LawfulBEq (Message N) := inferInstance

/-- Memory of a process. `serving` is set when it ran `startPrimary`. `heard` is a history
variable: when this process last handled an announcement or cursor of a node. -/
structure Process (N : Type*) where
  ha : HaConfig N
  serving : Bool
  state : HaConnectionState
  disconnectedSince : Nat
  cursor : Nat
  lastVerifiedSyncAt : Nat
  verifiedPrimaryConnectionGeneration : Nat
  electionWinnerActivating : Bool
  replicaSocket : Option Nat
  replicas : List (Nat × N)
  nodes : N → Option HaClusterNode
  heard : N → Option Nat
  promotionRecoveryRunning : Bool
  campaigningTerm : Option Nat
  tick : Tick N
  tasks : List (Task N)

structure Node (N : Type*) where
  tables : HaTables N
  process : Option (Process N)

/-- A vote that became durable, and when. -/
structure Vote (N : Type*) where
  voter : N
  term : Nat
  candidate : N
  time : Nat

inductive Via
  | election
  | promotion
  deriving DecidableEq

/-- A node's row that became `primary`, and when. -/
structure Activation (N : Type*) where
  node : N
  epoch : Nat
  via : Via
  time : Nat

/-- What one event of a node does: its next state, the messages it sends, and
what the run's history records of it. -/
structure Effect (N : Type*) where
  node : Node N
  sent : List (Message N) := []
  votes : List (Vote N) := []
  activations : List (Activation N) := []

variable {N : Type*} [DecidableEq N]

def Process.withHa (pr : Process N) (ha : HaConfig N) : Process N := { pr with ha := ha }

def Process.spawn (pr : Process N) (task : Task N) : Process N :=
  { pr with tasks := task :: pr.tasks }

/-- The process goes on without touching the tables. -/
def quiet (t : HaTables N) (pr : Process N) (sent : List (Message N) := []) : Effect N :=
  { node := { tables := t, process := some pr }, sent := sent }

end BurrowGate.Ha
