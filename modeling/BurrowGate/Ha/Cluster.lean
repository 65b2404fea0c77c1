import BurrowGate.Ha.Mesh
import BurrowGate.Lib.Run

/-!
# The cluster's control plane as a step function

Every step is one event at one node, or the passing of time. Messages once sent
stay in `net`: delivering a message leaves it there, so it may arrive late,
again, or never. A process may be killed at any event and booted again from its
durable tables. `votes` and `activations` record the run's history; no handler
reads them.
-/

namespace BurrowGate.Ha

open Lib.Run
open Lib.Quorum


variable {N : Type*} [DecidableEq N]

inductive Event (N : Type*)
  | boot
  | crash
  | voteRequest (term : Nat) (candidate : N) (candidateCursor : Nat)
  | whoIsPrimary
  | announcePrimary (primary : N) (epoch : Nat)
  | tick
  | resumeTick (peers : List N)
  | failTick
  | electionTimeout (timeoutMs : Nat)
  | discovered (peer primary : N) (epoch : Nat) (role : Role)
  | recovered (primary : N) (epoch : Nat)
  | voteResponse (term : Nat) (voter : N) (response : VoteResponse)
  | connectToPrimary
  | hello (conn epoch : Nat)
  | primaryRedirect (conn : Nat) (primary : N) (epoch : Nat)
  | heartbeat (conn : Nat)
  | replicated (cursor : Nat)
  | replicaClose (code : Nat)
  | checkHeartbeatWatchdog
  | openStream (conn : Nat) (node : N)
  | primaryClose (conn : Nat)
  | broadcastHeartbeat
  | expireStaleReplicaConnections
  | announce (conn : Nat) (node : N) (epoch : Nat)
  | cursor (conn : Nat) (node : N)
  | promote (conn : Nat) (intent : HaPromotionIntent N)
  | promoteNode (target : N) (promotionId : Nat)
  | promoteAppliedAck (i conn promotionId : Nat) (success : Bool)
  | resume (i : Nat)
  | fail (i : Nat)

/-- `loadHaClusterConfigAtBoot`, `prepareForRuntimeAtBoot` and the services' start. -/
def boot (members : Finset N) (now : Nat) (t : HaTables N) : Option (Effect N) :=
  (loadHaClusterConfigAtBoot t now).map fun ha =>
    let r := prepareForRuntimeAtBoot members.card now ha t
    quiet r.2
      { ha := r.1
        serving := r.1.role = .primary
        state := .unknown
        disconnectedSince := now
        cursor := 0
        lastVerifiedSyncAt := 0
        verifiedPrimaryConnectionGeneration := 0
        electionWinnerActivating := false
        replicaSocket := none
        replicas := []
        nodes := fun _ => none
        heard := fun _ => none
        promotionRecoveryRunning := false
        campaigningTerm := none
        tick := .idle
        tasks := [] }

/-- Commit a suspended handler's transaction, or run its next segment. `pr` no
longer holds the task. -/
def resumeTask (members : Finset N) (now : Nat) (self : N) (t : HaTables N) (pr : Process N) :
    Task N → Option (Effect N)
  | .fenceForTerm term fencedAt c =>
      let r := fenceHaPrimaryForElectionTerm t term fencedAt
      some (quiet r.1 (pr.spawn (.fencedForTerm term c r.2)))
  | .fencedForTerm term c p => some (fencedForElectionTerm self t pr term c p)
  | .adoptTerm term c cursor =>
      let r := adoptHaReplicaElectionTerm t term
      some (quiet r.1 (pr.spawn (.adoptedTerm term c cursor r.2)))
  | .adoptedTerm term c cursor p => some (adoptedElectionTerm self t pr term c cursor p)
  | .grantVote term c =>
      some (persistVote now self t term c fun granted => pr.spawn (.grantedVote term c granted))
  | .grantedVote term c granted =>
      some (quiet t pr
        [if granted then .voteResponse c term self { voteGranted := true, voterTerm := term }
         else rejectVote self pr term c])
  | .adoptPrimary p epoch =>
      let r := adoptHaDiscoveredPrimary t p epoch
      some (quiet r.1 (pr.spawn (.adoptedPrimary p epoch r.2.adopted)))
  | .adoptedPrimary p epoch adopted => some (adoptedDiscoveredPrimary t pr p epoch adopted)
  | .fenceAuthority epoch source observedAt conn =>
      some (quiet (fenceHaPrimaryAuthority t epoch source observedAt)
        (pr.spawn (.announced source conn)))
  | .announced source conn => some (announcedNewerEpoch now t pr source conn)
  | .persistHelloEpoch epoch conn =>
      some (quiet (updateHaClusterConfig t { clusterEpoch := some epoch })
        (pr.spawn (.catchUp conn)))
  | .catchUp _ => some (proceedAfterKeyVerified now self t pr)
  | .readIntent target conn => some (resumePromotionIfNeeded t pr target conn)
  | .prepare target conn id => some (prepared members now self t pr target conn id)
  | .saveIntent i conn =>
      some (quiet (saveHaPromotionIntent t i) (pr.spawn (.sendPromote i conn false)))
  | .resumePrepare i conn => some (quiet t (pr.spawn (.sendPromote i conn true)))
  | .sendPromote i conn resumed => some (sendPromote t pr i conn resumed)
  | .awaitApplied _ _ _ => none
  | .completeIntent i resumed =>
      let r := completeHaPromotionIntent t i.promotionId i.targetNodeId i.newEpoch
      some (quiet r.1 (pr.spawn (.completedIntent i resumed r.2)))
  | .completedIntent i resumed completed => some (completedIntent t pr i resumed completed)
  | .clearIntent i =>
      some (quiet (clearHaPromotionIntent t i.promotionId) (pr.withHa (endPromotion pr.ha)))
  | .applyRoleChange i conn => some (applyRoleChange now self t pr i conn)
  | .appliedRoleChange i conn persisted => some (appliedRoleChange self t pr i conn persisted)

/-- The suspended call throws: a database error, a closed connection or a timeout. -/
def failTask (t : HaTables N) (pr : Process N) : Task N → Option (Effect N)
  | .fenceForTerm _ _ _ | .adoptTerm _ _ _ | .grantVote _ _ | .adoptPrimary _ _ =>
      some (quiet t pr)
  | .fenceAuthority _ source _ conn => some (quiet t (pr.spawn (.announced source conn)))
  | .persistHelloEpoch _ conn => some (quiet t (pr.spawn (.catchUp conn)))
  | .catchUp _ | .readIntent _ _ => some (quiet t pr)
  | .prepare _ _ _ => some (quiet t (pr.withHa (endPromotion pr.ha)))
  -- `durableIntent` is set, so the `finally` keeps the fence
  | .saveIntent _ _ | .clearIntent _ => some (quiet t pr)
  | .resumePrepare _ _ => some (handoverStopped t pr true)
  | .sendPromote i _ resumed =>
      some (if resumed then handoverStopped t pr true else quiet t (pr.spawn (.clearIntent i)))
  | .awaitApplied _ _ resumed | .completeIntent _ resumed => some (handoverStopped t pr resumed)
  | .applyRoleChange i conn => some (quiet t (pr.spawn (.appliedRoleChange i conn false)))
  | _ => none

/-- One event of a running process. -/
def processStep (members : Finset N) (now fresh : Nat) (net : List (Message N)) (self : N)
    (t : HaTables N) (pr : Process N) : Event N → Option (Effect N)
  | .boot => none
  | .crash => some { node := { tables := t, process := none } }
  | .voteRequest term c cursor =>
      if .voteRequest self term c cursor ∈ net ∧ c ∈ members then
        some (handleVoteRequest members now self t pr term c cursor)
      else none
  | .whoIsPrimary => some (quiet t pr [handleWhoIsPrimary self pr])
  | .announcePrimary p epoch =>
      if .announcePrimary self p epoch ∈ net then some (handleAnnouncePrimary t pr p epoch)
      else none
  | .tick =>
      match pr.tick, pr.ha.role with
      | .idle, .primary => some (tickPrimaryQuorum t pr)
      | .idle, .replica => some (tickReplicaElection members now t pr)
      | _, _ => none
  | .resumeTick peers => resumeTick members now self peers t pr
  | .failTick => failTick t pr
  | .electionTimeout timeoutMs =>
      match pr.tick with
      | .discover ms =>
          if HA_ELECTION_TIMEOUT_BASE_MS ≤ timeoutMs then
            if ms < timeoutMs then some (quiet t (withTick pr .idle))
            else some (startCampaign now t pr)
          else none
      | _ => none
  | .discovered peer p epoch role =>
      match pr.tick with
      | .discover _ =>
          if .whoIsPrimary peer epoch (some p) role ∈ net ∧ peer ∈ members ∧ peer ≠ self ∧
              discovers pr p epoch role = true then
            some (quiet t ((endCampaign pr).spawn (.adoptPrimary p epoch)))
          else none
      | _ => none
  | .recovered p epoch =>
      match pr.tick with
      | .recover =>
          if confirmsNewPrimary members self net pr p epoch then
            some (quiet t ((withTick pr .idle).spawn (.adoptPrimary p epoch)))
          else none
      | _ => none
  | .voteResponse term voter response =>
      match pr.tick with
      | .collect c responses =>
          if .voteResponse self term voter response ∈ net ∧ term = c.term ∧ voter ∈ members ∧
              voter ≠ self ∧ voter ∉ responses.map Prod.fst then
            some (quiet t (withTick pr (.collect c ((voter, response) :: responses))))
          else none
      | _ => none
  | .connectToPrimary => connectToPrimary fresh self t pr
  | .hello conn epoch =>
      if .hello conn epoch ∈ net ∧ pr.replicaSocket = some conn then
        some (handleHello self t pr conn epoch)
      else none
  | .primaryRedirect conn p epoch =>
      if .primaryRedirect conn p epoch ∈ net ∧ pr.replicaSocket = some conn then
        some (handlePrimaryRedirect t pr p epoch)
      else none
  | .heartbeat conn =>
      if .heartbeat conn ∈ net ∧ pr.replicaSocket = some conn then
        some (handleHeartbeat now self t pr conn)
      else none
  | .replicated cursor => if pr.ha.role = .replica then some (quiet t { pr with cursor }) else none
  | .replicaClose code => some (quiet t (handleReplicaClose now pr code))
  | .checkHeartbeatWatchdog => some (quiet t (checkHeartbeatWatchdog now pr))
  | .openStream conn node =>
      if .openStream conn node self ∈ net ∧ node ∈ members ∧ node ≠ self then
        some (handlePrimaryOpen t pr conn node)
      else none
  | .primaryClose conn => some (quiet t (handlePrimaryClose pr conn))
  | .broadcastHeartbeat =>
      if pr.ha.role = .primary then some (quiet t pr (heartbeats pr)) else none
  | .expireStaleReplicaConnections => some (quiet t (expireStaleReplicaConnections pr now))
  | .announce conn node epoch =>
      if .announce conn node epoch ∈ net ∧ (conn, node) ∈ pr.replicas then
        some (handleAnnounce now t pr conn node epoch)
      else none
  | .cursor conn node =>
      if .cursor conn node ∈ net then some (handleCursor now t pr conn node) else none
  | .promote conn i =>
      if .promote conn i ∈ net ∧ pr.replicaSocket = some conn then
        some (handlePromote t pr i conn)
      else none
  | .promoteNode target id => promoteNode members now self t pr target id
  | .promoteAppliedAck i conn id success =>
      match pr.tasks[i]? with
      | some (.awaitApplied intent conn' resumed) =>
          if .promoteAppliedAck conn id success ∈ net ∧ conn = conn' ∧
              id = intent.promotionId then
            some (promoteAnswered t { pr with tasks := pr.tasks.eraseIdx i } intent conn
              resumed success)
          else none
      | _ => none
  | .resume i =>
      match pr.tasks[i]? with
      | some task => resumeTask members now self t { pr with tasks := pr.tasks.eraseIdx i } task
      | none => none
  | .fail i =>
      match pr.tasks[i]? with
      | some task => failTask t { pr with tasks := pr.tasks.eraseIdx i } task
      | none => none

/-- One event at a node; a node that is down can only boot. -/
def nodeStep (members : Finset N) (now fresh : Nat) (net : List (Message N)) (self : N)
    (n : Node N) (ev : Event N) : Option (Effect N) :=
  match n.process, ev with
  | none, .boot => boot members now n.tables
  | none, _ => none
  | some pr, ev => processStep members now fresh net self n.tables pr ev

/-! ## The cluster -/

structure Cluster (N : Type*) where
  now : Nat
  fresh : Nat
  node : N → Node N
  net : List (Message N)
  votes : List (Vote N)
  activations : List (Activation N)

inductive Action (N : Type*)
  | advance (ms : Nat)
  | at (n : N) (ev : Event N)

def Cluster.commit (s : Cluster N) (n : N) (e : Effect N) : Cluster N :=
  { s with
    fresh := s.fresh + 1
    node := Function.update s.node n e.node
    net := e.sent ++ s.net
    votes := e.votes ++ s.votes
    activations := e.activations ++ s.activations }

def step (members : Finset N) (s : Cluster N) : Action N → Option (Cluster N)
  | .advance ms => some { s with now := s.now + ms }
  | .at n ev => (nodeStep members s.now s.fresh s.net n (s.node n) ev).map (s.commit n)

/-- The tables of a cluster that has one primary and has held no election yet. -/
def freshTables (epoch : N → Nat) (primary n : N) : HaTables N :=
  { config :=
      { role := if n = primary then .primary else .replica
        primaryUrl := if n = primary then none else some primary
        clusterEpoch := epoch n
        votedFor := none
        authorityFenced := false
        authorityFenceEpoch := none
        authorityFenceNodeId := none
        authorityFencedAt := none
        quorumFenced := false
        quorumFencedAt := none }
    intent := none }

/-- Every process is down, one node's row is primary, and no vote has been cast. -/
def initial (now : Nat) (epoch : N → Nat) (primary : N) : Cluster N :=
  { now := now
    fresh := 0
    node := fun n => { tables := freshTables epoch primary n, process := none }
    net := []
    votes := []
    activations := [] }

def Initial (s : Cluster N) : Prop := ∃ now epoch primary, s = initial now epoch primary

end BurrowGate.Ha
