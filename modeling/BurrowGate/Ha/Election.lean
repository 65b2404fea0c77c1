import BurrowGate.Ha.Node

/-!
# `ha-election-service.ts`

Vote requests, the election timer on a primary and on a replica, campaigns, and
the answers to `who-is-primary` and `announce-primary`. Membership is fixed, so
`haClusterMembers()` is the set `members` and `trackedMemberCount` its size.
-/

namespace BurrowGate.Ha

open Lib.Quorum

variable {N : Type*} [DecidableEq N]

/-! ## What the mesh service reports -/

def disconnectedDurationMs (pr : Process N) (now : Nat) : Option Nat :=
  if pr.ha.role ≠ .replica ∨ pr.state ≠ .disconnected ∨ pr.disconnectedSince = 0 then none
  else some (now - pr.disconnectedSince)

def expireStaleReplicaConnections (pr : Process N) (now : Nat) : Process N :=
  { pr with nodes := fun u =>
      (pr.nodes u).filter fun e => now - e.lastSeenAt ≤ HA_REPLICA_LIVENESS_TIMEOUT_MS }

def connectedReplicas (members : Finset N) (pr : Process N) : Finset N :=
  members.filter fun u => (pr.nodes u).isSome

def heartbeats (pr : Process N) : List (Message N) := pr.replicas.map fun r => .heartbeat r.1

/-! ## Vote requests -/

def rejectVote (self : N) (pr : Process N) (term : Nat) (candidate : N) : Message N :=
  .voteResponse candidate term self { voteGranted := false, voterTerm := pr.ha.epoch }

def handleVoteRequest (members : Finset N) (now : Nat) (self : N) (t : HaTables N)
    (pr : Process N) (term : Nat) (candidate : N) (candidateCursor : Nat) : Effect N :=
  if members.card < HA_AUTO_FAILOVER_MIN_MEMBERS then
    quiet t pr [rejectVote self pr term candidate]
  else if term < pr.ha.epoch then quiet t pr [rejectVote self pr term candidate]
  else if pr.ha.role ≠ .primary ∧ disconnectedDurationMs pr now = none then
    quiet t pr [rejectVote self pr term candidate]
  else if pr.ha.role = .primary then
    quiet t (({ pr with ha := { pr.ha with quorumFenced := true } }).spawn
      (.fenceForTerm term now candidate))
  else quiet t (pr.spawn (.adoptTerm term candidate candidateCursor))

/-- The rest of `handleVoteRequest` on a primary, after its term fence is durable. -/
def fencedForElectionTerm (self : N) (t : HaTables N) (pr : Process N) (term : Nat)
    (candidate : N) (persistedTerm : Option Nat) : Effect N :=
  match persistedTerm with
  | none => quiet t pr [rejectVote self pr term candidate]
  | some p =>
      let pr := { pr with ha := { pr.ha with epoch := max pr.ha.epoch p } }
      quiet t pr (rejectVote self pr term candidate :: heartbeats pr)

/-- The rest of `handleVoteRequest` on a replica, up to persisting the grant. -/
def adoptedElectionTerm (self : N) (t : HaTables N) (pr : Process N) (term : Nat)
    (candidate : N) (candidateCursor : Nat) (persistedTerm : Option Nat) : Effect N :=
  match persistedTerm with
  | none => quiet t pr [rejectVote self pr term candidate]
  | some p =>
      let pr := { pr with ha := { pr.ha with epoch := max pr.ha.epoch p } }
      if term < pr.ha.epoch then quiet t pr [rejectVote self pr term candidate]
      else if candidateCursor < pr.cursor then quiet t pr [rejectVote self pr term candidate]
      else quiet t (pr.spawn (.grantVote term candidate))

/-- `tryPersistVoteGrant` as a handler awaits it; `next` is what the handler does then. -/
def persistVote (now : Nat) (self : N) (t : HaTables N) (term : Nat) (candidate : N)
    (next : Bool → Process N) : Effect N :=
  let r := tryPersistVoteGrant t term candidate
  { node := { tables := r.1, process := some (next r.2) }
    votes := if r.2 then [{ voter := self, term, candidate, time := now }] else [] }

/-! ## The election timer on a primary -/

def withTick (pr : Process N) (tick : Tick N) : Process N := { pr with tick := tick }

def tickPrimaryQuorum (t : HaTables N) (pr : Process N) : Effect N :=
  if pr.ha.authorityFence.isSome then
    quiet t { pr with ha := { pr.ha with quorumTrackingActive := false }, tick := .recover }
  else if pr.ha.fencedForPromotion || pr.ha.electionInProgress then
    quiet t { pr with ha := { pr.ha with quorumTrackingActive := false } }
  else quiet t (withTick pr .countMembers)

/-- The synchronous head of `clearQuorumLossIfFenced`; its write follows in `clearFence`. -/
def clearQuorumLossIfFenced (t : HaTables N) (pr : Process N) : Effect N :=
  if pr.ha.quorumFenced then
    quiet t { pr with ha := { pr.ha with quorumFenced := false }, tick := .clearFence }
  else quiet t (withTick pr .idle)

/-- The first tick with enough members starts the clock of the majority proof. -/
def startTracking (now : Nat) (ha : HaConfig N) : HaConfig N :=
  { ha with
    lastMajorityConfirmedAt := if ha.quorumTrackingActive then ha.lastMajorityConfirmedAt else now
    quorumTrackingActive := true }

/-- `tickPrimaryQuorum` after it has read the members. -/
def countedMembers (members : Finset N) (now : Nat) (t : HaTables N) (pr : Process N) :
    Effect N :=
  if members.card < HA_AUTO_FAILOVER_MIN_MEMBERS then
    clearQuorumLossIfFenced t { pr with ha := { pr.ha with quorumTrackingActive := false } }
  else
    let pr := expireStaleReplicaConnections (pr.withHa (startTracking now pr.ha)) now
    if majority members ≤ 1 + (connectedReplicas members pr).card then
      let pr := { pr with ha := { pr.ha with lastMajorityConfirmedAt := now } }
      quiet t (withTick pr (if pr.ha.quorumFenced then .readFence else .idle))
    else if now - pr.ha.lastMajorityConfirmedAt < HA_QUORUM_LOSS_FENCE_MS then
      quiet t (withTick pr .idle)
    else if pr.ha.quorumFenced then quiet t (withTick pr .recover)
    else
      quiet t { pr with ha := { pr.ha with quorumFenced := true }, tick := .setFence now }

def checkedFence (now : Nat) (t : HaTables N) (pr : Process N) (fencedAt : Option Nat) :
    Effect N :=
  if fencedAt.any (fun f => now - f < HA_REPLICA_LIVENESS_TIMEOUT_MS) then
    quiet t (withTick pr .idle)
  else clearQuorumLossIfFenced t pr

/-! ## The election timer on a replica, and campaigns -/

def abandonCampaign (pr : Process N) : Process N :=
  { pr with campaigningTerm := none, ha := { pr.ha with electionInProgress := false } }

/-- The `finally` of `startCampaign`, with the timer's own. -/
def endCampaign (pr : Process N) : Process N := withTick (abandonCampaign pr) .idle

def tickReplicaElection (members : Finset N) (now : Nat) (t : HaTables N) (pr : Process N) :
    Effect N :=
  match disconnectedDurationMs pr now with
  | none => quiet t pr
  | some ms =>
      if pr.campaigningTerm.isSome then quiet t pr
      else if members.card < HA_AUTO_FAILOVER_MIN_MEMBERS then quiet t pr
      else quiet t (withTick pr (.discover ms))

def startCampaign (now : Nat) (t : HaTables N) (pr : Process N) : Effect N :=
  if pr.ha.fencedForPromotion then quiet t (withTick pr .idle)
  else if disconnectedDurationMs pr now = none then quiet t (withTick pr .idle)
  else
    let term := pr.ha.epoch + 1
    quiet t
      { pr with
        ha := { pr.ha with electionInProgress := true }
        campaigningTerm := some term
        tick := .selfVote
          { term
            ownCursor := pr.cursor
            connectivityGeneration := pr.verifiedPrimaryConnectionGeneration
            expectedPrimaryUrl := pr.ha.primaryUrl } }

def campaigning (pr : Process N) (c : Campaign N) : Bool :=
  pr.campaigningTerm = some c.term && pr.ha.electionInProgress

/-- `startCampaign` after its own vote, with the requests `runCampaign` sends. -/
def votedForSelf (members : Finset N) (now : Nat) (self : N) (t : HaTables N) (pr : Process N)
    (c : Campaign N) (granted : Bool) (peers : List N) : Effect N :=
  if granted && campaigning pr c && (disconnectedDurationMs pr now).isSome then
    quiet t
      { pr with ha := { pr.ha with epoch := max pr.ha.epoch c.term }, tick := .collect c [] }
      ((peers.filter fun u => u ∈ members ∧ u ≠ self).map fun u =>
        .voteRequest u c.term self c.ownCursor)
  else quiet t (endCampaign pr)

def grantedBy (self : N) (responses : List (N × VoteResponse)) : Finset N :=
  insert self ((responses.filter fun r => r.2.voteGranted).map Prod.fst).toFinset

/-- `beginElectionWinnerActivation`. -/
def beginElectionWinnerActivation (pr : Process N) (generation : Nat) : Option (Process N) :=
  if pr.ha.role ≠ .replica ∨ pr.state ≠ .disconnected ∨ pr.disconnectedSince = 0 ∨
      pr.electionWinnerActivating = true ∨
      pr.verifiedPrimaryConnectionGeneration ≠ generation then none
  else some { pr with electionWinnerActivating := true }

omit [DecidableEq N] in
theorem beginElectionWinnerActivation_eq {pr pr' : Process N} {generation : Nat}
    (h : beginElectionWinnerActivation pr generation = some pr') :
    pr' = { pr with electionWinnerActivating := true } := by
  unfold beginElectionWinnerActivation at h
  split at h <;> cases h
  rfl

/-- `runCampaign` once every peer has answered or failed. -/
def tallied (members : Finset N) (self : N) (t : HaTables N) (pr : Process N) (c : Campaign N)
    (responses : List (N × VoteResponse)) : Effect N :=
  match responses.find? fun r => c.term < r.2.voterTerm with
  | some r =>
      quiet t
        { pr with
          ha := { pr.ha with epoch := max pr.ha.epoch r.2.voterTerm }
          tick := .newerTerm c r.2.voterTerm }
  | none =>
      if (grantedBy self responses).card < majority members then quiet t (endCampaign pr)
      else if campaigning pr c = false then quiet t (endCampaign pr)
      else
        match beginElectionWinnerActivation pr c.connectivityGeneration with
        | none => quiet t (endCampaign pr)
        | some pr => quiet t (withTick pr (.activate c))

/-- `activateElectionWinner`, up to its transaction. -/
def activateWinner (now : Nat) (self : N) (t : HaTables N) (pr : Process N) (c : Campaign N) :
    Effect N :=
  let r := activateHaElectionWinner t c.term self c.expectedPrimaryUrl
  { node := { tables := r.1, process := some (withTick pr (.activated c r.2)) }
    activations :=
      if r.2 then [{ node := self, epoch := c.term, via := .election, time := now }] else [] }

/-- `winElection` and `finishElectionWinnerActivation`; the restart is a later event. -/
def activatedWinner (members : Finset N) (self : N) (t : HaTables N) (pr : Process N)
    (c : Campaign N) (persisted : Bool) (peers : List N) : Effect N :=
  if persisted then
    quiet t (endCampaign { pr with ha := { pr.ha with epoch := c.term } })
      ((peers.filter fun u => u ∈ members ∧ u ≠ self).map fun u =>
        .announcePrimary u self c.term)
  else quiet t (endCampaign { pr with electionWinnerActivating := false })

/-- The timer's next segment, for the suspensions that need no message. -/
def resumeTick (members : Finset N) (now : Nat) (self : N) (peers : List N) (t : HaTables N)
    (pr : Process N) : Option (Effect N) :=
  match pr.tick with
  | .countMembers => some (countedMembers members now t pr)
  | .readFence => some (quiet t (withTick pr (.checkFence t.config.quorumFencedAt)))
  | .checkFence fencedAt => some (checkedFence now t pr fencedAt)
  | .clearFence => some (quiet (clearQuorumFence t) (withTick pr .idle) (heartbeats pr))
  | .setFence fencedAt => some (quiet (setQuorumFence t fencedAt) (withTick pr .idle))
  | .selfVote c =>
      some (persistVote now self t c.term self fun granted => withTick pr (.selfVoted c granted))
  | .selfVoted c granted => some (votedForSelf members now self t pr c granted peers)
  | .collect c responses => some (tallied members self t pr c responses)
  | .newerTerm _ voterTerm =>
      some (quiet (adoptHaReplicaElectionTerm t voterTerm).1 (endCampaign pr))
  | .activate c => some (activateWinner now self t pr c)
  | .activated c persisted => some (activatedWinner members self t pr c persisted peers)
  | .recover => some (quiet t (withTick pr .idle))
  | .discover _ | .idle => none

/-- The timer's `catch`: a database call of the suspended tick failed. -/
def failTick (t : HaTables N) (pr : Process N) : Option (Effect N) :=
  match pr.tick with
  | .readFence | .clearFence | .setFence _ => some (quiet t (withTick pr .idle))
  | .selfVote _ | .newerTerm _ _ => some (quiet t (endCampaign pr))
  | .activate _ => some (quiet t (endCampaign { pr with electionWinnerActivating := false }))
  | _ => none

/-! ## Answers and announcements -/

def handleWhoIsPrimary (self : N) (pr : Process N) : Message N :=
  if pr.ha.role = .primary ∧ pr.ha.quorumFenced = false ∧ pr.ha.authorityFence.isNone then
    .whoIsPrimary self pr.ha.epoch (some self) .primary
  else .whoIsPrimary self pr.ha.epoch pr.ha.primaryUrl .replica

/-- An answer that makes `tryDiscoverPrimaryFromPeers` adopt. -/
def discovers (pr : Process N) (primary : N) (epoch : Nat) (role : Role) : Bool :=
  pr.ha.epoch < epoch ||
    (epoch = pr.ha.epoch && role = .primary && some primary ≠ pr.ha.primaryUrl)

/-- The majority `tryAutomaticFormerPrimaryRecovery` asks for, the primary among it. -/
def confirmsNewPrimary (members : Finset N) (self : N) (net : List (Message N))
    (pr : Process N) (primary : N) (epoch : Nat) : Bool :=
  pr.ha.epoch ≤ epoch &&
    majority members ≤
      (members.filter fun u => u ≠ self ∧
        (.whoIsPrimary u epoch (some primary) .primary ∈ net ∨
          .whoIsPrimary u epoch (some primary) .replica ∈ net)).card &&
    .whoIsPrimary primary epoch (some primary) .primary ∈ net

def handleAnnouncePrimary (t : HaTables N) (pr : Process N) (primary : N) (epoch : Nat) :
    Effect N :=
  if epoch < pr.ha.epoch then quiet t pr
  else if pr.ha.role = .replica ∧ epoch = pr.ha.epoch ∧ some primary = pr.ha.primaryUrl then
    quiet t pr
  else quiet t ((abandonCampaign pr).spawn (.adoptPrimary primary epoch))

end BurrowGate.Ha
