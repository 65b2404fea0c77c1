import BurrowGate.Lib.Quorum

/-!
# The durable cluster row and its repository updates

`ha_cluster_config` has one row, `ha_promotion_intent` at most one. Every update
below is one transaction of `repository.ts`, so it is one function on the pair.
A node's mesh and admin addresses are always written together and are modelled
by the node they belong to. `updated_at` and the columns no election or
promotion reads are left out.
-/

namespace BurrowGate.Ha

open Lib.Quorum

inductive Role
  | primary
  | replica
  deriving DecidableEq

/-- `ha_cluster_config`. `votedFor` joins `voted_for_term` and `voted_for_node_id`,
which are only ever written together. -/
structure HaClusterConfigRow (N : Type*) where
  role : Role
  primaryUrl : Option N
  clusterEpoch : Nat
  votedFor : Register N
  authorityFenced : Bool
  authorityFenceEpoch : Option Nat
  authorityFenceNodeId : Option N
  authorityFencedAt : Option Nat
  quorumFenced : Bool
  quorumFencedAt : Option Nat

/-- `ha_promotion_intent`. -/
structure HaPromotionIntent (N : Type*) where
  promotionId : Nat
  targetNodeId : N
  newEpoch : Nat
  deriving DecidableEq

/-- The rows a node keeps about the cluster. -/
structure HaTables (N : Type*) where
  config : HaClusterConfigRow N
  intent : Option (HaPromotionIntent N)

/-- The patch `updateHaClusterConfig` is called with; an absent field stays as it is. -/
structure HaClusterConfigPatch (N : Type*) where
  role : Option Role := none
  primaryUrl : Option (Option N) := none
  clusterEpoch : Option Nat := none

variable {N : Type*} [DecidableEq N]

/-- `CASE WHEN cluster_epoch < term THEN term ELSE cluster_epoch END`. -/
def raisedEpoch (row : HaClusterConfigRow N) (term : Nat) : Nat :=
  if row.clusterEpoch < term then term else row.clusterEpoch

def updateHaClusterConfig (t : HaTables N) (patch : HaClusterConfigPatch N) : HaTables N :=
  { t with config :=
    { t.config with
      role := patch.role.getD t.config.role
      primaryUrl := patch.primaryUrl.getD t.config.primaryUrl
      clusterEpoch := patch.clusterEpoch.getD t.config.clusterEpoch } }

structure Adoption where
  adopted : Bool
  forcedFreshBootstrap : Bool

/-- The replication tables this transaction also clears are returned as
`forcedFreshBootstrap`. -/
def adoptHaDiscoveredPrimary (t : HaTables N) (primaryUrl : N) (clusterEpoch : Nat) :
    HaTables N × Adoption :=
  if t.config.clusterEpoch ≤ clusterEpoch then
    ({ config :=
        { t.config with
          role := .replica
          primaryUrl := some primaryUrl
          clusterEpoch := clusterEpoch
          authorityFenced := false
          authorityFenceEpoch := none
          authorityFenceNodeId := none
          authorityFencedAt := none
          quorumFenced := false
          quorumFencedAt := none }
       intent := none },
      { adopted := true, forcedFreshBootstrap := t.config.role = .primary })
  else (t, { adopted := false, forcedFreshBootstrap := false })

def fenceHaPrimaryAuthority (t : HaTables N) (observedEpoch : Nat) (sourceNodeId : N)
    (observedAt : Nat) : HaTables N :=
  if t.config.authorityFenceEpoch.all (· < observedEpoch) then
    { t with config :=
      { t.config with
        authorityFenced := true
        authorityFenceEpoch := some observedEpoch
        authorityFenceNodeId := some sourceNodeId
        authorityFencedAt := some observedAt
        clusterEpoch := raisedEpoch t.config observedEpoch } }
  else t

def fenceHaPrimaryForElectionTerm (t : HaTables N) (term fencedAt : Nat) :
    HaTables N × Option Nat :=
  if t.config.role = .primary then
    ({ t with config :=
        { t.config with
          quorumFencedAt :=
            if t.config.quorumFenced = true ∧ term ≤ t.config.clusterEpoch then
              t.config.quorumFencedAt
            else some fencedAt
          clusterEpoch := raisedEpoch t.config term
          quorumFenced := true } },
      some (raisedEpoch t.config term))
  else (t, none)

def adoptHaReplicaElectionTerm (t : HaTables N) (term : Nat) : HaTables N × Option Nat :=
  if t.config.role = .replica then
    ({ t with config := { t.config with clusterEpoch := raisedEpoch t.config term } },
      some (raisedEpoch t.config term))
  else (t, none)

/-- `voted_for_term IS NULL OR voted_for_term < term OR
(voted_for_term = term AND voted_for_node_id = candidate)`. -/
def voteFree (votedFor : Register N) (term : Nat) (candidate : N) : Bool :=
  match votedFor with
  | none => true
  | some (t, c) => t < term ∨ t = term ∧ c = candidate

def tryPersistVoteGrant (t : HaTables N) (term : Nat) (candidateNodeId : N) :
    HaTables N × Bool :=
  if t.config.role = .replica ∧ t.config.clusterEpoch ≤ term ∧
      voteFree t.config.votedFor term candidateNodeId = true then
    ({ t with config :=
        { t.config with
          clusterEpoch := raisedEpoch t.config term
          votedFor := some (term, candidateNodeId) } },
      true)
  else (t, false)

def activateHaElectionWinner (t : HaTables N) (term : Nat) (candidateNodeId : N)
    (expectedPrimaryUrl : Option N) : HaTables N × Bool :=
  if t.config.role = .replica ∧ t.config.clusterEpoch = term ∧
      t.config.votedFor = some (term, candidateNodeId) ∧
      t.config.primaryUrl = expectedPrimaryUrl then
    ({ config :=
        { t.config with
          role := .primary
          primaryUrl := none
          clusterEpoch := term
          authorityFenced := false
          authorityFenceEpoch := none
          authorityFenceNodeId := none
          authorityFencedAt := none
          quorumFenced := false
          quorumFencedAt := none }
       intent := none },
      true)
  else (t, false)

def setQuorumFence (t : HaTables N) (now : Nat) : HaTables N :=
  { t with config := { t.config with quorumFenced := true, quorumFencedAt := some now } }

def clearQuorumFence (t : HaTables N) : HaTables N :=
  { t with config := { t.config with quorumFenced := false, quorumFencedAt := none } }

def saveHaPromotionIntent (t : HaTables N) (intent : HaPromotionIntent N) : HaTables N :=
  { t with intent := some intent }

def clearHaPromotionIntent (t : HaTables N) (promotionId : Nat) : HaTables N :=
  if t.intent.any (·.promotionId == promotionId) then { t with intent := none } else t

def completeHaPromotionIntent (t : HaTables N) (promotionId : Nat) (primaryUrl : N)
    (clusterEpoch : Nat) : HaTables N × Bool :=
  if t.intent.any (·.promotionId == promotionId) = true ∧ t.config.authorityFenced = false then
    ({ config :=
        { t.config with
          role := .replica
          primaryUrl := some primaryUrl
          clusterEpoch := clusterEpoch }
       intent := none },
      true)
  else (t, false)

/-! ## The vote register

`tryPersistVoteGrant` alone writes it, and only as a register may be set. -/

section Register

variable (t : HaTables N)

section

omit [DecidableEq N]

@[simp] theorem updateHaClusterConfig_votedFor (patch : HaClusterConfigPatch N) :
    (updateHaClusterConfig t patch).config.votedFor = t.config.votedFor := (rfl)

@[simp] theorem adoptHaDiscoveredPrimary_votedFor (p : N) (e : Nat) :
    (adoptHaDiscoveredPrimary t p e).1.config.votedFor = t.config.votedFor := by
  unfold adoptHaDiscoveredPrimary; split <;> rfl

@[simp] theorem fenceHaPrimaryAuthority_votedFor (e : Nat) (n : N) (at_ : Nat) :
    (fenceHaPrimaryAuthority t e n at_).config.votedFor = t.config.votedFor := by
  unfold fenceHaPrimaryAuthority; split <;> rfl

@[simp] theorem fenceHaPrimaryForElectionTerm_votedFor (term at_ : Nat) :
    (fenceHaPrimaryForElectionTerm t term at_).1.config.votedFor = t.config.votedFor := by
  unfold fenceHaPrimaryForElectionTerm; split <;> rfl

@[simp] theorem adoptHaReplicaElectionTerm_votedFor (term : Nat) :
    (adoptHaReplicaElectionTerm t term).1.config.votedFor = t.config.votedFor := by
  unfold adoptHaReplicaElectionTerm; split <;> rfl

end

@[simp] theorem activateHaElectionWinner_votedFor (term : Nat) (n : N) (p : Option N) :
    (activateHaElectionWinner t term n p).1.config.votedFor = t.config.votedFor := by
  unfold activateHaElectionWinner; split <;> rfl

section

omit [DecidableEq N]

@[simp] theorem setQuorumFence_votedFor (at_ : Nat) :
    (setQuorumFence t at_).config.votedFor = t.config.votedFor := (rfl)

@[simp] theorem clearQuorumFence_votedFor :
    (clearQuorumFence t).config.votedFor = t.config.votedFor := (rfl)

@[simp] theorem saveHaPromotionIntent_config (i : HaPromotionIntent N) :
    (saveHaPromotionIntent t i).config = t.config := (rfl)

@[simp] theorem clearHaPromotionIntent_config (id : Nat) :
    (clearHaPromotionIntent t id).config = t.config := by
  unfold clearHaPromotionIntent; split <;> rfl

@[simp] theorem completeHaPromotionIntent_votedFor (id : Nat) (p : N) (e : Nat) :
    (completeHaPromotionIntent t id p e).1.config.votedFor = t.config.votedFor := by
  unfold completeHaPromotionIntent; split <;> rfl

end

theorem maySet_of_voteFree {r : Register N} {term : Nat} {c : N}
    (h : voteFree r term c = true) : MaySet r term c := by
  intro t d hr
  subst hr
  simpa [voteFree] using h

/-- A persisted grant sets the register as a register may be set, on a replica's row. -/
theorem tryPersistVoteGrant_granted {term : Nat} {c : N}
    (h : (tryPersistVoteGrant t term c).2 = true) :
    MaySet t.config.votedFor term c ∧ t.config.role = .replica ∧
      (tryPersistVoteGrant t term c).1.config.votedFor = some (term, c) ∧
      (tryPersistVoteGrant t term c).1.config.role = .replica := by
  unfold tryPersistVoteGrant at h ⊢
  split at h
  · rename_i hc
    exact ⟨maySet_of_voteFree hc.2.2, hc.1, by simp [hc], by simp [hc]⟩
  · simp at h

theorem tryPersistVoteGrant_refused {term : Nat} {c : N}
    (h : (tryPersistVoteGrant t term c).2 = false) : (tryPersistVoteGrant t term c).1 = t := by
  unfold tryPersistVoteGrant at h ⊢
  split
  · rename_i hc; rw [if_pos hc] at h; cases h
  · rfl

/-- Activation needs the node's own durable vote, and turns a replica's row into a primary's. -/
theorem activateHaElectionWinner_activated {term : Nat} {n : N} {p : Option N}
    (h : (activateHaElectionWinner t term n p).2 = true) :
    t.config.role = .replica ∧ t.config.votedFor = some (term, n) ∧
      (activateHaElectionWinner t term n p).1.config.role = .primary ∧
      (activateHaElectionWinner t term n p).1.config.authorityFenced = false := by
  unfold activateHaElectionWinner at h ⊢
  split at h
  · rename_i hc
    exact ⟨hc.1, hc.2.2.1, by simp [hc], by simp [hc]⟩
  · simp at h

theorem activateHaElectionWinner_rejected {term : Nat} {n : N} {p : Option N}
    (h : (activateHaElectionWinner t term n p).2 = false) :
    (activateHaElectionWinner t term n p).1 = t := by
  unfold activateHaElectionWinner at h ⊢
  split
  · rename_i hc; rw [if_pos hc] at h; cases h
  · rfl

end Register

end BurrowGate.Ha
