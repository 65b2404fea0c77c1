import BurrowGate.Ha.ClusterConfig

/-!
# A running process: configuration, write barrier and boot

`HaConfig` is `config.ha` as far as elections, promotions and the write barrier
read it. Times are milliseconds. The failover switches are constants of the
build (`ha-timing.ts`), so they are constants here.
-/

namespace BurrowGate.Ha

/-! ## Timing constants (`ha-timing.ts`) -/

def HA_HEARTBEAT_INTERVAL_MS : Nat := 5000
def HA_REPLICA_LIVENESS_TIMEOUT_MS : Nat := HA_HEARTBEAT_INTERVAL_MS * 3
def HA_AUTO_FAILOVER_MIN_MEMBERS : Nat := 3
def HA_ELECTION_TIMEOUT_BASE_MS : Nat := 45000
def HA_QUORUM_LOSS_FENCE_MS : Nat := 10000

/-! ## Configuration and the write barrier -/

structure AuthorityFence (N : Type*) where
  observedEpoch : Nat
  sourceNodeId : Option N
  observedAt : Nat

structure HaConfig (N : Type*) where
  role : Role
  primaryUrl : Option N
  epoch : Nat
  authorityFence : Option (AuthorityFence N)
  fencedForPromotion : Bool
  quorumFenced : Bool
  lastMajorityConfirmedAt : Nat
  quorumTrackingActive : Bool
  electionInProgress : Bool

variable {N : Type*} [DecidableEq N]

/-- `isQuorumProofStale` of `ha-write-barrier.ts`. -/
def isQuorumProofStale (ha : HaConfig N) (now : Nat) : Bool :=
  ha.quorumTrackingActive && HA_QUORUM_LOSS_FENCE_MS ≤ now - ha.lastMajorityConfirmedAt

inductive WriteFence
  | authority
  | quorumLoss
  | promotion
  deriving DecidableEq

/-- The checks `runPrimaryWrite` makes before a write that inherits no active lease. -/
def runPrimaryWrite (ha : HaConfig N) (now : Nat) : Except WriteFence Unit :=
  if ha.authorityFence.isSome then .error .authority
  else if ha.quorumFenced || isQuorumProofStale ha now then .error .quorumLoss
  else if ha.fencedForPromotion then .error .promotion
  else .ok ()

/-- The checks of `beginPromotion`; it sets `fencedForPromotion` when they pass. -/
def beginPromotion (ha : HaConfig N) (now : Nat) : Option (HaConfig N) :=
  if ha.authorityFence.isSome then none
  else if ha.quorumFenced || isQuorumProofStale ha now then none
  else if ha.fencedForPromotion then none
  else if ha.electionInProgress then none
  else some { ha with fencedForPromotion := true }

def endPromotion (ha : HaConfig N) : HaConfig N := { ha with fencedForPromotion := false }

/-- A process that admits a fresh primary write at `now`. -/
def HaConfig.writable (ha : HaConfig N) (now : Nat) : Bool :=
  ha.role = .primary && (runPrimaryWrite ha now).isOk

omit [DecidableEq N] in
theorem writable_iff {ha : HaConfig N} {now : Nat} :
    ha.writable now = true ↔ ha.role = .primary ∧ ha.authorityFence = none ∧
      ha.quorumFenced = false ∧ ha.fencedForPromotion = false ∧
      (ha.quorumTrackingActive = true →
        now - ha.lastMajorityConfirmedAt < HA_QUORUM_LOSS_FENCE_MS) := by
  unfold HaConfig.writable runPrimaryWrite isQuorumProofStale
  by_cases hs : HA_QUORUM_LOSS_FENCE_MS ≤ now - ha.lastMajorityConfirmedAt <;>
    cases ha.authorityFence <;> cases ha.quorumFenced <;> cases ha.fencedForPromotion <;>
    cases ha.quorumTrackingActive <;>
    (simp [hs, Except.isOk, Except.toBool]; try omega)

/-! ## Boot -/

/-- `loadHaClusterConfigAtBoot` with `validateHaConfig`: a replica without a primary
address does not start. -/
def loadHaClusterConfigAtBoot (t : HaTables N) (now : Nat) : Option (HaConfig N) :=
  if t.config.role = .replica ∧ t.config.primaryUrl = none then none
  else
    some
      { role := t.config.role
        primaryUrl := t.config.primaryUrl
        epoch := t.config.clusterEpoch
        authorityFence :=
          if t.config.authorityFenced then
            some
              { observedEpoch := t.config.authorityFenceEpoch.getD t.config.clusterEpoch
                sourceNodeId := t.config.authorityFenceNodeId
                observedAt := t.config.authorityFencedAt.getD now }
          else none
        fencedForPromotion := false
        quorumFenced := t.config.quorumFenced
        lastMajorityConfirmedAt := now
        quorumTrackingActive := false
        electionInProgress := false }

/-- The fences `prepareForRuntimeAtBoot` raises before any other service runs, with
`memberCount` registered members. -/
def prepareForRuntimeAtBoot (memberCount now : Nat) (ha : HaConfig N) (t : HaTables N) :
    HaConfig N × HaTables N :=
  if ha.role = .primary then
    let ha := { ha with fencedForPromotion := ha.fencedForPromotion || t.intent.isSome }
    if t.intent.isSome || ha.authorityFence.isSome then (ha, t)
    else if HA_AUTO_FAILOVER_MIN_MEMBERS ≤ memberCount then
      ({ ha with quorumFenced := true }, setQuorumFence t now)
    else (ha, t)
  else (ha, t)

section

omit [DecidableEq N]

/-- Boot raises fences and changes nothing else of the configuration. -/
theorem prepareForRuntimeAtBoot_eq (memberCount now : Nat) (ha : HaConfig N) (t : HaTables N) :
    ∃ promotion quorum, (prepareForRuntimeAtBoot memberCount now ha t).1 =
      { ha with fencedForPromotion := promotion, quorumFenced := quorum } := by
  unfold prepareForRuntimeAtBoot
  dsimp only
  (repeat' split) <;> exact ⟨_, _, rfl⟩

theorem prepareForRuntimeAtBoot_role (memberCount now : Nat) (ha : HaConfig N) (t : HaTables N) :
    (prepareForRuntimeAtBoot memberCount now ha t).2.config.role = t.config.role := by
  unfold prepareForRuntimeAtBoot
  dsimp only
  (repeat' split) <;> rfl

/-- A primary that no newer epoch fenced boots quorum-fenced, and durably so from now. -/
theorem prepareForRuntimeAtBoot_fenced {memberCount : Nat} {ha : HaConfig N} {t : HaTables N}
    (now : Nat)
    (hcount : HA_AUTO_FAILOVER_MIN_MEMBERS ≤ memberCount) (hintent : t.intent = none)
    (hr : ha.role = .primary) (hauth : ha.authorityFence = none) :
    (prepareForRuntimeAtBoot memberCount now ha t).1.quorumFenced = true ∧
      (prepareForRuntimeAtBoot memberCount now ha t).2.config.quorumFencedAt = some now := by
  simp [prepareForRuntimeAtBoot, hr, hintent, hauth, hcount, setQuorumFence]

theorem loadHaClusterConfigAtBoot_eq {t : HaTables N} {now : Nat} {ha : HaConfig N}
    (h : loadHaClusterConfigAtBoot t now = some ha) :
    ha.role = t.config.role ∧ ha.lastMajorityConfirmedAt = now ∧
      ha.electionInProgress = false := by
  unfold loadHaClusterConfigAtBoot at h
  split at h <;> cases h
  exact ⟨rfl, rfl, rfl⟩

end

end BurrowGate.Ha
