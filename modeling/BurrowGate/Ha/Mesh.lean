import BurrowGate.Ha.Election

/-!
# `ha-mesh-service.ts`: connections, adoption and manual promotion

The stream between a replica and its primary, heartbeats and their cursor
answers, adoption of a discovered primary, and the hand-over of a manual
promotion with its durable intent. Replication content is left to the data
model: here catching up is a wait that may succeed or fail.
-/

namespace BurrowGate.Ha

variable {N : Type*} [DecidableEq N]

/-! ## The replica's end -/

def handleReplicaClose (now : Nat) (pr : Process N) (code : Nat) : Process N :=
  if code = 1008 then { pr with state := .connectionRejected }
  else
    match pr.state with
    | .keyMismatch | .versionMismatch | .epochMismatch | .connectionRejected => pr
    | .disconnected => pr
    | .unknown | .connected => { pr with state := .disconnected, disconnectedSince := now }

def connectToPrimary (fresh : Nat) (self : N) (t : HaTables N) (pr : Process N) :
    Option (Effect N) :=
  match pr.serving, pr.ha.primaryUrl with
  | false, some p =>
      some (quiet t { pr with replicaSocket := some fresh } [.openStream fresh self p])
  | _, _ => none

def handleHello (self : N) (t : HaTables N) (pr : Process N) (conn epoch : Nat) : Effect N :=
  if epoch < pr.ha.epoch then
    quiet t { pr with state := .epochMismatch } [.announce conn self pr.ha.epoch]
  else if pr.ha.epoch < epoch then
    quiet t (({ pr with ha := { pr.ha with epoch := epoch } }).spawn
      (.persistHelloEpoch epoch conn))
  else quiet t (pr.spawn (.catchUp conn))

/-- The end of `proceedAfterKeyVerified`, after the snapshot and catch-up it awaits. -/
def proceedAfterKeyVerified (now : Nat) (self : N) (t : HaTables N) (pr : Process N) :
    Effect N :=
  if pr.electionWinnerActivating then quiet t pr
  else
    let pr :=
      { pr with
        verifiedPrimaryConnectionGeneration := pr.verifiedPrimaryConnectionGeneration + 1
        state := .connected
        disconnectedSince := 0
        lastVerifiedSyncAt := now }
    match pr.replicaSocket with
    | none => quiet t pr
    | some conn => quiet t pr [.announce conn self pr.ha.epoch, .cursor conn self]

def handleHeartbeat (now : Nat) (self : N) (t : HaTables N) (pr : Process N) (conn : Nat) :
    Effect N :=
  if pr.state = .connected then
    quiet t { pr with lastVerifiedSyncAt := now } [.cursor conn self]
  else quiet t pr

def checkHeartbeatWatchdog (now : Nat) (pr : Process N) : Process N :=
  if pr.state = .connected ∧ HA_REPLICA_LIVENESS_TIMEOUT_MS < now - pr.lastVerifiedSyncAt then
    handleReplicaClose now pr 4000
  else pr

section

omit [DecidableEq N]

/-- A close changes the connection state and nothing else. -/
theorem handleReplicaClose_eq (now : Nat) (pr : Process N) (code : Nat) :
    ∃ state since, handleReplicaClose now pr code =
      { pr with state := state, disconnectedSince := since } := by
  unfold handleReplicaClose
  (repeat' split) <;> exact ⟨_, _, rfl⟩

theorem checkHeartbeatWatchdog_eq (now : Nat) (pr : Process N) :
    ∃ state since, checkHeartbeatWatchdog now pr =
      { pr with state := state, disconnectedSince := since } := by
  unfold checkHeartbeatWatchdog
  split
  · exact handleReplicaClose_eq now pr 4000
  · exact ⟨_, _, rfl⟩

end

def handlePrimaryRedirect (t : HaTables N) (pr : Process N) (primary : N) (epoch : Nat) :
    Effect N :=
  if epoch < pr.ha.epoch then quiet t pr
  else if some primary = pr.ha.primaryUrl then quiet t { pr with state := .epochMismatch }
  else quiet t (pr.spawn (.adoptPrimary primary epoch))

/-! ## The primary's end -/

def handlePrimaryOpen (t : HaTables N) (pr : Process N) (conn : Nat) (node : N) : Effect N :=
  if pr.serving then
    quiet t { pr with replicas := (conn, node) :: pr.replicas } [.hello conn pr.ha.epoch]
  else
    -- `startReplicaRedirectListener`
    match pr.ha.primaryUrl with
    | none => quiet t pr
    | some p => quiet t pr [.primaryRedirect conn p pr.ha.epoch]

def handlePrimaryClose (pr : Process N) (conn : Nat) : Process N :=
  { pr with
    replicas := pr.replicas.filter fun r => r.1 ≠ conn
    nodes := fun u => (pr.nodes u).filter fun e => e.ws ≠ conn }

/-- `lastSeenAt` and the history of it. -/
def hear (now : Nat) (pr : Process N) (node : N) (conn : Nat) : Process N :=
  { pr with
    nodes := Function.update pr.nodes node (some { ws := conn, lastSeenAt := now })
    heard := Function.update pr.heard node (some now) }

def handleCursor (now : Nat) (t : HaTables N) (pr : Process N) (conn : Nat) (node : N) :
    Effect N :=
  if (pr.nodes node).any fun e => e.ws = conn then quiet t (hear now pr node conn)
  else quiet t pr

/-- `announce` up to the epoch fence of `fenceForNewerEpoch`. -/
def handleAnnounce (now : Nat) (t : HaTables N) (pr : Process N) (conn : Nat) (node : N)
    (epoch : Nat) : Effect N :=
  if pr.ha.epoch < epoch then
    let fence : AuthorityFence N :=
      { observedEpoch := epoch, sourceNodeId := some node, observedAt := now }
    let authorityFence :=
      match pr.ha.authorityFence with
      | some f => if f.observedEpoch < epoch then some fence else some f
      | none => some fence
    quiet t (({ pr with ha := { pr.ha with authorityFence } }).spawn
      (.fenceAuthority epoch node now conn))
  else if (pr.nodes node).any fun e => e.ws ≠ conn then quiet t pr
  else
    let pr := hear now pr node conn
    if pr.promotionRecoveryRunning = true ∨ pr.ha.role ≠ .primary then quiet t pr
    else quiet t (pr.spawn (.readIntent node conn))

/-- `announce` after a newer epoch was fenced. -/
def announcedNewerEpoch (now : Nat) (t : HaTables N) (pr : Process N) (node : N) (conn : Nat) :
    Effect N :=
  if (pr.nodes node).any fun e => e.ws ≠ conn then quiet t pr (heartbeats pr)
  else quiet t (hear now pr node conn) (heartbeats pr)

/-! ## Adoption and role changes -/

/-- `adoptDiscoveredPrimary` after its transaction; the restart is a later event. -/
def adoptedDiscoveredPrimary (t : HaTables N) (pr : Process N) (primary : N) (epoch : Nat)
    (adopted : Bool) : Effect N :=
  if adopted then
    quiet t (pr.withHa
      { pr.ha with
        role := .replica
        primaryUrl := some primary
        epoch := epoch
        authorityFence := none
        quorumFenced := false
        electionInProgress := false
        fencedForPromotion := false })
  else quiet t pr

def handlePromote (t : HaTables N) (pr : Process N) (intent : HaPromotionIntent N)
    (conn : Nat) : Effect N :=
  if intent.newEpoch < pr.ha.epoch then quiet t pr
  else quiet t (pr.spawn (.applyRoleChange intent conn))

/-- `applyRoleChange`, up to its transaction. -/
def applyRoleChange (now : Nat) (self : N) (t : HaTables N) (pr : Process N)
    (intent : HaPromotionIntent N) (conn : Nat) : Effect N :=
  let becomingPrimary := intent.targetNodeId = self
  let patch : HaClusterConfigPatch N :=
    if becomingPrimary then
      { role := some .primary, primaryUrl := some none, clusterEpoch := some intent.newEpoch }
    else
      { role := some .replica
        primaryUrl := some (some intent.targetNodeId)
        clusterEpoch := some intent.newEpoch }
  { node :=
      { tables := updateHaClusterConfig t patch
        process := some (pr.spawn (.appliedRoleChange intent conn true)) }
    activations :=
      if becomingPrimary then
        [{ node := self, epoch := intent.newEpoch, via := .promotion, time := now }]
      else [] }

def appliedRoleChange (self : N) (t : HaTables N) (pr : Process N)
    (intent : HaPromotionIntent N) (conn : Nat) (persisted : Bool) : Effect N :=
  if intent.targetNodeId = self then
    let pr :=
      if persisted then { pr with ha := { pr.ha with epoch := intent.newEpoch } } else pr
    quiet t pr [.promoteAppliedAck conn intent.promotionId persisted]
  else if persisted then
    quiet t (pr.withHa
      { pr.ha with
        role := .replica
        primaryUrl := some intent.targetNodeId
        epoch := intent.newEpoch })
  else quiet t pr

/-! ## Manual promotion on the primary -/

def allConnected (members : Finset N) (self : N) (pr : Process N) : Bool :=
  ∀ u ∈ members, u = self ∨ (pr.nodes u).isSome

def promoteNode (members : Finset N) (now : Nat) (self : N) (t : HaTables N) (pr : Process N)
    (target : N) (promotionId : Nat) : Option (Effect N) :=
  let pr := expireStaleReplicaConnections pr now
  if pr.ha.role = .primary ∧ target ≠ self ∧ allConnected members self pr = true then
    match pr.nodes target, beginPromotion pr.ha now with
    | some e, some ha =>
        some (quiet t ((pr.withHa ha).spawn (.prepare target e.ws promotionId)))
    | _, _ => none
  else none

/-- The intent is written once every bystander is fenced and the target has caught up. -/
def prepared (members : Finset N) (now : Nat) (self : N) (t : HaTables N) (pr : Process N)
    (target : N) (conn promotionId : Nat) : Effect N :=
  let pr := expireStaleReplicaConnections pr now
  if allConnected members self pr then
    quiet t (pr.spawn (.saveIntent
      { promotionId, targetNodeId := target, newEpoch := pr.ha.epoch + 1 } conn))
  else quiet t (pr.withHa (endPromotion pr.ha))

/-- A finished hand-over attempt that leaves the intent in place. -/
def handoverStopped (t : HaTables N) (pr : Process N) (resumed : Bool) : Effect N :=
  quiet t (if resumed then { pr with promotionRecoveryRunning := false } else pr)

def Task.isAwaitApplied : Task N → Bool
  | .awaitApplied _ _ _ => true
  | _ => false

/-- `waitForPromoteAppliedAck`: at most one activation waits at a time. -/
def sendPromote (t : HaTables N) (pr : Process N) (intent : HaPromotionIntent N) (conn : Nat)
    (resumed : Bool) : Effect N :=
  if pr.tasks.any Task.isAwaitApplied then handoverStopped t pr resumed
  else quiet t (pr.spawn (.awaitApplied intent conn resumed)) [.promote conn intent]

/-- The target's answer, as `finalizePromotion` and its callers handle it. -/
def promoteAnswered (t : HaTables N) (pr : Process N) (intent : HaPromotionIntent N)
    (conn : Nat) (resumed success : Bool) : Effect N :=
  if success then
    quiet t (pr.spawn (.completeIntent intent resumed))
      ((pr.replicas.filter fun r => r.1 ≠ conn).map fun r => .promote r.1 intent)
  else if resumed then handoverStopped t pr true
  else quiet t (pr.spawn (.clearIntent intent))

def completedIntent (t : HaTables N) (pr : Process N) (intent : HaPromotionIntent N)
    (resumed completed : Bool) : Effect N :=
  if completed then
    quiet t
      { pr with
        promotionRecoveryRunning := if resumed then false else pr.promotionRecoveryRunning
        ha :=
          { pr.ha with
            role := .replica
            primaryUrl := some intent.targetNodeId
            epoch := intent.newEpoch
            fencedForPromotion := false } }
  else handoverStopped t pr resumed

def resumePromotionIfNeeded (t : HaTables N) (pr : Process N) (target : N) (conn : Nat) :
    Effect N :=
  match t.intent with
  | some i =>
      if i.targetNodeId = target then
        quiet t (({ pr with promotionRecoveryRunning := true }).spawn (.resumePrepare i conn))
      else quiet t pr
  | none => quiet t pr

end BurrowGate.Ha
