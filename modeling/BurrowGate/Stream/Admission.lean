import BurrowGate.Network.NetworkDecision
import BurrowGate.Stream.UdpRuntime

/-!
# Admission of stream traffic and `enforceNetworkPolicy`

One stream with its TCP connections, its UDP runtime and the cached rules. A step ends where
the source awaits, so the runs are the interleavings of admissions, closes and the sweep.
What the privacy and CrowdSec evaluations, the rate limiter and the protection rules answer
comes with the action.
-/

namespace BurrowGate.Stream

open Lib
open Network
open ProxyProtocol

/-! ## State -/

/-- The members of the record that `enforceNetworkPolicy` replaces. -/
structure NetworkDefaults where
  defaultIpAction : Option (DefaultNetworkAction StreamRuleAction)
  defaultCountryAction : Option (DefaultNetworkAction StreamRuleAction)
  deriving DecidableEq

inductive RuleTable
  | ipRules
  | countryRules
  | asnRules
  deriving DecidableEq

/-- A promise of `rulesForStream`: the rows that each of its three queries saw. -/
structure RuleLoad where
  ipRows : Option (NetworkRules StreamRuleAction)
  countryRows : Option (NetworkRules StreamRuleAction)
  asnRows : Option (NetworkRules StreamRuleAction)
  failed : Bool

/-- A call of `evaluateStreamIp` that waits for its rules. `current` is not in the source: it
was called after `enforceNetworkPolicy` took over the record. -/
structure Evaluation where
  defaults : NetworkDefaults
  now : Int
  load : Nat
  current : Bool
  deriving DecidableEq

inductive TcpPhase
  | evaluating (evaluation : Evaluation)
  | admitted
  deriving DecidableEq

structure TcpConnection where
  clientIp : List Char
  phase : TcpPhase
  closed : Bool

/-- A call of `handleUdpData` for an address and port without a peer. -/
structure UdpAdmission where
  clientIp : List Char
  clientPort : Nat
  evaluation : Evaluation
  evaluated : Bool

def UdpAdmission.key (admission : UdpAdmission) : PeerKey :=
  (admission.clientIp, admission.clientPort)

inductive CreationState
  | connecting
  | opened (p : Nat)
  | failed
  deriving DecidableEq

/-- A promise of `createUdpPeer`. `charges` is not in the source: the calls of the rate limiter
for its address and port, from the one that led to it until its peer is closed. -/
structure PeerCreation where
  key : PeerKey
  state : CreationState
  settled : Bool
  charges : Nat

/-- Where `enforceNetworkPolicy` stands: what is left of its two lists, and the evaluation of
the first of them. -/
inductive Sweep
  | idle
  | tcp (targets : List Nat) (evaluation : Option Evaluation)
  | udp (targets : List Nat) (evaluation : Option Evaluation)
  | done
  deriving DecidableEq

def Sweep.started : Sweep → Bool
  | .idle => false
  | _ => true

/-- `firstLoad` is not in the source: how many loads were begun before the rules changed
last. -/
structure StreamState where
  rules : NetworkRules StreamRuleAction
  defaults : NetworkDefaults
  loads : List RuleLoad
  firstLoad : Nat
  ruleCache : Option Nat
  tcpConnections : List TcpConnection
  udp : UdpRuntime
  creations : List PeerCreation
  pendingPeers : OrderedMap PeerKey Nat
  admissions : List UdpAdmission
  sweep : Sweep

def StreamState.start (rules : NetworkRules StreamRuleAction) (defaults : NetworkDefaults) :
    StreamState where
  rules := rules
  defaults := defaults
  loads := []
  firstLoad := 0
  ruleCache := none
  tcpConnections := []
  udp := .start
  creations := []
  pendingPeers := .empty
  admissions := []
  sweep := .idle

variable (geo : GeoIp) (config : StreamsConfig) (stream : StreamRecord)

/-! ## Rules -/

namespace RuleLoad

def start : RuleLoad := ⟨none, none, none, false⟩

/-- The value of the promise. -/
def rules (load : RuleLoad) : Option (NetworkRules StreamRuleAction) :=
  match load.ipRows, load.countryRows, load.asnRows with
  | some ip, some country, some asn => some
      { ipRules := ip.ipRules
        countryRules := country.countryRules
        asnRules := asn.asnRules
        country_unique := country.country_unique
        asn_unique := asn.asn_unique }
  | _, _, _ => none

def read (load : RuleLoad) (rows : NetworkRules StreamRuleAction) : RuleTable → RuleLoad
  | .ipRules => { load with ipRows := load.ipRows <|> some rows }
  | .countryRules => { load with countryRows := load.countryRows <|> some rows }
  | .asnRules => { load with asnRows := load.asnRows <|> some rows }

end RuleLoad

/-- What `evaluateStreamIp` reads. -/
def policyOf (rules : NetworkRules StreamRuleAction) (defaults : NetworkDefaults) :
    NetworkPolicy StreamRuleAction where
  id := stream.id
  rules := rules
  defaultIpAction := defaults.defaultIpAction
  defaultCountryAction := defaults.defaultCountryAction

/-- `blockedReason` after the evaluations; `other` is that of privacy or CrowdSec. A decision
that could not be made blocks nothing. -/
def networkBlocked (decision : Option StreamNetworkDecision) (other : Bool) : Bool :=
  match decision with
  | none => false
  | some decision => decide (decision.action = some .block) || other

namespace StreamState

variable (s : StreamState)

/-- `rulesForStream`, up to its `await`. -/
def rulesForStream : StreamState :=
  match s.ruleCache with
  | some _ => s
  | none => { s with loads := s.loads ++ [RuleLoad.start], ruleCache := some s.loads.length }

/-- The call of `evaluateStreamIp` that goes with it. -/
def evaluation (now : Int) : Evaluation where
  defaults := s.defaults
  now := now
  load := s.ruleCache.getD s.loads.length
  current := s.sweep.started

/-- What the call returns, `none` inside when it throws; it still waits when there is nothing. -/
def decision (evaluation : Evaluation) (ip : List Char) : Option (Option StreamNetworkDecision) :=
  match s.loads[evaluation.load]? with
  | none => none
  | some load =>
      if load.failed then some none
      else load.rules.map fun rules =>
        some (evaluateStreamIp geo (policyOf stream rules evaluation.defaults) evaluation.now ip)

def readRows (l : Nat) (table : RuleTable) : StreamState :=
  match s.loads[l]? with
  | none => s
  | some load => { s with loads := s.loads.set l (load.read s.rules table) }

/-- A query fails; the promise leaves the cache, and so does one that took its place. -/
def loadFails (l : Nat) : StreamState :=
  match s.loads[l]? with
  | none => s
  | some load =>
      if load.failed || load.rules.isSome then s
      else { s with loads := s.loads.set l { load with failed := true }, ruleCache := none }

/-- The rows are written and the cache is invalidated. -/
def changeRules (rules : NetworkRules StreamRuleAction) : StreamState :=
  { s with rules := rules, ruleCache := none, firstLoad := s.loads.length }

/-! ## TCP -/

/-- `!other.closed && other.clientIp === connection.clientIp` -/
def openFrom (connections : List TcpConnection) (ip : List Char) : Nat :=
  connections.countP fun connection => !connection.closed && decide (connection.clientIp = ip)

def finishTcp (i : Nat) : StreamState :=
  match s.tcpConnections[i]? with
  | none => s
  | some connection =>
      { s with tcpConnections := s.tcpConnections.set i { connection with closed := true } }

/-- The `open` callback and `admitTcp` up to its `await`. -/
def openTcp (clientIp : List Char) (now : Int) : StreamState :=
  { s.rulesForStream with
    tcpConnections := s.tcpConnections ++ [⟨clientIp, .evaluating (s.evaluation now), false⟩] }

/-- `admitTcp` after its `await`. -/
def admitTcp (i : Nat) (other limited : Bool) : Option StreamState :=
  match s.tcpConnections[i]? with
  | none => none
  | some connection =>
      match connection.phase with
      | .admitted => none
      | .evaluating evaluation => (s.decision geo stream evaluation connection.clientIp).map
          fun decision =>
            if connection.closed then s
            else if networkBlocked decision other then s.finishTcp i
            else if 0 < stream.maxConnectionsPerIp ∧ stream.maxConnectionsPerIp ≤
                openFrom (s.tcpConnections.eraseIdx i) connection.clientIp then s.finishTcp i
            else if limited then s.finishTcp i
            else { s with
              tcpConnections := s.tcpConnections.set i { connection with phase := .admitted } }

/-! ## UDP -/

/-- `[...runtime.peers.values()].filter((peer) => peer.clientIp === clientIp).length` -/
def peersFrom (peers : OrderedMap PeerKey Nat) (ip : List Char) : Nat :=
  peers.entries.countP fun entry => decide (entry.1.1 = ip)

/-- The first of the peers after the sort by `lastActivityAt`. -/
def oldest (heap : List UdpPeer) : List (PeerKey × Nat) → Option Nat
  | [] => none
  | (_, p) :: rest =>
      match oldest heap rest with
      | none => some p
      | some q =>
          if (heap[q]?.map (·.lastActivityAt)).getD 0 < (heap[p]?.map (·.lastActivityAt)).getD 0
          then some q else some p

/-- The eviction at the start of `createUdpPeer`. -/
def evictForPeer (r : UdpRuntime) : UdpRuntime :=
  if config.maxUdpPeersPerStream ≤ r.peers.size then
    match oldest r.heap r.peers.entries with
    | none => r
    | some p => r.closeUdpPeer p
  else r

/-- `createUdpPeer` up to its `await`, and the entry of `pendingPeers`. -/
def createUdpPeer (key : PeerKey) : StreamState :=
  { s with
    udp := evictForPeer config s.udp
    creations := s.creations ++ [⟨key, .connecting, false, 1⟩]
    pendingPeers := s.pendingPeers.set key s.creations.length }

/-- `udpPeer` up to its `await`. -/
def udpPeer (key : PeerKey) : StreamState :=
  if (s.udp.peers.get? key).isSome || (s.pendingPeers.get? key).isSome then s
  else s.createUdpPeer config key

/-- The creation is under way or its peer is in the map. -/
def live (creation : PeerCreation) : Bool :=
  match creation.state with
  | .connecting => true
  | .opened p => decide (s.udp.peers.get? creation.key = some p)
  | .failed => false

/-- The call of `checkStreamConnectionRate`, as its count. -/
def charge (key : PeerKey) : StreamState :=
  { s with creations := s.creations.map fun creation =>
      if creation.key = key ∧ s.live creation = true then
        { creation with charges := creation.charges + 1 }
      else creation }

/-- The datagram of a peer that exists or is created goes to it. -/
def arriveUdp (clientIp : List Char) (clientPort : Nat) (now : Int) : StreamState :=
  if (s.udp.peers.get? (clientIp, clientPort)).isSome ||
      (s.pendingPeers.get? (clientIp, clientPort)).isSome then s
  else { s.rulesForStream with
    admissions := s.admissions ++ [⟨clientIp, clientPort, s.evaluation now, false⟩] }

/-- `blockedReason` is not set by the network rules and the limit for one address. -/
def passesUdp (decision : Option StreamNetworkDecision) (other : Bool) (ip : List Char) : Bool :=
  !networkBlocked decision other &&
    !decide (0 < stream.maxConnectionsPerIp ∧
      stream.maxConnectionsPerIp ≤ peersFrom s.udp.peers ip)

/-- `handleUdpData` after the `await` of the evaluation. A ban by the protection rules is
awaited, but nothing follows it. -/
def handleUdpData (a : Nat) (other limited protectionBlocks : Bool) : Option StreamState :=
  match s.admissions[a]? with
  | none => none
  | some admission =>
      if admission.evaluated then none
      else (s.decision geo stream admission.evaluation admission.clientIp).map fun decision =>
        let evaluated := { s with
          admissions := s.admissions.set a { admission with evaluated := true } }
        if s.passesUdp stream decision other admission.clientIp then
          let charged := evaluated.charge admission.key
          if limited || protectionBlocks then charged else charged.udpPeer config admission.key
        else evaluated

/-- The socket of a peer is there. -/
def peerCreated (c now : Nat) : Option StreamState :=
  match s.creations[c]? with
  | none => none
  | some creation =>
      if creation.state = .connecting then some { s with
        udp := s.udp.insertPeer creation.key.1 creation.key.2 now
        creations := s.creations.set c { creation with state := .opened s.udp.heap.length } }
      else none

def peerFailed (c : Nat) : Option StreamState :=
  match s.creations[c]? with
  | none => none
  | some creation =>
      if creation.state = .connecting then
        some { s with creations := s.creations.set c { creation with state := .failed } }
      else none

/-- `.finally(() => runtime.pendingPeers.delete(key))` -/
def peerSettled (c : Nat) : Option StreamState :=
  match s.creations[c]? with
  | none => none
  | some creation =>
      if creation.state = .connecting ∨ creation.settled = true then none
      else some { s with
        pendingPeers := s.pendingPeers.erase creation.key
        creations := s.creations.set c { creation with settled := true } }

/-! ## `enforceNetworkPolicy` -/

/-- The places of the connections that are not closed. -/
def tcpTargets : List Nat :=
  (List.range s.tcpConnections.length).filter fun i =>
    (s.tcpConnections[i]?.map fun connection => !connection.closed).getD false

/-- Up to the first target. -/
def enforceNetworkPolicy (defaults : NetworkDefaults) : StreamState :=
  { s with defaults := defaults, sweep := .tcp s.tcpTargets none }

/-- From the head of one of the loops to its `await`, or out of the loop. -/
def nextTarget (now : Int) : Option StreamState :=
  match s.sweep with
  | .tcp [] none => some { s with sweep := .udp (s.udp.peers.entries.map Prod.snd) none }
  | .tcp (i :: rest) none =>
      if (s.tcpConnections[i]?.map (·.closed)).getD true then
        some { s with sweep := .tcp rest none }
      else some { s.rulesForStream with sweep := .tcp (i :: rest) (some (s.evaluation now)) }
  | .udp [] none => some { s with sweep := .done }
  | .udp (p :: rest) none =>
      if (s.udp.heap[p]?.map (·.closed)).getD true then some { s with sweep := .udp rest none }
      else some { s.rulesForStream with sweep := .udp (p :: rest) (some (s.evaluation now)) }
  | _ => none

/-- From an `await` in one of the loops to its next head. -/
def targetEvaluated (other : Bool) : Option StreamState :=
  match s.sweep with
  | .tcp (i :: rest) (some evaluation) =>
      (s.tcpConnections[i]?.bind fun connection =>
        s.decision geo stream evaluation connection.clientIp).map fun decision =>
          if networkBlocked decision other then { s.finishTcp i with sweep := .tcp rest none }
          else { s with sweep := .tcp rest none }
  | .udp (p :: rest) (some evaluation) =>
      (s.udp.heap[p]?.bind fun peer => s.decision geo stream evaluation peer.clientIp).map
        fun decision =>
          if networkBlocked decision other then
            { s with udp := s.udp.closeUdpPeer p, sweep := .udp rest none }
          else { s with sweep := .udp rest none }
  | _ => none

end StreamState

/-! ## Steps -/

/-- Rules and record change before `enforceNetworkPolicy`, which is called once. -/
inductive StreamAction
  | readRows (l : Nat) (table : RuleTable)
  | loadFails (l : Nat)
  | changeRules (rules : NetworkRules StreamRuleAction)
  | syncRecord (defaults : NetworkDefaults)
  | enforceNetworkPolicy (defaults : NetworkDefaults)
  | nextTarget (now : Int)
  | targetEvaluated (other : Bool)
  | openTcp (clientIp : List Char) (now : Int)
  | admitTcp (i : Nat) (other limited : Bool)
  | finishTcp (i : Nat)
  | arriveUdp (clientIp : List Char) (clientPort : Nat) (now : Int)
  | handleUdpData (a : Nat) (other limited protectionBlocks : Bool)
  | peerCreated (c now : Nat)
  | peerFailed (c : Nat)
  | peerSettled (c : Nat)
  | traffic (a : UdpAction)

/-- Peers are opened by their creation only. -/
def trafficStep (r : UdpRuntime) : UdpAction → Option UdpRuntime
  | .open _ _ _ => none
  | a => udpStep config stream r a

def streamStep (s : StreamState) : StreamAction → Option StreamState
  | .readRows l table => some (s.readRows l table)
  | .loadFails l => some (s.loadFails l)
  | .changeRules rules =>
      if s.sweep.started then none else some (s.changeRules rules)
  | .syncRecord defaults => if s.sweep.started then none else some { s with defaults := defaults }
  | .enforceNetworkPolicy defaults =>
      if s.sweep.started then none else some (s.enforceNetworkPolicy defaults)
  | .nextTarget now => s.nextTarget now
  | .targetEvaluated other => s.targetEvaluated geo stream other
  | .openTcp clientIp now => some (s.openTcp clientIp now)
  | .admitTcp i other limited => s.admitTcp geo stream i other limited
  | .finishTcp i => some (s.finishTcp i)
  | .arriveUdp clientIp clientPort now => some (s.arriveUdp clientIp clientPort now)
  | .handleUdpData a other limited protectionBlocks =>
      s.handleUdpData geo config stream a other limited protectionBlocks
  | .peerCreated c now => s.peerCreated c now
  | .peerFailed c => s.peerFailed c
  | .peerSettled c => s.peerSettled c
  | .traffic a => (trafficStep config stream s.udp a).map fun udp => { s with udp := udp }

end BurrowGate.Stream
