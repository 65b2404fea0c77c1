import BurrowGate.Stream.Admission

/-!
# What a step can do

Traffic changes the UDP runtime in three ways only, which `Quiet` lists. `StreamStep` has the
state after each step in closed form, with the guards that were passed.
-/

namespace BurrowGate.Stream

open Lib Lib.Lists
open Network
open ProxyProtocol

variable {geo : GeoIp} {config : StreamsConfig} {stream : StreamRecord} {r r' : UdpRuntime}
  {s s' : StreamState} {a : StreamAction}

/-! ## What traffic does -/

/-- Peers change in place, are closed, and the queue of replies changes. -/
inductive Quiet : UdpRuntime → UdpRuntime → Prop
  | refl (r : UdpRuntime) : Quiet r r
  | write {r r' : UdpRuntime} {p : Nat} {peer new : UdpPeer} : Quiet r r' →
      r'.heap[p]? = some peer → new.key = peer.key → new.closed = peer.closed →
        Quiet r (r'.write p new)
  | close {r r' : UdpRuntime} (p : Nat) : Quiet r r' → Quiet r (r'.closeUdpPeer p)
  | queue {r r' : UdpRuntime} (replies : List UdpReply) : Quiet r r' →
      Quiet r { r' with pendingReplies := replies }

theorem throttle_kept (peer : UdpPeer) (replyBytes : Nat) :
    (throttle config stream peer replyBytes).key = peer.key ∧
      (throttle config stream peer replyBytes).closed = peer.closed := by
  rw [throttle]
  split
  · exact ⟨rfl, rfl⟩
  · exact ⟨rfl, rfl⟩

theorem flushPending_kept : ∀ (accepts : Nat) (pending : List UdpPendingDatagram)
    (peer : UdpPeer), (flushPending accepts pending peer).key = peer.key ∧
      (flushPending accepts pending peer).closed = peer.closed
  | _, [], _ => by
      rw [flushPending]
      exact ⟨rfl, rfl⟩
  | 0, _ :: _, _ => ⟨rfl, rfl⟩
  | accepts + 1, datagram :: rest, peer => by
      rw [flushPending]
      exact flushPending_kept accepts rest (recordForwarded peer datagram.payloadBytes)

theorem quiet_clientData (r : UdpRuntime) (p : Nat) (data : Bytes) (truncated : Bool)
    (result : SendResult) (now : Nat) :
    Quiet r (r.clientData config stream p data truncated result now) := by
  rw [UdpRuntime.clientData]
  split
  · exact .refl r
  · rename_i peer hp
    split
    · exact .refl r
    · have htouch : Quiet r (r.write p { peer with lastActivityAt := now }) :=
        .write (.refl r) hp rfl rfl
      dsimp only
      split
      · exact .close p htouch
      · split
        · exact htouch
        · cases result with
          | sent => exact .write (.refl r) hp rfl rfl
          | full =>
              dsimp only
              split
              · exact .write (.refl r) hp rfl rfl
              · exact .close p htouch
          | threw => exact htouch

theorem quiet_upstreamData (r : UdpRuntime) (p : Nat) (data : Bytes) (truncated : Bool)
    (result : SendResult) (now : Nat) :
    Quiet r (r.upstreamData config stream p data truncated result now) := by
  rw [UdpRuntime.upstreamData]
  split
  · exact .refl r
  · rename_i peer hp
    split
    · exact .refl r
    · dsimp only
      split
      · exact .close p (.write (.refl r) hp rfl rfl)
      · obtain ⟨hkey, hclosed⟩ := @throttle_kept config stream
          { peer with lastActivityAt := now } data.length
        have hthrottled := Quiet.write (.refl r) hp hkey hclosed
        split
        · exact hthrottled
        · cases result with
          | sent => exact .write (.refl r) hp hkey hclosed
          | full =>
              dsimp only
              split
              · exact .queue _ hthrottled
              · exact .close p hthrottled
          | threw => exact hthrottled

theorem quiet_flushReplies {r₀ : UdpRuntime} : ∀ (accepts : Nat) (queue : List UdpReply)
    (r : UdpRuntime), Quiet r₀ r → Quiet r₀ (UdpRuntime.flushReplies accepts queue r)
  | _, [], r, h => .queue [] h
  | accepts, reply :: rest, r, h => by
      rw [UdpRuntime.flushReplies]
      split
      · exact quiet_flushReplies accepts rest r h
      · rename_i peer hp
        split
        · exact quiet_flushReplies accepts rest r h
        · cases accepts with
          | zero => exact .queue _ h
          | succ accepts =>
              apply quiet_flushReplies accepts rest
              exact .write h hp rfl rfl

/-- What a step of traffic can do. -/
theorem quiet_trafficStep {a : UdpAction} (hs : trafficStep config stream r a = some r') :
    Quiet r r' := by
  cases a with
  | «open» clientIp clientPort now => cases hs
  | datagram p data truncated result now =>
      obtain rfl := Option.some.inj hs
      exact quiet_clientData r p data truncated result now
  | reply p data truncated result now =>
      obtain rfl := Option.some.inj hs
      exact quiet_upstreamData r p data truncated result now
  | drainUpstream p accepts =>
      obtain rfl := Option.some.inj hs
      rw [UdpRuntime.flushUdpUpstream]
      split
      · exact .refl r
      · rename_i peer hp
        split
        · exact .refl r
        · obtain ⟨hkey, hclosed⟩ := flushPending_kept accepts peer.pendingUpstream peer
          exact .write (.refl r) hp hkey hclosed
  | drain accepts =>
      obtain rfl := Option.some.inj hs
      exact quiet_flushReplies accepts r.pendingReplies r (.refl r)
  | close p =>
      obtain rfl := Option.some.inj hs
      exact .close p (.refl r)

theorem quiet_evictForPeer (config : StreamsConfig) (r : UdpRuntime) :
    Quiet r (StreamState.evictForPeer config r) := by
  rw [StreamState.evictForPeer]
  split
  · split
    · exact .refl r
    · exact .close _ (.refl r)
  · exact .refl r

/-- Peers stay where they are, and one that is open was open before. -/
theorem quiet_heap (hq : Quiet r r') {p : Nat} {peer' : UdpPeer} (hp : r'.heap[p]? = some peer') :
    ∃ peer, r.heap[p]? = some peer ∧ peer'.key = peer.key ∧
      (peer'.closed = false → peer.closed = false) := by
  induction hq generalizing peer' with
  | refl => exact ⟨peer', hp, rfl, id⟩
  | @write r' q old new _ hold hkey hclosed ih =>
      rcases getElem?_set_cases hp with ⟨rfl, rfl⟩ | ⟨_, hsame⟩
      · obtain ⟨peer, hpeer, hk, hc⟩ := ih hold
        exact ⟨peer, hpeer, hkey.trans hk, fun hopen => hc (hclosed.symm.trans hopen)⟩
      · exact ih hsame
  | close q _ ih =>
      rw [UdpRuntime.closeUdpPeer] at hp
      split at hp
      · exact ih hp
      · rename_i old hold
        split at hp
        · exact ih hp
        · rcases getElem?_set_cases hp with ⟨rfl, rfl⟩ | ⟨_, hsame⟩
          · obtain ⟨peer, hpeer, hk, _⟩ := ih hold
            exact ⟨peer, hpeer, hk, nofun⟩
          · exact ih hsame
  | queue _ _ ih => exact ih hp

/-! ## Steps -/

/-- The datagram of an admission passes the network rules and the limit for its address, and
so it is charged. When it `goesOn` it also passes the limiter and the protection rules. -/
structure Passes (geo : GeoIp) (stream : StreamRecord) (s : StreamState) (a : StreamAction)
    (i : Nat) (admission : UdpAdmission) (goesOn : Bool) : Prop where
  pending : s.admissions[i]? = some admission ∧ admission.evaluated = false
  decided : ∃ other limited protectionBlocks decision,
    a = .handleUdpData i other limited protectionBlocks ∧
      goesOn = !(limited || protectionBlocks) ∧
        s.decision geo stream admission.evaluation admission.clientIp = some decision ∧
          s.passesUdp stream decision other admission.clientIp = true

def evaluatedAt (s : StreamState) (i : Nat) (admission : UdpAdmission) : List UdpAdmission :=
  s.admissions.set i { admission with evaluated := true }

def closedAt (s : StreamState) (i : Nat) (connection : TcpConnection) : List TcpConnection :=
  s.tcpConnections.set i { connection with closed := true }

inductive StreamStep (geo : GeoIp) (config : StreamsConfig) (stream : StreamRecord)
    (s : StreamState) (a : StreamAction) : StreamState → Prop
  | idle : StreamStep geo config stream s a s
  | rowsRead (l : Nat) (table : RuleTable) (load : RuleLoad) : s.loads[l]? = some load →
      StreamStep geo config stream s a
        { s with loads := s.loads.set l (load.read s.rules table) }
  | loadFailed (l : Nat) (load : RuleLoad) : a = .loadFails l → s.loads[l]? = some load →
      StreamStep geo config stream s a
        { s with loads := s.loads.set l { load with failed := true }, ruleCache := none }
  | rulesChanged (rules : NetworkRules StreamRuleAction) : s.sweep.started = false →
      StreamStep geo config stream s a (s.changeRules rules)
  | recordSynced (defaults : NetworkDefaults) : s.sweep.started = false →
      StreamStep geo config stream s a { s with defaults := defaults }
  | enforced (defaults : NetworkDefaults) : s.sweep.started = false →
      StreamStep geo config stream s a (s.enforceNetworkPolicy defaults)
  | udpListed (now : Int) : a = .nextTarget now → s.sweep = .tcp [] none →
      StreamStep geo config stream s a
        { s with sweep := .udp (s.udp.peers.entries.map Prod.snd) none }
  | tcpSkipped (i : Nat) (rest : List Nat) : s.sweep = .tcp (i :: rest) none →
      (∀ connection, s.tcpConnections[i]? = some connection → connection.closed = true) →
        StreamStep geo config stream s a { s with sweep := .tcp rest none }
  | tcpTargeted (i : Nat) (rest : List Nat) (now : Int) : a = .nextTarget now →
      s.sweep = .tcp (i :: rest) none → StreamStep geo config stream s a
        { s.rulesForStream with sweep := .tcp (i :: rest) (some (s.evaluation now)) }
  | tcpRemoved (i : Nat) (rest : List Nat) (evaluation : Evaluation)
      (connection : TcpConnection) : s.sweep = .tcp (i :: rest) (some evaluation) →
        s.tcpConnections[i]? = some connection → StreamStep geo config stream s a
          { s with tcpConnections := closedAt s i connection, sweep := .tcp rest none }
  | tcpSpared (i : Nat) (rest : List Nat) (evaluation : Evaluation) (connection : TcpConnection)
      (decision : Option StreamNetworkDecision) (other : Bool) :
        s.sweep = .tcp (i :: rest) (some evaluation) →
          s.tcpConnections[i]? = some connection →
            s.decision geo stream evaluation connection.clientIp = some decision →
              networkBlocked decision other = false →
                StreamStep geo config stream s a { s with sweep := .tcp rest none }
  | udpSkipped (p : Nat) (rest : List Nat) : s.sweep = .udp (p :: rest) none →
      (∀ peer, s.udp.heap[p]? = some peer → peer.closed = true) →
        StreamStep geo config stream s a { s with sweep := .udp rest none }
  | udpTargeted (p : Nat) (rest : List Nat) (now : Int) : a = .nextTarget now →
      s.sweep = .udp (p :: rest) none → StreamStep geo config stream s a
        { s.rulesForStream with sweep := .udp (p :: rest) (some (s.evaluation now)) }
  | udpRemoved (p : Nat) (rest : List Nat) (evaluation : Evaluation) :
      s.sweep = .udp (p :: rest) (some evaluation) → StreamStep geo config stream s a
        { s with udp := s.udp.closeUdpPeer p, sweep := .udp rest none }
  | udpSpared (p : Nat) (rest : List Nat) (evaluation : Evaluation) (peer : UdpPeer)
      (decision : Option StreamNetworkDecision) (other : Bool) :
        s.sweep = .udp (p :: rest) (some evaluation) → s.udp.heap[p]? = some peer →
          s.decision geo stream evaluation peer.clientIp = some decision →
            networkBlocked decision other = false →
              StreamStep geo config stream s a { s with sweep := .udp rest none }
  | swept : s.sweep = .udp [] none → StreamStep geo config stream s a { s with sweep := .done }
  | tcpOpened (clientIp : List Char) (now : Int) : a = .openTcp clientIp now →
      StreamStep geo config stream s a (s.openTcp clientIp now)
  | tcpFinished (i : Nat) (connection : TcpConnection) :
      s.tcpConnections[i]? = some connection →
        StreamStep geo config stream s a { s with tcpConnections := closedAt s i connection }
  | tcpAdmitted (i : Nat) (connection : TcpConnection) (evaluation : Evaluation)
      (decision : Option StreamNetworkDecision) (other : Bool) :
        s.tcpConnections[i]? = some connection → connection.phase = .evaluating evaluation →
          s.decision geo stream evaluation connection.clientIp = some decision →
            networkBlocked decision other = false →
              ¬ (0 < stream.maxConnectionsPerIp ∧ stream.maxConnectionsPerIp ≤
                StreamState.openFrom (s.tcpConnections.eraseIdx i) connection.clientIp) →
                  StreamStep geo config stream s a { s with
                    tcpConnections :=
                      s.tcpConnections.set i { connection with phase := .admitted } }
  | udpArrived (clientIp : List Char) (clientPort : Nat) (now : Int) :
      a = .arriveUdp clientIp clientPort now →
        StreamStep geo config stream s a { s.rulesForStream with
          admissions := s.admissions ++ [⟨clientIp, clientPort, s.evaluation now, false⟩] }
  | udpBlocked (i : Nat) (admission : UdpAdmission) : s.admissions[i]? = some admission →
      StreamStep geo config stream s a { s with admissions := evaluatedAt s i admission }
  | udpCharged (i : Nat) (admission : UdpAdmission) (goesOn : Bool) :
      Passes geo stream s a i admission goesOn → StreamStep geo config stream s a
        { s with
          admissions := evaluatedAt s i admission
          creations := (s.charge admission.key).creations }
  | udpCreating (i : Nat) (admission : UdpAdmission) : Passes geo stream s a i admission true →
      s.udp.peers.get? admission.key = none → s.pendingPeers.get? admission.key = none →
        StreamStep geo config stream s a
          { s with
            admissions := evaluatedAt s i admission
            udp := StreamState.evictForPeer config s.udp
            creations :=
              (s.charge admission.key).creations ++ [⟨admission.key, .connecting, false, 1⟩]
            pendingPeers :=
              s.pendingPeers.set admission.key (s.charge admission.key).creations.length }
  | peerCreated (c now : Nat) (creation : PeerCreation) : s.creations[c]? = some creation →
      creation.state = .connecting → StreamStep geo config stream s a
        { s with
          udp := s.udp.insertPeer creation.key.1 creation.key.2 now
          creations := s.creations.set c { creation with state := .opened s.udp.heap.length } }
  | peerFailed (c : Nat) (creation : PeerCreation) : s.creations[c]? = some creation →
      creation.state = .connecting → StreamStep geo config stream s a
        { s with creations := s.creations.set c { creation with state := .failed } }
  | peerSettled (c : Nat) (creation : PeerCreation) : s.creations[c]? = some creation →
      creation.state ≠ .connecting → creation.settled = false → StreamStep geo config stream s a
        { s with
          pendingPeers := s.pendingPeers.erase creation.key
          creations := s.creations.set c { creation with settled := true } }
  | traffic (r : UdpRuntime) : Quiet s.udp r →
      StreamStep geo config stream s a { s with udp := r }

theorem finishTcp_cases (s : StreamState) (i : Nat) : s.finishTcp i = s ∨
    ∃ connection, s.tcpConnections[i]? = some connection ∧
      s.finishTcp i = { s with tcpConnections := closedAt s i connection } := by
  rw [StreamState.finishTcp]
  split
  · exact Or.inl rfl
  · rename_i connection hconnection
    exact Or.inr ⟨connection, hconnection, rfl⟩

theorem streamStep_finishTcp (s : StreamState) (i : Nat) :
    StreamStep geo config stream s a (s.finishTcp i) := by
  rcases finishTcp_cases s i with hsame | ⟨connection, hconnection, hclosed⟩
  · rw [hsame]
    exact .idle
  · rw [hclosed]
    exact .tcpFinished i connection hconnection

theorem closed_of_getD {x : Option Bool} (h : x.getD true = true) : ∀ b ∈ x, b = true := by
  intro b hb
  rw [Option.mem_def] at hb
  rw [hb] at h
  exact h

theorem streamStep_nextTarget {now : Int} (hs : s.nextTarget now = some s') :
    StreamStep geo config stream s (.nextTarget now) s' := by
  rw [StreamState.nextTarget] at hs
  split at hs
  · rename_i hsweep
    obtain rfl := Option.some.inj hs
    exact .udpListed now rfl hsweep
  · rename_i i rest hsweep
    split at hs
    · rename_i hclosed
      obtain rfl := Option.some.inj hs
      refine .tcpSkipped i rest hsweep fun connection hconnection => ?_
      apply closed_of_getD hclosed
      rw [hconnection]
      rfl
    · obtain rfl := Option.some.inj hs
      exact .tcpTargeted i rest now rfl hsweep
  · rename_i hsweep
    obtain rfl := Option.some.inj hs
    exact .swept hsweep
  · rename_i p rest hsweep
    split at hs
    · rename_i hclosed
      obtain rfl := Option.some.inj hs
      refine .udpSkipped p rest hsweep fun peer hpeer => ?_
      apply closed_of_getD hclosed
      rw [hpeer]
      rfl
    · obtain rfl := Option.some.inj hs
      exact .udpTargeted p rest now rfl hsweep
  · cases hs

theorem streamStep_targetEvaluated {other : Bool}
    (hs : s.targetEvaluated geo stream other = some s') :
    StreamStep geo config stream s a s' := by
  rw [StreamState.targetEvaluated] at hs
  split at hs
  · rename_i i rest evaluation hsweep
    obtain ⟨decision, hbind, rfl⟩ := Option.map_eq_some_iff.mp hs
    obtain ⟨connection, hconnection, hdecision⟩ := Option.bind_eq_some_iff.mp hbind
    split
    · have hclosed : s.finishTcp i = { s with tcpConnections := closedAt s i connection } := by
        rw [StreamState.finishTcp, hconnection]
        rfl
      rw [hclosed]
      exact .tcpRemoved i rest evaluation connection hsweep hconnection
    · rename_i hspared
      exact .tcpSpared i rest evaluation connection decision other hsweep hconnection hdecision
        (eq_false_of_ne_true hspared)
  · rename_i p rest evaluation hsweep
    obtain ⟨decision, hbind, rfl⟩ := Option.map_eq_some_iff.mp hs
    obtain ⟨peer, hpeer, hdecision⟩ := Option.bind_eq_some_iff.mp hbind
    split
    · exact .udpRemoved p rest evaluation hsweep
    · rename_i hspared
      exact .udpSpared p rest evaluation peer decision other hsweep hpeer hdecision
        (eq_false_of_ne_true hspared)
  · cases hs

theorem streamStep_admitTcp {i : Nat} {other limited : Bool}
    (hs : s.admitTcp geo stream i other limited = some s') :
    StreamStep geo config stream s a s' := by
  have hfinish : StreamStep geo config stream s a (s.finishTcp i) := streamStep_finishTcp s i
  rw [StreamState.admitTcp] at hs
  split at hs
  · cases hs
  · rename_i connection hconnection
    split at hs
    · cases hs
    · rename_i evaluation hphase
      obtain ⟨decision, hdecision, rfl⟩ := Option.map_eq_some_iff.mp hs
      split
      · exact .idle
      · split
        · exact hfinish
        · rename_i hpassed
          split
          · exact hfinish
          · rename_i hroom
            split
            · exact hfinish
            · exact .tcpAdmitted i connection evaluation decision other hconnection hphase
                hdecision (eq_false_of_ne_true hpassed) hroom

theorem streamStep_handleUdpData {i : Nat} {other limited protectionBlocks : Bool}
    (hs : s.handleUdpData geo config stream i other limited protectionBlocks = some s') :
    StreamStep geo config stream s (.handleUdpData i other limited protectionBlocks) s' := by
  rw [StreamState.handleUdpData] at hs
  split at hs
  · cases hs
  · rename_i admission hadmission
    split at hs
    · cases hs
    · rename_i hpending
      obtain ⟨decision, hdecision, rfl⟩ := Option.map_eq_some_iff.mp hs
      dsimp only
      split
      · rename_i hpasses
        have hpass : Passes geo stream s (.handleUdpData i other limited protectionBlocks) i
            admission (!(limited || protectionBlocks)) :=
          ⟨⟨hadmission, eq_false_of_ne_true hpending⟩,
            other, limited, protectionBlocks, decision, rfl, rfl, hdecision, hpasses⟩
        split
        · exact .udpCharged i admission _ hpass
        · rename_i hgoes
          rw [StreamState.udpPeer]
          split
          · exact .udpCharged i admission _ hpass
          · rename_i hnew
            obtain ⟨hpeer, hnone⟩ := not_or.mp (mt Bool.or_eq_true_iff.mpr hnew)
            rw [eq_false_of_ne_true hgoes] at hpass
            refine .udpCreating i admission hpass ?_ ?_
            · exact Option.not_isSome_iff_eq_none.mp hpeer
            · exact Option.not_isSome_iff_eq_none.mp hnone
      · exact .udpBlocked i admission hadmission

/-- Every step is one of `StreamStep`. -/
theorem stream_cases (hs : streamStep geo config stream s a = some s') :
    StreamStep geo config stream s a s' := by
  cases a with
  | readRows l table =>
      obtain rfl := Option.some.inj hs
      rw [StreamState.readRows]
      split
      · exact .idle
      · rename_i load hload
        exact .rowsRead l table load hload
  | loadFails l =>
      obtain rfl := Option.some.inj hs
      rw [StreamState.loadFails]
      split
      · exact .idle
      · rename_i load hload
        split
        · exact .idle
        · exact .loadFailed l load rfl hload
  | changeRules rules =>
      obtain ⟨hidle, hs⟩ := Option.ite_none_left_eq_some.mp hs
      obtain rfl := Option.some.inj hs
      exact .rulesChanged rules (eq_false_of_ne_true hidle)
  | syncRecord defaults =>
      obtain ⟨hidle, hs⟩ := Option.ite_none_left_eq_some.mp hs
      obtain rfl := Option.some.inj hs
      exact .recordSynced defaults (eq_false_of_ne_true hidle)
  | enforceNetworkPolicy defaults =>
      obtain ⟨hidle, hs⟩ := Option.ite_none_left_eq_some.mp hs
      obtain rfl := Option.some.inj hs
      exact .enforced defaults (eq_false_of_ne_true hidle)
  | nextTarget now => exact streamStep_nextTarget hs
  | targetEvaluated other => exact streamStep_targetEvaluated hs
  | openTcp clientIp now =>
      obtain rfl := Option.some.inj hs
      exact .tcpOpened clientIp now rfl
  | admitTcp i other limited => exact streamStep_admitTcp hs
  | finishTcp i =>
      obtain rfl := Option.some.inj hs
      exact streamStep_finishTcp s i
  | arriveUdp clientIp clientPort now =>
      obtain rfl := Option.some.inj hs
      rw [StreamState.arriveUdp]
      split
      · exact .idle
      · exact .udpArrived clientIp clientPort now rfl
  | handleUdpData i other limited protectionBlocks => exact streamStep_handleUdpData hs
  | peerCreated c now =>
      rw [streamStep, StreamState.peerCreated] at hs
      split at hs
      · cases hs
      · rename_i creation hc
        obtain ⟨hstate, rfl⟩ := Run.of_guard hs
        exact .peerCreated c now creation hc hstate
  | peerFailed c =>
      rw [streamStep, StreamState.peerFailed] at hs
      split at hs
      · cases hs
      · rename_i creation hc
        obtain ⟨hstate, rfl⟩ := Run.of_guard hs
        exact .peerFailed c creation hc hstate
  | peerSettled c =>
      rw [streamStep, StreamState.peerSettled] at hs
      split at hs
      · cases hs
      · rename_i creation hc
        obtain ⟨hopen, hs⟩ := Option.ite_none_left_eq_some.mp hs
        obtain rfl := Option.some.inj hs
        obtain ⟨hstate, hsettled⟩ := not_or.mp hopen
        exact .peerSettled c creation hc hstate (eq_false_of_ne_true hsettled)
  | traffic b =>
      obtain ⟨r, hr, rfl⟩ := Option.map_eq_some_iff.mp hs
      exact .traffic r (quiet_trafficStep hr)

end BurrowGate.Stream
