import BurrowGate.Stream.PeerRegistry
import Mathlib.Data.List.Perm.Basic

/-!
# The limits on connections and peers

The check of a TCP connection counts every other one that is open, so the limit holds in
every run. The checks of the UDP side do not see peers that are being created, and a datagram
is checked again although another of its address and port was let through meanwhile. `Spaced`
is the condition that this makes no difference.
-/

namespace BurrowGate.Stream

open Lib
open Lib.Run
open Network
open StreamState (peersFrom evictForPeer)

variable {geo : GeoIp} {config : StreamsConfig} {stream : StreamRecord} {s s' : StreamState}
  {a : StreamAction} {r r' : UdpRuntime} {creations : List PeerCreation}
  {ip : List Char}
  {rules : NetworkRules StreamRuleAction} {defaults : NetworkDefaults}

/-! ## What is counted -/

def TcpPhase.isAdmitted : TcpPhase → Bool
  | .evaluating _ => false
  | .admitted => true

/-- The admitted connections of an address that are not closed. -/
def admittedFrom (connections : List TcpConnection) (ip : List Char) : Nat :=
  connections.countP fun connection => connection.phase.isAdmitted &&
    (!connection.closed && decide (connection.clientIp = ip))

/-- The peers of an address that are not closed. -/
def openPeersFrom (heap : List UdpPeer) (ip : List Char) : Nat :=
  heap.countP fun peer => !peer.closed && decide (peer.clientIp = ip)

def creating (creations : List PeerCreation) : Nat :=
  creations.countP fun creation => decide (creation.state = .connecting)

def creatingFrom (creations : List PeerCreation) (ip : List Char) : Nat :=
  creations.countP fun creation => decide (creation.state = .connecting ∧ creation.key.1 = ip)

/-- After the eviction there is room for one more, also for those that are being created. -/
def Room (config : StreamsConfig) (stream : StreamRecord) (s : StreamState)
    (ip : List Char) : Prop :=
  (0 < stream.maxConnectionsPerIp →
    peersFrom (evictForPeer config s.udp).peers ip + creatingFrom s.creations ip <
      stream.maxConnectionsPerIp) ∧
  (evictForPeer config s.udp).peers.size + creating s.creations <
    config.maxUdpPeersPerStream
  deriving Decidable

/-- No peer of the key is in the map or being created. -/
def KeyFree (s : StreamState) (key : PeerKey) : Prop :=
  s.udp.peers.get? key = none ∧
    ∀ creation ∈ s.creations, creation.key = key → creation.state ≠ .connecting
  deriving Decidable

/-- A datagram that is charged finds its key free, and room if it goes on to create a peer. -/
def SpacedDatagram (geo : GeoIp) (config : StreamsConfig) (stream : StreamRecord)
    (s : StreamState) (i : Nat) (other goesOn : Bool) : Prop :=
  ∀ admission ∈ s.admissions[i]?,
    ∀ decision ∈ s.decision geo stream admission.evaluation admission.clientIp,
      s.passesUdp stream decision other admission.clientIp = true →
        KeyFree s admission.key ∧
          (goesOn = true → s.pendingPeers.get? admission.key = none →
            Room config stream s admission.clientIp)
  deriving Decidable

def Spaced (geo : GeoIp) (config : StreamsConfig) (stream : StreamRecord) (s : StreamState) :
    StreamAction → Prop
  | .handleUdpData i other limited protectionBlocks =>
      SpacedDatagram geo config stream s i other (!(limited || protectionBlocks))
  | _ => True

instance (geo : GeoIp) (config : StreamsConfig) (stream : StreamRecord) (s : StreamState) :
    ∀ a, Decidable (Spaced geo config stream s a)
  | .handleUdpData i other limited protectionBlocks => inferInstanceAs (Decidable
      (SpacedDatagram geo config stream s i other (!(limited || protectionBlocks))))
  | .readRows .. | .loadFails .. | .changeRules .. | .syncRecord .. | .enforceNetworkPolicy .. |
    .nextTarget .. | .targetEvaluated .. | .openTcp .. | .admitTcp .. | .finishTcp .. |
    .arriveUdp .. | .peerCreated .. | .peerFailed .. | .peerSettled .. | .traffic .. =>
      isTrue trivial

theorem Spaced.of_passes {i : Nat} {admission : UdpAdmission} {goesOn : Bool}
    (h : Spaced geo config stream s a) (hp : Passes geo stream s a i admission goesOn) :
    KeyFree s admission.key ∧ (goesOn = true → s.pendingPeers.get? admission.key = none →
      Room config stream s admission.clientIp) := by
  obtain ⟨⟨hadmission, _⟩, other, limited, protectionBlocks, decision, rfl, rfl, hdecision,
    hpasses⟩ := hp
  exact h admission hadmission decision hdecision hpasses

/-! ## Counting -/

theorem countP_set_add {α : Type*} {l : List α} {i : Nat} {x : α} (h : l[i]? = some x)
    (q : α → Bool) (y : α) :
    (l.set i y).countP q = (l.eraseIdx i).countP q + (if q y then 1 else 0) ∧
      l.countP q = (l.eraseIdx i).countP q + (if q x then 1 else 0) := by
  obtain ⟨hlt, rfl⟩ := List.getElem?_eq_some_iff.mp h
  constructor
  · rw [(List.set_perm_cons_eraseIdx hlt y).countP_eq, List.countP_cons]
  · rw [← (List.getElem_cons_eraseIdx_perm hlt).countP_eq, List.countP_cons]

/-! ## TCP -/

/-- The limit of TCP. -/
def TcpWithin (stream : StreamRecord) (connections : List TcpConnection) : Prop :=
  0 < stream.maxConnectionsPerIp →
    ∀ ip, admittedFrom connections ip ≤ stream.maxConnectionsPerIp

theorem admittedFrom_le_openFrom (connections : List TcpConnection) (ip : List Char) :
    admittedFrom connections ip ≤ StreamState.openFrom connections ip := by
  refine List.countP_mono_left fun connection _ h => ?_
  exact (Bool.and_eq_true_iff.mp h).2

theorem rulesForStream_tcp (s : StreamState) :
    s.rulesForStream.tcpConnections = s.tcpConnections := by
  rw [StreamState.rulesForStream]
  split
  · rfl
  · rfl

theorem tcpWithin_closedAt (h : TcpWithin stream s.tcpConnections) {i : Nat}
    {connection : TcpConnection} (hget : s.tcpConnections[i]? = some connection) :
    TcpWithin stream (closedAt s i connection) := by
  intro hpos ip
  have hbefore := h hpos ip
  obtain ⟨hnew, hold⟩ := countP_set_add hget (fun connection =>
    connection.phase.isAdmitted && (!connection.closed && decide (connection.clientIp = ip)))
    { connection with closed := true }
  rw [closedAt, admittedFrom, hnew]
  rw [admittedFrom, hold] at hbefore
  simp only [Bool.not_true, Bool.false_and, Bool.and_false, Bool.false_eq_true, if_false]
  omega

/-- An admitted connection was counted against the others, admitted or not. -/
theorem tcpWithin_step (h : TcpWithin stream s.tcpConnections)
    (hs : StreamStep geo config stream s a s') : TcpWithin stream s'.tcpConnections := by
  have hrules : TcpWithin stream s.rulesForStream.tcpConnections := by
    rw [rulesForStream_tcp]
    exact h
  cases hs with
  | tcpTargeted => exact hrules
  | udpTargeted => exact hrules
  | udpArrived => exact hrules
  | tcpRemoved i rest evaluation connection _ hget => exact tcpWithin_closedAt h hget
  | tcpFinished i connection hget => exact tcpWithin_closedAt h hget
  | tcpOpened clientIp now =>
      intro hpos ip
      rw [StreamState.openTcp, admittedFrom, List.countP_append]
      exact h hpos ip
  | tcpAdmitted i connection evaluation decision other hget _ _ _ hroom =>
      intro hpos ip
      have hbefore := h hpos ip
      obtain ⟨hnew, hold⟩ := countP_set_add hget (fun connection =>
        connection.phase.isAdmitted && (!connection.closed && decide (connection.clientIp = ip)))
        { connection with phase := .admitted }
      dsimp only
      rw [admittedFrom, hnew]
      rw [admittedFrom, hold] at hbefore
      by_cases hip : connection.clientIp = ip
      · have hothers := admittedFrom_le_openFrom (s.tcpConnections.eraseIdx i) ip
        rw [admittedFrom] at hothers
        rw [hip] at hroom
        split
        · omega
        · omega
      · rw [if_neg (by simp [hip])]
        omega
  | _ => exact h

/-! ## UDP -/

/-- The limits of UDP, those that are being created included. -/
structure UdpWithin (config : StreamsConfig) (stream : StreamRecord) (r : UdpRuntime)
    (creations : List PeerCreation) : Prop where
  perIp : 0 < stream.maxConnectionsPerIp → ∀ ip,
    peersFrom r.peers ip + creatingFrom creations ip ≤ stream.maxConnectionsPerIp
  total : r.peers.size + creating creations ≤ config.maxUdpPeersPerStream
  charged : ∀ creation ∈ creations, creation.charges = 1

theorem peers_closeUdpPeer (r : UdpRuntime) (p : Nat) (ip : List Char) :
    peersFrom (r.closeUdpPeer p).peers ip ≤ peersFrom r.peers ip ∧
      (r.closeUdpPeer p).peers.size ≤ r.peers.size := by
  rw [UdpRuntime.closeUdpPeer]
  split
  · exact ⟨le_refl _, le_refl _⟩
  · split
    · exact ⟨le_refl _, le_refl _⟩
    · exact ⟨List.filter_sublist.countP_le, OrderedMap.size_erase_le r.peers _⟩

theorem peers_quiet (hq : Quiet r r') (ip : List Char) :
    peersFrom r'.peers ip ≤ peersFrom r.peers ip ∧ r'.peers.size ≤ r.peers.size := by
  induction hq with
  | refl => exact ⟨le_refl _, le_refl _⟩
  | write _ _ _ _ ih => exact ih
  | close p _ ih =>
      obtain ⟨hfrom, hsize⟩ := peers_closeUdpPeer _ p ip
      exact ⟨hfrom.trans ih.1, hsize.trans ih.2⟩
  | queue _ _ ih => exact ih

/-- The count of creations when one of them goes from `connecting` to another state. -/
theorem creating_set {c : Nat} {creation new : PeerCreation} (hc : creations[c]? = some creation)
    (hstate : creation.state = .connecting) (hnew : new.state ≠ .connecting)
    (ip : List Char) :
    creating (creations.set c new) + 1 = creating creations ∧
      creatingFrom (creations.set c new) ip + (if creation.key.1 = ip then 1 else 0) =
        creatingFrom creations ip := by
  constructor
  · obtain ⟨hset, hold⟩ := countP_set_add hc
      (fun creation => decide (creation.state = .connecting)) new
    rw [creating, creating, hset, hold]
    simp only [hstate, hnew, decide_true, decide_false, Bool.false_eq_true, if_true, if_false,
      Nat.add_zero]
  · obtain ⟨hset, hold⟩ := countP_set_add hc
      (fun creation => decide (creation.state = .connecting ∧ creation.key.1 = ip)) new
    rw [creatingFrom, creatingFrom, hset, hold]
    simp only [hstate, hnew, true_and, false_and, decide_false, Bool.false_eq_true, if_false,
      decide_eq_true_eq, Nat.add_zero]

/-- The count of creations when one of them changes, but not whether it is `connecting`. -/
theorem creating_set_same {c : Nat} {creation new : PeerCreation}
    (hc : creations[c]? = some creation) (hstate : new.state = creation.state)
    (hkey : new.key = creation.key) (ip : List Char) :
    creating (creations.set c new) = creating creations ∧
      creatingFrom (creations.set c new) ip = creatingFrom creations ip := by
  constructor
  · obtain ⟨hset, hold⟩ := countP_set_add hc
      (fun creation => decide (creation.state = .connecting)) new
    rw [creating, creating, hset, hold, hstate]
  · obtain ⟨hset, hold⟩ := countP_set_add hc
      (fun creation => decide (creation.state = .connecting ∧ creation.key.1 = ip)) new
    rw [creatingFrom, creatingFrom, hset, hold, hstate, hkey]

theorem peers_insertPeer {key : PeerKey} (hnone : r.peers.get? key = none) (now : Nat)
    (ip : List Char) :
    (r.insertPeer key.1 key.2 now).peers.size = r.peers.size + 1 ∧
      peersFrom (r.insertPeer key.1 key.2 now).peers ip =
        peersFrom r.peers ip + if key.1 = ip then 1 else 0 := by
  have hentries : (r.insertPeer key.1 key.2 now).peers.entries =
      r.peers.entries ++ [(key, r.heap.length)] :=
    OrderedMap.entries_set_of_get?_eq_none _ hnone
  constructor
  · rw [OrderedMap.size, hentries, List.length_append]
    rfl
  · rw [peersFrom, hentries, List.countP_append, List.countP_singleton]
    simp only [decide_eq_true_eq]
    rfl

/-- A key that is free is charged for the creation that it leads to only. -/
theorem charge_of_keyFree {key : PeerKey} (h : KeyFree s key) :
    (s.charge key).creations = s.creations := by
  have hsame : ∀ creation ∈ s.creations,
      (if creation.key = key ∧ s.live creation = true then
        { creation with charges := creation.charges + 1 } else creation) = creation := by
    intro creation hmem
    rw [if_neg]
    rintro ⟨hkey, hlive⟩
    rw [StreamState.live] at hlive
    split at hlive
    · rename_i hstate
      exact h.2 creation hmem hkey hstate
    · have hget := of_decide_eq_true hlive
      rw [hkey, h.1] at hget
      cases hget
    · cases hlive
  rw [StreamState.charge]
  exact (List.map_congr_left hsame).trans (List.map_id _)

theorem UdpWithin.quiet (h : UdpWithin config stream r creations) (hq : Quiet r r') :
    UdpWithin config stream r' creations := by
  refine ⟨fun hpos ip => ?_, ?_, h.charged⟩
  · have hfrom := (peers_quiet hq ip).1
    have hbefore := h.perIp hpos ip
    omega
  · have hsize := (peers_quiet hq []).2
    have hbefore := h.total
    omega

theorem UdpWithin.create {key : PeerKey} (h : UdpWithin config stream s.udp s.creations)
    (hroom : Room config stream s key.1) :
    UdpWithin config stream (evictForPeer config s.udp)
      (s.creations ++ [⟨key, .connecting, false, 1⟩]) := by
  obtain ⟨hperIp, htotal⟩ := hroom
  refine ⟨fun hpos ip => ?_, ?_, fun other hother => ?_⟩
  · have hbefore := h.perIp hpos ip
    have hfrom := (peers_quiet (quiet_evictForPeer config s.udp) ip).1
    rw [creatingFrom, List.countP_append, List.countP_singleton]
    rw [creatingFrom] at hbefore
    split
    · rename_i hip
      have hip : key.1 = ip := (of_decide_eq_true hip).2
      have hroom := hperIp hpos
      rw [hip, creatingFrom] at hroom
      omega
    · omega
  · rw [creating, List.countP_append]
    rw [creating] at htotal
    exact htotal
  · rcases List.mem_snoc.mp hother with hold | rfl
    · exact h.charged other hold
    · rfl

theorem charged_set (h : ∀ creation ∈ creations, creation.charges = 1) {c : Nat}
    {creation new : PeerCreation} (hc : creations[c]? = some creation)
    (hnew : new.charges = creation.charges) : ∀ creation ∈ creations.set c new,
      creation.charges = 1 := by
  intro other hother
  rcases List.mem_or_eq_of_mem_set hother with hold | rfl
  · exact h other hold
  · rw [hnew]
    exact h creation (List.mem_of_getElem? hc)

theorem UdpWithin.peerCreated (h : UdpWithin config stream r creations) {c : Nat}
    {creation : PeerCreation} (hc : creations[c]? = some creation)
    (hstate : creation.state = .connecting) (hnone : r.peers.get? creation.key = none)
    (now : Nat) : UdpWithin config stream (r.insertPeer creation.key.1 creation.key.2 now)
      (creations.set c { creation with state := .opened r.heap.length }) := by
  have hcount := @creating_set creations c creation
    { creation with state := .opened r.heap.length } hc hstate nofun
  refine ⟨fun hpos ip => ?_, ?_, charged_set h.charged hc rfl⟩
  · have hpeers := (peers_insertPeer hnone now ip).2
    have hbefore := h.perIp hpos ip
    have hfrom := (hcount ip).2
    omega
  · have hpeers := (peers_insertPeer hnone now []).1
    have hbefore := h.total
    have hless := (hcount []).1
    omega

theorem UdpWithin.peerFailed (h : UdpWithin config stream r creations) {c : Nat}
    {creation : PeerCreation} (hc : creations[c]? = some creation)
    (hstate : creation.state = .connecting) :
    UdpWithin config stream r (creations.set c { creation with state := .failed }) := by
  have hcount := @creating_set creations c creation { creation with state := .failed }
    hc hstate nofun
  refine ⟨fun hpos ip => ?_, ?_, charged_set h.charged hc rfl⟩
  · have hbefore := h.perIp hpos ip
    have hfrom := (hcount ip).2
    omega
  · have hbefore := h.total
    have hless := (hcount []).1
    omega

theorem UdpWithin.peerSettled (h : UdpWithin config stream r creations) {c : Nat}
    {creation : PeerCreation} (hc : creations[c]? = some creation) :
    UdpWithin config stream r (creations.set c { creation with settled := true }) := by
  have hcount := @creating_set_same creations c creation { creation with settled := true }
    hc rfl rfl
  refine ⟨fun hpos ip => ?_, ?_, charged_set h.charged hc rfl⟩
  · rw [(hcount ip).2]
    exact h.perIp hpos ip
  · rw [(hcount []).1]
    exact h.total

theorem udpWithin_step (hr : Registered s.udp s.creations s.pendingPeers)
    (h : UdpWithin config stream s.udp s.creations) (hspaced : Spaced geo config stream s a)
    (hs : StreamStep geo config stream s a s') :
    UdpWithin config stream s'.udp s'.creations := by
  obtain ⟨hudp, hcreations, _⟩ := rulesForStream_registry s
  have hrules : UdpWithin config stream s.rulesForStream.udp s.rulesForStream.creations := by
    rw [hudp, hcreations]
    exact h
  cases hs with
  | tcpTargeted => exact hrules
  | udpTargeted => exact hrules
  | tcpOpened => exact hrules
  | udpArrived => exact hrules
  | udpRemoved p => exact h.quiet (.close p (.refl s.udp))
  | traffic r hq => exact h.quiet hq
  | udpCharged i admission goesOn hpass =>
      dsimp only
      rw [charge_of_keyFree (hspaced.of_passes hpass).1]
      exact h
  | udpCreating i admission hpass _ hnone =>
      obtain ⟨hfree, hroom⟩ := hspaced.of_passes hpass
      dsimp only
      rw [charge_of_keyFree hfree]
      exact h.create (hroom rfl hnone)
  | peerCreated c now creation hc hstate =>
      exact h.peerCreated hc hstate (hr.connecting creation (List.mem_of_getElem? hc) hstate).2 now
  | peerFailed c creation hc hstate => exact h.peerFailed hc hstate
  | peerSettled c creation hc => exact h.peerSettled hc
  | _ => exact h

/-! ## Runs -/

/-- The open peers of an address have entries of their own. -/
theorem openPeersFrom_le_peersFrom {pendingPeers : OrderedMap PeerKey Nat}
    (h : Registered r creations pendingPeers) (ip : List Char) :
    openPeersFrom r.heap ip ≤ peersFrom r.peers ip := by
  have hcount : openPeersFrom r.heap ip = ((List.finRange r.heap.length).filter fun p =>
      !(r.heap.get p).closed && decide ((r.heap.get p).clientIp = ip)).length := by
    rw [← List.countP_eq_length_filter]
    conv_lhs => rw [openPeersFrom, ← List.map_getElem_finRange r.heap]
    rw [List.countP_map]
    rfl
  rw [hcount, peersFrom, List.countP_eq_length_filter]
  have hnodup := (List.nodup_finRange r.heap.length).filter fun p =>
    !(r.heap.get p).closed && decide ((r.heap.get p).clientIp = ip)
  have hmapped := hnodup.map fun p q hpq => Fin.ext hpq
  have hsub : ((List.finRange r.heap.length).filter fun p =>
      !(r.heap.get p).closed && decide ((r.heap.get p).clientIp = ip)).map Fin.val ⊆
        (r.peers.entries.filter fun entry => decide (entry.1.1 = ip)).map Prod.snd := by
    intro q hq
    obtain ⟨p, hp, rfl⟩ := List.mem_map.mp hq
    obtain ⟨hopen, hip⟩ := Bool.and_eq_true_iff.mp (List.mem_filter.mp hp).2
    have hget := h.key_of_peer p (r.heap.get p) (List.getElem?_eq_getElem p.isLt)
      (by simpa using hopen)
    refine List.mem_map.mpr ⟨_, List.mem_filter.mpr ⟨OrderedMap.get?_eq_some.mp hget, ?_⟩, rfl⟩
    exact hip
  have hle := (List.subperm_of_subset hmapped hsub).length_le
  rw [List.length_map, List.length_map] at hle
  exact hle

theorem registered_of_reach {C : StreamState → StreamAction → Prop}
    (h : Reach (streamStep geo config stream) C (· = .start rules defaults) s) :
    Registered s.udp s.creations s.pendingPeers := by
  induction h with
  | start h0 =>
      subst h0
      exact registered_start
  | next _ _ hs ih => exact registered_step ih (stream_cases hs)

/-- The limit of TCP holds in every run. -/
theorem tcpWithin_of_reach {C : StreamState → StreamAction → Prop}
    (h : Reach (streamStep geo config stream) C (· = .start rules defaults) s) :
    TcpWithin stream s.tcpConnections := by
  induction h with
  | start h0 =>
      subst h0
      exact fun _ _ => Nat.zero_le _
  | next _ _ hs ih => exact tcpWithin_step ih (stream_cases hs)

theorem udpWithin_of_reach
    (h : Reach (streamStep geo config stream) (Spaced geo config stream)
      (· = .start rules defaults) s) :
    UdpWithin config stream s.udp s.creations := by
  induction h with
  | start h0 =>
      subst h0
      exact ⟨fun _ _ => Nat.zero_le _, Nat.zero_le _, nofun⟩
  | next hr hc hs ih => exact udpWithin_step (registered_of_reach hr) ih hc (stream_cases hs)

/-- In runs with spaced datagrams the open connections and peers stay within the limits, and each
peer is charged once. -/
theorem stream_connection_limits (geo : GeoIp) (config : StreamsConfig) (stream : StreamRecord)
    (rules : NetworkRules StreamRuleAction) (defaults : NetworkDefaults) (s : StreamState)
    (h : Reach (streamStep geo config stream) (Spaced geo config stream)
      (· = .start rules defaults) s) :
    (0 < stream.maxConnectionsPerIp → ∀ ip,
      admittedFrom s.tcpConnections ip ≤ stream.maxConnectionsPerIp ∧
        openPeersFrom s.udp.heap ip ≤ stream.maxConnectionsPerIp) ∧
    s.udp.peers.size ≤ config.maxUdpPeersPerStream ∧
    ∀ p peer, s.udp.heap[p]? = some peer →
      ∃ creation ∈ s.creations, creation.state = .opened p ∧ creation.key = peer.key ∧
        creation.charges = 1 := by
  have hregistered := registered_of_reach h
  have hudp := udpWithin_of_reach h
  refine ⟨fun hpos ip => ⟨tcpWithin_of_reach h hpos ip, ?_⟩, ?_, fun p peer hp => ?_⟩
  · have hopen := openPeersFrom_le_peersFrom hregistered ip
    have hperIp := hudp.perIp hpos ip
    omega
  · have htotal := hudp.total
    omega
  · obtain ⟨creation, hmem, hopened, hkey⟩ := hregistered.opened p peer hp
    exact ⟨creation, hmem, hopened, hkey, hudp.charged creation hmem⟩

/-- An address and port has one open peer or one that is being created, never both and never
two. -/
structure OnePerAddress (s : StreamState) : Prop where
  peers : ∀ (p q : Nat) (peer other : UdpPeer), s.udp.heap[p]? = some peer →
    s.udp.heap[q]? = some other → peer.closed = false → other.closed = false →
      peer.key = other.key → p = q
  creations : ∀ (c d : Nat) (creation other : PeerCreation), s.creations[c]? = some creation →
    s.creations[d]? = some other → creation.state = .connecting → other.state = .connecting →
      creation.key = other.key → c = d
  apart : ∀ creation ∈ s.creations, creation.state = .connecting → ∀ (p : Nat) (peer : UdpPeer),
    s.udp.heap[p]? = some peer → peer.closed = false → peer.key ≠ creation.key

/-- What holds however the admissions interleave. -/
theorem one_peer_per_address (geo : GeoIp) (config : StreamsConfig) (stream : StreamRecord)
    (rules : NetworkRules StreamRuleAction) (defaults : NetworkDefaults) (s : StreamState)
    (h : Reach (streamStep geo config stream) Any (· = .start rules defaults) s) :
    TcpWithin stream s.tcpConnections ∧ OnePerAddress s := by
  have hregistered := registered_of_reach h
  refine ⟨tcpWithin_of_reach h, ?_, ?_, ?_⟩
  · intro p q peer other hp hq hopen hother hkey
    have hget := hregistered.key_of_peer p peer hp hopen
    rw [hkey, hregistered.key_of_peer q other hq hother] at hget
    exact (Option.some.inj hget).symm
  · intro c d creation other hc hd hstate hother hkey
    have hsettled := (hregistered.connecting creation (List.mem_of_getElem? hc) hstate).1
    have hother := (hregistered.connecting other (List.mem_of_getElem? hd) hother).1
    exact hregistered.unsettled_unique hc hd hsettled hother hkey
  · intro creation hmem hstate p peer hp hopen hkey
    have hget := hregistered.key_of_peer p peer hp hopen
    rw [hkey, (hregistered.connecting creation hmem hstate).2] at hget
    cases hget

/-! ## A flood -/

def noGeoIp : GeoIp := ⟨fun _ => false, none, none⟩

theorem countries_of_no_rules :
    (([] : List (CountryRuleRecord StreamRuleAction)).map (·.countryCode)).Nodup :=
  List.nodup_nil

theorem asns_of_no_rules : (([] : List (AsnRuleRecord StreamRuleAction)).map (·.asn)).Nodup :=
  List.nodup_nil

def noRules : NetworkRules StreamRuleAction :=
  ⟨[], [], [], countries_of_no_rules, asns_of_no_rules⟩

def noDefaults : NetworkDefaults := ⟨none, none⟩

/-- One connection and one peer for each address. -/
def onePerIp : StreamRecord := ⟨"game".toList, 1, 0, none, "10.0.0.1".toList, 27015⟩

def twoPeers : StreamsConfig := ⟨2, 4, 512⟩

def clientAddress : List Char := "192.0.2.1".toList

def rulesRead : List StreamAction := [.readRows 0 .ipRules, .readRows 0 .countryRules,
  .readRows 0 .asnRules]

/-- Two connections and two datagrams one after the other; the second ones are blocked. -/
def oneAfterTheOther : List StreamAction :=
  [StreamAction.openTcp clientAddress 0] ++ rulesRead ++
    [ StreamAction.openTcp clientAddress 1, .admitTcp 0 false false, .admitTcp 1 false false,
      .arriveUdp clientAddress 4000 2, .handleUdpData 0 false false false, .peerCreated 0 3,
      .peerSettled 0, .arriveUdp clientAddress 4001 4, .handleUdpData 1 false false false ]

/-- The second datagram is checked while the peer of the first is being created. -/
def bothAtOnce : List StreamAction :=
  [StreamAction.arriveUdp clientAddress 4000 0, .arriveUdp clientAddress 4001 0] ++ rulesRead ++
    [ StreamAction.handleUdpData 0 false false false, .handleUdpData 1 false false false,
      .peerCreated 0 1, .peerCreated 1 1 ]

theorem stream_connection_limits_sequential : ∃ s,
    Reach (streamStep noGeoIp twoPeers onePerIp) (Spaced noGeoIp twoPeers onePerIp)
      (· = .start noRules noDefaults) s ∧ s.tcpConnections.length = 2 ∧
    (∀ ip, admittedFrom s.tcpConnections ip ≤ 1 ∧ openPeersFrom s.udp.heap ip ≤ 1) ∧
      s.udp.peers.size = 1 := by
  obtain ⟨s, hs, hfacts⟩ := (Option.any_eq_true ..).mp
    (show (execIf (streamStep noGeoIp twoPeers onePerIp) (Spaced noGeoIp twoPeers onePerIp)
      (.start noRules noDefaults) oneAfterTheOther).any
      (fun s => decide (s.tcpConnections.length = 2 ∧ s.udp.peers.size = 1))
        = true by decide +kernel)
  obtain ⟨hlength, hsize⟩ := of_decide_eq_true hfacts
  have hreach : Reach (streamStep noGeoIp twoPeers onePerIp) (Spaced noGeoIp twoPeers onePerIp)
      (· = .start noRules noDefaults) s := execIf_reach (.start rfl) hs
  exact ⟨s, hreach, hlength, (stream_connection_limits noGeoIp twoPeers onePerIp noRules
    noDefaults s hreach).1 (by decide), hsize⟩

theorem parallel_datagrams_exceed_limit : ¬ ∀ (geo : GeoIp) (config : StreamsConfig)
    (stream : StreamRecord) (rules : NetworkRules StreamRuleAction) (defaults : NetworkDefaults)
    (s : StreamState),
      Reach (streamStep geo config stream) Any (· = .start rules defaults) s →
        (0 < stream.maxConnectionsPerIp → ∀ ip,
          admittedFrom s.tcpConnections ip ≤ stream.maxConnectionsPerIp ∧
            openPeersFrom s.udp.heap ip ≤ stream.maxConnectionsPerIp) ∧
        s.udp.peers.size ≤ config.maxUdpPeersPerStream ∧
        ∀ p peer, s.udp.heap[p]? = some peer →
          ∃ creation ∈ s.creations, creation.state = .opened p ∧ creation.key = peer.key ∧
            creation.charges = 1 := by
  intro hclaim
  obtain ⟨s, hs, hfacts⟩ := (Option.any_eq_true ..).mp
    (show (exec (streamStep noGeoIp twoPeers onePerIp) (.start noRules noDefaults) bothAtOnce).any
      (fun s => decide (openPeersFrom s.udp.heap clientAddress = 2)) = true by decide +kernel)
  have htwo := of_decide_eq_true hfacts
  have hlimit := (hclaim noGeoIp twoPeers onePerIp noRules noDefaults s
    (exec_reach (.start rfl) hs)).1 (by decide) clientAddress
  rw [htwo] at hlimit
  exact absurd hlimit.2 (by decide)

/-- Two peers of one address at once, for two ports. -/
theorem one_peer_per_address_flood : ∃ s,
    Reach (streamStep noGeoIp twoPeers onePerIp) Any (· = .start noRules noDefaults) s ∧
      openPeersFrom s.udp.heap clientAddress = 2 ∧
      TcpWithin onePerIp s.tcpConnections ∧ OnePerAddress s := by
  have hrun : (exec (streamStep noGeoIp twoPeers onePerIp) (.start noRules noDefaults)
      bothAtOnce).any (fun s => decide (openPeersFrom s.udp.heap clientAddress = 2)) = true := by
    decide +kernel
  obtain ⟨s, hs, hpeers⟩ := (Option.any_eq_true ..).mp hrun
  have hreach : Reach (streamStep noGeoIp twoPeers onePerIp) Any (· = .start noRules noDefaults) s :=
    exec_reach (.start rfl) hs
  exact ⟨s, hreach, of_decide_eq_true hpeers, one_peer_per_address noGeoIp twoPeers onePerIp
    noRules noDefaults s hreach⟩

end BurrowGate.Stream
