import BurrowGate.Stream.AdmissionSteps

/-!
# The maps of a UDP runtime and what they stand for

`peers` has exactly the peers that are not closed, and `pendingPeers` the creations that are
not settled.
-/

namespace BurrowGate.Stream

open Lib Lib.Lists
open Network

variable {geo : GeoIp} {config : StreamsConfig} {stream : StreamRecord} {r r' : UdpRuntime}
  {s s' : StreamState} {a : StreamAction} {creations : List PeerCreation}
  {pendingPeers : OrderedMap PeerKey Nat} {peer new : UdpPeer} {creation : PeerCreation}
  {key : PeerKey} {p c : Nat}

structure Registered (r : UdpRuntime) (creations : List PeerCreation)
    (pendingPeers : OrderedMap PeerKey Nat) : Prop where
  peer_of_key : ∀ key p, r.peers.get? key = some p →
    ∃ peer, r.heap[p]? = some peer ∧ peer.key = key ∧ peer.closed = false
  key_of_peer : ∀ p peer, r.heap[p]? = some peer → peer.closed = false →
    r.peers.get? peer.key = some p
  unsettled : ∀ c creation, creations[c]? = some creation → creation.settled = false →
    pendingPeers.get? creation.key = some c
  connecting : ∀ creation ∈ creations, creation.state = .connecting →
    creation.settled = false ∧ r.peers.get? creation.key = none
  opened : ∀ p peer, r.heap[p]? = some peer →
    ∃ creation ∈ creations, creation.state = .opened p ∧ creation.key = peer.key

theorem registered_start : Registered .start [] .empty :=
  ⟨nofun, nofun, nofun, nofun, nofun⟩

theorem Registered.write (h : Registered r creations pendingPeers) (hp : r.heap[p]? = some peer)
    (hkey : new.key = peer.key) (hclosed : new.closed = peer.closed) :
    Registered (r.write p new) creations pendingPeers where
  peer_of_key key q hq := by
    obtain ⟨old, hold, hk, hc⟩ := h.peer_of_key key q hq
    rcases eq_or_ne p q with rfl | hne
    · obtain rfl := Option.some.inj (hp.symm.trans hold)
      refine ⟨new, ?_, hkey.trans hk, hclosed.trans hc⟩
      exact List.getElem?_set_self (List.getElem?_eq_some_iff.mp hp).1
    · exact ⟨old, (List.getElem?_set_ne hne).trans hold, hk, hc⟩
  key_of_peer q other hq hopen := by
    rcases getElem?_set_cases hq with ⟨rfl, rfl⟩ | ⟨_, hold⟩
    · rw [hkey]
      exact h.key_of_peer q peer hp (hclosed.symm.trans hopen)
    · exact h.key_of_peer q other hold hopen
  unsettled := h.unsettled
  connecting := h.connecting
  opened q other hq := by
    rcases getElem?_set_cases hq with ⟨rfl, rfl⟩ | ⟨_, hold⟩
    · rw [hkey]
      exact h.opened q peer hp
    · exact h.opened q other hold

/-- The peer that is closed was the one under its key. -/
theorem Registered.closeUdpPeer (h : Registered r creations pendingPeers) (p : Nat) :
    Registered (r.closeUdpPeer p) creations pendingPeers := by
  rw [UdpRuntime.closeUdpPeer]
  split
  · exact h
  · rename_i peer hp
    split
    · exact h
    · rename_i hopen
      have hpeer := h.key_of_peer p peer hp (eq_false_of_ne_true hopen)
      constructor
      · intro key q hq
        rcases eq_or_ne key peer.key with rfl | hkey
        · rw [OrderedMap.get?_erase_self] at hq
          cases hq
        · rw [OrderedMap.get?_erase_ne _ hkey] at hq
          obtain ⟨old, hold, hk, hc⟩ := h.peer_of_key key q hq
          have hne : p ≠ q := by
            rintro rfl
            obtain rfl := Option.some.inj (hp.symm.trans hold)
            exact hkey hk.symm
          exact ⟨old, (List.getElem?_set_ne hne).trans hold, hk, hc⟩
      · intro q other hq hother
        rcases getElem?_set_cases hq with ⟨rfl, rfl⟩ | ⟨hne, hold⟩
        · cases hother
        · have hget := h.key_of_peer q other hold hother
          have hkey : other.key ≠ peer.key := by
            intro heq
            rw [heq, hpeer] at hget
            exact hne (Option.some.inj hget).symm
          rw [OrderedMap.get?_erase_ne _ hkey]
          exact hget
      · exact h.unsettled
      · intro creation hmem hstate
        obtain ⟨hsettled, hnone⟩ := h.connecting creation hmem hstate
        refine ⟨hsettled, ?_⟩
        rcases eq_or_ne creation.key peer.key with heq | hne
        · rw [heq]
          exact OrderedMap.get?_erase_self _ _
        · rw [OrderedMap.get?_erase_ne _ hne]
          exact hnone
      · intro q other hq
        rcases getElem?_set_cases hq with ⟨rfl, rfl⟩ | ⟨_, hold⟩
        · exact h.opened q peer hp
        · exact h.opened q other hold

theorem Registered.quiet (h : Registered r creations pendingPeers) (hq : Quiet r r') :
    Registered r' creations pendingPeers := by
  induction hq with
  | refl => exact h
  | write _ hp hkey hclosed ih => exact ih.write hp hkey hclosed
  | close p _ ih => exact ih.closeUdpPeer p
  | queue replies _ ih =>
      exact ⟨ih.peer_of_key, ih.key_of_peer, ih.unsettled, ih.connecting, ih.opened⟩

/-! ## Creations -/

/-- Two creations of one key that are not settled are one. -/
theorem Registered.unsettled_unique (h : Registered r creations pendingPeers) {d : Nat}
    {other : PeerCreation} (hc : creations[c]? = some creation) (hd : creations[d]? = some other)
    (hsettled : creation.settled = false) (hother : other.settled = false)
    (hkey : creation.key = other.key) : c = d := by
  have hget := h.unsettled c creation hc hsettled
  rw [hkey, h.unsettled d other hd hother] at hget
  exact (Option.some.inj hget).symm

/-- The end of `createUdpPeer`. -/
theorem Registered.peerCreated (h : Registered r creations pendingPeers)
    (hc : creations[c]? = some creation) (hstate : creation.state = .connecting) (now : Nat) :
    Registered (r.insertPeer creation.key.1 creation.key.2 now)
      (creations.set c { creation with state := .opened r.heap.length }) pendingPeers := by
  have hlt := (List.getElem?_eq_some_iff.mp hc).1
  obtain ⟨hsettled, hnone⟩ := h.connecting creation (List.mem_of_getElem? hc) hstate
  have hpeers : ∀ key, (r.insertPeer creation.key.1 creation.key.2 now).peers.get? key =
      if key = creation.key then some r.heap.length else r.peers.get? key :=
    fun key => OrderedMap.get?_set r.peers creation.key r.heap.length key
  constructor
  · intro key q hq
    rw [hpeers] at hq
    split at hq
    · rename_i heq
      obtain rfl := Option.some.inj hq
      refine ⟨UdpPeer.open creation.key.1 creation.key.2 now, ?_, heq.symm, rfl⟩
      exact List.getElem?_concat_length
    · obtain ⟨old, hold, hk, hclosed⟩ := h.peer_of_key key q hq
      exact ⟨old, (List.getElem?_append_left (List.getElem?_eq_some_iff.mp hold).1).trans hold,
        hk, hclosed⟩
  · intro q other hq hopen
    rw [hpeers]
    rcases getElem?_concat_cases hq with hold | ⟨rfl, rfl⟩
    · have hget := h.key_of_peer q other hold hopen
      rw [if_neg, hget]
      intro heq
      rw [heq, hnone] at hget
      cases hget
    · exact if_pos rfl
  · intro d other hd hother
    rcases getElem?_set_cases hd with ⟨rfl, rfl⟩ | ⟨_, hold⟩
    · exact h.unsettled d creation hc hsettled
    · exact h.unsettled d other hold hother
  · intro other hmem hother
    obtain ⟨d, hd⟩ := List.mem_iff_getElem?.mp hmem
    rcases getElem?_set_cases hd with ⟨rfl, rfl⟩ | ⟨hne, hold⟩
    · cases hother
    · obtain ⟨hunsettled, hget⟩ := h.connecting other (List.mem_of_getElem? hold) hother
      refine ⟨hunsettled, ?_⟩
      rw [hpeers, if_neg, hget]
      intro heq
      exact hne (h.unsettled_unique hc hold hsettled hunsettled heq.symm).symm
  · intro q other hq
    rcases getElem?_concat_cases hq with hold | ⟨rfl, rfl⟩
    · obtain ⟨old, hmem, hopened, hkey⟩ := h.opened q other hold
      obtain ⟨d, hd⟩ := List.mem_iff_getElem?.mp hmem
      have hne : c ≠ d := by
        rintro rfl
        obtain rfl := Option.some.inj (hc.symm.trans hd)
        rw [hstate] at hopened
        cases hopened
      exact ⟨old, List.mem_of_getElem? ((List.getElem?_set_ne hne).trans hd), hopened, hkey⟩
    · exact ⟨{ creation with state := .opened r.heap.length }, List.mem_set hlt _, rfl, rfl⟩

theorem Registered.peerFailed (h : Registered r creations pendingPeers)
    (hc : creations[c]? = some creation) (hstate : creation.state = .connecting) :
    Registered r (creations.set c { creation with state := .failed }) pendingPeers := by
  obtain ⟨hsettled, _⟩ := h.connecting creation (List.mem_of_getElem? hc) hstate
  refine ⟨h.peer_of_key, h.key_of_peer, ?_, ?_, ?_⟩
  · intro d other hd hother
    rcases getElem?_set_cases hd with ⟨rfl, rfl⟩ | ⟨_, hold⟩
    · exact h.unsettled d creation hc hsettled
    · exact h.unsettled d other hold hother
  · intro other hmem hother
    obtain ⟨d, hd⟩ := List.mem_iff_getElem?.mp hmem
    rcases getElem?_set_cases hd with ⟨rfl, rfl⟩ | ⟨_, hold⟩
    · cases hother
    · exact h.connecting other (List.mem_of_getElem? hold) hother
  · intro q other hq
    obtain ⟨old, hmem, hopened, hkey⟩ := h.opened q other hq
    obtain ⟨d, hd⟩ := List.mem_iff_getElem?.mp hmem
    have hne : c ≠ d := by
      rintro rfl
      obtain rfl := Option.some.inj (hc.symm.trans hd)
      rw [hstate] at hopened
      cases hopened
    exact ⟨old, List.mem_of_getElem? ((List.getElem?_set_ne hne).trans hd), hopened, hkey⟩

theorem Registered.peerSettled (h : Registered r creations pendingPeers)
    (hc : creations[c]? = some creation) (hstate : creation.state ≠ .connecting)
    (hsettled : creation.settled = false) :
    Registered r (creations.set c { creation with settled := true })
      (pendingPeers.erase creation.key) := by
  have hlt := (List.getElem?_eq_some_iff.mp hc).1
  refine ⟨h.peer_of_key, h.key_of_peer, ?_, ?_, ?_⟩
  · intro d other hd hother
    rcases getElem?_set_cases hd with ⟨rfl, rfl⟩ | ⟨hne, hold⟩
    · cases hother
    · rw [OrderedMap.get?_erase_ne]
      · exact h.unsettled d other hold hother
      · intro heq
        exact hne (h.unsettled_unique hc hold hsettled hother heq.symm).symm
  · intro other hmem hother
    obtain ⟨d, hd⟩ := List.mem_iff_getElem?.mp hmem
    rcases getElem?_set_cases hd with ⟨rfl, rfl⟩ | ⟨_, hold⟩
    · exact absurd hother hstate
    · exact h.connecting other (List.mem_of_getElem? hold) hother
  · intro q other hq
    obtain ⟨old, hmem, hopened, hkey⟩ := h.opened q other hq
    obtain ⟨d, hd⟩ := List.mem_iff_getElem?.mp hmem
    rcases eq_or_ne c d with rfl | hne
    · obtain rfl := Option.some.inj (hc.symm.trans hd)
      exact ⟨{ creation with settled := true }, List.mem_set hlt _, hopened, hkey⟩
    · exact ⟨old, List.mem_of_getElem? ((List.getElem?_set_ne hne).trans hd), hopened, hkey⟩

/-- A creation of a key that has neither a peer nor a creation. -/
theorem Registered.create (h : Registered r creations pendingPeers)
    (hpeer : r.peers.get? key = none) (hpending : pendingPeers.get? key = none) (charges : Nat) :
    Registered r (creations ++ [⟨key, .connecting, false, charges⟩])
      (pendingPeers.set key creations.length) := by
  refine ⟨h.peer_of_key, h.key_of_peer, ?_, ?_, ?_⟩
  · intro d other hd hother
    rcases getElem?_concat_cases hd with hold | ⟨rfl, rfl⟩
    · have hget := h.unsettled d other hold hother
      rw [OrderedMap.get?_set, if_neg, hget]
      intro heq
      rw [heq, hpending] at hget
      cases hget
    · exact OrderedMap.get?_set_self _ _ _
  · intro other hmem hother
    rcases List.mem_snoc.mp hmem with hold | rfl
    · exact h.connecting other hold hother
    · exact ⟨rfl, hpeer⟩
  · intro q other hq
    obtain ⟨old, hmem, hopened⟩ := h.opened q other hq
    exact ⟨old, List.mem_append_left _ hmem, hopened⟩

/-- The charges are not read by the maps. -/
theorem Registered.charged (h : Registered r creations pendingPeers)
    {f : PeerCreation → PeerCreation} (hkey : ∀ creation, (f creation).key = creation.key)
    (hstate : ∀ creation, (f creation).state = creation.state)
    (hsettled : ∀ creation, (f creation).settled = creation.settled) :
    Registered r (creations.map f) pendingPeers := by
  refine ⟨h.peer_of_key, h.key_of_peer, ?_, ?_, ?_⟩
  · intro d other hd hother
    rw [List.getElem?_map] at hd
    obtain ⟨old, hold, rfl⟩ := Option.map_eq_some_iff.mp hd
    rw [hkey]
    exact h.unsettled d old hold ((hsettled old).symm.trans hother)
  · intro other hmem hother
    obtain ⟨old, hold, rfl⟩ := List.mem_map.mp hmem
    rw [hkey, hsettled]
    exact h.connecting old hold ((hstate old).symm.trans hother)
  · intro q other hq
    obtain ⟨old, hmem, hopened, hk⟩ := h.opened q other hq
    exact ⟨f old, List.mem_map_of_mem hmem, (hstate old).trans hopened, (hkey old).trans hk⟩

/-! ## Steps -/

theorem registered_charge (h : Registered s.udp s.creations s.pendingPeers) (key : PeerKey) :
    Registered s.udp (s.charge key).creations s.pendingPeers := by
  apply h.charged
  · intro creation
    split
    · rfl
    · rfl
  · intro creation
    split
    · rfl
    · rfl
  · intro creation
    split
    · rfl
    · rfl

@[simp] theorem rulesForStream_registry (s : StreamState) : s.rulesForStream.udp = s.udp ∧
    s.rulesForStream.creations = s.creations ∧ s.rulesForStream.pendingPeers = s.pendingPeers := by
  rw [StreamState.rulesForStream]
  split
  · exact ⟨rfl, rfl, rfl⟩
  · exact ⟨rfl, rfl, rfl⟩

theorem registered_step (h : Registered s.udp s.creations s.pendingPeers)
    (hs : StreamStep geo config stream s a s') :
    Registered s'.udp s'.creations s'.pendingPeers := by
  obtain ⟨hudp, hcreations, hpending⟩ := rulesForStream_registry s
  have hrules : Registered s.rulesForStream.udp s.rulesForStream.creations
      s.rulesForStream.pendingPeers := by
    rw [hudp, hcreations, hpending]
    exact h
  cases hs with
  | tcpTargeted => exact hrules
  | udpTargeted => exact hrules
  | tcpOpened => exact hrules
  | udpArrived => exact hrules
  | udpRemoved p => exact h.closeUdpPeer p
  | udpCharged i admission => exact registered_charge h admission.key
  | udpCreating i admission _ hpeer hnone =>
      have hcreated := (registered_charge h admission.key).create hpeer hnone 1
      exact hcreated.quiet (quiet_evictForPeer config s.udp)
  | peerCreated c now creation hc hstate => exact h.peerCreated hc hstate now
  | peerFailed c creation hc hstate => exact h.peerFailed hc hstate
  | peerSettled c creation hc hstate hsettled => exact h.peerSettled hc hstate hsettled
  | traffic r hq => exact h.quiet hq
  | _ => exact h

end BurrowGate.Stream
