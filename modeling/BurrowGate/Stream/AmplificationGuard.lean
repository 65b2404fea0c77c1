import BurrowGate.Stream.UdpRuntime

/-!
# What the amplification guard lets through

The guard compares the bytes sent so far and one reply with the budget. A reply that the
client's socket does not take waits in the queue of the stream and is counted only when it
is sent, so several replies can each be within the budget and exceed it together. `Fits` is
the condition that a reply let through would also fit with those that wait.
-/

namespace BurrowGate.Stream

open Lib.Run
open ProxyProtocol

variable {config : StreamsConfig} {stream : StreamRecord} {peer new : UdpPeer}
  {heap : List UdpPeer} {queue queue' : List UdpReply} {p : Nat} {r r' : UdpRuntime}

/-- The payload bytes that went to the client of a peer. -/
def UdpPeer.sentBytes (peer : UdpPeer) : Nat := (peer.sentToClient.map List.length).sum

/-- The payload bytes of the client that were forwarded upstream. -/
def UdpPeer.forwardedBytes (peer : UdpPeer) : Nat := peer.forwarded.sum

/-- The bytes of the replies to a peer that wait. -/
def waiting (queue : List UdpReply) (p : Nat) : Nat :=
  ((queue.filter (·.peer = p)).map (·.data.length)).sum

/-- A reply that the guard lets through fits into the budget with those that wait. -/
def FitsReply (config : StreamsConfig) (stream : StreamRecord) (r : UdpRuntime) (p : Nat)
    (data : Bytes) : Prop :=
  ∀ peer ∈ r.heap[p]?, peer.closed = false →
    isAmplificationThrottled config stream peer data.length = false →
      peer.upstreamToClientBytes + waiting r.pendingReplies p + data.length ≤
        budget config stream peer
  deriving Decidable

def Fits (config : StreamsConfig) (stream : StreamRecord) (r : UdpRuntime) : UdpAction → Prop
  | .reply p data truncated result _ =>
      truncated = false → result ≠ .threw → FitsReply config stream r p data
  | _ => True

instance (config : StreamsConfig) (stream : StreamRecord) (r : UdpRuntime) :
    ∀ a, Decidable (Fits config stream r a)
  | .reply p data truncated result _ => inferInstanceAs
      (Decidable (truncated = false → result ≠ .threw → FitsReply config stream r p data))
  | .open .. | .datagram .. | .drainUpstream .. | .drain .. | .close .. => isTrue trivial

/-! ## The account of a peer -/

/-- The counters of the source are the bytes that went through the sockets. -/
def UdpPeer.Counted (peer : UdpPeer) : Prop :=
  peer.upstreamToClientBytes = peer.sentBytes ∧ peer.clientToUpstreamBytes = peer.forwardedBytes

theorem counted_recordReply (h : peer.Counted) (data : Bytes) :
    (recordReply peer data).Counted := by
  refine ⟨?_, h.2⟩
  rw [UdpPeer.sentBytes]
  simp only [recordReply, List.map_append, List.sum_append, List.map_cons, List.map_nil,
    List.sum_cons, List.sum_nil, h.1, UdpPeer.sentBytes, Nat.add_zero]

theorem counted_recordForwarded (h : peer.Counted) (payloadBytes : Nat) :
    (recordForwarded peer payloadBytes).Counted := by
  refine ⟨h.1, ?_⟩
  simp only [UdpPeer.forwardedBytes, recordForwarded, List.sum_append, List.sum_cons,
    List.sum_nil, h.2, Nat.add_zero]

theorem budget_le_recordForwarded (peer : UdpPeer) (payloadBytes : Nat) :
    budget config stream peer ≤ budget config stream (recordForwarded peer payloadBytes) := by
  show _ + _ * _ ≤ _ + (_ + _) * _
  rw [Nat.add_mul]
  omega

/-- Flushing to the upstream changes nothing on the side of the client and raises the budget. -/
theorem flushPending_spec : ∀ (accepts : Nat) (pending : List UdpPendingDatagram)
    (peer : UdpPeer), peer.Counted →
      (flushPending accepts pending peer).Counted ∧
        (flushPending accepts pending peer).upstreamToClientBytes = peer.upstreamToClientBytes ∧
          budget config stream peer ≤ budget config stream (flushPending accepts pending peer)
  | _, [], peer, h => by
      rw [flushPending]
      exact ⟨h, rfl, le_refl _⟩
  | 0, datagram :: rest, peer, h => ⟨h, rfl, le_refl _⟩
  | accepts + 1, datagram :: rest, peer, h => by
      rw [flushPending]
      obtain ⟨hcounted, hsame, hbudget⟩ :=
        flushPending_spec accepts rest _ (counted_recordForwarded h datagram.payloadBytes)
      exact ⟨hcounted, hsame, (budget_le_recordForwarded peer datagram.payloadBytes).trans hbudget⟩

/-! ## The account of the runtime -/

theorem waiting_append (reply : UdpReply) : waiting (queue ++ [reply]) p =
    waiting queue p + if reply.peer = p then reply.data.length else 0 := by
  rw [waiting, List.filter_append, List.map_append, List.sum_append]
  by_cases h : reply.peer = p
  · simp [waiting, h]
  · simp [waiting, h]

theorem waiting_cons (reply : UdpReply) : waiting (reply :: queue) p =
    (if reply.peer = p then reply.data.length else 0) + waiting queue p := by
  by_cases h : reply.peer = p
  · simp [waiting, h]
  · simp [waiting, h]

/-- Every peer is counted and within its budget, also with what waits for it. -/
structure Guarded (config : StreamsConfig) (stream : StreamRecord) (heap : List UdpPeer)
    (queue : List UdpReply) : Prop where
  counted : ∀ peer ∈ heap, peer.Counted
  within : ∀ p peer, heap[p]? = some peer →
    peer.upstreamToClientBytes + waiting queue p ≤ budget config stream peer
  known : ∀ reply ∈ queue, reply.peer < heap.length

/-- One peer and the queue change. -/
theorem Guarded.set (h : Guarded config stream heap queue) (hnew : new.Counted)
    (hwithin : p < heap.length →
      new.upstreamToClientBytes + waiting queue' p ≤ budget config stream new)
    (hothers : ∀ q, q ≠ p → waiting queue' q ≤ waiting queue q)
    (hknown : ∀ reply ∈ queue', reply.peer < heap.length) :
    Guarded config stream (heap.set p new) queue' where
  counted peer hpeer := by
    rcases List.mem_or_eq_of_mem_set hpeer with hold | rfl
    · exact h.counted peer hold
    · exact hnew
  within q peer hq := by
    rw [List.getElem?_set] at hq
    split at hq
    · rename_i heq
      subst heq
      split at hq
      · rename_i hlt
        obtain rfl := Option.some.inj hq
        exact hwithin hlt
      · cases hq
    · rename_i hne
      exact (Nat.add_le_add_left (hothers q fun heq => hne heq.symm) _).trans (h.within q peer hq)
  known reply hreply := by
    rw [List.length_set]
    exact hknown reply hreply

/-- A peer changes without sending, and its budget does not fall. -/
theorem Guarded.write (h : Guarded config stream r.heap r.pendingReplies)
    (hp : r.heap[p]? = some peer) (hnew : new.Counted)
    (hsame : new.upstreamToClientBytes = peer.upstreamToClientBytes)
    (hbudget : budget config stream peer ≤ budget config stream new) :
    Guarded config stream (r.write p new).heap (r.write p new).pendingReplies := by
  refine h.set hnew (fun _ => ?_) (fun q _ => le_refl _) h.known
  rw [hsame]
  exact (h.within p peer hp).trans hbudget

theorem counted_of_getElem? (h : Guarded config stream heap queue) (hp : heap[p]? = some peer) :
    peer.Counted :=
  h.counted peer (List.mem_of_getElem? hp)

theorem lt_of_heap (hp : heap[p]? = some peer) : p < heap.length :=
  (List.getElem?_eq_some_iff.mp hp).1

theorem Guarded.touch (h : Guarded config stream r.heap r.pendingReplies)
    (hp : r.heap[p]? = some peer) (now : Nat) :
    Guarded config stream (r.write p { peer with lastActivityAt := now }).heap
      (r.write p { peer with lastActivityAt := now }).pendingReplies := by
  have hcounted := counted_of_getElem? h hp
  exact h.write hp hcounted rfl (le_refl _)

theorem counted_throttle (h : peer.Counted) (replyBytes : Nat) :
    (throttle config stream peer replyBytes).Counted := by
  rw [throttle]
  split
  · exact h
  · exact h

theorem throttle_upstreamToClientBytes (replyBytes : Nat) :
    (throttle config stream peer replyBytes).upstreamToClientBytes =
      peer.upstreamToClientBytes := by
  rw [throttle]
  split
  · rfl
  · rfl

theorem budget_throttle (replyBytes : Nat) :
    budget config stream (throttle config stream peer replyBytes) = budget config stream peer := by
  rw [throttle]
  split
  · rfl
  · rfl

/-! ## One step -/

theorem Guarded.closeUdpPeer (h : Guarded config stream r.heap r.pendingReplies) (p : Nat) :
    Guarded config stream (r.closeUdpPeer p).heap (r.closeUdpPeer p).pendingReplies := by
  rw [UdpRuntime.closeUdpPeer]
  split
  · exact h
  · rename_i peer hp
    split
    · exact h
    · have hcounted := counted_of_getElem? h hp
      exact h.write hp hcounted rfl (le_refl _)

/-- A peer of a new index has nothing waiting for it. -/
theorem Guarded.insertPeer (h : Guarded config stream r.heap r.pendingReplies)
    (clientIp : List Char) (clientPort now : Nat) :
    Guarded config stream (r.insertPeer clientIp clientPort now).heap
      (r.insertPeer clientIp clientPort now).pendingReplies where
  counted peer hpeer := by
    rcases List.mem_snoc.mp hpeer with hold | rfl
    · exact h.counted peer hold
    · exact ⟨rfl, rfl⟩
  within p peer hp := by
    rcases Nat.lt_or_ge p r.heap.length with hlt | hge
    · apply h.within p peer
      rw [← hp]
      exact (List.getElem?_append_left hlt).symm
    · have hnone : waiting r.pendingReplies p = 0 := by
        rw [waiting, List.filter_eq_nil_iff.mpr]
        · rfl
        · intro reply hreply heq
          have hlt := h.known reply hreply
          have heq := of_decide_eq_true heq
          omega
      rw [UdpRuntime.insertPeer] at hp
      rw [List.getElem?_append_right hge] at hp
      have hmem := List.mem_of_getElem? hp
      obtain rfl := List.mem_singleton.mp hmem
      show 0 + waiting r.pendingReplies p ≤ _
      rw [hnone]
      exact Nat.zero_le _
  known reply hreply := by
    show reply.peer < (r.heap ++ [_]).length
    rw [List.length_append]
    exact Nat.lt_add_right _ (h.known reply hreply)

theorem Guarded.clientData (h : Guarded config stream r.heap r.pendingReplies) (p : Nat)
    (data : Bytes) (truncated : Bool) (result : SendResult) (now : Nat) :
    Guarded config stream (r.clientData config stream p data truncated result now).heap
      (r.clientData config stream p data truncated result now).pendingReplies := by
  rw [UdpRuntime.clientData]
  split
  · exact h
  · rename_i peer hp
    have hcounted := counted_of_getElem? h hp
    split
    · exact h
    · dsimp only
      split
      · exact (h.touch hp now).closeUdpPeer p
      · split
        · exact h.write hp hcounted rfl (le_refl _)
        · rename_i datagram _
          cases result with
          | sent =>
              dsimp only
              refine h.write hp ?_ rfl ?_
              · exact counted_recordForwarded hcounted datagram.payloadBytes
              · exact budget_le_recordForwarded { peer with lastActivityAt := now } _
          | full =>
              dsimp only
              split
              · exact h.write hp hcounted rfl (le_refl _)
              · exact (h.touch hp now).closeUdpPeer p
          | threw => exact h.write hp hcounted rfl (le_refl _)

theorem Guarded.flushUdpUpstream (h : Guarded config stream r.heap r.pendingReplies)
    (p accepts : Nat) :
    Guarded config stream (r.flushUdpUpstream p accepts).heap
      (r.flushUdpUpstream p accepts).pendingReplies := by
  rw [UdpRuntime.flushUdpUpstream]
  split
  · exact h
  · rename_i peer hp
    split
    · exact h
    · obtain ⟨hcounted, hsame, hbudget⟩ :=
        @flushPending_spec config stream accepts peer.pendingUpstream peer
          (counted_of_getElem? h hp)
      exact h.write hp hcounted hsame hbudget

/-- A reply that is let through and is taken or queued. -/
theorem Guarded.upstreamData (h : Guarded config stream r.heap r.pendingReplies) (p : Nat)
    (data : Bytes) (truncated : Bool) (result : SendResult) (now : Nat)
    (hfits : truncated = false → result ≠ .threw → FitsReply config stream r p data) :
    Guarded config stream (r.upstreamData config stream p data truncated result now).heap
      (r.upstreamData config stream p data truncated result now).pendingReplies := by
  rw [UdpRuntime.upstreamData]
  split
  · exact h
  · rename_i peer hp
    have hpeer := counted_of_getElem? h hp
    have hcounted : UdpPeer.Counted { peer with lastActivityAt := now } := hpeer
    have hlt := lt_of_heap hp
    split
    · exact h
    · rename_i hopen
      dsimp only
      split
      · exact (h.touch hp now).closeUdpPeer p
      · rename_i htruncated
        have hthrottled : Guarded config stream
            (r.write p (throttle config stream { peer with lastActivityAt := now }
              data.length)).heap r.pendingReplies := by
          refine h.write hp (counted_throttle hcounted _) ?_ ?_
          · exact throttle_upstreamToClientBytes _
          · rw [budget_throttle]
            exact le_refl (budget config stream peer)
        split
        · exact hthrottled
        · rename_i hlet
          have hbytes : result ≠ .threw → peer.upstreamToClientBytes +
              waiting r.pendingReplies p + data.length ≤ budget config stream peer := by
            intro hresult
            apply hfits (eq_false_of_ne_true htruncated) hresult peer hp
            · exact eq_false_of_ne_true hopen
            · exact eq_false_of_ne_true hlet
          cases result with
          | sent =>
              refine h.set (counted_recordReply (counted_throttle hcounted _) data) ?_
                (fun q _ => le_refl _) h.known
              intro _
              have hbytes := hbytes (by decide)
              show (throttle _ _ _ _).upstreamToClientBytes + _ + _ ≤
                budget config stream (throttle _ _ _ _)
              rw [throttle_upstreamToClientBytes, budget_throttle]
              show peer.upstreamToClientBytes + data.length + waiting r.pendingReplies p ≤
                budget config stream peer
              omega
          | full =>
              have hbytes := hbytes (by decide)
              dsimp only
              split
              · refine h.set (counted_throttle hcounted _) ?_ ?_ ?_
                · intro _
                  rw [throttle_upstreamToClientBytes, budget_throttle, waiting_append, if_pos rfl]
                  show peer.upstreamToClientBytes + (waiting r.pendingReplies p + data.length) ≤
                    budget config stream peer
                  omega
                · intro q hq
                  rw [waiting_append, if_neg fun heq => hq heq.symm]
                  exact le_refl _
                · intro reply hreply
                  rcases List.mem_snoc.mp hreply with hold | rfl
                  · exact h.known reply hold
                  · exact hlt
              · exact Guarded.closeUdpPeer (by exact hthrottled) p
          | threw => exact hthrottled

/-- The induction is on the queue: what is flushed was within the budget while it waited. -/
theorem guarded_flushReplies : ∀ (accepts : Nat) (queue : List UdpReply) (r : UdpRuntime),
    Guarded config stream r.heap queue →
      Guarded config stream (UdpRuntime.flushReplies accepts queue r).heap
        (UdpRuntime.flushReplies accepts queue r).pendingReplies
  | _, [], r, h => h
  | accepts, reply :: rest, r, h => by
      have hrest : Guarded config stream r.heap rest := by
        refine ⟨h.counted, fun p peer hp => ?_, fun other hother => ?_⟩
        · have hwithin := h.within p peer hp
          rw [waiting_cons] at hwithin
          omega
        · exact h.known other (List.mem_cons_of_mem _ hother)
      rw [UdpRuntime.flushReplies]
      split
      · exact guarded_flushReplies accepts rest r hrest
      · rename_i peer hp
        split
        · exact guarded_flushReplies accepts rest r hrest
        · cases accepts with
          | zero => exact h
          | succ accepts =>
              apply guarded_flushReplies accepts rest
              refine hrest.set (counted_recordReply (counted_of_getElem? h hp) reply.data) ?_
                (fun q _ => le_refl _) hrest.known
              intro _
              have hwithin := h.within reply.peer peer hp
              rw [waiting_cons, if_pos rfl] at hwithin
              show peer.upstreamToClientBytes + reply.data.length + _ ≤ budget config stream peer
              omega

/-! ## Runs -/

theorem guarded_step (h : Guarded config stream r.heap r.pendingReplies) {a : UdpAction}
    (hfits : Fits config stream r a) (hs : udpStep config stream r a = some r') :
    Guarded config stream r'.heap r'.pendingReplies := by
  cases a with
  | «open» clientIp clientPort now =>
      obtain rfl := Option.some.inj hs
      exact h.insertPeer clientIp clientPort now
  | datagram p data truncated result now =>
      obtain rfl := Option.some.inj hs
      exact h.clientData p data truncated result now
  | reply p data truncated result now =>
      obtain rfl := Option.some.inj hs
      exact h.upstreamData p data truncated result now hfits
  | drainUpstream p accepts =>
      obtain rfl := Option.some.inj hs
      exact h.flushUdpUpstream p accepts
  | drain accepts =>
      obtain rfl := Option.some.inj hs
      exact guarded_flushReplies accepts r.pendingReplies r h
  | close p =>
      obtain rfl := Option.some.inj hs
      exact h.closeUdpPeer p

theorem guarded_start : Guarded config stream UdpRuntime.start.heap
    UdpRuntime.start.pendingReplies :=
  ⟨nofun, nofun, nofun⟩

theorem guarded_of_reach
    (h : Reach (udpStep config stream) (Fits config stream) (· = .start) r) :
    Guarded config stream r.heap r.pendingReplies := by
  apply Reach.invariant (I := fun r => Guarded config stream r.heap r.pendingReplies) _ _ h
  · rintro _ rfl
    exact guarded_start
  · intro s a s' _ hguarded hfits hs
    exact guarded_step hguarded hfits hs

/-- No peer is sent more than the grace and the ratio allow for what was forwarded for it. -/
theorem udp_amplification_bounded (config : StreamsConfig) (stream : StreamRecord) (r : UdpRuntime)
    (h : Reach (udpStep config stream) (Fits config stream) (· = .start) r) :
    ∀ peer ∈ r.heap, peer.sentBytes ≤ config.udpAmplificationGraceBytes +
      stream.udpAmplificationMaxRatio * peer.forwardedBytes := by
  intro peer hpeer
  have hguarded := guarded_of_reach h
  obtain ⟨p, hlt, hp⟩ := List.mem_iff_getElem.mp hpeer
  have hwithin := hguarded.within p peer (by rw [List.getElem?_eq_getElem hlt, hp])
  obtain ⟨hsent, hforwarded⟩ := hguarded.counted peer hpeer
  rw [budget, hsent, hforwarded, Nat.mul_comm] at hwithin
  omega

/-! ## A backlog -/

/-- Ten bytes of grace and no more than was asked for. -/
def graceConfig : StreamsConfig := ⟨4, 4, 10⟩

def ratioStream : StreamRecord := ⟨"dns".toList, 0, 1, none, "10.0.0.1".toList, 53⟩

/-- One reply that is sent, one that waits, and their peer. -/
def repliesWithin : List UdpAction :=
  [ .open "192.0.2.1".toList 4000 0,
    .datagram 0 (List.replicate 10 7) false .sent 1,
    .reply 0 (List.replicate 12 7) false .sent 2,
    .reply 0 (List.replicate 8 7) false .full 3,
    .drain 1 ]

/-- Two replies that each fit while both wait. -/
def repliesBeyond : List UdpAction :=
  [ .open "192.0.2.1".toList 4000 0,
    .datagram 0 (List.replicate 10 7) false .sent 1,
    .reply 0 (List.replicate 15 7) false .full 2,
    .reply 0 (List.replicate 15 7) false .full 3,
    .drain 2 ]

theorem udp_amplification_bounded_drained : ∃ r,
    Reach (udpStep graceConfig ratioStream) (Fits graceConfig ratioStream) (· = .start) r ∧
      (r.heap.all fun peer => decide (peer.sentBytes = 20)) = true ∧ r.heap.length = 1 ∧
        ∀ peer ∈ r.heap, peer.sentBytes ≤ graceConfig.udpAmplificationGraceBytes +
          ratioStream.udpAmplificationMaxRatio * peer.forwardedBytes := by
  obtain ⟨r, hr, hfacts⟩ := (Option.any_eq_true ..).mp
    (show (execIf (udpStep graceConfig ratioStream) (Fits graceConfig ratioStream) .start
      repliesWithin).any
      (fun r => (r.heap.all fun peer => decide (peer.sentBytes = 20)) && decide (r.heap.length = 1))
        = true by decide +kernel)
  obtain ⟨hsent, hone⟩ := Bool.and_eq_true_iff.mp hfacts
  have hreach : Reach (udpStep graceConfig ratioStream) (Fits graceConfig ratioStream)
      (· = .start) r := execIf_reach (.start rfl) hr
  exact ⟨r, hreach, hsent, of_decide_eq_true hone,
    udp_amplification_bounded graceConfig ratioStream r hreach⟩

/-- Both replies pass the guard and the queue sends thirty bytes for a budget of twenty. -/
theorem queued_replies_exceed_budget : ¬ ∀ (config : StreamsConfig) (stream : StreamRecord)
    (r : UdpRuntime), 0 < stream.udpAmplificationMaxRatio →
      Reach (udpStep config stream) Any (· = .start) r →
        ∀ peer ∈ r.heap, peer.sentBytes ≤ config.udpAmplificationGraceBytes +
          stream.udpAmplificationMaxRatio * peer.forwardedBytes := by
  intro hclaim
  obtain ⟨r, hr, hfacts⟩ := (Option.any_eq_true ..).mp
    (show (exec (udpStep graceConfig ratioStream) .start repliesBeyond).any
      (fun r => r.heap.any fun peer => decide (peer.sentBytes = 30 ∧ peer.forwardedBytes = 10))
        = true by decide +kernel)
  obtain ⟨peer, hpeer, hbytes⟩ := List.any_eq_true.mp hfacts
  obtain ⟨hsent, hforwarded⟩ := of_decide_eq_true hbytes
  have hbound := hclaim graceConfig ratioStream r (by decide) (exec_reach (.start rfl) hr)
    peer hpeer
  rw [hsent, hforwarded] at hbound
  revert hbound
  decide

end BurrowGate.Stream
