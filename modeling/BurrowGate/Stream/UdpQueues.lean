import BurrowGate.Lib.HeadQueue
import BurrowGate.Stream.UdpRuntime

/-!
# The queues of a UDP stream

All peers of a stream share one queue of replies, and each peer has a queue towards its
upstream. Both are flushed from the head when a socket drains. `throws` tells for which datagrams
the send of a flush throws; what the first send of a datagram does comes with the action.
-/

namespace BurrowGate.Stream

open Lib Lib.Run

/-- The datagrams whose send throws in a flush. -/
structure SendFaults where
  reply : UdpReply → Bool
  upstream : UdpPendingDatagram → Bool

/-- The history beside the runtime: the replies that came to a send and were sent or queued, in
order of arrival; those that were sent, in order; and for each reply that found the queue full,
how many of the replies in it were for open peers. -/
structure QueueState where
  runtime : UdpRuntime
  arrived : List UdpReply
  sent : List UdpReply
  refused : List Nat

def QueueState.start : QueueState := ⟨.start, [], [], []⟩

namespace UdpRuntime

variable (r : UdpRuntime)

def isOpen (reply : UdpReply) : Bool := r.heap[reply.peer]?.any (!·.closed)

/-! ## Flushes with faults -/

/-- The loop of `flushUdpUpstream` when the socket takes `accepts` datagrams. -/
def flushPendingWhile (throws : UdpPendingDatagram → Bool) (accepts : Nat) :
    List UdpPendingDatagram → UdpPeer → UdpPeer
  | [], peer => { peer with pendingUpstream := [] }
  | datagram :: rest, peer =>
      -- The exception leaves the loop with the datagram at the head.
      if throws datagram then { peer with pendingUpstream := datagram :: rest }
      else
        match accepts with
        | 0 => { peer with pendingUpstream := datagram :: rest }
        | accepts + 1 =>
            flushPendingWhile throws accepts rest (recordForwarded peer datagram.payloadBytes)

def flushUdpUpstreamWhile (throws : UdpPendingDatagram → Bool) (p accepts : Nat) : UdpRuntime :=
  match r.heap[p]? with
  | none => r
  | some peer =>
      if peer.closed then r
      else r.write p (flushPendingWhile throws accepts peer.pendingUpstream peer)

/-- The loop of `flushUdpReplies` when the socket takes `accepts` datagrams. -/
def flushRepliesWhile (throws : UdpReply → Bool) (accepts : Nat) :
    List UdpReply → UdpRuntime → UdpRuntime
  | [], r => { r with pendingReplies := [] }
  | reply :: rest, r =>
      match r.heap[reply.peer]? with
      | none => flushRepliesWhile throws accepts rest r
      | some peer =>
          if peer.closed then flushRepliesWhile throws accepts rest r
          else if throws reply then { r with pendingReplies := reply :: rest }
          else
            match accepts with
            | 0 => { r with pendingReplies := reply :: rest }
            | accepts + 1 =>
                flushRepliesWhile throws accepts rest
                  (r.write reply.peer (recordReply peer reply.data))

def flushUdpRepliesWhile (throws : UdpReply → Bool) (accepts : Nat) : UdpRuntime :=
  flushRepliesWhile throws accepts r.pendingReplies r

end UdpRuntime

/-! ## Traffic -/

/-- A reply comes to a send: the peer is open, and the datagram whole and within the budget. -/
def replies (config : StreamsConfig) (stream : StreamRecord) (r : UdpRuntime) (p : Nat)
    (data : List UInt8) (truncated : Bool) : Bool :=
  r.heap[p]?.any fun peer =>
    !peer.closed && !truncated && !isAmplificationThrottled config stream peer data.length

def queueStep (config : StreamsConfig) (stream : StreamRecord) (faults : SendFaults)
    (s : QueueState) : UdpAction → Option QueueState
  | .reply p data truncated result now =>
      let runtime := s.runtime.upstreamData config stream p data truncated result now
      if replies config stream s.runtime p data truncated then
        match result with
        | .sent => some { s with
            runtime
            arrived := s.arrived ++ [⟨p, data⟩]
            sent := s.sent ++ [⟨p, data⟩] }
        | .full =>
            if s.runtime.pendingReplies.length < config.maxPendingDatagrams then
              some { s with runtime, arrived := s.arrived ++ [⟨p, data⟩] }
            else some { s with
              runtime
              refused := s.refused ++ [s.runtime.pendingReplies.countP s.runtime.isOpen] }
        | .threw => some { s with runtime }
      else some { s with runtime }
  | .drain accepts => some { s with
      runtime := s.runtime.flushUdpRepliesWhile faults.reply accepts
      sent := s.sent ++ (HeadQueue.flush s.runtime.isOpen faults.reply accepts
        s.runtime.pendingReplies).1 }
  | .drainUpstream p accepts => some { s with
      runtime := s.runtime.flushUdpUpstreamWhile faults.upstream p accepts }
  | action => (udpStep config stream s.runtime action).map fun runtime => { s with runtime }

/-! ## The law -/

structure QueuesProgress (config : StreamsConfig) (faults : SendFaults) (s : QueueState) :
    Prop where
  replies : HeadQueue.Progresses s.runtime.isOpen faults.reply s.runtime.pendingReplies
  upstream : ∀ peer ∈ s.runtime.heap, peer.closed = false →
    HeadQueue.Progresses (fun _ => true) faults.upstream peer.pendingUpstream
  inOrder : HeadQueue.InOrder s.arrived s.sent s.runtime.pendingReplies
  bounded : s.runtime.pendingReplies.length ≤ config.maxPendingDatagrams ∧
    ∀ peer ∈ s.runtime.heap, peer.pendingUpstream.length ≤ config.maxPendingDatagrams
  /-- A reply is refused only for the replies of open peers. -/
  fair : ∀ count ∈ s.refused, config.maxPendingDatagrams ≤ count

/-- No datagram is queued whose send throws later, no reply is accepted at once while others
wait, and no reply finds a full queue that holds replies of closed peers. -/
def sendsInTurn (config : StreamsConfig) (stream : StreamRecord) (faults : SendFaults)
    (s : QueueState) : UdpAction → Bool
  | .reply p data truncated result _ =>
      !replies config stream s.runtime p data truncated ||
        match result with
        | .sent => s.runtime.pendingReplies.isEmpty
        | .full =>
            if s.runtime.pendingReplies.length < config.maxPendingDatagrams then
              !faults.reply ⟨p, data⟩
            else s.runtime.pendingReplies.all s.runtime.isOpen
        | .threw => true
  | .datagram p data truncated .full _ =>
      s.runtime.heap[p]?.all fun peer =>
        peer.closed || truncated || config.maxPendingDatagrams ≤ peer.pendingUpstream.length ||
          (udpUpstreamDatagram stream data peer).toOption.all (!faults.upstream ·)
  | _ => true

def SendsInTurn (config : StreamsConfig) (stream : StreamRecord) (faults : SendFaults)
    (s : QueueState) (a : UdpAction) : Prop :=
  sendsInTurn config stream faults s a = true

instance (config : StreamsConfig) (stream : StreamRecord) (faults : SendFaults) (s : QueueState)
    (a : UdpAction) : Decidable (SendsInTurn config stream faults s a) :=
  inferInstanceAs (Decidable (_ = true))

variable {config : StreamsConfig} {stream : StreamRecord} {faults : SendFaults}
variable {s t : QueueState} {r : UdpRuntime} {peer new : UdpPeer} {p : Nat}

/-! ## The queues of the peers -/

/-- Every peer's queue has the property. -/
def Pending (P : List UdpPendingDatagram → Prop) (r : UdpRuntime) : Prop :=
  ∀ peer ∈ r.heap, P peer.pendingUpstream

variable {P : List UdpPendingDatagram → Prop}

theorem Pending.set (h : Pending P r) (hnew : P new.pendingUpstream)
    (replies : List UdpReply) (peers : OrderedMap PeerKey Nat) :
    Pending P ⟨r.heap.set p new, peers, replies⟩ := by
  intro other hother
  rcases List.mem_or_eq_of_mem_set hother with hold | rfl
  · exact h other hold
  · exact hnew

theorem Pending.of_getElem? (h : Pending P r) (hp : r.heap[p]? = some peer) :
    P peer.pendingUpstream :=
  h peer (List.mem_of_getElem? hp)

theorem Pending.closeUdpPeer (h : Pending P r) (p : Nat) : Pending P (r.closeUdpPeer p) := by
  rw [UdpRuntime.closeUdpPeer]
  split
  · exact h
  · rename_i peer hp
    split
    · exact h
    · have hpeer := h.of_getElem? hp
      exact h.set (by exact hpeer) _ _

theorem Pending.insertPeer (h : Pending P r) (hnil : P []) (ip : List Char) (port now : Nat) :
    Pending P (r.insertPeer ip port now) := by
  intro other hother
  rcases List.mem_snoc.mp hother with hold | hnew
  · exact h other hold
  · rw [hnew]
    exact hnil

theorem closeUdpPeer_pendingReplies (r : UdpRuntime) (p : Nat) :
    (r.closeUdpPeer p).pendingReplies = r.pendingReplies := by
  rw [UdpRuntime.closeUdpPeer]
  split
  · rfl
  · split
    · rfl
    · rfl

theorem throttle_pendingUpstream (peer : UdpPeer) (n : Nat) :
    (throttle config stream peer n).pendingUpstream = peer.pendingUpstream := by
  rw [throttle]
  split
  · rfl
  · rfl

/-- A reply changes nothing on the side of the upstreams. -/
theorem Pending.upstreamData (h : Pending P r) (p : Nat) (data : List UInt8) (truncated : Bool)
    (result : SendResult) (now : Nat) :
    Pending P (r.upstreamData config stream p data truncated result now) := by
  rw [UdpRuntime.upstreamData]
  split
  · exact h
  · rename_i peer hp
    have hpeer := h.of_getElem? hp
    have hthrottled : P (throttle config stream { peer with lastActivityAt := now }
        data.length).pendingUpstream := by
      rw [throttle_pendingUpstream]
      exact hpeer
    split
    · exact h
    · dsimp only
      split
      · apply Pending.closeUdpPeer
        exact h.set (by exact hpeer) _ _
      · split
        · exact h.set hthrottled _ _
        · split
          · exact h.set (by exact hthrottled) _ _
          · split
            · exact h.set hthrottled _ _
            · apply Pending.closeUdpPeer
              exact h.set hthrottled _ _
          · exact h.set hthrottled _ _

/-- What a reply does to the queue. -/
theorem upstreamData_pendingReplies (r : UdpRuntime) (p : Nat) (data : List UInt8)
    (truncated : Bool) (result : SendResult) (now : Nat) :
    (r.upstreamData config stream p data truncated result now).pendingReplies =
      if replies config stream r p data truncated = true ∧ result = .full ∧
          r.pendingReplies.length < config.maxPendingDatagrams then
        r.pendingReplies ++ [⟨p, data⟩]
      else r.pendingReplies := by
  rw [UdpRuntime.upstreamData, replies]
  cases hp : r.heap[p]? with
  | none => simp
  | some peer =>
      have hsame : isAmplificationThrottled config stream
          { peer with lastActivityAt := now } data.length =
            isAmplificationThrottled config stream peer data.length := rfl
      simp only [Option.any_some]
      rw [hsame]
      by_cases hclosed : peer.closed = true
      · simp [hclosed]
      · by_cases htruncated : truncated = true
        · simp [hclosed, htruncated, closeUdpPeer_pendingReplies, UdpRuntime.write]
        · by_cases hthrottled : isAmplificationThrottled config stream peer data.length = true
          · simp [hclosed, htruncated, hthrottled, UdpRuntime.write]
          · cases result with
            | sent => simp [hclosed, htruncated, hthrottled, UdpRuntime.write]
            | threw => simp [hclosed, htruncated, hthrottled, UdpRuntime.write]
            | full =>
                by_cases hroom : r.pendingReplies.length < config.maxPendingDatagrams
                · simp [hclosed, htruncated, hthrottled, hroom]
                · simp [hclosed, htruncated, hthrottled, hroom, closeUdpPeer_pendingReplies,
                    UdpRuntime.write]

theorem clientData_pendingReplies (r : UdpRuntime) (p : Nat) (data : List UInt8)
    (truncated : Bool) (result : SendResult) (now : Nat) :
    (r.clientData config stream p data truncated result now).pendingReplies =
      r.pendingReplies := by
  rw [UdpRuntime.clientData]
  split
  · rfl
  · split
    · rfl
    · dsimp only
      split
      · exact closeUdpPeer_pendingReplies _ p
      · split
        · rfl
        · split
          · rfl
          · split
            · rfl
            · exact closeUdpPeer_pendingReplies _ p
          · rfl

/-- The queues that a datagram may join. -/
def Holds (config : StreamsConfig) (faults : SendFaults) (queue : List UdpPendingDatagram) :
    Prop :=
  queue.length ≤ config.maxPendingDatagrams ∧ ∀ datagram ∈ queue, faults.upstream datagram = false

theorem Holds.sublist {queue rest : List UdpPendingDatagram} (h : Holds config faults queue)
    (hrest : List.Sublist rest queue) : Holds config faults rest :=
  ⟨Nat.le_trans hrest.length_le h.1, fun datagram hd => h.2 datagram (hrest.subset hd)⟩

theorem Pending.clientData (h : Pending (Holds config faults) r) {p : Nat}
    {data : List UInt8} {truncated : Bool} {result : SendResult} {now : Nat}
    (hfull : result = .full → ∀ peer, r.heap[p]? = some peer → peer.closed = false →
      truncated = false → peer.pendingUpstream.length < config.maxPendingDatagrams →
        ∀ datagram, udpUpstreamDatagram stream data peer = .ok datagram →
          faults.upstream datagram = false) :
    Pending (Holds config faults) (r.clientData config stream p data truncated result now) := by
  rw [UdpRuntime.clientData]
  split
  · exact h
  · rename_i peer hp
    have hpeer := h.of_getElem? hp
    split
    · exact h
    · rename_i hopen
      dsimp only
      split
      · apply Pending.closeUdpPeer
        exact h.set (by exact hpeer) _ _
      · rename_i hwhole
        split
        · exact h.set (by exact hpeer) _ _
        · rename_i datagram hdatagram
          split
          · exact h.set (by exact hpeer) _ _
          · split
            · rename_i hroom
              apply h.set
              refine ⟨?_, fun other hother => ?_⟩
              · rw [List.length_append, List.length_singleton]
                exact hroom
              · rcases List.mem_snoc.mp hother with hold | hnew
                · exact hpeer.2 other hold
                · rw [hnew]
                  exact hfull rfl peer hp (Bool.eq_false_of_not_eq_true hopen)
                    (Bool.eq_false_of_not_eq_true hwhole) hroom datagram hdatagram
            · apply Pending.closeUdpPeer
              exact h.set (by exact hpeer) _ _
          · exact h.set (by exact hpeer) _ _

/-- The loop of `flushUdpUpstream` is a flush of a queue whose entries are all live. -/
theorem flushPendingWhile_pendingUpstream (throws : UdpPendingDatagram → Bool) (accepts : Nat)
    (pending : List UdpPendingDatagram) (peer : UdpPeer) :
    (UdpRuntime.flushPendingWhile throws accepts pending peer).pendingUpstream =
      (HeadQueue.flush (fun _ => true) throws accepts pending).2 := by
  induction pending generalizing accepts peer with
  | nil => cases accepts <;> rfl
  | cons datagram rest ih =>
      rw [UdpRuntime.flushPendingWhile.eq_def]
      dsimp only
      cases hthrows : throws datagram with
      | true => rw [HeadQueue.flush_fails rfl hthrows]; rfl
      | false =>
          cases accepts with
          | zero => rw [HeadQueue.flush_zero rfl]; rfl
          | succ accepts =>
              rw [HeadQueue.flush_sends rfl hthrows]
              exact ih accepts _

/-! ## The queue of replies -/

theorem isOpen_write (hp : r.heap[p]? = some peer) (hclosed : new.closed = peer.closed) :
    (r.write p new).isOpen = r.isOpen := by
  funext reply
  rw [UdpRuntime.isOpen, UdpRuntime.isOpen, UdpRuntime.write]
  by_cases hsame : reply.peer = p
  · rw [hsame, hp, List.getElem?_set_self (List.getElem?_eq_some_iff.mp hp).1, Option.any_some,
      Option.any_some, hclosed]
  · rw [List.getElem?_set_ne (Ne.symm hsame)]

/-- The loop of `flushUdpReplies` is a flush of the queue in which replies of open peers are
live. It leaves the queues of the peers. -/
theorem flushRepliesWhile_spec (throws : UdpReply → Bool) (accepts : Nat)
    (queue : List UdpReply) (r : UdpRuntime) :
    (UdpRuntime.flushRepliesWhile throws accepts queue r).pendingReplies =
        (HeadQueue.flush r.isOpen throws accepts queue).2 ∧
      (Pending P r → Pending P (UdpRuntime.flushRepliesWhile throws accepts queue r)) := by
  induction queue generalizing accepts r with
  | nil => exact ⟨by cases accepts <;> rfl, id⟩
  | cons reply rest ih =>
      rw [UdpRuntime.flushRepliesWhile.eq_def]
      dsimp only
      cases hp : r.heap[reply.peer]? with
      | none =>
          have hdead : r.isOpen reply = false := by rw [UdpRuntime.isOpen, hp]; rfl
          rw [HeadQueue.flush_dead hdead]
          exact ih accepts r
      | some peer =>
          dsimp only
          cases hclosed : peer.closed with
          | true =>
              have hdead : r.isOpen reply = false := by
                rw [UdpRuntime.isOpen, hp, Option.any_some, hclosed]
                rfl
              rw [HeadQueue.flush_dead hdead]
              exact ih accepts r
          | false =>
              have hlive : r.isOpen reply = true := by
                rw [UdpRuntime.isOpen, hp, Option.any_some, hclosed]
                rfl
              cases hthrows : throws reply with
              | true =>
                  rw [HeadQueue.flush_fails hlive hthrows]
                  exact ⟨rfl, id⟩
              | false =>
                  cases accepts with
                  | zero =>
                      rw [HeadQueue.flush_zero hlive]
                      exact ⟨rfl, id⟩
                  | succ accepts =>
                      obtain ⟨hqueue, hpending⟩ :=
                        ih accepts (r.write reply.peer (recordReply peer reply.data))
                      have hopen : (r.write reply.peer (recordReply peer reply.data)).isOpen =
                          r.isOpen := isOpen_write hp rfl
                      rw [hopen] at hqueue
                      rw [HeadQueue.flush_sends hlive hthrows]
                      refine ⟨hqueue, fun h => hpending ?_⟩
                      have hpeer := h.of_getElem? hp
                      exact h.set (by exact hpeer) _ _

/-! ## The invariant -/

structure InTurn (config : StreamsConfig) (faults : SendFaults) (s : QueueState) : Prop where
  replies : ∀ reply ∈ s.runtime.pendingReplies, faults.reply reply = false
  upstream : Pending (Holds config faults) s.runtime
  inOrder : HeadQueue.InOrder s.arrived s.sent s.runtime.pendingReplies
  bounded : s.runtime.pendingReplies.length ≤ config.maxPendingDatagrams
  fair : ∀ count ∈ s.refused, config.maxPendingDatagrams ≤ count

/-- A step that leaves the queue of replies. -/
theorem InTurn.keep (h : InTurn config faults s) {runtime : UdpRuntime}
    (hreplies : runtime.pendingReplies = s.runtime.pendingReplies)
    (hpending : Pending (Holds config faults) runtime) :
    InTurn config faults { s with runtime } := by
  refine ⟨?_, hpending, ?_, ?_, h.fair⟩
  · rw [hreplies]
    exact h.replies
  · rw [hreplies]
    exact h.inOrder
  · rw [hreplies]
    exact h.bounded

theorem InTurn.reply (h : InTurn config faults s) {data : List UInt8} {truncated : Bool}
    {result : SendResult} {now : Nat}
    (hturn : SendsInTurn config stream faults s (.reply p data truncated result now))
    (hstep : queueStep config stream faults s (.reply p data truncated result now) = some t) :
    InTurn config faults t := by
  have hreplies := @upstreamData_pendingReplies config stream s.runtime p data truncated result now
  have hpending := @Pending.upstreamData config stream _ _ h.upstream p data truncated result now
  simp only [queueStep] at hstep
  split at hstep
  · rename_i hcomes
    cases result with
    | sent =>
        cases hstep
        have hqueue : (!Stream.replies config stream s.runtime p data truncated ||
            s.runtime.pendingReplies.isEmpty) = true := hturn
        rw [hcomes, Bool.not_true, Bool.false_or] at hqueue
        have hempty := List.isEmpty_iff.mp hqueue
        rw [if_neg (by simp)] at hreplies
        rw [hempty] at hreplies
        have hdirect := h.inOrder
        rw [hempty] at hdirect
        refine ⟨?_, hpending, ?_, ?_, h.fair⟩
        · rw [hreplies]
          exact fun reply hreply => by cases hreply
        · rw [hreplies]
          exact hdirect.direct _
        · rw [hreplies]
          exact Nat.zero_le _
    | threw =>
        cases hstep
        rw [if_neg (by simp)] at hreplies
        exact h.keep hreplies hpending
    | full =>
        have hqueue : (!Stream.replies config stream s.runtime p data truncated ||
            if s.runtime.pendingReplies.length < config.maxPendingDatagrams then
              !faults.reply ⟨p, data⟩
            else s.runtime.pendingReplies.all s.runtime.isOpen) = true := hturn
        rw [hcomes, Bool.not_true, Bool.false_or] at hqueue
        dsimp only at hstep
        split at hstep
        · rename_i hroom
          cases hstep
          rw [if_pos hroom, Bool.not_eq_true'] at hqueue
          rw [if_pos ⟨hcomes, rfl, hroom⟩] at hreplies
          refine ⟨?_, hpending, ?_, ?_, h.fair⟩
          · rw [hreplies]
            intro reply hreply
            rcases List.mem_snoc.mp hreply with hold | hnew
            · exact h.replies reply hold
            · rw [hnew]
              exact hqueue
          · rw [hreplies]
            exact h.inOrder.push _
          · rw [hreplies, List.length_append, List.length_singleton]
            exact hroom
        · rename_i hroom
          cases hstep
          rw [if_neg hroom] at hqueue
          rw [if_neg (by simp [hroom])] at hreplies
          have hkept := h.keep hreplies hpending
          refine ⟨hkept.replies, hkept.upstream, hkept.inOrder, hkept.bounded, ?_⟩
          intro count hcount
          rcases List.mem_snoc.mp hcount with hold | hnew
          · exact h.fair count hold
          · rw [hnew, List.countP_eq_length.mpr (List.all_eq_true.mp hqueue)]
            exact Nat.le_of_not_lt hroom
  · rename_i hcomes
    cases hstep
    rw [if_neg (by simp [hcomes])] at hreplies
    exact h.keep hreplies hpending

theorem InTurn.datagram (h : InTurn config faults s) {data : List UInt8} {truncated : Bool}
    {result : SendResult} {now : Nat}
    (hturn : SendsInTurn config stream faults s (.datagram p data truncated result now))
    (hstep : queueStep config stream faults s (.datagram p data truncated result now) = some t) :
    InTurn config faults t := by
  cases hstep
  apply h.keep (clientData_pendingReplies ..)
  apply h.upstream.clientData
  intro hfull peer hp hopen hwhole hroom datagram hdatagram
  subst hfull
  have hqueued : (s.runtime.heap[p]?.all fun peer =>
      peer.closed || truncated || config.maxPendingDatagrams ≤ peer.pendingUpstream.length ||
        (udpUpstreamDatagram stream data peer).toOption.all (!faults.upstream ·)) = true := hturn
  rw [hp, Option.all_some, hopen, hwhole, hdatagram] at hqueued
  simpa [Except.toOption, Nat.not_le.mpr hroom] using hqueued

theorem InTurn.step {a : UdpAction} (h : InTurn config faults s)
    (hturn : SendsInTurn config stream faults s a)
    (hstep : queueStep config stream faults s a = some t) : InTurn config faults t := by
  cases a with
  | «open» ip port now =>
      cases hstep
      exact h.keep rfl (h.upstream.insertPeer ⟨Nat.zero_le _, fun _ hd => by cases hd⟩ ip port now)
  | datagram p data truncated result now => exact h.datagram hturn hstep
  | reply p data truncated result now => exact h.reply hturn hstep
  | close p =>
      cases hstep
      exact h.keep (closeUdpPeer_pendingReplies ..) (h.upstream.closeUdpPeer p)
  | drainUpstream p accepts =>
      cases hstep
      rw [UdpRuntime.flushUdpUpstreamWhile]
      split
      · exact h
      · rename_i peer hp
        split
        · exact h
        · refine h.keep ?_ (h.upstream.set ?_ _ _)
          · rfl
          · rw [flushPendingWhile_pendingUpstream]
            exact (h.upstream.of_getElem? hp).sublist (HeadQueue.flush_sublist ..)
  | drain accepts =>
      cases hstep
      obtain ⟨hqueue, hpending⟩ := @flushRepliesWhile_spec (Holds config faults) faults.reply
        accepts s.runtime.pendingReplies s.runtime
      have hsublist := @HeadQueue.flush_sublist _ s.runtime.isOpen faults.reply accepts
        s.runtime.pendingReplies
      refine ⟨?_, hpending h.upstream, ?_, ?_, h.fair⟩
      · intro reply hreply
        rw [UdpRuntime.flushUdpRepliesWhile, hqueue] at hreply
        exact h.replies reply (hsublist.subset hreply)
      · rw [UdpRuntime.flushUdpRepliesWhile, hqueue]
        exact h.inOrder.flush accepts
      · rw [UdpRuntime.flushUdpRepliesWhile, hqueue]
        exact Nat.le_trans hsublist.length_le h.bounded

theorem inTurn_start : InTurn config faults .start where
  replies := fun _ hreply => by cases hreply
  upstream := fun _ hpeer => by cases hpeer
  inOrder := HeadQueue.inOrder_nil
  bounded := Nat.zero_le _
  fair := fun _ hcount => by cases hcount

/-- While datagrams are sent in turn, the queues of a stream make progress, keep their order and
their bounds, and refuse replies only for those of open peers. -/
theorem udp_queues_progress (config : StreamsConfig) (stream : StreamRecord)
    (faults : SendFaults)
    (h : Reach (queueStep config stream faults) (SendsInTurn config stream faults) (· = .start) s) :
    QueuesProgress config faults s := by
  have hturn : InTurn config faults s := by
    apply h.invariant
    · intro s hs
      rw [hs]
      exact inTurn_start
    · intro s a s' _ hs hturn hstep
      exact hs.step hturn hstep
  refine ⟨?_, ?_, hturn.inOrder, ⟨hturn.bounded, fun peer hpeer => (hturn.upstream peer hpeer).1⟩,
    hturn.fair⟩
  · exact HeadQueue.progresses_iff.mpr fun reply hreply _ => hturn.replies reply hreply
  · intro peer hpeer _
    exact HeadQueue.progresses_iff.mpr fun datagram hd _ => (hturn.upstream peer hpeer).2 datagram hd

/-! ## Runs -/

def exampleStreams : StreamsConfig := ⟨10, 2, 0⟩

def exampleStream : StreamRecord := ⟨"stream_1".toList, 10, 0, none, "192.0.2.1".toList, 53⟩

/-- Two replies wait for the socket, which then drains. -/
def repliesWait : List UdpAction :=
  [.open "198.51.100.1".toList 4000 0, .reply 0 [1] false .full 1, .reply 0 [2] false .full 2,
    .drain 2]

theorem udp_queues_progress_drained :
    ∃ s, execIf (queueStep exampleStreams exampleStream ⟨fun _ => false, fun _ => false⟩)
        (SendsInTurn exampleStreams exampleStream ⟨fun _ => false, fun _ => false⟩) .start
          repliesWait = some s ∧
      QueuesProgress exampleStreams ⟨fun _ => false, fun _ => false⟩ s := by
  have hrun : (execIf (queueStep exampleStreams exampleStream ⟨fun _ => false, fun _ => false⟩)
      (SendsInTurn exampleStreams exampleStream ⟨fun _ => false, fun _ => false⟩) .start
        repliesWait).isSome = true := by decide +kernel
  obtain ⟨s, hs⟩ := Option.isSome_iff_exists.mp hrun
  exact ⟨s, hs, udp_queues_progress _ _ _ (execIf_reach (.start rfl) hs)⟩

/-- The first reply waits for the socket, and its send throws whenever the queue is flushed. -/
def undeliverable : SendFaults := ⟨fun reply => reply.data = [1], fun _ => false⟩

theorem undeliverable_reply_blocks :
    ¬ ∀ (config : StreamsConfig) (stream : StreamRecord) (faults : SendFaults) (s : QueueState),
      Reach (queueStep config stream faults) Any (· = .start) s →
        QueuesProgress config faults s := by
  intro h
  have hrun : (exec (queueStep exampleStreams exampleStream undeliverable) .start
      repliesWait).any (fun s => s.runtime.pendingReplies.any fun reply =>
        s.runtime.isOpen reply && undeliverable.reply reply) = true := by decide +kernel
  obtain ⟨s, hs, hwaits⟩ := (Option.any_eq_true ..).mp hrun
  obtain ⟨reply, hreply, hstuck⟩ := List.any_eq_true.mp hwaits
  obtain ⟨hopen, hthrows⟩ := Bool.and_eq_true_iff.mp hstuck
  have hlaw := h exampleStreams exampleStream undeliverable s (exec_reach (.start rfl) hs)
  have hsent := HeadQueue.progresses_iff.mp hlaw.replies reply hreply hopen
  rw [hthrows] at hsent
  cases hsent

end BurrowGate.Stream
