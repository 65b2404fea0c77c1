import BurrowGate.Stream.AmplificationGuard
import Mathlib.Algebra.Order.BigOperators.Group.List

/-!
# How far the backlog exceeds the amplification budget

Whatever the sockets do, the replies that wait are no more than the queue holds, so the bytes sent
to a client exceed its budget by one full queue at most. The step lemmas of the guard are used with
a grace that covers the queue.
-/

namespace BurrowGate.Stream

open Lib.Run
open ProxyProtocol

variable {config : StreamsConfig} {stream : StreamRecord} {queue queue' : List UdpReply} {p : Nat}
  {r r' : UdpRuntime} {limit : Nat}

/-- No reply of the upstream is longer than a datagram may be. -/
def ShortReplies (limit : Nat) (_ : UdpRuntime) : UdpAction → Prop
  | .reply _ data _ _ _ => data.length ≤ limit
  | _ => True

instance (limit : Nat) (r : UdpRuntime) : ∀ a, Decidable (ShortReplies limit r a)
  | .reply _ data _ _ _ => inferInstanceAs (Decidable (data.length ≤ limit))
  | .open .. | .datagram .. | .drainUpstream .. | .drain .. | .close .. => isTrue trivial

/-- The grace with one full queue added. -/
def withBacklog (config : StreamsConfig) (limit : Nat) : StreamsConfig :=
  { config with
    udpAmplificationGraceBytes :=
      config.udpAmplificationGraceBytes + config.maxPendingDatagrams * limit }

/-! ## The queue -/

structure Backlog (config : StreamsConfig) (limit : Nat) (queue : List UdpReply) : Prop where
  length : queue.length ≤ config.maxPendingDatagrams
  short : ∀ reply ∈ queue, reply.data.length ≤ limit

theorem Backlog.waiting_le (h : Backlog config limit queue) (p : Nat) :
    waiting queue p ≤ config.maxPendingDatagrams * limit := by
  have hsum : waiting queue p ≤
      ((queue.filter (·.peer = p)).map (·.data.length)).length • limit := by
    apply List.sum_le_card_nsmul
    intro n hn
    obtain ⟨reply, hreply, rfl⟩ := List.mem_map.mp hn
    exact h.short reply (List.mem_of_mem_filter hreply)
  rw [List.length_map] at hsum
  have hlength := (List.length_filter_le (fun reply => decide (reply.peer = p)) queue).trans h.length
  exact hsum.trans (Nat.mul_le_mul_right limit hlength)

theorem Backlog.suffix (h : Backlog config limit queue) (hsuffix : queue' <:+ queue) :
    Backlog config limit queue' :=
  ⟨hsuffix.length_le.trans h.length, fun reply hreply => h.short reply (hsuffix.subset hreply)⟩

theorem pendingReplies_closeUdpPeer (r : UdpRuntime) (p : Nat) :
    (r.closeUdpPeer p).pendingReplies = r.pendingReplies := by
  rw [UdpRuntime.closeUdpPeer]
  split
  · rfl
  · split
    · rfl
    · rfl

theorem pendingReplies_clientData (r : UdpRuntime) (p : Nat) (data : Bytes) (truncated : Bool)
    (result : SendResult) (now : Nat) :
    (r.clientData config stream p data truncated result now).pendingReplies = r.pendingReplies := by
  simp only [UdpRuntime.clientData]
  repeat' split
  all_goals first | rfl | exact pendingReplies_closeUdpPeer _ p

theorem flushReplies_suffix : ∀ (accepts : Nat) (queue : List UdpReply) (r : UdpRuntime),
    (UdpRuntime.flushReplies accepts queue r).pendingReplies <:+ queue
  | _, [], _ => List.suffix_rfl
  | accepts, reply :: rest, r => by
      have hcons := List.suffix_cons reply rest
      rw [UdpRuntime.flushReplies]
      split
      · exact (flushReplies_suffix accepts rest r).trans hcons
      · split
        · exact (flushReplies_suffix accepts rest r).trans hcons
        · cases accepts with
          | zero => exact List.suffix_rfl
          | succ accepts => exact (flushReplies_suffix accepts rest _).trans hcons

/-! ## One step -/

theorem throttle_clientToUpstreamBytes (peer : UdpPeer) (replyBytes : Nat) :
    (throttle config stream peer replyBytes).clientToUpstreamBytes =
      peer.clientToUpstreamBytes := by
  rw [throttle]
  split
  · rfl
  · rfl

theorem le_budget_of_not_throttled {peer : UdpPeer} {replyBytes : Nat}
    (hratio : 0 < stream.udpAmplificationMaxRatio)
    (h : ¬ isAmplificationThrottled config stream peer replyBytes = true) :
    peer.upstreamToClientBytes + replyBytes ≤ budget config stream peer := by
  rw [isAmplificationThrottled, if_neg (by omega), decide_eq_true_eq] at h
  omega

/-- What is queued is counted against the room for one full queue. -/
theorem Guarded.upstreamData_backlog
    (h : Guarded (withBacklog config limit) stream r.heap r.pendingReplies)
    (hbacklog : Backlog config limit r.pendingReplies)
    (hratio : 0 < stream.udpAmplificationMaxRatio) (p : Nat) {data : Bytes}
    (hdata : data.length ≤ limit) (truncated : Bool) (result : SendResult) (now : Nat)
    (hr : r.upstreamData config stream p data truncated result now = r') :
    Guarded (withBacklog config limit) stream r'.heap r'.pendingReplies ∧
      Backlog config limit r'.pendingReplies := by
  have hclose : ∀ {r : UdpRuntime}, Guarded (withBacklog config limit) stream r.heap
      r.pendingReplies → Backlog config limit r.pendingReplies →
        Guarded (withBacklog config limit) stream (r.closeUdpPeer p).heap
          (r.closeUdpPeer p).pendingReplies ∧
        Backlog config limit (r.closeUdpPeer p).pendingReplies := by
    intro r h hbacklog
    refine ⟨h.closeUdpPeer p, ?_⟩
    rw [pendingReplies_closeUdpPeer]
    exact hbacklog
  subst hr
  rw [UdpRuntime.upstreamData]
  split
  · exact ⟨h, hbacklog⟩
  rename_i peer hp
  have hpeer := counted_of_getElem? h hp
  have hcounted : UdpPeer.Counted { peer with lastActivityAt := now } := hpeer
  split
  · exact ⟨h, hbacklog⟩
  dsimp only
  split
  · exact hclose (h.touch hp now) hbacklog
  have hgrace : budget (withBacklog config limit) stream (throttle config stream
      { peer with lastActivityAt := now } data.length) =
        budget config stream peer + config.maxPendingDatagrams * limit := by
    rw [budget, throttle_clientToUpstreamBytes, budget]
    exact Nat.add_right_comm _ _ _
  have hthrottled : Guarded (withBacklog config limit) stream (r.write p (throttle config stream
      { peer with lastActivityAt := now } data.length)).heap r.pendingReplies := by
    refine h.write hp (counted_throttle hcounted _) (throttle_upstreamToClientBytes _) ?_
    rw [hgrace]
    exact (Nat.add_right_comm _ _ _).le
  split
  · exact ⟨hthrottled, hbacklog⟩
  rename_i hlet
  have hbytes : peer.upstreamToClientBytes + data.length ≤ budget config stream peer :=
    le_budget_of_not_throttled hratio hlet
  have hwaiting := hbacklog.waiting_le p
  cases result with
  | sent =>
      dsimp only
      refine ⟨h.set (counted_recordReply (counted_throttle hcounted _) data) ?_
        (fun q _ => le_refl _) h.known, hbacklog⟩
      intro _
      show (throttle _ _ _ _).upstreamToClientBytes + _ + _ ≤
        budget (withBacklog config limit) stream (throttle _ _ _ _)
      rw [throttle_upstreamToClientBytes, hgrace]
      show peer.upstreamToClientBytes + data.length + waiting r.pendingReplies p ≤ _
      omega
  | full =>
      dsimp only
      split
      · rename_i hroom
        have hqueue : Backlog config limit (r.pendingReplies ++ [{ peer := p, data }]) := by
          refine ⟨?_, fun reply hreply => ?_⟩
          · rw [List.length_append]
            exact hroom
          · rcases List.mem_snoc.mp hreply with hold | rfl
            · exact hbacklog.short reply hold
            · exact hdata
        refine ⟨h.set (counted_throttle hcounted _) ?_ ?_ ?_, hqueue⟩
        · intro _
          rw [throttle_upstreamToClientBytes, hgrace]
          have hall := hqueue.waiting_le p
          show peer.upstreamToClientBytes +
            waiting (r.pendingReplies ++ [{ peer := p, data }]) p ≤ _
          omega
        · intro q hq
          rw [waiting_append, if_neg fun heq => hq heq.symm]
          exact le_refl _
        · intro reply hreply
          rcases List.mem_snoc.mp hreply with hold | rfl
          · exact h.known reply hold
          · exact lt_of_heap hp
      · exact hclose hthrottled hbacklog
  | threw => exact ⟨hthrottled, hbacklog⟩

theorem backlog_step (h : Guarded (withBacklog config limit) stream r.heap r.pendingReplies)
    (hbacklog : Backlog config limit r.pendingReplies)
    (hratio : 0 < stream.udpAmplificationMaxRatio) {a : UdpAction} (ha : ShortReplies limit r a)
    (hs : udpStep config stream r a = some r') :
    Guarded (withBacklog config limit) stream r'.heap r'.pendingReplies ∧
      Backlog config limit r'.pendingReplies := by
  cases a with
  | reply p data truncated result now =>
      exact h.upstreamData_backlog hbacklog hratio p ha truncated result now (Option.some.inj hs)
  -- the other actions do not look at the grace
  | «open» clientIp clientPort now =>
      obtain rfl := Option.some.inj hs
      exact ⟨h.insertPeer clientIp clientPort now, hbacklog⟩
  | datagram p data truncated result now =>
      obtain rfl := Option.some.inj hs
      refine ⟨h.clientData p data truncated result now, ?_⟩
      rw [pendingReplies_clientData]
      exact hbacklog
  | drainUpstream p accepts =>
      obtain rfl := Option.some.inj hs
      refine ⟨h.flushUdpUpstream p accepts, ?_⟩
      rw [UdpRuntime.flushUdpUpstream]
      split
      · exact hbacklog
      · split
        · exact hbacklog
        · exact hbacklog
  | drain accepts =>
      obtain rfl := Option.some.inj hs
      exact ⟨guarded_flushReplies accepts r.pendingReplies r h,
        hbacklog.suffix (flushReplies_suffix accepts r.pendingReplies r)⟩
  | close p =>
      obtain rfl := Option.some.inj hs
      refine ⟨h.closeUdpPeer p, ?_⟩
      rw [pendingReplies_closeUdpPeer]
      exact hbacklog

/-! ## Runs -/

/-- In every run the bytes sent to a client exceed its budget by one full queue at most. -/
theorem udp_amplification_with_backlog (config : StreamsConfig) (stream : StreamRecord)
    (hratio : 0 < stream.udpAmplificationMaxRatio) (limit : Nat) (r : UdpRuntime)
    (h : Reach (udpStep config stream) (ShortReplies limit) (· = .start) r) :
    ∀ peer ∈ r.heap, peer.sentBytes ≤ config.udpAmplificationGraceBytes +
      config.maxPendingDatagrams * limit +
        stream.udpAmplificationMaxRatio * peer.forwardedBytes := by
  intro peer hpeer
  obtain ⟨hguarded, -⟩ := h.invariant
    (I := fun r => Guarded (withBacklog config limit) stream r.heap r.pendingReplies ∧
      Backlog config limit r.pendingReplies)
    (fun r h0 => h0 ▸ ⟨guarded_start, Nat.zero_le _, nofun⟩)
    fun s a s' _ hinv ha hs => backlog_step hinv.1 hinv.2 hratio ha hs
  obtain ⟨p, hlt, hp⟩ := List.mem_iff_getElem.mp hpeer
  have hwithin := hguarded.within p peer (by rw [List.getElem?_eq_getElem hlt, hp])
  obtain ⟨hsent, hforwarded⟩ := hguarded.counted peer hpeer
  rw [budget, hsent, hforwarded, Nat.mul_comm] at hwithin
  exact (Nat.le_add_right _ _).trans hwithin

/-- The replies that exceed the budget stay within one queue of it. -/
theorem udp_amplification_with_backlog_beyond : ∃ r,
    Reach (udpStep graceConfig ratioStream) (ShortReplies 15) (· = .start) r ∧
      (r.heap.any fun peer => decide (peer.sentBytes = 30 ∧ peer.forwardedBytes = 10)) = true ∧
        ∀ peer ∈ r.heap, peer.sentBytes ≤ graceConfig.udpAmplificationGraceBytes +
          graceConfig.maxPendingDatagrams * 15 +
            ratioStream.udpAmplificationMaxRatio * peer.forwardedBytes := by
  have hrun : (execIf (udpStep graceConfig ratioStream) (ShortReplies 15) .start
      repliesBeyond).any (fun r => r.heap.any fun peer =>
        decide (peer.sentBytes = 30 ∧ peer.forwardedBytes = 10)) = true := by
    decide +kernel
  obtain ⟨r, hr, hbytes⟩ := (Option.any_eq_true ..).mp hrun
  have hreach : Reach (udpStep graceConfig ratioStream) (ShortReplies 15) (· = .start) r :=
    execIf_reach (.start rfl) hr
  exact ⟨r, hreach, hbytes,
    udp_amplification_with_backlog graceConfig ratioStream (by decide) 15 r hreach⟩

end BurrowGate.Stream
