import BurrowGate.WebSocketProxy.Bridge

/-!
# Bridges neither leak nor reorder

A bridge is closed once and for all, and closing it releases its upstream socket and its timers.
What the origin sends passes through the queue until the client's socket is open.
-/

namespace BurrowGate.WebSocketProxy

open Lib.Run

variable {config : UpgradeConfig} {s t : UpgradeState} {bridge : WebSocketBridgeData}
variable {message : ProxiedWebSocketMessage} {rest : List ProxiedWebSocketMessage} {now : Nat}

/-! ## The bridge -/

/-- `rest` are the messages that a loop has taken from the queue and not yet forwarded. -/
structure BridgeOk (bridge : WebSocketBridgeData) (rest : List ProxiedWebSocketMessage) :
    Prop where
  released : bridge.closed = true → bridge.Released
  sent : bridge.delivered.map (·.message) <+: bridge.received
  waiting : bridge.closed = false →
    bridge.received = bridge.delivered.map (·.message) ++ bridge.preOpenQueue ++ rest
  /-- Nothing waits before an open socket. -/
  flushed : bridge.closed = false → bridge.downstream = some .opened → bridge.preOpenQueue = []
  deliveredInTime : ∀ e ∈ bridge.delivered, e.afterClose = false
  forwardedInTime : ∀ e ∈ bridge.forwarded, e.afterClose = false
  buffered : ∀ e ∈ bridge.forwarded,
    e.bufferedAmount + messageByteLength e.message ≤ bridge.websocketPolicy.upstreamBufferBytes

theorem released_close (state : ReadyState) : state.close.released = true := by
  cases state with
  | _ => rfl

/-- Closing is for good, and releases what the bridge holds. -/
theorem closeBridge_closed (bridge : WebSocketBridgeData) (initiator : Initiator) :
    (closeBridge bridge initiator).closed = true := by
  rw [closeBridge]
  split
  · assumption
  · rfl

theorem BridgeOk.close (h : BridgeOk bridge rest) {initiator : Initiator}
    (hupstream : initiator = .upstream → bridge.upstream.released = true) :
    BridgeOk (closeBridge bridge initiator) rest := by
  rw [closeBridge]
  split
  · exact h
  · refine ⟨fun _ => ⟨?_, rfl, rfl⟩, h.sent, fun hopen => (by cases hopen),
      fun hopen => (by cases hopen), h.deliveredInTime, h.forwardedInTime, h.buffered⟩
    change (if initiator ≠ .upstream then bridge.upstream.close
      else bridge.upstream).released = true
    split
    · exact released_close _
    · rename_i heq
      exact hupstream (Decidable.not_not.mp heq)

theorem BridgeOk.closed_rest (h : BridgeOk bridge rest) (hclosed : bridge.closed = true)
    (other : List ProxiedWebSocketMessage) : BridgeOk bridge other :=
  ⟨h.released, h.sent, fun hopen => absurd (hclosed.symm.trans hopen) Bool.true_eq_false.mp,
    h.flushed, h.deliveredInTime, h.forwardedInTime, h.buffered⟩

theorem BridgeOk.closeProxy (h : BridgeOk bridge rest) (other : List ProxiedWebSocketMessage) :
    BridgeOk (closeBridge bridge .proxy) other :=
  (h.close Initiator.noConfusion).closed_rest (closeBridge_closed _ _) other

theorem BridgeOk.touch (h : BridgeOk bridge rest) :
    BridgeOk (touchBridgeActivity now bridge) rest := by
  rw [touchBridgeActivity]
  split
  · exact h
  · rename_i hopen
    exact ⟨fun hclosed => absurd hclosed hopen, h.sent, h.waiting, h.flushed, h.deliveredInTime,
      h.forwardedInTime, h.buffered⟩

/-- The next message is sent, queued or ends the bridge. -/
theorem BridgeOk.forward (h : BridgeOk bridge (message :: rest)) (result : SendResult) :
    BridgeOk (forwardToDownstream now bridge message result) rest := by
  have htouched : BridgeOk (touchBridgeActivity now bridge) (message :: rest) := h.touch
  rw [forwardToDownstream]
  split
  · rename_i hclosed
    exact h.closed_rest hclosed rest
  · rename_i hopen
    have hfalse : bridge.closed = false := (Bool.not_eq_true _).mp hopen
    have hstays : (touchBridgeActivity now bridge).closed = false := by
      rw [touchBridgeActivity, if_neg hopen]
      exact hfalse
    have hwaiting := htouched.waiting hstays
    split
    · exact h.closeProxy rest
    · dsimp only
      split
      · rename_i hnot
        split
        · exact htouched.closeProxy rest
        · refine ⟨fun hclosed => absurd (hstays.symm.trans hclosed) Bool.false_ne_true,
            htouched.sent, fun _ => ?_, fun _ hopened => absurd hopened hnot,
            htouched.deliveredInTime, htouched.forwardedInTime, htouched.buffered⟩
          change (touchBridgeActivity now bridge).received = _ ++ (_ ++ [message]) ++ rest
          rw [hwaiting]
          simp only [List.append_assoc, List.cons_append, List.nil_append]
      · rename_i hopened
        have hempty := htouched.flushed hstays (Decidable.not_not.mp hopened)
        rw [hempty, List.append_nil] at hwaiting
        split
        · exact htouched.closeProxy rest
        · refine ⟨fun hclosed => absurd (hstays.symm.trans hclosed) Bool.false_ne_true, ?_,
            fun _ => ?_, fun _ _ => hempty, fun e he => ?_, htouched.forwardedInTime,
            htouched.buffered⟩
          · change (_ ++ [_]).map _ <+: (touchBridgeActivity now bridge).received
            rw [hwaiting, List.map_append]
            exact ⟨rest, by simp only [List.map_cons, List.map_nil, List.append_assoc,
              List.cons_append, List.nil_append]⟩
          · change (touchBridgeActivity now bridge).received =
              (_ ++ [_]).map _ ++ (touchBridgeActivity now bridge).preOpenQueue ++ rest
            rw [hwaiting, hempty, List.map_append]
            simp only [List.map_cons, List.map_nil, List.append_assoc, List.cons_append,
              List.nil_append]
          · rcases List.mem_snoc.mp he with hold | hnew
            · exact htouched.deliveredInTime e hold
            · rw [hnew]
              exact hstays

theorem BridgeOk.forwardAll {bridge : WebSocketBridgeData} (h : BridgeOk bridge rest)
    (results : List SendResult) : BridgeOk (forwardAll now bridge rest results) [] := by
  induction rest generalizing bridge results with
  | nil => exact h
  | cons message rest ih =>
      have hnext : BridgeOk
          (forwardToDownstream now bridge message (results.headD (.sent true))) rest := h.forward _
      rw [WebSocketProxy.forwardAll]
      split
      · rename_i hclosed
        exact hnext.closed_rest hclosed []
      · exact ih hnext results.tail

/-- The socket of the client starts to close, or closes. -/
theorem BridgeOk.downstream (h : BridgeOk bridge rest) {downstream : Option ReadyState}
    (hnot : downstream ≠ some .opened) : BridgeOk { bridge with downstream } rest :=
  ⟨fun hclosed => ⟨(h.released hclosed).1, (h.released hclosed).2, (h.released hclosed).3⟩,
    h.sent, h.waiting, fun _ hopened => absurd hopened hnot, h.deliveredInTime, h.forwardedInTime,
    h.buffered⟩

/-- The queue is taken whole, once the client's socket is there. -/
theorem BridgeOk.flush (h : BridgeOk bridge []) (downstream : Option ReadyState)
    (results : List SendResult) :
    BridgeOk (flushPreOpenQueue now { bridge with downstream } results) [] := by
  rw [flushPreOpenQueue]
  split
  · rename_i hstays
    rcases (Bool.or_eq_true ..).mp hstays with hclosed | hnone
    · obtain ⟨hupstream, hidle, hsession⟩ := h.released hclosed
      exact ⟨fun _ => ⟨hupstream, hidle, hsession⟩, h.sent, h.waiting,
        fun hopen => absurd (hopen.symm.trans hclosed) Bool.false_ne_true, h.deliveredInTime,
        h.forwardedInTime, h.buffered⟩
    · refine h.downstream fun hopened => ?_
      rw [hopened] at hnone
      cases hnone
  · have htaken : BridgeOk
        { bridge with downstream, preOpenQueue := [], preOpenQueueBytes := 0 }
        bridge.preOpenQueue := by
      refine ⟨fun hclosed => ?_, h.sent, fun hopen => ?_, fun _ _ => rfl, h.deliveredInTime,
        h.forwardedInTime, h.buffered⟩
      · obtain ⟨hupstream, hidle, hsession⟩ := h.released hclosed
        exact ⟨hupstream, hidle, hsession⟩
      · change bridge.received = _ ++ [] ++ bridge.preOpenQueue
        rw [h.waiting hopen, List.append_nil, List.append_nil]
    exact htaken.forwardAll results

theorem BridgeOk.schedule (h : BridgeOk bridge rest) :
    BridgeOk (scheduleSessionExpiry now bridge) rest := by
  rw [scheduleSessionExpiry]
  split
  · exact h
  · split
    · exact h
    · rename_i hopen
      split
      · exact h.closeProxy rest
      · exact ⟨fun hclosed => absurd hclosed hopen, h.sent, h.waiting, h.flushed,
          h.deliveredInTime, h.forwardedInTime, h.buffered⟩

/-! ## The callbacks -/

theorem BridgeOk.upstreamMessage (h : BridgeOk bridge []) (result : SendResult) :
    BridgeOk (upstreamMessage now bridge message result) [] := by
  rw [WebSocketProxy.upstreamMessage]
  refine BridgeOk.forward ?_ result
  split
  · rename_i hclosed
    exact h.closed_rest hclosed _
  · rename_i hopen
    have hfalse : bridge.closed = false := (Bool.not_eq_true _).mp hopen
    refine ⟨fun hclosed => absurd hclosed hopen, h.sent.trans (List.prefix_append _ _),
      fun _ => ?_, h.flushed, h.deliveredInTime, h.forwardedInTime, h.buffered⟩
    change bridge.received ++ [message] = _
    rw [h.waiting hfalse, List.append_nil]

theorem BridgeOk.openHandler (h : BridgeOk bridge []) (results : List SendResult) :
    BridgeOk (openHandler now bridge results) [] := by
  rw [WebSocketProxy.openHandler]
  split
  · exact h.downstream (by decide)
  · exact (h.flush (some .opened) results).schedule.touch

theorem map_ne_opened {f : ReadyState → ReadyState} (hf : ∀ state, f state ≠ .opened)
    (downstream : Option ReadyState) : downstream.map f ≠ some .opened := by
  intro heq
  obtain ⟨state, -, hstate⟩ := Option.map_eq_some_iff.mp heq
  exact hf state hstate

theorem close_ne_opened (state : ReadyState) : state.close ≠ .opened := by
  cases state with
  | _ => exact ReadyState.noConfusion

theorem BridgeOk.messageHandler (h : BridgeOk bridge []) (bufferedAmount : Nat) (throws : Bool) :
    BridgeOk (messageHandler now bridge message bufferedAmount throws) [] := by
  have htouched : BridgeOk (touchBridgeActivity now bridge) [] := h.touch
  rw [WebSocketProxy.messageHandler]
  split
  · exact h.closeProxy []
  · rename_i hopen
    split
    · exact h.closeProxy []
    · dsimp only
      split
      · exact htouched.closeProxy []
      · rename_i hfits
        split
        · exact htouched.closeProxy []
        · have hstays : (touchBridgeActivity now bridge).closed = false := by
            have hfalse : bridge.closed = false := by
              cases hclosed : bridge.closed with
              | false => rfl
              | true => simp [hclosed] at hopen
            rw [touchBridgeActivity, if_neg (by rw [hfalse]; exact Bool.false_ne_true)]
            exact hfalse
          refine ⟨fun hclosed => absurd (hstays.symm.trans hclosed) Bool.false_ne_true,
            htouched.sent, htouched.waiting, htouched.flushed, htouched.deliveredInTime,
            fun e he => ?_, fun e he => ?_⟩
          · rcases List.mem_snoc.mp he with hold | hnew
            · exact htouched.forwardedInTime e hold
            · rw [hnew]
              exact hstays
          · rcases List.mem_snoc.mp he with hold | hnew
            · exact htouched.buffered e hold
            · rw [hnew]
              exact Nat.not_lt.mp hfits

theorem BridgeOk.closeHandler (h : BridgeOk bridge []) :
    BridgeOk (closeHandler bridge) [] ∧ (closeHandler bridge).closed = true :=
  ⟨(h.close Initiator.noConfusion).downstream
      (map_ne_opened (fun _ => ReadyState.noConfusion) _),
    closeBridge_closed bridge .downstream⟩

/-! ## A closed bridge stays closed -/

theorem flush_closed (h : bridge.closed = true) (results : List SendResult) :
    (flushPreOpenQueue now bridge results).closed = true := by
  rw [flushPreOpenQueue, h, Bool.true_or, if_pos rfl]
  exact h

theorem schedule_closed (h : bridge.closed = true) :
    (scheduleSessionExpiry now bridge).closed = true := by
  rw [scheduleSessionExpiry]
  split
  · exact h
  · rw [if_pos h]
    exact h

theorem upstreamMessage_closed (h : bridge.closed = true) (result : SendResult) :
    (upstreamMessage now bridge message result).closed = true := by
  rw [upstreamMessage, forwardToDownstream, if_pos h]
  exact h

theorem openHandler_closed (h : bridge.closed = true) (results : List SendResult) :
    (openHandler now bridge results).closed = true := by
  rw [openHandler, h, Bool.true_or, if_pos rfl]

theorem messageHandler_closed (h : bridge.closed = true) (bufferedAmount : Nat) (throws : Bool) :
    (messageHandler now bridge message bufferedAmount throws).closed = true := by
  rw [messageHandler, h, Bool.true_or, if_pos rfl]
  exact closeBridge_closed _ _

/-! ## The handshake -/

/-- No bridge has been made. -/
def UpgradeStage.early : UpgradeStage → Bool
  | .checks | .headers _ | .connecting _ | .selecting => true
  | _ => false

/-- It has no owner but `handleWebSocketUpgrade`. -/
def UpgradeStage.unowned (stage : UpgradeStage) : Bool :=
  stage.early || stage = .identityCookies

/-- It responds, has responded or has thrown. -/
def UpgradeStage.over : UpgradeStage → Bool
  | .refused | .failing | .responded | .rejected => true
  | _ => false

structure Held (s : UpgradeState) : Prop where
  sockets : ∀ socket ∈ s.sockets, socket.released = true
  bridge : ∀ bridge, s.bridge = some bridge → BridgeOk bridge []
  early : s.stage.early = true → s.bridge = none
  unowned : s.stage.unowned = true → s.upgraded = false ∧ s.downstreamClosed = false
  ended : s.stage.over = true → ∀ bridge, s.bridge = some bridge → bridge.closed = true
  client : s.downstreamClosed = true → ∀ bridge, s.bridge = some bridge → bridge.closed = true

/-- A callback leaves the bridge in order, and closed if it was closed. -/
theorem Held.onBridge {f : WebSocketBridgeData → Option WebSocketBridgeData} (h : Held s)
    (hf : ∀ bridge next, BridgeOk bridge [] → f bridge = some next →
      BridgeOk next [] ∧ (bridge.closed = true → next.closed = true))
    (ht : onBridge s f = some t) : Held t := by
  obtain ⟨bridge, hbridge, hmap⟩ := Option.bind_eq_some_iff.mp ht
  obtain ⟨next, hnext, rfl⟩ := Option.map_eq_some_iff.mp hmap
  obtain ⟨hok, hclosed⟩ := hf bridge next (h.bridge bridge hbridge) hnext
  refine ⟨h.sockets, fun other hother => ?_, fun hearly => ?_, h.unowned,
    fun hover other hother => ?_, fun hclient other hother => ?_⟩
  · obtain rfl := Option.some.inj hother
    exact hok
  · rw [h.early hearly] at hbridge
    cases hbridge
  · obtain rfl := Option.some.inj hother
    exact hclosed (h.ended hover bridge hbridge)
  · obtain rfl := Option.some.inj hother
    exact hclosed (h.client hclient bridge hbridge)

theorem Held.onDownstream {f : WebSocketBridgeData → WebSocketBridgeData} (h : Held s)
    (hf : ∀ bridge, BridgeOk bridge [] →
      BridgeOk (f bridge) [] ∧ (bridge.closed = true → (f bridge).closed = true))
    (ht : onDownstream s f = some t) : Held t := by
  rw [WebSocketProxy.onDownstream] at ht
  split at ht
  · cases ht
  · refine h.onBridge (fun bridge next hok hnext => ?_) ht
    split at hnext
    · cases hnext
    · obtain rfl := Option.some.inj hnext
      exact hf bridge hok

/-- Without a bridge only the sockets and the stage count. -/
theorem Held.noBridge (h : Held s) (hnone : s.bridge = none) {stage : UpgradeStage}
    {sockets : List ReadyState} (hsockets : ∀ socket ∈ sockets, socket.released = true)
    (hunowned : s.stage.unowned = true) : Held { s with stage, sockets } := by
  refine ⟨hsockets, fun bridge hbridge => ?_, fun _ => hnone, fun _ => h.unowned hunowned,
    fun _ bridge hbridge => ?_, fun _ bridge hbridge => ?_⟩
  · rw [hnone] at hbridge
    cases hbridge
  · rw [hnone] at hbridge
    cases hbridge
  · rw [hnone] at hbridge
    cases hbridge

theorem bridge_ok (config : UpgradeConfig) : BridgeOk config.bridge [] :=
  ⟨fun hclosed => (by cases hclosed), List.prefix_rfl, fun _ => rfl, fun _ _ => rfl,
    fun _ he => (by cases he), fun _ he => (by cases he), fun _ he => (by cases he)⟩

/-- The bridge gets its owner, or is closed. -/
theorem Held.upgrade (h : Held s) (hok : BridgeOk bridge []) (hunowned : s.stage.unowned = true)
    {result : UpgradeResult} (hreturns : result.returns = true) :
    Held (upgradeDownstream s bridge result) := by
  obtain ⟨-, hclient⟩ := h.unowned hunowned
  have hopen : s.downstreamClosed = true → ∀ other : WebSocketBridgeData,
      other.closed = true := fun hclosed => absurd (hclient.symm.trans hclosed) Bool.false_ne_true
  cases result with
  | upgraded =>
      refine ⟨h.sockets, fun other hother => ?_, fun hearly => (by cases hearly),
        fun hunowned => (by cases hunowned), fun hover => (by cases hover),
        fun hclosed other _ => hopen hclosed other⟩
      obtain rfl := Option.some.inj hother
      exact hok
  | refused =>
      refine ⟨h.sockets, fun other hother => ?_, fun hearly => (by cases hearly),
        fun hunowned => (by cases hunowned), fun _ other hother => ?_,
        fun hclosed other _ => hopen hclosed other⟩
      · obtain rfl := Option.some.inj hother
        exact hok.closeProxy []
      · obtain rfl := Option.some.inj hother
        exact closeBridge_closed _ _
  | throws => cases hreturns

theorem released_append (h : Held s) {socket : ReadyState} (hsocket : socket.released = true) :
    ∀ other ∈ s.sockets ++ [socket], other.released = true := by
  intro other hother
  rcases List.mem_snoc.mp hother with hold | hnew
  · exact h.sockets other hold
  · rw [hnew]
    exact hsocket

theorem tryClose_released {code : Nat} {state : ReadyState}
    (h : config.closeAccepts code = true) : (config.tryClose code state).released = true := by
  rw [UpgradeConfig.tryClose, if_pos h]
  exact released_close state

/-- The socket of the origin is open. -/
theorem Held.opened (h : Held s) {protocol : List Char} {result : UpgradeResult}
    (hearly : s.stage.early = true)
    (hcondition : (!config.unoffered protocol || config.closeAccepts 1002) = true)
    (hreturns : result.returns = true) : Held (bridgeUpstream config s protocol result) := by
  have hnone := h.early hearly
  have hunowned : s.stage.unowned = true := by
    rw [UpgradeStage.unowned, hearly]
    rfl
  rw [bridgeUpstream]
  split
  · exact h.noBridge hnone
      (released_append h (tryClose_released config.closeAccepts_normal)) hunowned
  · split
    · rename_i hunoffered
      rw [hunoffered] at hcondition
      exact h.noBridge hnone (released_append h (tryClose_released hcondition)) hunowned
    · split
      · obtain ⟨hupgraded, hclient⟩ := h.unowned hunowned
        refine ⟨h.sockets, fun other hother => ?_, fun hearly => (by cases hearly),
          fun _ => ⟨hupgraded, hclient⟩, fun hover => (by cases hover), fun hclosed => ?_⟩
        · obtain rfl := Option.some.inj hother
          exact bridge_ok config
        · exact absurd (hclient.symm.trans hclosed) Bool.false_ne_true
      · exact h.upgrade (bridge_ok config) hunowned hreturns

/-- The stage after an await is one of the same part of the handshake, or over. -/
theorem Held.awaited (h : Held s) {succeeds : Bool} {stage : UpgradeStage}
    (hcondition : (s.stage ≠ .accepted || succeeds) = true)
    (hnext : s.stage.next succeeds = some stage) : Held { s with stage } := by
  by_cases hearly : s.stage.early = true
  · have hunowned : s.stage.unowned = true := by
      rw [UpgradeStage.unowned, hearly]
      rfl
    exact h.noBridge (h.early hearly) h.sockets hunowned
  · have hstages : stage.early = false ∧ stage.unowned = false ∧
        (stage.over = true → s.stage.over = true) := by
      cases hstage : s.stage with
      | refused =>
          rw [hstage] at hnext
          obtain rfl := Option.some.inj hnext
          cases succeeds with
          | _ => exact ⟨rfl, rfl, fun _ => rfl⟩
      | failing =>
          rw [hstage] at hnext
          obtain rfl := Option.some.inj hnext
          cases succeeds with
          | _ => exact ⟨rfl, rfl, fun _ => rfl⟩
      | accepted =>
          rw [hstage] at hnext hcondition
          obtain rfl := Option.some.inj hnext
          cases succeeds with
          | true => exact ⟨rfl, rfl, fun hover => (by cases hover)⟩
          | false => cases hcondition
      | headers replaced => exact absurd (hstage ▸ rfl) hearly
      | selecting => exact absurd (hstage ▸ rfl) hearly
      | _ =>
          rw [hstage] at hnext
          cases hnext
    obtain ⟨hnotEarly, hnotUnowned, hover⟩ := hstages
    refine ⟨h.sockets, h.bridge, fun hearly => ?_, fun hunowned => ?_,
      fun hnow => h.ended (hover hnow), h.client⟩
    · exact absurd (hnotEarly.symm.trans hearly) Bool.false_ne_true
    · exact absurd (hnotUnowned.symm.trans hunowned) Bool.false_ne_true

theorem Held.connectFailed (h : Held s) {replaced : Bool} (hstage : s.stage = .connecting replaced)
    (failure : ConnectFailure) (stage : UpgradeStage) :
    Held { s with sockets := s.sockets ++ failure.socket.toList, stage } := by
  have hearly : s.stage.early = true := by
    rw [hstage]
    rfl
  have hunowned : s.stage.unowned = true := by
    rw [hstage]
    rfl
  refine h.noBridge (h.early hearly) (fun socket hsocket => ?_) hunowned
  rcases List.mem_append.mp hsocket with hold | hnew
  · exact h.sockets socket hold
  · cases failure with
    | invalid => cases hnew
    | _ =>
        rw [List.mem_singleton.mp hnew]
        rfl

theorem Held.step {e : UpgradeEvent} (h : Held s) (he : KeepsOwner config s e)
    (hstep : upgradeStep config s e = some t) : Held t := by
  cases e with
  | clock now =>
      obtain rfl := Option.some.inj hstep
      exact ⟨h.1, h.2, h.3, h.4, h.5, h.6⟩
  | checked outcome =>
      rw [upgradeStep.eq_def] at hstep
      dsimp only at hstep
      split at hstep
      · cases hstep
      · rename_i hchecks
        have hstage : s.stage = .checks := Decidable.not_not.mp hchecks
        have hnone : s.bridge = none := h.early (by rw [hstage]; rfl)
        have hunowned : s.stage.unowned = true := by
          rw [hstage]
          rfl
        cases outcome with
        | _ =>
            obtain rfl := Option.some.inj hstep
            exact h.noBridge hnone h.sockets hunowned
  | awaited succeeds =>
      obtain ⟨stage, hnext, rfl⟩ := Option.map_eq_some_iff.mp hstep
      exact h.awaited he hnext
  | connectFailed failure =>
      rw [upgradeStep] at hstep
      split at hstep
      · rename_i replaced hstage
        obtain rfl := Option.some.inj hstep
        exact h.connectFailed hstage failure _
      · cases hstep
  | upstreamOpened protocol result =>
      rw [upgradeStep] at hstep
      rw [KeepsOwner, keepsOwner, Bool.and_eq_true] at he
      split at hstep
      · rename_i replaced hstage
        obtain rfl := Option.some.inj hstep
        exact h.opened (by rw [hstage]; rfl) he.1 he.2
      · cases hstep
  | identityCookies succeeds result =>
      rw [upgradeStep] at hstep
      rw [KeepsOwner, keepsOwner, Bool.and_eq_true] at he
      obtain ⟨rfl, hreturns⟩ := he
      split at hstep
      · cases hstep
      · rename_i hidentity
        have hstage : s.stage = .identityCookies := Decidable.not_not.mp hidentity
        obtain ⟨bridge, hbridge, rfl⟩ := Option.map_eq_some_iff.mp hstep
        exact h.upgrade (h.bridge bridge hbridge) (by rw [hstage]; rfl) hreturns
  | upstreamMessage message result =>
      refine h.onBridge (fun bridge next hok hnext => ?_) hstep
      obtain rfl := Option.some.inj hnext
      exact ⟨hok.upstreamMessage result, fun hclosed => upstreamMessage_closed hclosed result⟩
  | upstreamState state =>
      refine h.onBridge (fun bridge next hok hnext => ?_) hstep
      split at hnext
      · rename_i hstate
        obtain rfl := Option.some.inj hnext
        have hreleased : state.released = true := by
          rcases hstate with rfl | ⟨rfl, -⟩
          · rfl
          · rfl
        exact ⟨⟨fun hclosed => ⟨hreleased, (hok.released hclosed).2, (hok.released hclosed).3⟩,
          hok.sent, hok.waiting, hok.flushed, hok.deliveredInTime, hok.forwardedInTime,
          hok.buffered⟩, fun hclosed => hclosed⟩
      · cases hnext
  | upstreamClosed =>
      refine h.onBridge (fun bridge next hok hnext => ?_) hstep
      split at hnext
      · rename_i hstate
        obtain rfl := Option.some.inj hnext
        refine ⟨hok.close fun _ => ?_, fun _ => closeBridge_closed _ _⟩
        rw [hstate]
        rfl
      · cases hnext
  | downstreamOpened results =>
      rw [upgradeStep] at hstep
      split at hstep
      · cases hstep
      · refine h.onBridge (fun bridge next hok hnext => ?_) hstep
        split at hnext
        · obtain rfl := Option.some.inj hnext
          exact ⟨hok.openHandler results, fun hclosed => openHandler_closed hclosed results⟩
        · cases hnext
  | downstreamMessage message bufferedAmount throws =>
      exact h.onDownstream (fun bridge hok => ⟨hok.messageHandler bufferedAmount throws,
        fun hclosed => messageHandler_closed hclosed bufferedAmount throws⟩) hstep
  | downstreamClosing =>
      exact h.onDownstream (fun bridge hok =>
        ⟨hok.downstream (map_ne_opened close_ne_opened _), fun hclosed => hclosed⟩) hstep
  | downstreamClosed =>
      rw [upgradeStep] at hstep
      split at hstep
      · cases hstep
      · rename_i hupgraded
        obtain ⟨u, hu, rfl⟩ := Option.map_eq_some_iff.mp hstep
        have hcallback : ∀ bridge next : WebSocketBridgeData, BridgeOk bridge [] →
            some (closeHandler bridge) = some next →
              BridgeOk next [] ∧ (bridge.closed = true → next.closed = true) := by
          intro bridge next hok hnext
          obtain rfl := Option.some.inj hnext
          exact ⟨hok.closeHandler.1, fun _ => hok.closeHandler.2⟩
        have hheld := h.onBridge hcallback hu
        obtain ⟨bridge, hbridge, hmap⟩ := Option.bind_eq_some_iff.mp hu
        obtain ⟨next, hnext, rfl⟩ := Option.map_eq_some_iff.mp hmap
        obtain rfl := Option.some.inj hnext
        refine ⟨hheld.sockets, hheld.bridge, hheld.early, fun hunowned => ?_, hheld.ended,
          fun _ other hother => ?_⟩
        · -- `server.upgrade` has returned true
          have hno : s.upgraded = false := (h.unowned hunowned).1
          rw [hno, Bool.not_false, Bool.or_true] at hupgraded
          exact absurd rfl hupgraded
        · obtain rfl := Option.some.inj hother
          exact (h.bridge bridge hbridge).closeHandler.2
  | drain results =>
      exact h.onDownstream (fun bridge hok => ⟨hok.flush bridge.downstream results,
        fun hclosed => flush_closed hclosed results⟩) hstep
  | idleTimeout =>
      refine h.onBridge (fun bridge next hok hnext => ?_) hstep
      split at hnext
      · obtain rfl := Option.some.inj hnext
        exact ⟨hok.closeProxy [], fun _ => closeBridge_closed _ _⟩
      · cases hnext
  | sessionTimeout =>
      refine h.onBridge (fun bridge next hok hnext => ?_) hstep
      split at hnext
      · obtain rfl := Option.some.inj hnext
        exact ⟨hok.schedule, fun hclosed => schedule_closed hclosed⟩
      · cases hnext

/-- While nothing throws between the open upstream socket and the owner of its bridge, the bridge
neither leaks nor reorders. -/
theorem no_leak_no_reorder (config : UpgradeConfig)
    (h : Reach (upgradeStep config) (KeepsOwner config) StartsUpgrade s) : NoLeakNoReorder s := by
  have hheld : Held s := by
    refine h.invariant (fun s hstart => ?_) fun s e t _ hs he hstep => hs.step he hstep
    obtain ⟨hstage, hsockets, hbridge, hupgraded, hclient⟩ := hstart
    have hnone : ∀ bridge, s.bridge ≠ some bridge := by
      intro bridge hsome
      rw [hbridge] at hsome
      cases hsome
    refine ⟨?_, fun bridge hsome => absurd hsome (hnone bridge), fun _ => hbridge,
      fun _ => ⟨hupgraded, hclient⟩, fun _ bridge hsome => absurd hsome (hnone bridge),
      fun _ bridge hsome => absurd hsome (hnone bridge)⟩
    rw [hsockets]
    exact fun _ hsocket => (by cases hsocket)
  refine ⟨fun hended => ⟨hheld.sockets, fun bridge hbridge => ?_⟩, fun bridge hbridge => ?_,
    fun bridge hbridge => ?_, fun bridge hbridge => (hheld.bridge bridge hbridge).buffered⟩
  · refine (hheld.bridge bridge hbridge).released ?_
    rcases hended with hresponded | hclosed
    · exact hheld.ended (by rw [hresponded]; rfl) bridge hbridge
    · exact hheld.client hclosed bridge hbridge
  · have hok := hheld.bridge bridge hbridge
    refine ⟨hok.sent, fun hopen => ?_⟩
    have hwaiting := hok.waiting hopen
    rw [List.append_nil] at hwaiting
    exact hwaiting
  · have hok := hheld.bridge bridge hbridge
    exact ⟨hok.deliveredInTime, hok.forwardedInTime⟩

/-! ## Runs -/

def examplePolicy : ResolvedWebSocketPolicy := ⟨60, 65536, 1024, 4096⟩

def exampleUpgrade : UpgradeConfig where
  websocketPolicy := examplePolicy
  sessionExpiresAt := some 900000
  offeredProtocols := []
  sendsUsername := true
  closeAccepts := fun code => code = 1000
  closeAccepts_normal := rfl

def exampleStart : UpgradeState := ⟨0, .checks, [], none, false, false⟩

theorem exampleStart_starts : StartsUpgrade exampleStart :=
  ⟨rfl, rfl, rfl, rfl, rfl⟩

def hello : ProxiedWebSocketMessage := ⟨false, [104, 105]⟩

def goodbye : ProxiedWebSocketMessage := ⟨true, [0, 1, 2]⟩

/-- The origin sends a message before the client's socket is open, and one after. -/
def bridged : List UpgradeEvent :=
  [.checked .proxies, .awaited true, .upstreamOpened [] .upgraded,
    .upstreamMessage hello (.sent true), .identityCookies true .upgraded,
    .downstreamOpened [.sent true], .awaited true, .upstreamMessage goodbye (.sent true),
    .downstreamMessage hello 100 false, .downstreamClosed]

theorem no_leak_no_reorder_bridged :
    ∃ s, execIf (upgradeStep exampleUpgrade) (KeepsOwner exampleUpgrade) exampleStart bridged =
        some s ∧
      s.bridge.map (fun bridge => (bridge.delivered.map (·.message), bridge.upstream)) =
        some ([hello, goodbye], .closing) ∧ NoLeakNoReorder s := by
  have hrun : (execIf (upgradeStep exampleUpgrade) (KeepsOwner exampleUpgrade) exampleStart
      bridged).any (fun s =>
        s.bridge.map (fun bridge => (bridge.delivered.map (·.message), bridge.upstream)) =
          some ([hello, goodbye], .closing)) = true := by decide +kernel
  obtain ⟨s, hs, hfacts⟩ := (Option.any_eq_true ..).mp hrun
  exact ⟨s, hs, of_decide_eq_true hfacts,
    no_leak_no_reorder exampleUpgrade (execIf_reach (.start exampleStart_starts) hs)⟩

/-- The identity cookies cannot be made, and the handshake is answered with an error. -/
def cookiesFail : List UpgradeEvent :=
  [.checked .proxies, .awaited true, .upstreamOpened [] .upgraded,
    .identityCookies false .upgraded, .awaited true]

theorem upstream_leaks :
    ¬ ∀ (config : UpgradeConfig) (s : UpgradeState),
      Reach (upgradeStep config) Any StartsUpgrade s → NoLeakNoReorder s := by
  intro h
  have hrun : (exec (upgradeStep exampleUpgrade) exampleStart cookiesFail).any (fun s =>
      s.stage = .responded ∧ s.bridge = some exampleUpgrade.bridge) = true := by decide +kernel
  obtain ⟨s, hs, hfacts⟩ := (Option.any_eq_true ..).mp hrun
  obtain ⟨hresponded, hbridge⟩ := of_decide_eq_true hfacts
  have hlaw := h exampleUpgrade s (exec_reach (.start exampleStart_starts) hs)
  have hreleased := ((hlaw.released (.inl hresponded)).2 _ hbridge).upstream
  cases hreleased

end BurrowGate.WebSocketProxy
