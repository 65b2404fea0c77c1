import BurrowGate.Lib.Run
import Mathlib.Data.List.Basic

/-!
# `websocket-proxy-service.ts`: the handshake and its bridge

`handleWebSocketUpgrade` from the checks before the origin to its return, the sockets that it
opens, and the bridge with the callbacks that drive it: upstream, downstream and two timers.
-/

namespace BurrowGate.WebSocketProxy

open Lib.Run

/-- `readyState` of a socket. -/
inductive ReadyState
  | connecting
  | opened
  | closing
  | closed
  deriving DecidableEq

/-- Closed or closing. -/
def ReadyState.released : ReadyState → Bool
  | .closing | .closed => true
  | _ => false

/-- `close()` -/
def ReadyState.close (state : ReadyState) : ReadyState :=
  if state.released then state else .closing

structure ProxiedWebSocketMessage where
  binary : Bool
  bytes : List UInt8
  deriving DecidableEq

def messageByteLength (message : ProxiedWebSocketMessage) : Nat :=
  message.bytes.length

structure ResolvedWebSocketPolicy where
  idleTimeoutSeconds : Nat
  maxPayloadBytes : Nat
  preOpenQueueBytes : Nat
  upstreamBufferBytes : Nat
  deriving DecidableEq

/-- A message that was sent to the client; `afterClose` if the bridge was closed then. -/
structure Delivered where
  message : ProxiedWebSocketMessage
  afterClose : Bool
  deriving DecidableEq

/-- A message that was sent to the origin, with what its socket had buffered. -/
structure Forwarded where
  message : ProxiedWebSocketMessage
  bufferedAmount : Nat
  afterClose : Bool
  deriving DecidableEq

/-- A timer stands with the time it is due. `received` are the messages of the origin until the
bridge is closed, `delivered` and `forwarded` what was sent. -/
structure WebSocketBridgeData where
  websocketPolicy : ResolvedWebSocketPolicy
  sessionExpiresAt : Option Nat
  upstream : ReadyState
  downstream : Option ReadyState
  preOpenQueue : List ProxiedWebSocketMessage
  preOpenQueueBytes : Nat
  closed : Bool
  sessionExpiryTimer : Option Nat
  idleTimer : Option Nat
  received : List ProxiedWebSocketMessage
  delivered : List Delivered
  forwarded : List Forwarded
  deriving DecidableEq

/-! ## The bridge -/

inductive Initiator
  | upstream
  | downstream
  | proxy
  deriving DecidableEq

def closeBridge (bridge : WebSocketBridgeData) (initiator : Initiator) : WebSocketBridgeData :=
  if bridge.closed then bridge
  else
    { bridge with
      closed := true
      sessionExpiryTimer := none
      idleTimer := none
      upstream := if initiator ≠ .upstream then bridge.upstream.close else bridge.upstream
      downstream :=
        if initiator ≠ .downstream then bridge.downstream.map ReadyState.close
        else bridge.downstream }

def touchBridgeActivity (now : Nat) (bridge : WebSocketBridgeData) : WebSocketBridgeData :=
  if bridge.closed then bridge
  else
    { bridge with idleTimer := some (now + bridge.websocketPolicy.idleTimeoutSeconds * 1000) }

/-- What `downstream.send` does: 0 for a message that was dropped; a send may leave the socket
closing. -/
inductive SendResult
  | dropped
  | sent (stillOpen : Bool)

def forwardToDownstream (now : Nat) (bridge : WebSocketBridgeData)
    (message : ProxiedWebSocketMessage) (result : SendResult) : WebSocketBridgeData :=
  if bridge.closed then bridge
  else if bridge.websocketPolicy.maxPayloadBytes < messageByteLength message then
    closeBridge bridge .proxy
  else
    let bridge := touchBridgeActivity now bridge
    if bridge.downstream ≠ some .opened then
      if bridge.websocketPolicy.preOpenQueueBytes <
          bridge.preOpenQueueBytes + messageByteLength message then closeBridge bridge .proxy
      else
        { bridge with
          preOpenQueue := bridge.preOpenQueue ++ [message]
          preOpenQueueBytes := bridge.preOpenQueueBytes + messageByteLength message }
    else
      match result with
      | .dropped => closeBridge bridge .proxy
      | .sent stillOpen =>
          { bridge with
            delivered := bridge.delivered ++ [⟨message, bridge.closed⟩]
            downstream := some (if stillOpen then .opened else .closing) }

/-- The loop of `flushPreOpenQueue`. -/
def forwardAll (now : Nat) (bridge : WebSocketBridgeData) :
    List ProxiedWebSocketMessage → List SendResult → WebSocketBridgeData
  | [], _ => bridge
  | message :: rest, results =>
      let next := forwardToDownstream now bridge message (results.headD (.sent true))
      if next.closed then next else forwardAll now next rest results.tail

def flushPreOpenQueue (now : Nat) (bridge : WebSocketBridgeData) (results : List SendResult) :
    WebSocketBridgeData :=
  if bridge.closed || bridge.downstream = none then bridge
  else forwardAll now { bridge with preOpenQueue := [], preOpenQueueBytes := 0 }
    bridge.preOpenQueue results

def scheduleSessionExpiry (now : Nat) (bridge : WebSocketBridgeData) : WebSocketBridgeData :=
  match bridge.sessionExpiresAt with
  | none => bridge
  | some sessionExpiresAt =>
      if bridge.closed then bridge
      else if sessionExpiresAt ≤ now then closeBridge bridge .proxy
      else
        { bridge with
          sessionExpiryTimer := some (now + min (sessionExpiresAt - now) 2147000000) }

/-- The listener of `message` in `attachUpstreamBridgeEvents`; `binaryType` rules out a `Blob`. -/
def upstreamMessage (now : Nat) (bridge : WebSocketBridgeData) (message : ProxiedWebSocketMessage)
    (result : SendResult) : WebSocketBridgeData :=
  let received := if bridge.closed then bridge.received else bridge.received ++ [message]
  forwardToDownstream now { bridge with received } message result

/-! ## `websocketProxyHandler` -/

def openHandler (now : Nat) (bridge : WebSocketBridgeData) (results : List SendResult) :
    WebSocketBridgeData :=
  if bridge.closed || bridge.upstream ≠ .opened then { bridge with downstream := some .closing }
  else
    touchBridgeActivity now (scheduleSessionExpiry now
      (flushPreOpenQueue now { bridge with downstream := some .opened } results))

def messageHandler (now : Nat) (bridge : WebSocketBridgeData) (message : ProxiedWebSocketMessage)
    (bufferedAmount : Nat) (throws : Bool) : WebSocketBridgeData :=
  if bridge.closed || bridge.upstream ≠ .opened then closeBridge bridge .proxy
  else if bridge.websocketPolicy.maxPayloadBytes < messageByteLength message then
    closeBridge bridge .proxy
  else
    let bridge := touchBridgeActivity now bridge
    if bridge.websocketPolicy.upstreamBufferBytes < bufferedAmount + messageByteLength message then
      closeBridge bridge .proxy
    else if throws then closeBridge bridge .proxy
    else
      { bridge with
        forwarded := bridge.forwarded ++ [⟨message, bufferedAmount, bridge.closed⟩] }

def closeHandler (bridge : WebSocketBridgeData) : WebSocketBridgeData :=
  let bridge := closeBridge bridge .downstream
  { bridge with downstream := bridge.downstream.map fun _ => .closed }

/-! ## `handleWebSocketUpgrade` -/

/-- What of the request and its site the handshake depends on. `closeAccepts` tells the codes
that `close` of a socket accepts, and throws on the others. -/
structure UpgradeConfig where
  websocketPolicy : ResolvedWebSocketPolicy
  sessionExpiresAt : Option Nat
  offeredProtocols : List (List Char)
  /-- `accessUser && session && send_username_to_upstream === 1` -/
  sendsUsername : Bool
  closeAccepts : Nat → Bool
  closeAccepts_normal : closeAccepts 1000 = true

inductive UpgradeStage
  /-- The checks before the origin is selected. -/
  | checks
  /-- `headersFor`, for the first origin or the one that replaces it. -/
  | headers (replaced : Bool)
  | connecting (replaced : Bool)
  /-- `selectOrigin` after a transport failure. -/
  | selecting
  | identityCookies
  /-- `recordEvent` after `server.upgrade` has returned false, true, or after an error. -/
  | refused
  | accepted
  | failing
  | responded
  /-- It returned `undefined`. -/
  | returned
  | rejected
  deriving DecidableEq

/-- `sockets` are those without a bridge; `upgraded` if `server.upgrade` has returned true. -/
structure UpgradeState where
  now : Nat
  stage : UpgradeStage
  sockets : List ReadyState
  bridge : Option WebSocketBridgeData
  upgraded : Bool
  downstreamClosed : Bool

inductive CheckOutcome
  | responds
  | throws
  | proxies

/-- How `openUpstreamWebSocket` fails. -/
inductive ConnectFailure
  /-- The constructor throws. -/
  | invalid
  /-- `error` or `close` before `open`. -/
  | failed (handshakeRejected : Bool)
  | aborted
  | timeout

/-- The socket of the attempt, after its `close` if it is called. -/
def ConnectFailure.socket : ConnectFailure → Option ReadyState
  | .invalid => none
  | .failed _ => some .closed
  | .aborted | .timeout => some (ReadyState.connecting.close)

def isWebSocketOriginTransportFailure : ConnectFailure → Bool
  | .failed handshakeRejected => !handshakeRejected
  | .timeout => true
  | _ => false

inductive UpgradeResult
  | upgraded
  | refused
  | throws

inductive UpgradeEvent
  | clock (now : Nat)
  | checked (outcome : CheckOutcome)
  /-- What the stage awaits succeeds or throws. -/
  | awaited (succeeds : Bool)
  | connectFailed (failure : ConnectFailure)
  /-- `open` of the upstream socket, with the subprotocol it selected; the result is that of
  `server.upgrade` if no cookies are awaited before. -/
  | upstreamOpened (protocol : List Char) (result : UpgradeResult)
  | identityCookies (succeeds : Bool) (result : UpgradeResult)
  | upstreamMessage (message : ProxiedWebSocketMessage) (result : SendResult)
  /-- The upstream socket starts to close, or is closed. -/
  | upstreamState (state : ReadyState)
  /-- `close` or `error` of the upstream socket. -/
  | upstreamClosed
  | downstreamOpened (results : List SendResult)
  | downstreamMessage (message : ProxiedWebSocketMessage) (bufferedAmount : Nat) (throws : Bool)
  | downstreamClosing
  | downstreamClosed
  | drain (results : List SendResult)
  | idleTimeout
  | sessionTimeout

def upgradeDownstream (s : UpgradeState) (bridge : WebSocketBridgeData) :
    UpgradeResult → UpgradeState
  | .upgraded => { s with stage := .accepted, bridge := some bridge, upgraded := true }
  | .refused => { s with stage := .refused, bridge := some (closeBridge bridge .proxy) }
  | .throws => { s with stage := .failing, bridge := some bridge }

/-- `try { upstream.close(code, …) } catch {}` -/
def UpgradeConfig.tryClose (config : UpgradeConfig) (code : Nat) (state : ReadyState) :
    ReadyState :=
  if config.closeAccepts code then state.close else state

def UpgradeConfig.bridge (config : UpgradeConfig) : WebSocketBridgeData where
  websocketPolicy := config.websocketPolicy
  sessionExpiresAt := config.sessionExpiresAt
  upstream := .opened
  downstream := none
  preOpenQueue := []
  preOpenQueueBytes := 0
  closed := false
  sessionExpiryTimer := none
  idleTimer := none
  received := []
  delivered := []
  forwarded := []

/-- The origin has selected a subprotocol that was not offered. -/
def UpgradeConfig.unoffered (config : UpgradeConfig) (protocol : List Char) : Bool :=
  protocol ≠ [] && !config.offeredProtocols.contains protocol

/-- From the open socket to the next suspension. -/
def bridgeUpstream (config : UpgradeConfig) (s : UpgradeState) (protocol : List Char)
    (result : UpgradeResult) : UpgradeState :=
  if config.offeredProtocols ≠ [] && protocol = [] then
    { s with stage := .failing, sockets := s.sockets ++ [config.tryClose 1000 .opened] }
  else if config.unoffered protocol then
    { s with stage := .failing, sockets := s.sockets ++ [config.tryClose 1002 .opened] }
  else if config.sendsUsername then
    { s with stage := .identityCookies, bridge := some config.bridge }
  else upgradeDownstream s config.bridge result

/-- The stage after what was awaited has succeeded or thrown. -/
def UpgradeStage.next (succeeds : Bool) : UpgradeStage → Option UpgradeStage
  | .headers replaced => some (if succeeds then .connecting replaced else .failing)
  | .selecting => some (if succeeds then .headers true else .failing)
  | .refused => some (if succeeds then .responded else .failing)
  | .accepted => some (if succeeds then .returned else .failing)
  | .failing => some (if succeeds then .responded else .rejected)
  | _ => none

/-- A callback of the bridge runs. -/
def onBridge (s : UpgradeState) (f : WebSocketBridgeData → Option WebSocketBridgeData) :
    Option UpgradeState :=
  s.bridge.bind fun bridge => (f bridge).map fun next => { s with bridge := some next }

/-- The callbacks of the client's socket run while it is not closed. -/
def onDownstream (s : UpgradeState) (f : WebSocketBridgeData → WebSocketBridgeData) :
    Option UpgradeState :=
  if s.downstreamClosed then none
  else onBridge s fun bridge => if bridge.downstream = none then none else some (f bridge)

def upgradeStep (config : UpgradeConfig) (s : UpgradeState) : UpgradeEvent → Option UpgradeState
  | .clock now => some { s with now }
  | .checked outcome =>
      if s.stage ≠ .checks then none
      else match outcome with
        | .responds => some { s with stage := .responded }
        | .throws => some { s with stage := .rejected }
        | .proxies => some { s with stage := .headers false }
  | .awaited succeeds => (s.stage.next succeeds).map fun stage => { s with stage }
  | .connectFailed failure =>
      match s.stage with
      | .connecting replaced =>
          some
            { s with
              sockets := s.sockets ++ failure.socket.toList
              stage :=
                if isWebSocketOriginTransportFailure failure && !replaced then .selecting
                else .failing }
      | _ => none
  | .upstreamOpened protocol result =>
      match s.stage with
      | .connecting _ => some (bridgeUpstream config s protocol result)
      | _ => none
  | .identityCookies succeeds result =>
      if s.stage ≠ .identityCookies then none
      else if !succeeds then some { s with stage := .failing }
      else s.bridge.map fun bridge => upgradeDownstream s bridge result
  | .upstreamMessage message result =>
      onBridge s fun bridge => some (upstreamMessage s.now bridge message result)
  | .upstreamState state =>
      onBridge s fun bridge =>
        if state = .closed ∨ (state = .closing ∧ bridge.upstream = .opened) then
          some { bridge with upstream := state }
        else none
  | .upstreamClosed =>
      onBridge s fun bridge =>
        if bridge.upstream = .closed then some (closeBridge bridge .upstream) else none
  | .downstreamOpened results =>
      if s.downstreamClosed || !s.upgraded then none
      else onBridge s fun bridge =>
        if bridge.downstream = none then some (openHandler s.now bridge results) else none
  | .downstreamMessage message bufferedAmount throws =>
      onDownstream s fun bridge => messageHandler s.now bridge message bufferedAmount throws
  | .downstreamClosing =>
      onDownstream s fun bridge =>
        { bridge with downstream := bridge.downstream.map ReadyState.close }
  | .downstreamClosed =>
      if s.downstreamClosed || !s.upgraded then none
      else (onBridge s fun bridge => some (closeHandler bridge)).map fun s =>
        { s with downstreamClosed := true }
  | .drain results => onDownstream s fun bridge => flushPreOpenQueue s.now bridge results
  | .idleTimeout =>
      onBridge s fun bridge =>
        if bridge.idleTimer.any (· ≤ s.now) then some (closeBridge bridge .proxy) else none
  | .sessionTimeout =>
      onBridge s fun bridge =>
        if bridge.sessionExpiryTimer.any (· ≤ s.now) then
          some (scheduleSessionExpiry s.now bridge)
        else none

structure StartsUpgrade (s : UpgradeState) : Prop where
  stage : s.stage = .checks
  sockets : s.sockets = []
  bridge : s.bridge = none
  upgraded : s.upgraded = false
  downstreamClosed : s.downstreamClosed = false

/-! ## The law -/

/-- The bridge holds neither its upstream socket nor a timer. -/
structure WebSocketBridgeData.Released (bridge : WebSocketBridgeData) : Prop where
  upstream : bridge.upstream.released = true
  idleTimer : bridge.idleTimer = none
  sessionExpiryTimer : bridge.sessionExpiryTimer = none

structure NoLeakNoReorder (s : UpgradeState) : Prop where
  released : s.stage = .responded ∨ s.downstreamClosed = true →
    (∀ socket ∈ s.sockets, socket.released = true) ∧
      ∀ bridge, s.bridge = some bridge → bridge.Released
  /-- The client has got what the origin sent, up to what still waits in the queue. -/
  order : ∀ bridge, s.bridge = some bridge →
    bridge.delivered.map (·.message) <+: bridge.received ∧
      (bridge.closed = false →
        bridge.received = bridge.delivered.map (·.message) ++ bridge.preOpenQueue)
  notLate : ∀ bridge, s.bridge = some bridge →
    (∀ e ∈ bridge.delivered, e.afterClose = false) ∧ ∀ e ∈ bridge.forwarded, e.afterClose = false
  buffered : ∀ bridge, s.bridge = some bridge → ∀ e ∈ bridge.forwarded,
    e.bufferedAmount + messageByteLength e.message ≤ bridge.websocketPolicy.upstreamBufferBytes

/-! ## The condition -/

def UpgradeResult.returns : UpgradeResult → Bool
  | .throws => false
  | _ => true

/-- From the open upstream socket on nothing throws before the bridge has its owner, and a
refused subprotocol can be told to the origin. -/
def keepsOwner (config : UpgradeConfig) (s : UpgradeState) : UpgradeEvent → Bool
  | .upstreamOpened protocol result =>
      (!config.unoffered protocol || config.closeAccepts 1002) && result.returns
  | .identityCookies succeeds result => succeeds && result.returns
  | .awaited succeeds => s.stage ≠ .accepted || succeeds
  | _ => true

def KeepsOwner (config : UpgradeConfig) (s : UpgradeState) (e : UpgradeEvent) : Prop :=
  keepsOwner config s e = true

instance (config : UpgradeConfig) (s : UpgradeState) (e : UpgradeEvent) :
    Decidable (KeepsOwner config s e) :=
  inferInstanceAs (Decidable (_ = true))

end BurrowGate.WebSocketProxy
