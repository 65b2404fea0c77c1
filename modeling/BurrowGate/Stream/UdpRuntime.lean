import BurrowGate.Lib.OrderedMap
import BurrowGate.Lib.Run
import BurrowGate.ProxyProtocol.HeaderWriter

/-!
# The UDP side of `StreamProxyManager`: peers, datagrams and replies

The callbacks of the sockets hold a peer after it has left the map, so peers live in a
`heap` and everything else refers to their place in it. What a socket does with a datagram
comes with the action: it takes it, it is full, or the call throws.
-/

namespace BurrowGate.Stream

open Lib
open ProxyProtocol

/-- `config.streams` -/
structure StreamsConfig where
  maxUdpPeersPerStream : Nat
  maxPendingDatagrams : Nat
  udpAmplificationGraceBytes : Nat

/-- The members of the record that stay as they are; `local` is the address of its UDP
socket. -/
structure StreamRecord where
  id : List Char
  maxConnectionsPerIp : Nat
  udpAmplificationMaxRatio : Nat
  proxyProtocol : Option StreamProxyProtocol
  localAddress : List Char
  localPort : Nat

/-- `udpPeerKey`; the JSON text of the pair determines it. -/
abbrev PeerKey : Type := List Char × Nat

structure UdpPendingDatagram where
  wireData : Bytes
  payloadBytes : Nat

/-- `sentToClient` and `forwarded` are not in the source: the replies that the client's
socket took and the payload sizes that the upstream socket took. -/
structure UdpPeer where
  clientIp : List Char
  clientPort : Nat
  lastActivityAt : Nat
  clientToUpstreamBytes : Nat
  upstreamToClientBytes : Nat
  pendingUpstream : List UdpPendingDatagram
  closed : Bool
  amplificationThrottled : Bool
  sentToClient : List Bytes
  forwarded : List Nat

def UdpPeer.key (peer : UdpPeer) : PeerKey := (peer.clientIp, peer.clientPort)

structure UdpReply where
  peer : Nat
  data : Bytes

structure UdpRuntime where
  heap : List UdpPeer
  peers : OrderedMap PeerKey Nat
  pendingReplies : List UdpReply

def UdpRuntime.start : UdpRuntime := ⟨[], .empty, []⟩

inductive SendResult
  | sent
  | full
  | threw
  deriving DecidableEq

variable (config : StreamsConfig) (stream : StreamRecord)

/-! ## One peer -/

def UdpPeer.open (clientIp : List Char) (clientPort now : Nat) : UdpPeer where
  clientIp := clientIp
  clientPort := clientPort
  lastActivityAt := now
  clientToUpstreamBytes := 0
  upstreamToClientBytes := 0
  pendingUpstream := []
  closed := false
  amplificationThrottled := false
  sentToClient := []
  forwarded := []

/-- `config.streams.udpAmplificationGraceBytes + peer.clientToUpstreamBytes * ratio` -/
def budget (peer : UdpPeer) : Nat :=
  config.udpAmplificationGraceBytes + peer.clientToUpstreamBytes * stream.udpAmplificationMaxRatio

def isAmplificationThrottled (peer : UdpPeer) (replyBytes : Nat) : Bool :=
  if stream.udpAmplificationMaxRatio = 0 then false
  else decide (budget config stream peer < peer.upstreamToClientBytes + replyBytes)

/-- The flag that `isAmplificationThrottled` leaves. -/
def throttle (peer : UdpPeer) (replyBytes : Nat) : UdpPeer :=
  if stream.udpAmplificationMaxRatio = 0 then peer
  else { peer with
    amplificationThrottled := isAmplificationThrottled config stream peer replyBytes }

/-- `recordUdpBytes(runtime, peer, "client", data.byteLength)` for a reply that was taken. -/
def recordReply (peer : UdpPeer) (data : Bytes) : UdpPeer :=
  { peer with
    upstreamToClientBytes := peer.upstreamToClientBytes + data.length
    sentToClient := peer.sentToClient ++ [data] }

/-- `recordUdpBytes(runtime, peer, "upstream", payloadBytes)` -/
def recordForwarded (peer : UdpPeer) (payloadBytes : Nat) : UdpPeer :=
  { peer with
    clientToUpstreamBytes := peer.clientToUpstreamBytes + payloadBytes
    forwarded := peer.forwarded ++ [payloadBytes] }

def udpUpstreamDatagram (data : Bytes) (peer : UdpPeer) :
    Except (List Char) UdpPendingDatagram :=
  match stream.proxyProtocol with
  | some .v2 => do
      let header ← proxyProtocolHeader .v2 .udp
        { sourceAddress := peer.clientIp
          destinationAddress := stream.localAddress
          sourcePort := some peer.clientPort
          destinationPort := some stream.localPort }
      return { wireData := header ++ data, payloadBytes := data.length }
  | _ => .ok { wireData := data, payloadBytes := data.length }

/-- The loop of `flushUdpUpstream` when the socket takes `accepts` datagrams. -/
def flushPending (accepts : Nat) : List UdpPendingDatagram → UdpPeer → UdpPeer
  | [], peer => { peer with pendingUpstream := [] }
  | datagram :: rest, peer =>
      match accepts with
      | 0 => { peer with pendingUpstream := datagram :: rest }
      | accepts + 1 => flushPending accepts rest (recordForwarded peer datagram.payloadBytes)

/-! ## The runtime -/

namespace UdpRuntime

variable (r : UdpRuntime)

def write (p : Nat) (peer : UdpPeer) : UdpRuntime := { r with heap := r.heap.set p peer }

/-- The end of `createUdpPeer`. -/
def insertPeer (clientIp : List Char) (clientPort now : Nat) : UdpRuntime :=
  { r with
    heap := r.heap ++ [UdpPeer.open clientIp clientPort now]
    peers := r.peers.set (clientIp, clientPort) r.heap.length }

/-- Nothing happens to a peer that is closed. -/
def closeUdpPeer (p : Nat) : UdpRuntime :=
  match r.heap[p]? with
  | none => r
  | some peer =>
      if peer.closed then r
      else { r with
        heap := r.heap.set p { peer with closed := true }
        peers := r.peers.erase peer.key }

/-- The `data` callback of the upstream socket of a peer. -/
def upstreamData (p : Nat) (data : Bytes) (truncated : Bool) (result : SendResult) (now : Nat) :
    UdpRuntime :=
  match r.heap[p]? with
  | none => r
  | some peer =>
      if peer.closed then r
      else
        let peer := { peer with lastActivityAt := now }
        if truncated then (r.write p peer).closeUdpPeer p
        else
          let throttled := throttle config stream peer data.length
          if isAmplificationThrottled config stream peer data.length then r.write p throttled
          else
            match result with
            | .sent => r.write p (recordReply throttled data)
            | .full =>
                if r.pendingReplies.length < config.maxPendingDatagrams then
                  { r.write p throttled with
                    pendingReplies := r.pendingReplies ++ [{ peer := p, data }] }
                else (r.write p throttled).closeUdpPeer p
            | .threw => r.write p throttled

/-- `handleUdpData` after `await this.udpPeer(...)`. -/
def clientData (p : Nat) (data : Bytes) (truncated : Bool) (result : SendResult) (now : Nat) :
    UdpRuntime :=
  match r.heap[p]? with
  | none => r
  | some peer =>
      if peer.closed then r
      else
        let peer := { peer with lastActivityAt := now }
        if truncated then (r.write p peer).closeUdpPeer p
        else
          match udpUpstreamDatagram stream data peer with
          | .error _ => r.write p peer
          | .ok datagram =>
              match result with
              | .sent => r.write p (recordForwarded peer datagram.payloadBytes)
              | .full =>
                  if peer.pendingUpstream.length < config.maxPendingDatagrams then
                    r.write p { peer with pendingUpstream := peer.pendingUpstream ++ [datagram] }
                  else (r.write p peer).closeUdpPeer p
              | .threw => r.write p peer

def flushUdpUpstream (p accepts : Nat) : UdpRuntime :=
  match r.heap[p]? with
  | none => r
  | some peer =>
      if peer.closed then r else r.write p (flushPending accepts peer.pendingUpstream peer)

/-- The loop of `flushUdpReplies` when the socket takes `accepts` datagrams. -/
def flushReplies (accepts : Nat) : List UdpReply → UdpRuntime → UdpRuntime
  | [], r => { r with pendingReplies := [] }
  | reply :: rest, r =>
      match r.heap[reply.peer]? with
      | none => flushReplies accepts rest r
      | some peer =>
          if peer.closed then flushReplies accepts rest r
          else
            match accepts with
            | 0 => { r with pendingReplies := reply :: rest }
            | accepts + 1 =>
                flushReplies accepts rest (r.write reply.peer (recordReply peer reply.data))

def flushUdpReplies (accepts : Nat) : UdpRuntime := flushReplies accepts r.pendingReplies r

end UdpRuntime

/-! ## Traffic -/

/-- What can happen to the peers of one runtime. Idle cleanup, eviction, bans, socket errors
and the stop of the stream close a peer. -/
inductive UdpAction
  | open (clientIp : List Char) (clientPort now : Nat)
  | datagram (p : Nat) (data : Bytes) (truncated : Bool) (result : SendResult) (now : Nat)
  | reply (p : Nat) (data : Bytes) (truncated : Bool) (result : SendResult) (now : Nat)
  | drainUpstream (p accepts : Nat)
  | drain (accepts : Nat)
  | close (p : Nat)

def udpStep (r : UdpRuntime) : UdpAction → Option UdpRuntime
  | .open clientIp clientPort now => some (r.insertPeer clientIp clientPort now)
  | .datagram p data truncated result now =>
      some (r.clientData config stream p data truncated result now)
  | .reply p data truncated result now =>
      some (r.upstreamData config stream p data truncated result now)
  | .drainUpstream p accepts => some (r.flushUdpUpstream p accepts)
  | .drain accepts => some (r.flushUdpReplies accepts)
  | .close p => some (r.closeUdpPeer p)

end BurrowGate.Stream
