import BurrowGate.Lib.PartialWrite
import BurrowGate.ProxyProtocol.HeaderWriter

/-!
# One TCP connection of `stream-proxy-service.ts`

Every event of one connection between its admission and its end. What happens elsewhere comes
with the action: what the evaluation of the address decides, what a socket answers to a write,
what the protection reads of its policy and the metrics, and the calls of `finishTcp` for a
closed socket, a timeout or a ban.
-/

namespace BurrowGate.TcpRelay

open Lib.PartialWrite
open ProxyProtocol

/-! ## State -/

inductive StreamDirection
  | upstream
  | client
  deriving DecidableEq

/-- One direction of the relay. `received` are the bytes that the destination accepted, and
`sent` those of the source's data events. -/
structure Lane where
  /-- `toUpstream` or `toClient` -/
  queue : List Bytes
  /-- `clientToUpstreamBytes` or `upstreamToClientBytes` -/
  bytes : Nat
  /-- The source is paused. -/
  paused : Bool
  /-- `end()` was called on the destination. -/
  ended : Bool
  received : Bytes
  sent : Bytes
  deriving DecidableEq

def Lane.empty : Lane := ⟨[], 0, false, false, [], []⟩

inductive StreamProtectionStatus
  | disabled
  | clean
  | monitored
  | blocked
  deriving DecidableEq

/-- What `admitTcp` finds in the protection policy. -/
inductive StreamProtection
  /-- disabled, or no rulesets -/
  | disabled
  /-- no ruleset needs a decoder -/
  | metadata
  | decode (protocol : List Char) (maxBytes : Nat)
  deriving DecidableEq

inductive DecodeStatus
  | incomplete
  | done
  deriving DecidableEq

structure StreamDecodeAttempt (F : Type) where
  status : DecodeStatus
  fields : F
  deriving DecidableEq

/-- Where the asynchronous functions of the connection wait. -/
inductive Stage
  /-- `evaluateStreamIp` -/
  | evaluating
  /-- the client's bytes, or the decode timer -/
  | decoding
  /-- `tryBanStreamIp` -/
  | banning
  /-- `connect` -/
  | connecting
  | opened
  deriving DecidableEq

structure TcpConnection (R : Type) where
  upstream : Bool
  toUpstream : Lane
  toClient : Lane
  queuedBytes : Nat
  proxyHeader : Option Bytes
  proxyHeaderOffset : Nat
  closed : Bool
  clientEnded : Bool
  protectionDecodeProtocol : Option (List Char)
  protectionDecodeChunks : List Bytes
  protectionDecodeBytes : Nat
  protectionDecodeMaxBytes : Nat
  /-- The decode timer runs. -/
  protectionDecodeTimer : Bool
  protectionDecodeAwaitingVerdict : Bool
  stage : Stage
  /-- The header that was put before the client's bytes. -/
  header : Bytes
  /-- The verdict, with what the protection read of its policy and the metrics. -/
  verdict : Option (R × StreamProtectionStatus)
  /-- How many client bytes had arrived when the decode timer expired. -/
  expired : Option Nat
  deriving DecidableEq

/-- A connection after the `open` event of the client, before `admitTcp`. -/
def TcpConnection.start (R : Type) : TcpConnection R where
  upstream := false
  toUpstream := .empty
  toClient := .empty
  queuedBytes := 0
  proxyHeader := none
  proxyHeaderOffset := 0
  closed := false
  clientEnded := false
  protectionDecodeProtocol := none
  protectionDecodeChunks := []
  protectionDecodeBytes := 0
  protectionDecodeMaxBytes := 0
  protectionDecodeTimer := false
  protectionDecodeAwaitingVerdict := false
  stage := .evaluating
  header := []
  verdict := none
  expired := none

/-- The stream, its limits and its rulesets. `R` is what an inspection reads besides the decoded
fields `F`. -/
structure RelayConfig (R F : Type) where
  maxBufferedBytes : Nat
  protection : StreamProtection
  decoder : List Char → Option (Bytes → StreamDecodeAttempt F)
  noFields : F
  inspect : R → F → StreamProtectionStatus
  proxyProtocol : Option StreamProxyProtocol
  endpoints : ProxyProtocolEndpoints

variable {R F : Type}

/-! ## The two directions -/

namespace TcpConnection

def lane (connection : TcpConnection R) : StreamDirection → Lane
  | .upstream => connection.toUpstream
  | .client => connection.toClient

def setLane (connection : TcpConnection R) (direction : StreamDirection) (lane : Lane) :
    TcpConnection R :=
  match direction with
  | .upstream => { connection with toUpstream := lane }
  | .client => { connection with toClient := lane }

/-- The socket that a direction writes to is there. -/
def destination (connection : TcpConnection R) : StreamDirection → Bool
  | .upstream => connection.upstream
  | .client => true

/-- The socket that a direction reads from is there. -/
def source (connection : TcpConnection R) : StreamDirection → Bool
  | .upstream => true
  | .client => connection.upstream

/-- `pause` and `resume` on the socket that a direction reads from. -/
def setPaused (connection : TcpConnection R) (direction : StreamDirection) (paused : Bool) :
    TcpConnection R :=
  if connection.source direction then
    connection.setLane direction { connection.lane direction with paused }
  else connection

/-- Payload bytes that the destination accepts, with `recordTcpBytes`. -/
def recordTcpBytes (connection : TcpConnection R) (direction : StreamDirection) (data : Bytes) :
    TcpConnection R :=
  connection.setLane direction
    { connection.lane direction with
      bytes := (connection.lane direction).bytes + data.length
      received := (connection.lane direction).received ++ data }

def finishTcp (connection : TcpConnection R) : TcpConnection R :=
  if connection.closed then connection
  else { connection with closed := true, protectionDecodeTimer := false }

end TcpConnection

open TcpConnection

/-! ## Writing -/

def queueTcp (config : RelayConfig R F) (connection : TcpConnection R)
    (direction : StreamDirection) (data : Bytes) : TcpConnection R :=
  let counted := { connection with queuedBytes := connection.queuedBytes + data.length }
  if config.maxBufferedBytes < counted.queuedBytes then counted.finishTcp
  else
    (counted.setLane direction
      { counted.lane direction with
        queue := (counted.lane direction).queue ++ [data] }).setPaused direction true

def writeTcp (config : RelayConfig R F) (connection : TcpConnection R)
    (direction : StreamDirection) (data : Bytes) (answer : Option Nat) : TcpConnection R :=
  if connection.closed then connection
  else if connection.destination direction = false ∨
      (direction = .upstream ∧ connection.proxyHeader.isSome) then
    queueTcp config connection direction data
  else
    match write (connection.lane direction).ended answer data with
    | none => connection.finishTcp
    | some written =>
        let recorded := connection.recordTcpBytes direction (data.take written)
        if written < data.length then queueTcp config recorded direction (data.drop written)
        else recorded

/-- The loop of `flushTcp` over the queue. -/
def flushQueue (connection : TcpConnection R) (direction : StreamDirection)
    (answers : List (Option Nat)) : TcpConnection R :=
  let lane := connection.lane direction
  let flushed := flush lane.ended lane.queue answers
  let recorded := connection.recordTcpBytes direction flushed.taken
  let next :=
    { recorded.setLane direction { recorded.lane direction with queue := flushed.rest } with
      queuedBytes := connection.queuedBytes - flushed.taken.length }
  if flushed.failed then next.finishTcp
  else if flushed.rest = [] then next.setPaused direction false
  else next

/-- `flushTcp` with the answers of the socket to its writes. -/
def flushTcp (connection : TcpConnection R) (direction : StreamDirection)
    (answers : List (Option Nat)) : TcpConnection R :=
  if connection.closed then connection
  else if connection.destination direction = false then connection
  else
    match direction, connection.proxyHeader with
    | .upstream, some header =>
        let pendingHeader := header.drop connection.proxyHeaderOffset
        match write connection.toUpstream.ended (answers.headD (some 0)) pendingHeader with
        | none => connection.finishTcp
        | some written =>
            let offset := connection.proxyHeaderOffset + written
            let upstream :=
              { connection.toUpstream with
                received := connection.toUpstream.received ++ pendingHeader.take written }
            if offset < header.length then
              { connection with toUpstream := upstream, proxyHeaderOffset := offset }
            else
              flushQueue { connection with
                toUpstream := upstream, proxyHeader := none, proxyHeaderOffset := 0 }
                .upstream answers.tail
    | direction, _ => flushQueue connection direction answers

/-! ## The upstream connection -/

def openTcpUpstream (config : RelayConfig R F) (connection : TcpConnection R) :
    TcpConnection R :=
  match config.proxyProtocol with
  | none => { connection with stage := .connecting }
  | some mode =>
      match proxyProtocolHeader mode .tcp config.endpoints with
      | .error _ => { connection.finishTcp with stage := .connecting }
      | .ok header =>
          { connection with
            proxyHeader := some header, proxyHeaderOffset := 0, header, stage := .connecting }

/-- The `open` event of the upstream socket. -/
def upstreamOpen (connection : TcpConnection R) (answers : List (Option Nat)) :
    TcpConnection R :=
  if connection.closed then { connection with stage := .opened }
  else
    let flushed := flushTcp { connection with upstream := true, stage := .opened } .upstream answers
    if flushed.clientEnded then
      { flushed with toUpstream := { flushed.toUpstream with ended := true } }
    else flushed

/-! ## Protection -/

/-- The bytes of the decode buffer go on to the upstream. There is no upstream yet, so nothing
answers the write. -/
def forwardDecoded (config : RelayConfig R F) (connection : TcpConnection R) :
    TcpConnection R :=
  if connection.protectionDecodeProtocol.isSome ∨ connection.protectionDecodeChunks ≠ [] then
    let bufferedBytes := connection.protectionDecodeChunks.flatten
    let cleared :=
      { connection with
        protectionDecodeProtocol := none
        protectionDecodeAwaitingVerdict := false
        protectionDecodeChunks := []
        protectionDecodeBytes := 0 }
    if 0 < bufferedBytes.length then writeTcp config cleared .upstream bufferedBytes none
    else cleared
  else connection

def evaluateProtectionAndProceed (config : RelayConfig R F) (connection : TcpConnection R)
    (decodedFields : F) (reading : R) : TcpConnection R :=
  if connection.closed then connection
  else
    let status := config.inspect reading decodedFields
    let judged := { connection with verdict := some (reading, status) }
    if status = .blocked then { judged with stage := .banning }
    else openTcpUpstream config (forwardDecoded config judged)

def finishProtectionDecode (config : RelayConfig R F) (connection : TcpConnection R)
    (decodedFields : F) (reading : R) : TcpConnection R :=
  if connection.closed ∨ connection.protectionDecodeAwaitingVerdict then connection
  else
    evaluateProtectionAndProceed config
      { connection with
        protectionDecodeAwaitingVerdict := true, protectionDecodeTimer := false }
      decodedFields reading

/-- `decoder ? decoder.decode(buffer) : { status: "done", fields: {} }` -/
def RelayConfig.attempt (config : RelayConfig R F) (protocol : List Char) (buffer : Bytes) :
    StreamDecodeAttempt F :=
  match config.decoder protocol with
  | some decode => decode buffer
  | none => ⟨.done, config.noFields⟩

def tryCompleteProtectionDecode (config : RelayConfig R F) (connection : TcpConnection R)
    (reading : R) : TcpConnection R :=
  if connection.closed ∨ connection.protectionDecodeAwaitingVerdict then connection
  else
    match connection.protectionDecodeProtocol with
    | none => connection
    | some protocol =>
        let attempt := config.attempt protocol connection.protectionDecodeChunks.flatten
        if attempt.status = .done ∨
            connection.protectionDecodeMaxBytes ≤ connection.protectionDecodeBytes then
          finishProtectionDecode config connection attempt.fields reading
        else connection

def handleProtectionDecodeChunk (config : RelayConfig R F) (connection : TcpConnection R)
    (data : Bytes) (reading : R) : TcpConnection R :=
  if connection.closed then connection
  else
    let buffered :=
      { connection with
        protectionDecodeChunks := connection.protectionDecodeChunks ++ [data]
        protectionDecodeBytes := connection.protectionDecodeBytes + data.length }
    if buffered.protectionDecodeAwaitingVerdict then buffered
    else tryCompleteProtectionDecode config buffered reading

/-- The decode timer. -/
def forceFinishProtectionDecode (config : RelayConfig R F) (connection : TcpConnection R)
    (reading : R) : TcpConnection R :=
  if connection.closed ∨ connection.protectionDecodeAwaitingVerdict then connection
  else
    match connection.protectionDecodeProtocol with
    | none => connection
    | some protocol =>
        let attempt := config.attempt protocol connection.protectionDecodeChunks.flatten
        finishProtectionDecode config connection attempt.fields reading

def beginProtectionDecode (connection : TcpConnection R) (protocol : List Char)
    (maxBytes : Nat) : TcpConnection R :=
  if connection.closed then connection
  else
    { connection with
      protectionDecodeProtocol := some protocol
      protectionDecodeChunks := []
      protectionDecodeBytes := 0
      protectionDecodeMaxBytes := maxBytes
      protectionDecodeAwaitingVerdict := false
      protectionDecodeTimer := true
      stage := .decoding }

/-- `admitTcp` after `evaluateStreamIp`. -/
def admitTcp (config : RelayConfig R F) (connection : TcpConnection R) (blocked : Bool)
    (reading : R) : TcpConnection R :=
  if connection.closed then connection
  else if blocked then connection.finishTcp
  else
    match config.protection with
    | .disabled => openTcpUpstream config connection
    | .decode protocol maxBytes => beginProtectionDecode connection protocol maxBytes
    | .metadata => evaluateProtectionAndProceed config connection config.noFields reading

/-! ## Events -/

inductive RelayAction (R : Type)
  | admitted (blocked : Bool) (reading : R)
  | clientData (data : Bytes) (answer : Option Nat) (reading : R)
  | clientDrain (answers : List (Option Nat))
  | clientEnd
  | timerExpired (reading : R)
  | banned
  | upstreamOpened (answers : List (Option Nat))
  | upstreamData (data : Bytes) (answer : Option Nat)
  | upstreamDrain (answers : List (Option Nat))
  | upstreamEnd
  | finish
  deriving DecidableEq

/-- The `data` event of the client. -/
def clientData (config : RelayConfig R F) (connection : TcpConnection R) (data : Bytes)
    (answer : Option Nat) (reading : R) : TcpConnection R :=
  if connection.protectionDecodeProtocol.isSome then
    handleProtectionDecodeChunk config connection data reading
  else writeTcp config connection .upstream data answer

/-- A data event adds to what its source has sent. -/
def TcpConnection.sending (connection : TcpConnection R) (direction : StreamDirection)
    (data : Bytes) : TcpConnection R :=
  connection.setLane direction
    { connection.lane direction with sent := (connection.lane direction).sent ++ data }

/-- The `end` event of the client. -/
def clientEnd (connection : TcpConnection R) : TcpConnection R :=
  if connection.upstream then
    { connection with
      clientEnded := true, toUpstream := { connection.toUpstream with ended := true } }
  else { connection with clientEnded := true }

/-- The `end` event of the upstream. -/
def upstreamEnd (connection : TcpConnection R) : TcpConnection R :=
  { connection with toClient := { connection.toClient with ended := true } }

/-- The expiry of the decode timer. -/
def timerExpired (config : RelayConfig R F) (connection : TcpConnection R) (reading : R) :
    TcpConnection R :=
  forceFinishProtectionDecode config
    { connection with
      protectionDecodeTimer := false, expired := some connection.toUpstream.sent.length } reading

/-- A paused socket delivers no data event, and one that has ended neither data nor an end. -/
def relayStep (config : RelayConfig R F) (connection : TcpConnection R) :
    RelayAction R → Option (TcpConnection R)
  | .admitted blocked reading =>
      if connection.stage = .evaluating then some (admitTcp config connection blocked reading)
      else none
  | .clientData data answer reading =>
      if connection.toUpstream.paused = false ∧ connection.clientEnded = false then
        some (clientData config (connection.sending .upstream data) data answer reading)
      else none
  | .clientDrain answers => some (flushTcp connection .client answers)
  | .clientEnd => if connection.clientEnded = false then some (clientEnd connection) else none
  | .timerExpired reading =>
      if connection.protectionDecodeTimer then some (timerExpired config connection reading)
      else none
  | .banned => if connection.stage = .banning then some connection.finishTcp else none
  | .upstreamOpened answers =>
      if connection.stage = .connecting then some (upstreamOpen connection answers) else none
  | .upstreamData data answer =>
      if connection.upstream ∧ connection.toClient.paused = false ∧
          connection.toClient.ended = false then
        some (writeTcp config (connection.sending .client data) .client data answer)
      else none
  | .upstreamDrain answers =>
      if connection.upstream then some (flushTcp connection .upstream answers) else none
  | .upstreamEnd =>
      if connection.upstream ∧ connection.toClient.ended = false then
        some (upstreamEnd connection)
      else none
  | .finish => some connection.finishTcp

end BurrowGate.TcpRelay
