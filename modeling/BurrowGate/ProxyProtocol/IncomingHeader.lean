import BurrowGate.ProxyProtocol.HeaderWriter

/-!
# `incoming-proxy-protocol.ts` and the ingress of `proxy-protocol-ingress.ts`

The ingress is the fold of its `data` listener over the chunks of one connection. The
timers, which may end a connection that sends too little, are left out.
-/

namespace BurrowGate.ProxyProtocol

open Js
open Net
open Lib.Positional

/-- `"PROXY "` -/
def V1_PREFIX : Bytes := [0x50, 0x52, 0x4f, 0x58, 0x59, 0x20]

def MAX_PROXY_HEADER_BYTES : Nat := 4096

structure IncomingProxyConnection where
  sourceAddress : List Char
  sourcePort : Nat
  destinationAddress : List Char
  destinationPort : Nat
  proxyProtocol : Bool := false
  deriving DecidableEq

structure ParsedProxyHeader where
  bytes : Nat
  connection : Option IncomingProxyConnection
  deriving DecidableEq

/-- The error of `invalid()`. -/
def invalid : List Char := "Invalid incoming PROXY protocol header".toList

/-- `^(?:0|[1-9]\d{0,4})$` -/
def isPortText (value : List Char) : Bool :=
  value = ['0'] ||
    value ≠ [] && value.length ≤ 5 && value.all isDigit && value.head? ≠ some '0'

def port (value : List Char) : Except (List Char) Nat :=
  match (digitsValue 10 value).filter (· ≤ 65535) with
  | some number => if isPortText value then .ok number else .error invalid
  | none => .error invalid

def prefixMatches (data start : Bytes) : Bool :=
  let length := min data.length start.length
  data.take length = start.take length

/-- Whether the data starts a PROXY header; `none` while that is open. -/
def isProxyHeaderPrefix (data : Bytes) : Option Bool :=
  let v1 := prefixMatches data V1_PREFIX
  let v2 := prefixMatches data V2_SIGNATURE
  if !v1 && !v2 then some false
  else if (v1 && V1_PREFIX.length ≤ data.length) || (v2 && V2_SIGNATURE.length ≤ data.length) then
    some true
  else none

/-! ## `parseIncomingProxyHeader` -/

/-- `data.indexOf("\r\n")` -/
def indexOfCrlf : Bytes → Option Nat
  | [] => none
  | b :: rest =>
      if b = 0x0d ∧ rest.head? = some 0x0a then some 0 else (indexOfCrlf rest).map (· + 1)

/-- `toString("latin1")` -/
def latin1Text (data : Bytes) : List Char := data.map fun b => Char.ofNat b.toNat

/-- In the source the reads are within the data. -/
def byteAt (data : Bytes) (offset : Nat) : Nat := (data.getD offset 0).toNat

def readUInt16BE (data : Bytes) (offset : Nat) : Nat :=
  byteAt data offset * 256 + byteAt data (offset + 1)

def familyOf (text : List Char) : Except (List Char) IpVersion :=
  if text = "TCP4".toList then .ok .v4
  else if text = "TCP6".toList then .ok .v6
  else .error invalid

/-- The connection of a text header other than `UNKNOWN`. -/
def v1Connection (line : List Char) : Except (List Char) IncomingProxyConnection :=
  match line.splitOn ' ' with
  | [name, familyText, sourceAddress, destinationAddress, sourceText, destinationText] =>
      if name ≠ "PROXY".toList then .error invalid
      else do
        let family ← familyOf familyText
        if isIP sourceAddress ≠ some family ∨ isIP destinationAddress ≠ some family then
          .error invalid
        else
          let sourcePort ← port sourceText
          let destinationPort ← port destinationText
          return { sourceAddress, sourcePort, destinationAddress, destinationPort }
  | _ => .error invalid

def parseV1 (data : Bytes) : Except (List Char) (Option ParsedProxyHeader) :=
  match indexOfCrlf data with
  | none => if 107 ≤ data.length then .error invalid else .ok none
  | some lineEnd =>
      if 107 < lineEnd + 2 then .error invalid
      else
        let line := latin1Text (data.take lineEnd)
        if line = "PROXY UNKNOWN".toList ∨ "PROXY UNKNOWN ".toList.isPrefixOf line = true then
          .ok (some { bytes := lineEnd + 2, connection := none })
        else
          (v1Connection line).map fun connection =>
            some { bytes := lineEnd + 2, connection := some connection }

/-- The loop over the extensions: every length must fit. -/
def extensionsFit (data : Bytes) (bytes offset : Nat) : Bool :=
  if bytes ≤ offset then true
  else if bytes < offset + 3 then false
  else
    let next := offset + 3 + readUInt16BE data (offset + 1)
    if bytes < next then false else extensionsFit data bytes next
termination_by bytes - offset
decreasing_by omega

/-- The binary number of a stretch of bytes. -/
def bytesValue (data : Bytes) : Nat := data.foldl (fun value b => value * 256 + b.toNat) 0

/-- `address` in `parseIncomingProxyHeader` -/
def readAddress (data : Bytes) (addressLength offset : Nat) : List Char :=
  if addressLength = 4 then
    ['.'].intercalate (((data.drop offset).take 4).map fun b => Nat.toDigits 10 b.toNat)
  else canonicalIpv6 (bytesValue ((data.drop offset).take 16))

/-- The connection of a complete binary header; a local or unspecified one has none. -/
def v2Connection (data : Bytes) (command length : Nat) :
    Except (List Char) (Option IncomingProxyConnection) :=
  if command = 0 then .ok none
  else
    let family := byteAt data 13
    if family = 0 then .ok none
    else if family ≠ 0x11 ∧ family ≠ 0x21 then .error invalid
    else
      let addressLength := if family = 0x11 then 4 else 16
      let addressBlockLength := addressLength * 2 + 4
      if length < addressBlockLength then .error invalid
      else if !extensionsFit data (16 + length) (16 + addressBlockLength) then .error invalid
      else
        .ok (some
          { sourceAddress := readAddress data addressLength 16
            destinationAddress := readAddress data addressLength (16 + addressLength)
            sourcePort := readUInt16BE data (16 + addressLength * 2)
            destinationPort := readUInt16BE data (18 + addressLength * 2) })

def parseV2 (data : Bytes) : Except (List Char) (Option ParsedProxyHeader) :=
  if data.length < 16 then .ok none
  else if byteAt data 12 >>> 4 ≠ 2 then .error invalid
  else
    let command := byteAt data 12 % 16
    if command ≠ 0 ∧ command ≠ 1 then .error invalid
    else
      let length := readUInt16BE data 14
      let bytes := 16 + length
      if MAX_PROXY_HEADER_BYTES < bytes then .error invalid
      else if data.length < bytes then .ok none
      else (v2Connection data command length).map fun connection => some { bytes, connection }

/-- `none` for incomplete input. -/
def parseIncomingProxyHeader (data : Bytes) : Except (List Char) (Option ParsedProxyHeader) :=
  if prefixMatches data V1_PREFIX then parseV1 data
  else if !prefixMatches data V2_SIGNATURE then .error invalid
  else parseV2 data

/-! ## The ingress -/

/-- What became of a connection: its data is still kept, it is bridged to the backend and
`payload` is what the backend is sent, or it is destroyed. -/
inductive IngressState
  | buffering (buffered : Bytes)
  | bridged (connection : IncomingProxyConnection) (payload : Bytes)
  | destroyed
  deriving DecidableEq

/-- `receive` in `accept`, and the pipe behind `bridge`; `direct` is the `directConnection`. -/
def receive (allowDirect : Bool) (direct : IncomingProxyConnection) (state : IngressState)
    (chunk : Bytes) : IngressState :=
  match state with
  | .destroyed => .destroyed
  | .bridged connection payload => .bridged connection (payload ++ chunk)
  | .buffering before =>
      let buffered := before ++ chunk
      if allowDirect && isProxyHeaderPrefix buffered = some false then .bridged direct buffered
      else
        match parseIncomingProxyHeader buffered with
        | .error _ => .destroyed
        | .ok none => .buffering buffered
        | .ok (some parsed) =>
            .bridged { parsed.connection.getD direct with proxyProtocol := true }
              (buffered.drop parsed.bytes)

/-- `inspect` in `bridge`, for a client that is not a trusted proxy. -/
def inspect (direct : IncomingProxyConnection) (state : IngressState) (chunk : Bytes) :
    IngressState :=
  match state with
  | .destroyed => .destroyed
  | .bridged connection payload => .bridged connection (payload ++ chunk)
  | .buffering before =>
      let buffered := before ++ chunk
      match isProxyHeaderPrefix buffered with
      | some true => .destroyed
      | none => .buffering buffered
      | some false => .bridged direct buffered

end BurrowGate.ProxyProtocol
