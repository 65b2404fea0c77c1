import BurrowGate.Js.Text
import BurrowGate.TcpRelay.TcpConnection

/-!
# `stream-protocol-decoders/minecraft-java.ts`

The decoder of the first packets of a Minecraft connection, as far as the protection of a
connection calls it.
-/

namespace BurrowGate.TcpRelay

open Js
open ProxyProtocol

inductive StreamRuleFieldValue
  | string (value : List Char)
  | number (value : Int)
  | boolean (value : Bool)
  deriving DecidableEq

/-- The decoded fields, in the order of the source's record. -/
abbrev StreamRuleFields := List (List Char × StreamRuleFieldValue)

def HANDSHAKE_PACKET_ID : Int := 0x00

def LOGIN_START_PACKET_ID : Int := 0x00

def LOGIN_NEXT_STATE : Int := 2

def MAX_PACKET_LENGTH : Int := 65535

def MAX_SERVER_ADDRESS_BYTES : Int := 300

def MAX_USERNAME_BYTES : Int := 64

/-- `null` is `more`: the value continues past the end of the buffer. -/
inductive Read (α : Type)
  | more
  | invalid
  | found (value : α) (bytesRead : Nat)
  deriving DecidableEq

/-- The loop of `readVarInt`, with the iterations that are left. -/
def readVarIntLoop (buffer : Bytes) (offset : Nat) : Nat → Nat → BitVec 32 → Read Int
  | 0, _, _ => .invalid
  | iterations + 1, read, value =>
      match buffer[offset + read]? with
      | none => .more
      | some byte =>
          let value := value ||| (BitVec.ofNat 32 (byte &&& 0x7f).toNat <<< (7 * read))
          if byte &&& 0x80 = 0 then .found value.toInt (read + 1)
          else readVarIntLoop buffer offset iterations (read + 1) value

def readVarInt (buffer : Bytes) (offset : Nat) : Read Int :=
  readVarIntLoop buffer offset 5 0 0

/-- `new TextDecoder("utf-8", { fatal: true }).decode`, which drops a byte order mark. -/
def decodeUtf8 (bytes : Bytes) : Option (List Char) :=
  (String.fromUTF8? ⟨bytes.toArray⟩).map fun text =>
    match text.toList with
    | '\uFEFF' :: rest => rest
    | cs => cs

def readString (buffer : Bytes) (offset : Nat) (maxBytes : Int) : Read (List Char) :=
  match readVarInt buffer offset with
  | .more => .more
  | .invalid => .invalid
  | .found length bytesRead =>
      if length < 0 ∨ maxBytes < length then .invalid
      else
        let start := offset + bytesRead
        if buffer.length < start + length.toNat then .more
        else
          match decodeUtf8 ((buffer.drop start).take length.toNat) with
          | none => .invalid
          | some value => .found value (bytesRead + length.toNat)

structure PacketFrame where
  payloadStart : Nat
  payloadEnd : Nat
  deriving DecidableEq

def readPacketFrame (buffer : Bytes) (offset : Nat) : Read PacketFrame :=
  match readVarInt buffer offset with
  | .more => .more
  | .invalid => .invalid
  | .found length bytesRead =>
      if length < 0 ∨ MAX_PACKET_LENGTH < length then .invalid
      else
        let payloadStart := offset + bytesRead
        let payloadEnd := payloadStart + length.toNat
        if buffer.length < payloadEnd then .more
        else .found ⟨payloadStart, payloadEnd⟩ (bytesRead + length.toNat)

structure HandshakeFields where
  protocolVersion : Int
  serverAddress : List Char
  serverAddressLength : Nat
  nextState : Int
  deriving DecidableEq

/-- A read that runs past the end of the packet is malformed; `none` is `"invalid"`. -/
def Read.toOption {α : Type} : Read α → Option (α × Nat)
  | .found value bytesRead => some (value, bytesRead)
  | _ => none

def decodeHandshakePayload (view : Bytes) : Option HandshakeFields := do
  let (id, idBytes) ← (readVarInt view 0).toOption
  if id ≠ HANDSHAKE_PACKET_ID then none
  else
    let (protocolVersion, versionBytes) ← (readVarInt view idBytes).toOption
    let offset := idBytes + versionBytes
    let (serverAddress, addressBytes) ←
      (readString view offset MAX_SERVER_ADDRESS_BYTES).toOption
    let offset := offset + addressBytes
    if view.length < offset + 2 then none
    else
      let (nextState, _) ← (readVarInt view (offset + 2)).toOption
      return ⟨protocolVersion, serverAddress, utf16Length serverAddress, nextState⟩

structure LoginStartFields where
  username : List Char
  usernameLength : Nat
  deriving DecidableEq

def decodeLoginStartPayload (view : Bytes) : Option LoginStartFields := do
  let (id, idBytes) ← (readVarInt view 0).toOption
  if id ≠ LOGIN_START_PACKET_ID then none
  else
    let (username, _) ← (readString view idBytes MAX_USERNAME_BYTES).toOption
    return ⟨username, utf16Length username⟩

/-- `buffer.subarray(payloadStart, payloadEnd)` -/
def PacketFrame.payload (frame : PacketFrame) (buffer : Bytes) : Bytes :=
  (buffer.drop frame.payloadStart).take (frame.payloadEnd - frame.payloadStart)

def invalidHandshake : StreamRuleFields :=
  [("handshake_valid".toList, .boolean false)]

def baseFields (handshake : HandshakeFields) : StreamRuleFields :=
  [("handshake_valid".toList, .boolean true),
    ("protocol_version".toList, .number handshake.protocolVersion),
    ("server_address".toList, .string handshake.serverAddress),
    ("server_address_length".toList, .number handshake.serverAddressLength),
    ("next_state".toList, .number handshake.nextState)]

/-- `decode` after the handshake, when it asks for the login state. -/
def decodeLogin (buffer : Bytes) (offset : Nat) (fields : StreamRuleFields) :
    StreamDecodeAttempt StreamRuleFields :=
  match readPacketFrame buffer offset with
  | .more => ⟨.incomplete, fields⟩
  | .invalid => ⟨.done, fields⟩
  | .found frame _ =>
      match decodeLoginStartPayload (frame.payload buffer) with
      | none => ⟨.done, fields⟩
      | some login =>
          ⟨.done, fields ++ [("username".toList, .string login.username),
            ("username_length".toList, .number login.usernameLength)]⟩

def decode (buffer : Bytes) : StreamDecodeAttempt StreamRuleFields :=
  match readPacketFrame buffer 0 with
  | .more => ⟨.incomplete, []⟩
  | .invalid => ⟨.done, invalidHandshake⟩
  | .found frame _ =>
      match decodeHandshakePayload (frame.payload buffer) with
      | none => ⟨.done, invalidHandshake⟩
      | some handshake =>
          if handshake.nextState ≠ LOGIN_NEXT_STATE then ⟨.done, baseFields handshake⟩
          else decodeLogin buffer frame.payloadEnd (baseFields handshake)

/-- Version 47, `mc.a.de`, the login state, and then the name `bob`. -/
example : decode [13, 0, 47, 7, 109, 99, 46, 97, 46, 100, 101, 99, 221, 2, 5, 0, 3, 98, 111, 98] =
    ⟨.done, baseFields ⟨47, "mc.a.de".toList, 7, 2⟩ ++
      [("username".toList, .string "bob".toList), ("username_length".toList, .number 3)]⟩ := by
  decide +kernel

/-- The registered decoders. -/
def streamProtocolDecoder (protocol : List Char) :
    Option (Bytes → StreamDecodeAttempt StreamRuleFields) :=
  if protocol = "minecraft-java".toList then some decode else none

end BurrowGate.TcpRelay
