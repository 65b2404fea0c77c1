import BurrowGate.Js.TextCoding
import BurrowGate.TcpRelay.MinecraftJava

/-!
# What the decoder reads of a login

A client's handshake for the login state and its login start are decoded to what the client
wrote, whatever follows them, and a rule that saw the fields of a part of the data sees the same
fields in every longer part.
-/

namespace BurrowGate.TcpRelay

open Js
open ProxyProtocol

/-! ## The wire format -/

/-- Seven bits a byte, the lowest first, in at most this many bytes. -/
def writeVarIntLoop : Nat → Nat → Bytes
  | 0, _ => []
  | bytes + 1, value =>
      if value < 128 then [UInt8.ofNat value]
      else UInt8.ofNat (value % 128 + 128) :: writeVarIntLoop bytes (value / 128)

/-- A signed number of 32 bits, written as its two's complement. -/
def writeVarInt (value : BitVec 32) : Bytes := writeVarIntLoop 5 value.toNat

def writeLength (length : Nat) : Bytes := writeVarInt (BitVec.ofNat 32 length)

def writeString (text : List Char) : Bytes :=
  writeLength (textEncode text).length ++ textEncode text

def writePacket (payload : Bytes) : Bytes := writeLength payload.length ++ payload

def handshakePayload (protocolVersion : BitVec 32) (serverAddress : List Char)
    (serverPort : UInt16) : Bytes :=
  writeVarInt 0 ++ (writeVarInt protocolVersion ++ (writeString serverAddress ++
    ([(serverPort >>> 8).toUInt8, serverPort.toUInt8] ++ writeVarInt 2)))

def loginStartPayload (username : List Char) : Bytes := writeVarInt 0 ++ writeString username

/-! ## A number is read as it was written -/

theorem toNat_and_127 (byte : UInt8) : (byte &&& 0x7f).toNat = byte.toNat % 128 := by
  rw [UInt8.toNat_and]
  exact Nat.and_two_pow_sub_one_eq_mod byte.toNat 7

theorem and_128_eq_zero_iff (byte : UInt8) : byte &&& 0x80 = 0 ↔ byte.toNat < 128 := by
  have hall : ∀ n : Fin 256, UInt8.ofNat n.val &&& 0x80 = 0 ↔ n.val < 128 := by decide +kernel
  have h := hall ⟨byte.toNat, byte.toNat_lt⟩
  rwa [UInt8.ofNat_toNat] at h

/-- The lowest seven bits and the others make up the number. -/
theorem or_shiftLeft_groups (value read : Nat) :
    BitVec.ofNat 32 (value % 128) <<< (7 * read) |||
        BitVec.ofNat 32 (value / 128) <<< (7 * (read + 1)) =
      BitVec.ofNat 32 value <<< (7 * read) := by
  have hgroups : BitVec.ofNat 32 value =
      BitVec.ofNat 32 (value % 2 ^ 7) ||| BitVec.ofNat 32 (value / 2 ^ 7) <<< 7 := by
    apply BitVec.eq_of_getLsbD_eq
    intro i hi
    rw [BitVec.getLsbD_or, BitVec.getLsbD_shiftLeft, BitVec.getLsbD_ofNat, BitVec.getLsbD_ofNat,
      BitVec.getLsbD_ofNat, Nat.testBit_mod_two_pow, Nat.testBit_div_two_pow]
    by_cases hlow : i < 7
    · simp [hlow, hi]
    · have hindex : i - 7 + 7 = i := by omega
      have hin : i - 7 < 32 := by omega
      simp [hlow, hi, hin, hindex]
  rw [hgroups, BitVec.shiftLeft_or_distrib, ← BitVec.shiftLeft_add, Nat.mul_add, Nat.mul_one,
    Nat.add_comm]
  rfl

/-- By induction on the bytes that are left: `read` of them have filled the low bits of `acc`. -/
theorem readVarIntLoop_write {buffer rest : Bytes} {offset : Nat} (bytes : Nat) (read value : Nat)
    (acc : BitVec 32) (hvalue : value < 128 ^ bytes) (hbytes : 0 < bytes)
    (hbuffer : buffer.drop (offset + read) = writeVarIntLoop bytes value ++ rest) :
    readVarIntLoop buffer offset bytes read acc =
      .found (acc ||| BitVec.ofNat 32 value <<< (7 * read)).toInt
        (read + (writeVarIntLoop bytes value).length) := by
  induction bytes generalizing read value acc with
  | zero => cases hbytes
  | succ bytes ih =>
      have hget : buffer[offset + read]? = (writeVarIntLoop (bytes + 1) value ++ rest)[0]? := by
        rw [← hbuffer, List.getElem?_drop, Nat.add_zero]
      have hnext : buffer.drop (offset + (read + 1)) =
          (writeVarIntLoop (bytes + 1) value ++ rest).drop 1 := by
        rw [← hbuffer, List.drop_drop]
        rfl
      rw [writeVarIntLoop] at hget hnext ⊢
      by_cases hlast : value < 128
      · rw [if_pos hlast] at hget ⊢
        have hbyte : (UInt8.ofNat value).toNat = value := by
          rw [UInt8.toNat_ofNat']
          omega
        rw [readVarIntLoop, hget]
        simp only [List.cons_append, List.getElem?_cons_zero]
        rw [if_pos ((and_128_eq_zero_iff _).mpr (by omega)), toNat_and_127, hbyte,
          Nat.mod_eq_of_lt hlast, List.length_singleton]
      · rw [if_neg hlast] at hget hnext ⊢
        have hbyte : (UInt8.ofNat (value % 128 + 128)).toNat = value % 128 + 128 := by
          rw [UInt8.toNat_ofNat']
          omega
        rw [readVarIntLoop, hget]
        simp only [List.cons_append, List.getElem?_cons_zero]
        have hmore : value / 128 < 128 ^ bytes := by
          rw [Nat.div_lt_iff_lt_mul (by omega), ← Nat.pow_succ]
          exact hvalue
        have hleft : 0 < bytes := by
          cases bytes with
          | zero => omega
          | succ bytes => exact Nat.succ_pos _
        rw [if_neg (mt (and_128_eq_zero_iff _).mp (by omega)),
          ih (read + 1) (value / 128) _ hmore hleft hnext, toNat_and_127, hbyte,
          List.length_cons, BitVec.or_assoc]
        have hlow : (value % 128 + 128) % 128 = value % 128 := by omega
        rw [hlow, or_shiftLeft_groups, Nat.add_assoc, Nat.add_comm 1]

theorem readVarInt_write (before rest : Bytes) (value : BitVec 32) :
    readVarInt (before ++ (writeVarInt value ++ rest)) before.length =
      .found value.toInt (writeVarInt value).length := by
  have hvalue : value.toNat < 128 ^ 5 := by
    have := value.isLt
    omega
  have hbuffer : (before ++ (writeVarInt value ++ rest)).drop (before.length + 0) =
      writeVarIntLoop 5 value.toNat ++ rest := List.drop_left
  rw [readVarInt, readVarIntLoop_write 5 0 value.toNat 0 hvalue (by omega) hbuffer]
  simp [writeVarInt]

theorem readVarInt_writeLength (before rest : Bytes) {length : Nat} (h : length < 2 ^ 31) :
    readVarInt (before ++ (writeLength length ++ rest)) before.length =
      .found length (writeLength length).length := by
  have hvalue : (BitVec.ofNat 32 length).toInt = length := by
    rw [BitVec.toInt_eq_toNat_of_lt, BitVec.toNat_ofNat]
    · omega
    · rw [BitVec.toNat_ofNat]
      omega
  rw [writeLength, readVarInt_write, hvalue]

/-! ## A text is read as it was written -/

theorem decodeUtf8_textEncode {text : List Char} (hstart : text.head? ≠ some '\uFEFF') :
    decodeUtf8 (textEncode text) = some text := by
  have hbytes : (⟨(textEncode text).toArray⟩ : ByteArray) = text.utf8Encode := by
    apply ByteArray.ext
    rw [List.utf8Encode, List.data_toByteArray]
    rfl
  have hread : String.fromUTF8? text.utf8Encode = some (String.ofList text) := by
    rw [String.fromUTF8?, dif_pos ByteArray.isValidUTF8_utf8Encode]
    apply congrArg some
    apply String.toByteArray_inj.mp
    rw [String.toByteArray_ofList]
    rfl
  rw [decodeUtf8, hbytes, hread, Option.map_some, String.toList_ofList]
  split
  · exact absurd rfl hstart
  · rfl

theorem readString_write (before rest : Bytes) {text : List Char} {maxBytes : Int}
    (hlength : (textEncode text).length ≤ maxBytes) (hmax : maxBytes < 2 ^ 31)
    (hstart : text.head? ≠ some '\uFEFF') :
    readString (before ++ (writeString text ++ rest)) before.length maxBytes =
      .found text (writeString text).length := by
  have hread := @readVarInt_writeLength before (textEncode text ++ rest) (textEncode text).length
    (by omega)
  have hsplit : before ++ (writeString text ++ rest) =
      before ++ (writeLength (textEncode text).length ++ (textEncode text ++ rest)) := by
    rw [writeString, List.append_assoc]
  have hin : ¬ (before ++ (writeString text ++ rest)).length <
      before.length + (writeLength (textEncode text).length).length +
        (textEncode text).length := by
    rw [hsplit]
    simp only [List.length_append]
    omega
  have htext : ((before ++ (writeString text ++ rest)).drop
      (before.length + (writeLength (textEncode text).length).length)).take
        (textEncode text).length = textEncode text := by
    rw [hsplit, ← List.append_assoc, ← List.length_append, List.drop_left, List.take_left]
  rw [readString, hsplit, hread, ← hsplit]
  dsimp only
  rw [if_neg (by omega), Int.toNat_natCast, if_neg hin, htext, decodeUtf8_textEncode hstart]
  dsimp only
  rw [writeString, List.length_append]

/-! ## A packet is read as it was written -/

theorem readPacketFrame_write (before rest : Bytes) {payload : Bytes}
    (h : payload.length ≤ 65535) :
    ∃ frame bytesRead, readPacketFrame (before ++ (writePacket payload ++ rest)) before.length =
        .found frame bytesRead ∧
      frame.payload (before ++ (writePacket payload ++ rest)) = payload ∧
        frame.payloadEnd = (before ++ writePacket payload).length := by
  have hread := @readVarInt_writeLength before (payload ++ rest) payload.length (by omega)
  have hsplit : before ++ (writePacket payload ++ rest) =
      before ++ (writeLength payload.length ++ (payload ++ rest)) := by
    rw [writePacket, List.append_assoc]
  have hin : ¬ (before ++ (writePacket payload ++ rest)).length <
      before.length + (writeLength payload.length).length + payload.length := by
    rw [hsplit]
    simp only [List.length_append]
    omega
  refine ⟨⟨before.length + (writeLength payload.length).length,
    before.length + (writeLength payload.length).length + payload.length⟩,
    (writeLength payload.length).length + payload.length, ?_, ?_, ?_⟩
  · rw [readPacketFrame, hsplit, hread, ← hsplit]
    dsimp only
    rw [MAX_PACKET_LENGTH, if_neg (by omega), Int.toNat_natCast, if_neg hin]
  · rw [PacketFrame.payload, Nat.add_sub_cancel_left, hsplit, ← List.append_assoc,
      ← List.length_append, List.drop_left, List.take_left]
  · rw [writePacket, List.length_append, List.length_append]
    dsimp only
    omega

theorem length_writeVarInt_le (value : BitVec 32) : (writeVarInt value).length ≤ 5 := by
  have hloop : ∀ bytes value, (writeVarIntLoop bytes value).length ≤ bytes := by
    intro bytes
    induction bytes with
    | zero => exact fun _ => Nat.le_refl 0
    | succ bytes ih =>
        intro value
        rw [writeVarIntLoop]
        split
        · exact Nat.succ_le_succ (Nat.zero_le _)
        · exact Nat.succ_le_succ (ih _)
  exact hloop 5 _

/-! ## The two payloads -/

theorem decodeHandshakePayload_write (protocolVersion : BitVec 32) {serverAddress : List Char}
    (serverPort : UInt16) (hlength : (textEncode serverAddress).length ≤ 300)
    (hstart : serverAddress.head? ≠ some '\uFEFF') :
    decodeHandshakePayload (handshakePayload protocolVersion serverAddress serverPort) =
      some ⟨protocolVersion.toInt, serverAddress, utf16Length serverAddress, 2⟩ := by
  generalize hport : [(serverPort >>> 8).toUInt8, serverPort.toUInt8] = port
  have hportLength : port.length = 2 := by rw [← hport]; rfl
  have hview : handshakePayload protocolVersion serverAddress serverPort =
      writeVarInt 0 ++ (writeVarInt protocolVersion ++ (writeString serverAddress ++
        (port ++ writeVarInt 2))) := by
    rw [handshakePayload, hport]
  rw [hview]
  have hid := readVarInt_write [] (writeVarInt protocolVersion ++ (writeString serverAddress ++
    (port ++ writeVarInt 2))) 0
  have hversion := readVarInt_write (writeVarInt 0) (writeString serverAddress ++
    (port ++ writeVarInt 2)) protocolVersion
  have haddress := @readString_write (writeVarInt 0 ++ writeVarInt protocolVersion)
    (port ++ writeVarInt 2) serverAddress MAX_SERVER_ADDRESS_BYTES
    (by rw [MAX_SERVER_ADDRESS_BYTES]; omega) (by decide) hstart
  have hnext := readVarInt_write
    (writeVarInt 0 ++ writeVarInt protocolVersion ++ writeString serverAddress ++ port) [] 2
  rw [List.nil_append, List.length_nil] at hid
  rw [List.append_nil] at hnext
  simp only [List.append_assoc, List.length_append] at haddress hnext
  rw [hportLength, ← Nat.add_assoc, ← Nat.add_assoc] at hnext
  have hin : ¬ (writeVarInt 0 ++ (writeVarInt protocolVersion ++ (writeString serverAddress ++
      (port ++ writeVarInt 2)))).length < (writeVarInt 0).length +
        (writeVarInt protocolVersion).length + (writeString serverAddress).length + 2 := by
    simp only [List.length_append]
    omega
  rw [decodeHandshakePayload, hid]
  simp only [Read.toOption, Option.bind_eq_bind, Option.bind_some]
  rw [if_neg (by decide), hversion]
  simp only [Option.bind_some]
  rw [haddress]
  simp only [Option.bind_some]
  rw [if_neg hin, hnext]
  rfl

theorem decodeLoginStartPayload_write {username : List Char}
    (hlength : (textEncode username).length ≤ 64) (hstart : username.head? ≠ some '\uFEFF') :
    decodeLoginStartPayload (loginStartPayload username) =
      some ⟨username, utf16Length username⟩ := by
  have hid := readVarInt_write [] (writeString username) 0
  have hname := @readString_write (writeVarInt 0) [] username MAX_USERNAME_BYTES
    (by rw [MAX_USERNAME_BYTES]; omega) (by decide) hstart
  rw [List.nil_append, List.length_nil] at hid
  rw [List.append_nil] at hname
  rw [decodeLoginStartPayload, loginStartPayload, hid]
  simp only [Read.toOption, Option.bind_eq_bind, Option.bind_some]
  rw [if_neg (by decide), hname]
  rfl

/-- Neither packet is longer than a packet may be. -/
theorem length_payloads (protocolVersion : BitVec 32) {serverAddress username : List Char}
    (serverPort : UInt16) (haddress : (textEncode serverAddress).length ≤ 300)
    (husername : (textEncode username).length ≤ 64) :
    (handshakePayload protocolVersion serverAddress serverPort).length ≤ 65535 ∧
      (loginStartPayload username).length ≤ 65535 := by
  have hzero := length_writeVarInt_le 0
  have htwo := length_writeVarInt_le 2
  have hversion := length_writeVarInt_le protocolVersion
  have haddressLength := length_writeVarInt_le (BitVec.ofNat 32 (textEncode serverAddress).length)
  have husernameLength := length_writeVarInt_le (BitVec.ofNat 32 (textEncode username).length)
  simp only [handshakePayload, loginStartPayload, writeString, writeLength, List.length_append,
    List.length_cons, List.length_nil]
  omega

/-! ## More data -/

variable {buffer : Bytes}

theorem readVarIntLoop_append {offset bytes read : Nat} {acc : BitVec 32}
    (h : readVarIntLoop buffer offset bytes read acc ≠ .more) (more : Bytes) :
    readVarIntLoop (buffer ++ more) offset bytes read acc =
      readVarIntLoop buffer offset bytes read acc := by
  induction bytes generalizing read acc with
  | zero => rfl
  | succ bytes ih =>
      rw [readVarIntLoop] at h
      rw [readVarIntLoop, readVarIntLoop]
      cases hget : buffer[offset + read]? with
      | none =>
          rw [hget] at h
          exact absurd rfl h
      | some byte =>
          have hmore : (buffer ++ more)[offset + read]? = some byte := by
            obtain ⟨hlt, -⟩ := List.getElem?_eq_some_iff.mp hget
            rw [List.getElem?_append_left hlt, hget]
          rw [hget] at h
          rw [hmore]
          dsimp only at h ⊢
          split
          · rfl
          · rename_i hcontinues
            rw [if_neg hcontinues] at h
            exact ih h

/-- What is read of a frame that is complete, or that never will be, is read of more data too. -/
theorem readPacketFrame_append {offset : Nat} (h : readPacketFrame buffer offset ≠ .more)
    (more : Bytes) : readPacketFrame (buffer ++ more) offset = readPacketFrame buffer offset := by
  have hlength : readVarInt buffer offset ≠ .more := by
    intro hmore
    rw [readPacketFrame, hmore] at h
    exact h rfl
  have hsame : readVarInt (buffer ++ more) offset = readVarInt buffer offset :=
    readVarIntLoop_append hlength more
  rw [readPacketFrame] at h
  rw [readPacketFrame, readPacketFrame, hsame]
  cases hread : readVarInt buffer offset with
  | more => rfl
  | invalid => rfl
  | found length bytesRead =>
      rw [hread] at h
      dsimp only at h ⊢
      split
      · rfl
      · rename_i hrange
        rw [if_neg hrange] at h
        have hin : ¬ buffer.length < offset + bytesRead + length.toNat := by
          intro hshort
          rw [if_pos hshort] at h
          exact h rfl
        rw [if_neg hin, if_neg (by rw [List.length_append]; omega)]

theorem payload_append {offset bytesRead : Nat} {frame : PacketFrame}
    (h : readPacketFrame buffer offset = .found frame bytesRead) (more : Bytes) :
    frame.payload (buffer ++ more) = frame.payload buffer := by
  rw [readPacketFrame] at h
  cases hread : readVarInt buffer offset with
  | more => rw [hread] at h; cases h
  | invalid => rw [hread] at h; cases h
  | found length lengthBytes =>
      rw [hread] at h
      dsimp only at h
      split at h
      · cases h
      split at h
      · cases h
      rename_i hin
      obtain ⟨rfl, -⟩ := Read.found.inj h
      rw [PacketFrame.payload, PacketFrame.payload]
      dsimp only
      rw [Nat.add_sub_cancel_left, List.drop_append_of_le_length (by omega),
        List.take_append_of_le_length]
      rw [List.length_drop]
      omega

/-- What decoding data says of every extension of the data. -/
structure Stable (attempt extended : StreamDecodeAttempt StreamRuleFields) : Prop where
  done : attempt.status = .done → extended = attempt
  fields : ∀ name value, attempt.fields.lookup name = some value →
    extended.fields.lookup name = some value

theorem Stable.of_eq {attempt extended : StreamDecodeAttempt StreamRuleFields}
    (h : extended = attempt) : Stable attempt extended := by
  subst h
  exact ⟨fun _ => rfl, fun _ _ hfield => hfield⟩

theorem lookup_append_of_some {fields added : StreamRuleFields} {name : List Char}
    {value : StreamRuleFieldValue} (h : fields.lookup name = some value) :
    (fields ++ added).lookup name = some value := by
  induction fields with
  | nil => cases h
  | cons field fields ih =>
      rw [List.lookup_cons] at h
      rw [List.cons_append, List.lookup_cons]
      split at h
      · exact h
      · exact ih h

theorem decodeLogin_append (offset : Nat) (fields : StreamRuleFields) (more : Bytes) :
    Stable (decodeLogin buffer offset fields) (decodeLogin (buffer ++ more) offset fields) := by
  cases hframe : readPacketFrame buffer offset with
  | more =>
      -- The extension decides alone; the fields of the handshake are part of every outcome.
      rw [decodeLogin, hframe]
      refine ⟨fun hdone => (by cases hdone), ?_⟩
      intro name value hfield
      rw [decodeLogin]
      split
      · exact hfield
      · exact hfield
      · split
        · exact hfield
        · exact lookup_append_of_some hfield
  | invalid =>
      have hsame := @readPacketFrame_append buffer offset
        (by rw [hframe]; decide) more
      apply Stable.of_eq
      rw [decodeLogin, decodeLogin, hsame, hframe]
  | found frame bytesRead =>
      have hsame := @readPacketFrame_append buffer offset
        (by rw [hframe]; exact fun h => (by cases h)) more
      apply Stable.of_eq
      rw [decodeLogin, decodeLogin, hsame, hframe]
      dsimp only
      rw [payload_append hframe]

theorem decode_append (buffer more : Bytes) :
    Stable (decode buffer) (decode (buffer ++ more)) := by
  cases hframe : readPacketFrame buffer 0 with
  | more =>
      rw [decode, hframe]
      exact ⟨fun hdone => (by cases hdone), fun name value hfield => (by cases hfield)⟩
  | invalid =>
      have hsame := @readPacketFrame_append buffer 0
        (by rw [hframe]; decide) more
      apply Stable.of_eq
      rw [decode, decode, hsame, hframe]
  | found frame bytesRead =>
      have hsame := @readPacketFrame_append buffer 0
        (by rw [hframe]; exact fun h => (by cases h)) more
      rw [decode, decode, hsame, hframe]
      dsimp only
      rw [payload_append hframe]
      split
      · exact Stable.of_eq rfl
      · split
        · exact Stable.of_eq rfl
        · exact decodeLogin_append _ _ more

/-! ## The decoder -/

theorem decode_login (protocolVersion : BitVec 32) {serverAddress username : List Char}
    (serverPort : UInt16) (trailing : Bytes) (haddress : (textEncode serverAddress).length ≤ 300)
    (hstart : serverAddress.head? ≠ some '\uFEFF') (hname : (textEncode username).length ≤ 64)
    (hnameStart : username.head? ≠ some '\uFEFF') :
    decode (writePacket (handshakePayload protocolVersion serverAddress serverPort) ++
        (writePacket (loginStartPayload username) ++ trailing)) =
      ⟨.done, baseFields ⟨protocolVersion.toInt, serverAddress, utf16Length serverAddress, 2⟩ ++
        [("username".toList, .string username),
          ("username_length".toList, .number (utf16Length username))]⟩ := by
  obtain ⟨hhandshake, hlogin⟩ := length_payloads protocolVersion serverPort haddress hname
  obtain ⟨frame, bytesRead, hread, hpayload, hend⟩ := readPacketFrame_write []
    (writePacket (loginStartPayload username) ++ trailing) hhandshake
  obtain ⟨loginFrame, loginBytes, hloginRead, hloginPayload, -⟩ := readPacketFrame_write
    (writePacket (handshakePayload protocolVersion serverAddress serverPort)) trailing hlogin
  rw [List.nil_append, List.length_nil] at hread
  rw [List.nil_append] at hpayload hend
  rw [decode, hread]
  dsimp only
  rw [hpayload, decodeHandshakePayload_write protocolVersion serverPort haddress hstart]
  dsimp only
  rw [LOGIN_NEXT_STATE, if_neg (by decide), decodeLogin, hend, hloginRead]
  dsimp only
  rw [hloginPayload, decodeLoginStartPayload_write hname hnameStart]

/-- A login is decoded as it was written, and more data never changes what was reported. -/
theorem minecraft_login_decoding :
    (∀ (protocolVersion : BitVec 32) (serverAddress username : List Char) (serverPort : UInt16)
        (trailing : Bytes), (textEncode serverAddress).length ≤ 300 →
      serverAddress.head? ≠ some '\uFEFF' → (textEncode username).length ≤ 64 →
        username.head? ≠ some '\uFEFF' →
          decode (writePacket (handshakePayload protocolVersion serverAddress serverPort) ++
              (writePacket (loginStartPayload username) ++ trailing)) =
            ⟨.done,
              baseFields ⟨protocolVersion.toInt, serverAddress, utf16Length serverAddress, 2⟩ ++
                [("username".toList, .string username),
                  ("username_length".toList, .number (utf16Length username))]⟩) ∧
    (∀ buffer more : Bytes, (decode buffer).status = .done →
      decode (buffer ++ more) = decode buffer) ∧
    ∀ buffer more : Bytes, (decode buffer).status = .incomplete → ∀ name value,
      (decode buffer).fields.lookup name = some value →
        (decode (buffer ++ more)).fields.lookup name = some value := by
  refine ⟨?_, ?_, ?_⟩
  · intro protocolVersion serverAddress username serverPort trailing haddress hstart hname
      hnameStart
    exact decode_login protocolVersion serverPort trailing haddress hstart hname hnameStart
  · intro buffer more hdone
    exact (decode_append buffer more).done hdone
  · intro buffer more _ name value hfield
    exact (decode_append buffer more).fields name value hfield

/-- A login to a server with a name outside ASCII, followed by one more byte. -/
theorem minecraft_login_decoding_umlaut :
    decode (writePacket (handshakePayload (-1) "mc.bär.de".toList 25565) ++
        (writePacket (loginStartPayload "bob".toList) ++ [7])) =
      ⟨.done, baseFields ⟨-1, "mc.bär.de".toList, 9, 2⟩ ++
        [("username".toList, .string "bob".toList), ("username_length".toList, .number 3)]⟩ :=
  minecraft_login_decoding.1 (-1) "mc.bär.de".toList "bob".toList 25565 [7] (by decide)
    (by decide) (by decide) (by decide)

end BurrowGate.TcpRelay
