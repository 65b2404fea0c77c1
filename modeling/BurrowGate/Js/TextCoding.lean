import BurrowGate.Js.Text

/-!
# `TextEncoder` and `TextDecoder`

A lone surrogate of a JavaScript string is written as U+FFFD, so strings are lists
of Unicode scalar values here. The decoder is the replacing one: it never fails.
-/

namespace BurrowGate.Js

/-- `new TextEncoder().encode(text)` -/
def textEncode (cs : List Char) : List UInt8 := cs.flatMap String.utf8EncodeChar

theorem textEncode_injective : Function.Injective textEncode := by
  intro cs ds h
  have hbytes : cs.utf8Encode = ds.utf8Encode := by
    rw [List.utf8Encode, List.utf8Encode]
    exact congrArg List.toByteArray h
  have hread := congrArg ByteArray.utf8Decode? hbytes
  rw [List.utf8Decode?_utf8Encode, List.utf8Decode?_utf8Encode, Option.some.injEq] at hread
  exact Array.toList_inj.mpr hread

/-! ## Decoding -/

/-- A sequence that has begun: its bits so far, the bytes it lacks, the range of the next. -/
structure Utf8Sequence where
  codePoint : Nat
  needed : Nat
  lower : UInt8
  upper : UInt8

def replacementCharacter : Char := '\ufffd'

/-- The first byte of a character: what it yields, and the sequence it begins. -/
def leadByte (b : UInt8) : List Char × Option Utf8Sequence :=
  if b ≤ 0x7f then ([Char.ofNat b.toNat], none)
  else if 0xc2 ≤ b ∧ b ≤ 0xdf then ([], some ⟨b.toNat - 0xc0, 1, 0x80, 0xbf⟩)
  else if 0xe0 ≤ b ∧ b ≤ 0xef then
    ([], some ⟨b.toNat - 0xe0, 2, if b = 0xe0 then 0xa0 else 0x80, if b = 0xed then 0x9f else 0xbf⟩)
  else if 0xf0 ≤ b ∧ b ≤ 0xf4 then
    ([], some ⟨b.toNat - 0xf0, 3, if b = 0xf0 then 0x90 else 0x80, if b = 0xf4 then 0x8f else 0xbf⟩)
  else ([replacementCharacter], none)

def utf8Decode : Option Utf8Sequence → List UInt8 → List Char
  | none, [] => []
  | some _, [] => [replacementCharacter]
  | none, b :: bytes => (leadByte b).1 ++ utf8Decode (leadByte b).2 bytes
  | some s, b :: bytes =>
      if s.lower ≤ b ∧ b ≤ s.upper then
        let codePoint := s.codePoint * 64 + (b.toNat - 0x80)
        if s.needed = 1 then Char.ofNat codePoint :: utf8Decode none bytes
        else utf8Decode (some ⟨codePoint, s.needed - 1, 0x80, 0xbf⟩) bytes
      -- The byte that breaks a sequence off is read again as a first byte.
      else replacementCharacter :: (leadByte b).1 ++ utf8Decode (leadByte b).2 bytes

/-- `new TextDecoder().decode(bytes)`, without the byte order mark at the start. -/
def textDecode (bytes : List UInt8) : List Char :=
  match bytes with
  | 0xef :: 0xbb :: 0xbf :: rest => utf8Decode none rest
  | bytes => utf8Decode none bytes

def isAscii (c : Char) : Bool := c.val ≤ 0x7f

end BurrowGate.Js
