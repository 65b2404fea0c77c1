import BurrowGate.Js.UriComponent
import Mathlib.Tactic.IntervalCases

/-!
# `encodeURIComponent`

Every character but the unreserved ones becomes the escapes of its UTF-8 bytes, which
`decodeURIComponent` reads back.
-/

namespace BurrowGate.Js

def isUriUnreserved (c : Char) : Bool := c.isAlphanum || "-_.!~*'()".toList.contains c

def hexUpper (n : Nat) : Char := Char.ofNat (if n < 10 then n + 48 else n + 55)

def escapeByte (b : UInt8) : List Char := ['%', hexUpper (b.toNat / 16), hexUpper (b.toNat % 16)]

def encodeUriChar (c : Char) : List Char :=
  if isUriUnreserved c then [c] else (String.utf8EncodeChar c).flatMap escapeByte

def encodeURIComponent (cs : List Char) : List Char := cs.flatMap encodeUriChar

/-! ## The escapes -/

theorem hexByte_hexUpper : ∀ n < 256, hexByte (hexUpper (n / 16)) (hexUpper (n % 16)) =
    some (UInt8.ofNat n) := by
  decide +kernel

theorem uriUnits_escapeByte (b : UInt8) (rest : List Char) :
    uriUnits (escapeByte b ++ rest) = (uriUnits rest).map (.escaped b :: ·) := by
  have hbyte := hexByte_hexUpper b.toNat b.toNat_lt
  rw [UInt8.ofNat_toNat] at hbyte
  rw [escapeByte, List.cons_append, List.cons_append, List.cons_append, uriUnits_escape, hbyte]
  rfl

theorem uriUnits_escapeBytes (bytes : List UInt8) :
    uriUnits (bytes.flatMap escapeByte) = some (bytes.map .escaped) := by
  induction bytes with
  | nil => rfl
  | cons b bytes ih =>
      rw [List.flatMap_cons, uriUnits_escapeByte, ih]
      rfl

/-! ## The bytes of one character -/

theorem toNat_byte {n : Nat} (h : n < 256) : (UInt8.ofNat n).toNat = n :=
  UInt8.toNat_ofNat_of_lt' h

theorem leadByte_two {n : Nat} (hlow : 2 ≤ n) (hhigh : n < 32) :
    (leadByte (UInt8.ofNat (n + 0xc0))).2 = some ⟨n, 1, 0x80, 0xbf⟩ := by
  interval_cases n <;> rfl

theorem leadByte_three {n : Nat} (h : n < 16) :
    (leadByte (UInt8.ofNat (n + 0xe0))).2 =
      some ⟨n, 2, if n = 0 then 0xa0 else 0x80, if n = 13 then 0x9f else 0xbf⟩ := by
  interval_cases n <;> rfl

theorem leadByte_four {n : Nat} (h : n < 5) :
    (leadByte (UInt8.ofNat (n + 0xf0))).2 =
      some ⟨n, 3, if n = 0 then 0x90 else 0x80, if n = 4 then 0x8f else 0xbf⟩ := by
  interval_cases n <;> rfl

theorem decodeUnits_lead {b : UInt8} {s : Utf8Sequence} (hb : 0x7f < b.toNat)
    (hlead : (leadByte b).2 = some s) (units : List UriUnit) :
    decodeUnits none (.escaped b :: units) = decodeUnits (some s) units := by
  have hhigh : ¬b ≤ 0x7f := by
    rw [UInt8.le_iff_toNat_le]
    exact Nat.not_le.mpr hb
  rw [decodeUnits, if_neg hhigh, hlead]

theorem toNat_next {n : Nat} {lower upper : UInt8} (hn : n < 64)
    (hlow : lower.toNat ≤ n + 0x80) (hhigh : n + 0x80 ≤ upper.toNat) :
    (lower ≤ UInt8.ofNat (n + 0x80) ∧ UInt8.ofNat (n + 0x80) ≤ upper) ∧
      (UInt8.ofNat (n + 0x80)).toNat - 0x80 = n := by
  rw [UInt8.le_iff_toNat_le, UInt8.le_iff_toNat_le, toNat_byte (by omega)]
  exact ⟨⟨hlow, hhigh⟩, Nat.add_sub_cancel ..⟩

theorem decodeUnits_last {codePoint n : Nat} {lower upper : UInt8} (hn : n < 64)
    (hlow : lower.toNat ≤ n + 0x80) (hhigh : n + 0x80 ≤ upper.toNat) (units : List UriUnit) :
    decodeUnits (some ⟨codePoint, 1, lower, upper⟩)
        (.escaped (UInt8.ofNat (n + 0x80)) :: units) =
      (decodeUnits none units).map (Char.ofNat (codePoint * 64 + n) :: ·) := by
  obtain ⟨hin, hvalue⟩ := toNat_next hn hlow hhigh
  rw [decodeUnits, if_pos hin, hvalue]
  exact if_pos rfl

theorem decodeUnits_more {codePoint needed n : Nat} {lower upper : UInt8} (hn : n < 64)
    (hlow : lower.toNat ≤ n + 0x80) (hhigh : n + 0x80 ≤ upper.toNat) (units : List UriUnit) :
    decodeUnits (some ⟨codePoint, needed + 2, lower, upper⟩)
        (.escaped (UInt8.ofNat (n + 0x80)) :: units) =
      decodeUnits (some ⟨codePoint * 64 + n, needed + 1, 0x80, 0xbf⟩) units := by
  obtain ⟨hin, hvalue⟩ := toNat_next hn hlow hhigh
  have hneeded : needed + 2 ≠ 1 := by omega
  rw [decodeUnits, if_pos hin, hvalue]
  exact if_neg hneeded

theorem decodeUnits_utf8EncodeChar (c : Char) :
    decodeUnits none ((String.utf8EncodeChar c).map .escaped) = some [c] := by
  have hc : Char.ofNat c.val.toNat = c := Char.ofNat_toNat c
  have hvalid : c.val.toNat < 0xd800 ∨ (0xdfff < c.val.toNat ∧ c.val.toNat < 0x110000) := c.valid
  unfold String.utf8EncodeChar
  generalize c.val.toNat = v at hc hvalid
  dsimp only
  split
  · have hlow : UInt8.ofNat v ≤ 0x7f := by
      rw [UInt8.le_iff_toNat_le, toNat_byte (by omega)]
      assumption
    rw [List.map_singleton, decodeUnits, if_pos hlow, toNat_byte (by omega), hc]
    rfl
  · split
    · have hlead : v / 64 % 0x20 = v / 64 := by omega
      have hbyte : (UInt8.ofNat (v / 64 + 0xc0)).toNat = v / 64 + 0xc0 := toNat_byte (by omega)
      have hwhole : v / 64 * 64 + v % 0x40 = v := by omega
      rw [hlead, List.map_cons, List.map_singleton,
        decodeUnits_lead (by omega) (leadByte_two (by omega) (by omega)),
        decodeUnits_last (by omega) (by simp) (by simp; omega), hwhole, hc]
      rfl
    · split
      · have hlead : v / 4096 % 0x10 = v / 4096 := by omega
        have hbyte : (UInt8.ofNat (v / 4096 + 0xe0)).toNat = v / 4096 + 0xe0 :=
          toNat_byte (by omega)
        have hwhole : (v / 4096 * 64 + v / 64 % 0x40) * 64 + v % 0x40 = v := by omega
        rw [hlead, List.map_cons, List.map_cons, List.map_singleton,
          decodeUnits_lead (by omega) (leadByte_three (by omega)),
          decodeUnits_more (by omega) (by split <;> simp; omega) (by split <;> (simp; omega)),
          decodeUnits_last (by omega) (by simp) (by simp; omega), hwhole, hc]
        rfl
      · have hlead : v / 262144 % 0x08 = v / 262144 := by omega
        have hbyte : (UInt8.ofNat (v / 262144 + 0xf0)).toNat = v / 262144 + 0xf0 :=
          toNat_byte (by omega)
        have hwhole :
            ((v / 262144 * 64 + v / 4096 % 0x40) * 64 + v / 64 % 0x40) * 64 + v % 0x40 = v := by
          omega
        rw [hlead, List.map_cons, List.map_cons, List.map_cons, List.map_singleton,
          decodeUnits_lead (by omega) (leadByte_four (by omega)),
          decodeUnits_more (by omega) (by split <;> simp; omega) (by split <;> (simp; omega)),
          decodeUnits_more (by omega) (by simp) (by simp; omega),
          decodeUnits_last (by omega) (by simp) (by simp; omega), hwhole, hc]
        rfl

theorem decodeURIComponent_encodeUriChar (c : Char) :
    decodeURIComponent (encodeUriChar c) = some [c] := by
  rw [encodeUriChar]
  split
  · rename_i hplain
    have hpercent : c ≠ '%' := by
      intro h
      rw [h] at hplain
      exact absurd hplain (by decide)
    rw [decodeURIComponent_cons hpercent]
    rfl
  · rw [decodeURIComponent, uriUnits_escapeBytes, Option.bind_some]
    exact decodeUnits_utf8EncodeChar c

/-- Every text is read back. -/
theorem decodeURIComponent_encodeURIComponent (cs : List Char) :
    decodeURIComponent (encodeURIComponent cs) = some cs := by
  induction cs with
  | nil => rfl
  | cons c cs ih =>
      rw [encodeURIComponent, List.flatMap_cons,
        decodeURIComponent_append (decodeURIComponent_encodeUriChar c)]
      rw [encodeURIComponent] at ih
      rw [ih]
      rfl

/-! ## The characters of the encoding -/

def isUriEncoded (c : Char) : Bool := isUriUnreserved c || c = '%'

theorem isUriEncoded_hexUpper : ∀ n < 16, isUriEncoded (hexUpper n) = true := by
  decide +kernel

theorem isUriEncoded_lt {c : Char} (h : isUriEncoded c = true) : c.toNat < 128 := by
  have hpunctuation : "-_.!~*'()%".toList.all (·.toNat < 128) = true := by decide
  rw [isUriEncoded, isUriUnreserved, Bool.or_assoc] at h
  rcases Bool.or_eq_true_iff.mp h with hletter | hother
  · unfold Char.isAlphanum Char.isAlpha Char.isUpper Char.isLower Char.isDigit at hletter
    simp only [Bool.or_eq_true, Bool.and_eq_true, decide_eq_true_eq, UInt32.le_iff_toNat_le,
      ge_iff_le] at hletter
    have hZ : 'Z'.val.toNat = 90 := rfl
    have hz : 'z'.val.toNat = 122 := rfl
    have hnine : '9'.val.toNat = 57 := rfl
    have hc : c.toNat = c.val.toNat := rfl
    omega
  · apply of_decide_eq_true
    apply List.all_eq_true.mp hpunctuation
    rcases Bool.or_eq_true_iff.mp hother with hmark | hpercent
    · exact List.mem_append_left ['%'] (List.contains_iff_mem.mp hmark)
    · rw [of_decide_eq_true hpercent]
      exact List.mem_append_right "-_.!~*'()".toList List.mem_cons_self

theorem isUriEncoded_plain : ∀ n < 128, isUriEncoded (Char.ofNat n) = true →
    isWhiteSpace (Char.ofNat n) = false ∧ Char.ofNat n ≠ ';' := by
  decide +kernel

theorem isUriEncoded_cases {c : Char} (h : isUriEncoded c = true) :
    isWhiteSpace c = false ∧ c ≠ ';' := by
  have hplain := isUriEncoded_plain c.toNat (isUriEncoded_lt h)
  rw [Char.ofNat_toNat] at hplain
  exact hplain h

theorem isUriEncoded_of_mem {cs : List Char} {c : Char} (h : c ∈ encodeURIComponent cs) :
    isUriEncoded c = true := by
  obtain ⟨d, -, hd⟩ := List.mem_flatMap.mp h
  rw [encodeUriChar] at hd
  split at hd
  · obtain rfl := List.mem_singleton.mp hd
    rw [isUriEncoded, ‹isUriUnreserved c = true›, Bool.true_or]
  · obtain ⟨b, -, hb⟩ := List.mem_flatMap.mp hd
    rcases List.mem_cons.mp hb with rfl | hb
    · rfl
    · have hlt := b.toNat_lt
      rcases List.mem_cons.mp hb with rfl | hb
      · exact isUriEncoded_hexUpper _ (by omega)
      · obtain rfl := List.mem_singleton.mp hb
        exact isUriEncoded_hexUpper _ (by omega)

end BurrowGate.Js
