import BurrowGate.Net.PrivateIp
import BurrowGate.ProxyProtocol.Stability

/-!
# The header that is written is the header that is read

`proxyProtocolHeader` and `parseIncomingProxyHeader` in both forms, for any two
addresses of one family.
-/

namespace BurrowGate.ProxyProtocol

open Js
open Net
open Lib.Positional
open Lib.Chunks

/-! ## Text of addresses -/

theorem isAddressCharacter_ascii {c : Char} (h : isAddressCharacter c = true) :
    c ≠ ' ' ∧ c ≠ '\r' ∧ c.val < 0x80 := by
  refine ⟨?_, ?_, ?_⟩
  · rintro rfl
    revert h
    decide
  · rintro rfl
    revert h
    decide
  · simp only [isAddressCharacter, isHexDigit, digitValue, Bool.or_eq_true, decide_eq_true_eq] at h
    rcases h with (h | rfl) | rfl
    · have hbound : ∀ {bound : Char}, c ≤ bound → bound.val < 0x80 → c.val < 0x80 :=
        fun hle hlt => UInt32.lt_of_le_of_lt hle hlt
      split at h
      · rename_i hdigit
        exact hbound hdigit.2 (by decide)
      · split at h
        · rename_i hlower
          exact hbound hlower.2 (by decide)
        · split at h
          · rename_i hupper
            exact hbound hupper.2 (by decide)
          · cases h
    · decide
    · decide

theorem length_intercalate_le (sep : Char) {parts : List (List Char)} {n : Nat}
    (h : ∀ part ∈ parts, part.length ≤ n) :
    ([sep].intercalate parts).length ≤ parts.length * (n + 1) := by
  induction parts with
  | nil => exact Nat.zero_le _
  | cons part rest ih =>
      have hpart := h part List.mem_cons_self
      have hrest := ih fun p hp => h p (List.mem_cons_of_mem _ hp)
      rw [List.length_cons, Nat.succ_mul]
      cases rest with
      | nil =>
          rw [List.intercalate_singleton]
          omega
      | cons next rest =>
          rw [List.intercalate_cons_cons, List.length_append, List.length_append,
            List.length_singleton]
          omega

/-- What the text form needs of the text of an address. -/
structure IsAddressText (text : List Char) (parsed : ParsedIp) : Prop where
  characters : ∀ c ∈ text, isAddressCharacter c = true
  length : text.length ≤ 40
  version : isIP text = some parsed.version
  parse : parseIp text = some parsed

theorem isIP_of_parseIp {ip : List Char} {parsed : ParsedIp} (h : parseIp ip = some parsed) :
    isIP ip = some parsed.version := by
  unfold parseIp at h
  split at h
  · rename_i hv
    obtain ⟨v, -, rfl⟩ := Option.map_eq_some_iff.mp h
    exact hv
  · rename_i hv
    obtain ⟨v, -, rfl⟩ := Option.map_eq_some_iff.mp h
    exact hv
  · cases h

theorem isAddressText_v4 {given : List Char} {parsed : ParsedIp} (h : parseIp given = some parsed)
    (hv : parsed.version = .v4) : IsAddressText given parsed := by
  have his := isIP_of_parseIp h
  rw [hv] at his
  have hv4 : isIPv4 given = true := by
    unfold isIP at his
    split at his
    · rename_i hv4
      exact hv4
    · split at his <;> cases his
  have hvalue : ∃ v, parseIpv4 given = some v := by
    rw [parseIp, his] at h
    obtain ⟨v, hv, -⟩ := Option.map_eq_some_iff.mp h
    exact ⟨v, hv⟩
  refine ⟨isIPv4_characters hv4, ?_, hv ▸ his, h⟩
  obtain ⟨v, hparse⟩ := hvalue
  unfold parseIpv4 at hparse
  dsimp only at hparse
  split at hparse
  · rename_i hparts
    have hpart : ∀ part ∈ given.splitOn '.', part.length ≤ 3 := by
      intro part hmem
      obtain ⟨d, hd⟩ := Option.isSome_iff_exists.mp (digit_of_placeValue hparse part hmem)
      unfold parseV4Part at hd
      split at hd
      · rename_i hshape
        exact hshape.2.1
      · cases hd
    have hlen := length_intercalate_le '.' hpart
    rw [List.intercalate_splitOn, hparts] at hlen
    omega
  · cases hparse

theorem isAddressCharacter_hexText {text : List Char} (h : IsHexText text) {c : Char}
    (hc : c ∈ text) : isAddressCharacter c = true := by
  rcases h c hc with rfl | ⟨g, hin⟩
  · decide
  · simp [isAddressCharacter, (toDigits_hex_characters hin).1]

theorem length_joinGroups_le {groups : List Nat} (h : ∀ g ∈ groups, g < 65536) :
    (joinGroups groups).length ≤ groups.length * 5 := by
  have hlen := @length_intercalate_le ':' (groups.map (Nat.toDigits 16)) 4 (by
    intro part hpart
    obtain ⟨g, hg, rfl⟩ := List.mem_map.mp hpart
    exact length_toDigits_group (h g hg))
  rw [List.length_map] at hlen
  exact hlen

theorem canonicalIpv6_text (v : Nat) :
    IsHexText (canonicalIpv6 v) ∧ (canonicalIpv6 v).length ≤ 40 := by
  have hlen : (ipv6Groups v).length = 8 := rfl
  unfold canonicalIpv6
  dsimp only
  split
  · refine ⟨joinGroups_isHexText _, ?_⟩
    have := @length_joinGroups_le (ipv6Groups v) fun g hg => ipv6Groups_lt hg
    omega
  · rename_i hlong
    have hrun := (bestZeroRun_ipv6Groups v).1
    generalize bestZeroRun 0 (ipv6Groups v) (0, 0) = run at hlong hrun ⊢
    refine ⟨?_, ?_⟩
    · refine (joinGroups_isHexText _).append ?_
      have hcolons : IsHexText [':', ':'] := fun c hc => .inl (by simpa using hc)
      exact hcolons.append (joinGroups_isHexText _)
    · have hleft := @length_joinGroups_le ((ipv6Groups v).take run.1)
        fun g hg => ipv6Groups_lt (List.mem_of_mem_take hg)
      have hright := @length_joinGroups_le ((ipv6Groups v).drop (run.1 + run.2))
        fun g hg => ipv6Groups_lt (List.mem_of_mem_drop hg)
      rw [List.length_take, hlen] at hleft
      rw [List.length_drop, hlen] at hright
      rw [hlen] at hrun
      rw [List.length_append, List.length_cons, List.length_cons]
      omega

theorem addressText_isAddressText {given : List Char} {parsed : ParsedIp}
    (h : parseIp given = some parsed) : IsAddressText (addressText parsed given) parsed := by
  unfold addressText
  obtain ⟨version, value⟩ := parsed
  cases version with
  | v4 => exact isAddressText_v4 h rfl
  | v6 =>
      have hlt : value < 2 ^ 128 := parseIp_lt h
      obtain ⟨his, hparse⟩ := parseIp_canonicalIpv6 hlt
      obtain ⟨hhex, hlen⟩ := canonicalIpv6_text value
      refine ⟨fun c hc => isAddressCharacter_hexText hhex hc, hlen, his, ?_⟩
      dsimp only
      rw [parseIp, his]
      dsimp only
      rw [hparse]
      rfl

/-! ## The text form -/

theorem decimal_characters : ∀ d < 10, isDigit (Nat.digitChar d) = true ∧
    isAddressCharacter (Nat.digitChar d) = true := by
  decide

theorem toDigits_decimal_characters {n : Nat} {c : Char} (hc : c ∈ Nat.toDigits 10 n) :
    isDigit c = true ∧ isAddressCharacter c = true := by
  obtain ⟨d, hd, rfl⟩ := exists_of_mem_toDigits (by decide) hc
  exact decimal_characters d hd

theorem length_toDigits_port {n : Nat} (h : n ≤ 65535) : (Nat.toDigits 10 n).length ≤ 5 := by
  rw [Nat.length_toDigits_le_iff (by decide) (by decide)]
  omega

theorem port_toDigits {n : Nat} (h : n ≤ 65535) : port (Nat.toDigits 10 n) = .ok n := by
  have hvalue : (digitsValue 10 (Nat.toDigits 10 n)).filter (· ≤ 65535) = some n := by
    rw [digitsValue_toDigits (by decide) (by decide)]
    simp [h]
  have htext : isPortText (Nat.toDigits 10 n) = true := by
    by_cases hzero : n = 0
    · subst hzero
      decide
    · have hdigits : (Nat.toDigits 10 n).all isDigit = true :=
        List.all_eq_true.mpr fun c hc => (toDigits_decimal_characters hc).1
      have hhead := @head?_toDigits 10 n (by decide) hzero
      have hne : Nat.toDigits 10 n ≠ [] := Nat.toDigits_ne_nil
      simp [isPortText, hdigits, hhead, hne, length_toDigits_port h]
  rw [port, hvalue]
  exact if_pos htext

/-- The fields of the line. -/
def v1Fields (resolved : ResolvedEndpoints) (input : ProxyProtocolEndpoints) : List (List Char) :=
  ["PROXY".toList, "TCP".toList ++ [familyDigit resolved.source.version],
    addressText resolved.source input.sourceAddress,
    addressText resolved.destination input.destinationAddress,
    Nat.toDigits 10 resolved.sourcePort, Nat.toDigits 10 resolved.destinationPort]

theorem v1Line_eq (resolved : ResolvedEndpoints) (input : ProxyProtocolEndpoints) :
    v1Line resolved input = [' '].intercalate (v1Fields resolved input) := by
  unfold v1Line v1Fields
  rw [List.intercalate_cons_cons, List.intercalate_cons_cons, List.intercalate_cons_cons,
    List.intercalate_cons_cons, List.intercalate_cons_cons, List.intercalate_singleton]
  simp only [List.append_assoc, List.singleton_append]
  rfl

/-- Endpoints that may be written: their texts are those of the addresses. -/
structure ResolvedEndpoints.Written (resolved : ResolvedEndpoints)
    (input : ProxyProtocolEndpoints) : Prop where
  source : parseIp input.sourceAddress = some resolved.source
  destination : parseIp input.destinationAddress = some resolved.destination
  version : resolved.source.version = resolved.destination.version
  sourcePort : resolved.sourcePort ≤ 65535
  destinationPort : resolved.destinationPort ≤ 65535

variable {resolved : ResolvedEndpoints} {input : ProxyProtocolEndpoints}

theorem v1Field_characters (h : resolved.Written input) {part : List Char}
    (hpart : part ∈ v1Fields resolved input) {c : Char} (hc : c ∈ part) :
    c ≠ ' ' ∧ c ≠ '\r' ∧ c.val < 0x80 := by
  have hfamily : ∀ version, familyDigit version ≠ ' ' ∧ familyDigit version ≠ '\r' ∧
      (familyDigit version).val < 0x80 := by
    intro version
    cases version <;> decide
  have hword : ∀ word : List Char,
      (word.all fun d => d ≠ ' ' && d ≠ '\r' && d.val < 0x80) = true →
      ∀ d ∈ word, d ≠ ' ' ∧ d ≠ '\r' ∧ d.val < 0x80 := by
    intro word hall d hd
    have := List.all_eq_true.mp hall d hd
    simpa [and_assoc] using this
  simp only [v1Fields, List.mem_cons, List.not_mem_nil, or_false] at hpart
  rcases hpart with rfl | rfl | rfl | rfl | rfl | rfl
  · exact hword _ (by decide) c hc
  · rcases List.mem_snoc.mp hc with hc | rfl
    · exact hword _ (by decide) c hc
    · exact hfamily _
  · exact isAddressCharacter_ascii ((addressText_isAddressText h.source).characters c hc)
  · exact isAddressCharacter_ascii ((addressText_isAddressText h.destination).characters c hc)
  · exact isAddressCharacter_ascii (toDigits_decimal_characters hc).2
  · exact isAddressCharacter_ascii (toDigits_decimal_characters hc).2

theorem v1Line_characters (h : resolved.Written input) {c : Char}
    (hc : c ∈ v1Line resolved input) : c ≠ '\r' ∧ c.val < 0x80 := by
  have hfields : ∀ part ∈ v1Fields resolved input, ' ' ∉ part :=
    fun part hpart hin => (v1Field_characters h hpart hin).1 rfl
  rcases mem_splitOn_or ' ' hc with rfl | ⟨part, hpart, hin⟩
  · decide
  · rw [v1Line_eq, List.splitOn_intercalate ' ' hfields (by simp [v1Fields])] at hpart
    exact (v1Field_characters h hpart hin).2

theorem length_v1Line (h : resolved.Written input) : (v1Line resolved input).length + 2 ≤ 107 := by
  have hsource := (addressText_isAddressText h.source).length
  have hdestination := (addressText_isAddressText h.destination).length
  have hsourcePort := length_toDigits_port h.sourcePort
  have hdestinationPort := length_toDigits_port h.destinationPort
  have hname : "PROXY TCP".toList.length = 9 := rfl
  unfold v1Line
  rw [List.length_append, hname]
  simp only [List.length_append, List.length_cons]
  omega

theorem v1Connection_v1Line (h : resolved.Written input) :
    v1Connection (v1Line resolved input) = .ok
      { sourceAddress := addressText resolved.source input.sourceAddress
        sourcePort := resolved.sourcePort
        destinationAddress := addressText resolved.destination input.destinationAddress
        destinationPort := resolved.destinationPort } := by
  have hfields : ∀ part ∈ v1Fields resolved input, ' ' ∉ part :=
    fun part hpart hin => (v1Field_characters h hpart hin).1 rfl
  have hfamily : familyOf ("TCP".toList ++ [familyDigit resolved.source.version]) =
      .ok resolved.source.version := by
    cases resolved.source.version <;> decide
  have hsource := (addressText_isAddressText h.source).version
  have hdestination := (addressText_isAddressText h.destination).version
  rw [← h.version] at hdestination
  unfold v1Connection
  rw [v1Line_eq, List.splitOn_intercalate ' ' hfields (by simp [v1Fields])]
  dsimp only [v1Fields]
  rw [if_neg (not_not_intro rfl), hfamily]
  show (if isIP _ ≠ some resolved.source.version ∨ isIP _ ≠ some resolved.source.version then _
    else _) = _
  rw [hsource, hdestination, if_neg (by simp), port_toDigits h.sourcePort,
    port_toDigits h.destinationPort]
  rfl

theorem latin1Text_ascii {text : List Char} (h : ∀ c ∈ text, c.val < 0x80) :
    latin1Text (text.map fun c => c.val.toUInt8) = text := by
  rw [latin1Text, List.map_map]
  conv => rhs; rw [← List.map_id text]
  refine List.map_congr_left fun c hc => ?_
  have hlt : c.val.toNat < 128 := h c hc
  show Char.ofNat c.val.toUInt8.toNat = c
  rw [UInt32.toNat_toUInt8, Nat.mod_eq_of_lt (by omega)]
  exact Char.ofNat_toNat c

theorem indexOfCrlf_line {line rest : Bytes} (h : 0x0d ∉ line) :
    indexOfCrlf (line ++ 0x0d :: 0x0a :: rest) = some line.length := by
  induction line with
  | nil => rfl
  | cons b line ih =>
      have hb : b ≠ 0x0d := fun heq => h (heq ▸ List.mem_cons_self)
      rw [List.cons_append, indexOfCrlf, if_neg (fun hc => hb hc.1),
        ih fun hin => h (List.mem_cons_of_mem _ hin)]
      rfl

theorem parse_v1Header (h : resolved.Written input) (payload : Bytes) :
    parseIncomingProxyHeader (asciiBytes (v1Line resolved input ++ ['\r', '\n']) ++ payload) =
      .ok (some
        { bytes := (asciiBytes (v1Line resolved input ++ ['\r', '\n'])).length
          connection := some
            { sourceAddress := addressText resolved.source input.sourceAddress
              sourcePort := resolved.sourcePort
              destinationAddress := addressText resolved.destination input.destinationAddress
              destinationPort := resolved.destinationPort } }) := by
  have hascii : ∀ c ∈ v1Line resolved input, c.val < 0x80 :=
    fun c hc => (v1Line_characters h hc).2
  have hbytes : asciiBytes (v1Line resolved input ++ ['\r', '\n']) =
      (v1Line resolved input).map (fun c => c.val.toUInt8) ++ [0x0d, 0x0a] := by
    rw [asciiBytes_eq, List.map_append]
    · rfl
    · intro c hc
      rcases List.mem_append.mp hc with hc | hc
      · exact hascii c hc
      · have hend : (['\r', '\n'].all fun d => d.val < 0x80) = true := by decide
        exact of_decide_eq_true (List.all_eq_true.mp hend c hc)
  have hcr : (0x0d : UInt8) ∉ (v1Line resolved input).map fun c => c.val.toUInt8 := by
    intro hin
    obtain ⟨c, hc, heq⟩ := List.mem_map.mp hin
    have hlt : c.val.toNat < 128 := hascii c hc
    have hnat : c.val.toNat = 13 := by
      have := congrArg UInt8.toNat heq
      rw [UInt32.toNat_toUInt8, Nat.mod_eq_of_lt (by omega)] at this
      exact this
    exact (v1Line_characters h hc).1 (Char.ext (UInt32.toNat_inj.mp hnat))
  have hstart : prefixMatches (asciiBytes (v1Line resolved input ++ ['\r', '\n']) ++ payload)
      V1_PREFIX = true := by
    rw [hbytes]
    exact prefixMatches_iff.mpr (.inr ⟨_, rfl⟩)
  have hunknown : ¬(v1Line resolved input = "PROXY UNKNOWN".toList ∨
      "PROXY UNKNOWN ".toList.isPrefixOf (v1Line resolved input) = true) := by
    rintro (heq | hprefix)
    · have := congrArg (·.getD 6 ' ') heq
      revert this
      show 'T' ≠ 'U'
      decide
    · exact Bool.false_ne_true hprefix
  rw [parseIncomingProxyHeader, if_pos hstart, hbytes, List.append_assoc, parseV1]
  rw [show ([0x0d, 0x0a] : Bytes) ++ payload = 0x0d :: 0x0a :: payload from rfl,
    indexOfCrlf_line hcr]
  dsimp only
  rw [List.take_left, latin1Text_ascii hascii, if_neg hunknown, v1Connection_v1Line h,
    List.length_map, List.length_append, List.length_map]
  exact if_neg (Nat.not_lt.mpr (length_v1Line h))

/-! ## The binary form -/

theorem toNat_ofNat_digit : ∀ d < 256, some (UInt8.ofNat d).toNat = some d := by
  decide +kernel

theorem bytesValue_addressBytes (value byteLength : Nat) :
    bytesValue (addressBytes value byteLength) = value % 256 ^ byteLength := by
  have htotal : ∀ data : Bytes,
      placeValue 256 (fun b : UInt8 => some b.toNat) data = some (bytesValue data) := by
    intro data
    induction data using List.reverseRecOn with
    | nil => rfl
    | append_singleton data b ih =>
        rw [placeValue_concat, ih]
        show some (bytesValue data * 256 + b.toNat) = _
        rw [bytesValue, bytesValue, List.foldl_append]
        rfl
  have hplace := @placeValue_map_digitsOf 256 UInt8 (fun b => some b.toNat) UInt8.ofNat
    (by decide) toNat_ofNat_digit byteLength value
  exact Option.some.inj ((htotal _).symm.trans hplace)

@[simp] theorem length_addressBytes (value byteLength : Nat) :
    (addressBytes value byteLength).length = byteLength := by
  rw [addressBytes, List.length_map, length_digitsOf]

theorem byteAt_append_right (before rest : Bytes) (i : Nat) :
    byteAt (before ++ rest) (before.length + i) = byteAt rest i := by
  rw [byteAt, byteAt, List.getD_eq_getElem?_getD, List.getD_eq_getElem?_getD,
    List.getElem?_append_right (Nat.le_add_right _ _), Nat.add_sub_cancel_left]

theorem readUInt16BE_addressBytes {value : Nat} (h : value < 65536) (before rest : Bytes) :
    readUInt16BE (before ++ (addressBytes value 2 ++ rest)) before.length = value := by
  have hvalue : bytesValue (addressBytes value 2) = value := by
    rw [bytesValue_addressBytes]
    exact Nat.mod_eq_of_lt h
  have hread : readUInt16BE (addressBytes value 2 ++ rest) 0 = bytesValue (addressBytes value 2) := by
    show _ = (0 * 256 + _) * 256 + _
    rw [Nat.zero_mul, Nat.zero_add]
    rfl
  rw [readUInt16BE, byteAt_append_right, ← Nat.add_zero before.length, byteAt_append_right]
  exact hread.trans hvalue

theorem map_addressBytes_v4 (value : Nat) :
    ['.'].intercalate ((addressBytes value 4).map fun b => Nat.toDigits 10 b.toNat) =
      ipv4Text value := by
  have hdigits : (addressBytes value 4).map (fun b => Nat.toDigits 10 b.toNat) =
      (digitsOf 256 4 value).map (Nat.toDigits 10) := by
    rw [addressBytes, List.map_map]
    refine List.map_congr_left fun d hd => ?_
    have hbyte := Option.some.inj (toNat_ofNat_digit d (digitsOf_lt (by decide) hd))
    show Nat.toDigits 10 (UInt8.ofNat d).toNat = _
    rw [hbyte]
  rw [hdigits, ipv4Text]
  congr 2
  simp only [digitsOf, List.nil_append, List.cons_append, Nat.shiftRight_eq_div_pow,
    Nat.div_div_eq_div_mul, Nat.reducePow, Nat.reduceMul]

theorem readAddress_four (data : Bytes) (offset : Nat) :
    readAddress data 4 offset =
      ['.'].intercalate (((data.drop offset).take 4).map fun b => Nat.toDigits 10 b.toNat) :=
  if_pos rfl

theorem readAddress_sixteen (data : Bytes) (offset : Nat) :
    readAddress data 16 offset = canonicalIpv6 (bytesValue ((data.drop offset).take 16)) :=
  if_neg (by decide)

/-- The address that is read is the address that was written. -/
theorem parseIp_readAddress {parsed : ParsedIp} (h : parsed.value < 2 ^ parsed.version.bits)
    (before rest : Bytes) :
    parseIp (readAddress
        (before ++ (addressBytes parsed.value (addressLength parsed.version) ++ rest))
        (addressLength parsed.version) before.length) = some parsed := by
  obtain ⟨version, value⟩ := parsed
  cases version with
  | v4 =>
      have htake : (addressBytes value 4 ++ rest).take 4 = addressBytes value 4 := by
        rw [List.take_append_of_le_length (by simp), List.take_of_length_le (by simp)]
      show parseIp (readAddress (before ++ (addressBytes value 4 ++ rest)) 4 before.length) = _
      rw [readAddress_four, List.drop_left, htake, map_addressBytes_v4]
      exact parseIp_ipv4Text h
  | v6 =>
      have htake : (addressBytes value 16 ++ rest).take 16 = addressBytes value 16 := by
        rw [List.take_append_of_le_length (by simp), List.take_of_length_le (by simp)]
      have hvalue : bytesValue (addressBytes value 16) = value := by
        rw [bytesValue_addressBytes]
        exact Nat.mod_eq_of_lt h
      obtain ⟨his, hparse⟩ := parseIp_canonicalIpv6 h
      show parseIp (readAddress (before ++ (addressBytes value 16 ++ rest)) 16 before.length) = _
      rw [readAddress_sixteen, List.drop_left, htake, hvalue, parseIp, his]
      dsimp only
      rw [hparse]
      rfl

/-- The first sixteen bytes of the binary form. -/
def v2Start (resolved : ResolvedEndpoints) : Bytes :=
  V2_SIGNATURE ++ 0x21 :: familyByte resolved.source.version .tcp ::
    addressBytes (addressBlock resolved).length 2

theorem v2Start_reads (resolved : ResolvedEndpoints) (rest : Bytes) :
    byteAt (v2Start resolved ++ rest) 12 = 0x21 ∧
      byteAt (v2Start resolved ++ rest) 13 = (familyByte resolved.source.version .tcp).toNat ∧
      readUInt16BE (v2Start resolved ++ rest) 14 =
        addressLength resolved.source.version * 2 + 4 := by
  refine ⟨rfl, rfl, ?_⟩
  have hread := @readUInt16BE_addressBytes (addressBlock resolved).length
    (by rw [length_addressBlock]; cases resolved.source.version <;> decide)
    (V2_SIGNATURE ++ [0x21, familyByte resolved.source.version .tcp]) rest
  rw [← length_addressBlock]
  exact hread

theorem parseV2_v2Start (h : resolved.Written input) (payload : Bytes) :
    ∃ connection, parseV2 (v2Start resolved ++ (addressBlock resolved ++ payload)) =
        .ok (some
          { bytes := (v2Start resolved ++ addressBlock resolved).length
            connection := some connection }) ∧
      parseIp connection.sourceAddress = some resolved.source ∧
      parseIp connection.destinationAddress = some resolved.destination ∧
      connection.sourcePort = resolved.sourcePort ∧
      connection.destinationPort = resolved.destinationPort := by
  have hblock := length_addressBlock resolved
  obtain ⟨hcommand, hfamily, hlength⟩ := v2Start_reads resolved (addressBlock resolved ++ payload)
  have hstart : (v2Start resolved).length = 16 := rfl
  set version := resolved.source.version with hversion
  set data := v2Start resolved ++ (addressBlock resolved ++ payload) with hdata
  have hdatalen : 16 + (addressLength version * 2 + 4) ≤ data.length := by
    rw [hdata, List.length_append, List.length_append, hstart, hblock]
    omega
  have hlimit : ¬MAX_PROXY_HEADER_BYTES < 16 + (addressLength version * 2 + 4) := by
    cases version <;> decide
  -- The four fields of the block, each behind what stands before it.
  have hsource : parseIp (readAddress data (addressLength version) 16) = some resolved.source := by
    have hread := parseIp_readAddress (parseIp_lt h.source) (v2Start resolved)
      (addressBytes resolved.destination.value (addressLength version) ++
        (addressBytes resolved.sourcePort 2 ++ (addressBytes resolved.destinationPort 2 ++ payload)))
    rw [hdata, addressBlock]
    simp only [List.append_assoc]
    exact hread
  have hdestination : parseIp (readAddress data (addressLength version)
      (16 + addressLength version)) = some resolved.destination := by
    have hread := parseIp_readAddress (parseIp_lt h.destination)
      (v2Start resolved ++ addressBytes resolved.source.value (addressLength version))
      (addressBytes resolved.sourcePort 2 ++ (addressBytes resolved.destinationPort 2 ++ payload))
    rw [← h.version, ← hversion, List.length_append, length_addressBytes, hstart] at hread
    rw [hdata, addressBlock]
    simp only [List.append_assoc] at hread ⊢
    exact hread
  have hsourcePort : readUInt16BE data (16 + addressLength version * 2) = resolved.sourcePort := by
    have hread := readUInt16BE_addressBytes (Nat.lt_succ_of_le h.sourcePort)
      (v2Start resolved ++ addressBytes resolved.source.value (addressLength version) ++
        addressBytes resolved.destination.value (addressLength version))
      (addressBytes resolved.destinationPort 2 ++ payload)
    rw [List.length_append, List.length_append, length_addressBytes, length_addressBytes, hstart,
      Nat.add_assoc, ← Nat.mul_two] at hread
    rw [hdata, addressBlock]
    simp only [List.append_assoc] at hread ⊢
    exact hread
  have hdestinationPort : readUInt16BE data (18 + addressLength version * 2) =
      resolved.destinationPort := by
    have hread := readUInt16BE_addressBytes (Nat.lt_succ_of_le h.destinationPort)
      (v2Start resolved ++ addressBytes resolved.source.value (addressLength version) ++
        addressBytes resolved.destination.value (addressLength version) ++
        addressBytes resolved.sourcePort 2) payload
    have hoffset : 16 + addressLength version + addressLength version + 2 =
        18 + addressLength version * 2 := by omega
    rw [List.length_append, List.length_append, List.length_append, length_addressBytes,
      length_addressBytes, length_addressBytes, hstart, hoffset] at hread
    rw [hdata, addressBlock]
    simp only [List.append_assoc] at hread ⊢
    exact hread
  have hfits : extensionsFit data (16 + (addressLength version * 2 + 4))
      (16 + (addressLength version * 2 + 4)) = true := by
    rw [extensionsFit, if_pos (Nat.le_refl _)]
  have hconnection : v2Connection data 1 (addressLength version * 2 + 4) = .ok (some
      { sourceAddress := readAddress data (addressLength version) 16
        sourcePort := resolved.sourcePort
        destinationAddress := readAddress data (addressLength version) (16 + addressLength version)
        destinationPort := resolved.destinationPort }) := by
    have haddress : (if byteAt data 13 = 0x11 then 4 else 16) = addressLength version := by
      rw [hfamily]
      cases version <;> rfl
    have hknown : byteAt data 13 ≠ 0 ∧ ¬(byteAt data 13 ≠ 0x11 ∧ byteAt data 13 ≠ 0x21) := by
      rw [hfamily]
      cases version <;> decide
    unfold v2Connection
    dsimp only
    rw [if_neg (by decide), if_neg hknown.1, if_neg hknown.2, haddress,
      if_neg (Nat.lt_irrefl _), hfits, hsourcePort, hdestinationPort]
    rfl
  refine ⟨{ sourceAddress := readAddress data (addressLength version) 16
            sourcePort := resolved.sourcePort
            destinationAddress :=
              readAddress data (addressLength version) (16 + addressLength version)
            destinationPort := resolved.destinationPort }, ?_, hsource, hdestination, rfl, rfl⟩
  have hbytes : (v2Start resolved ++ addressBlock resolved).length =
      16 + (addressLength version * 2 + 4) := by
    rw [List.length_append, hstart, hblock]
  unfold parseV2
  dsimp only
  rw [if_neg (by omega), hcommand, if_neg (by decide), hlength, if_neg (by decide), if_neg hlimit,
    if_neg (Nat.not_lt.mpr hdatalen), hbytes]
  show Except.map _ (v2Connection data 1 _) = _
  rw [hconnection]
  rfl

/-! ## The round trip -/

/-- Either form reads back, whatever follows it. -/
theorem parse_proxyProtocolHeader (mode : StreamProxyProtocol) (h : resolved.Written input)
    (hresolved : endpoints input = .ok resolved) :
    ∃ header, proxyProtocolHeader mode .tcp input = .ok header ∧ ∀ payload, ∃ connection,
      parseIncomingProxyHeader (header ++ payload) =
          .ok (some { bytes := header.length, connection := some connection }) ∧
        parseIp connection.sourceAddress = some resolved.source ∧
        parseIp connection.destinationAddress = some resolved.destination ∧
        connection.sourcePort = resolved.sourcePort ∧
        connection.destinationPort = resolved.destinationPort := by
  cases mode with
  | v1 =>
      refine ⟨asciiBytes (v1Line resolved input ++ ['\r', '\n']), ?_, fun payload => ?_⟩
      · rw [proxyProtocolHeader, hresolved]
        rfl
      · exact ⟨_, parse_v1Header h payload, (addressText_isAddressText h.source).parse,
          (addressText_isAddressText h.destination).parse, rfl, rfl⟩
  | v2 =>
      refine ⟨v2Start resolved ++ addressBlock resolved, ?_, fun payload => ?_⟩
      · rw [proxyProtocolHeader, hresolved]
        rfl
      · obtain ⟨connection, hparse, hfields⟩ := parseV2_v2Start h payload
        refine ⟨connection, ?_, hfields⟩
        have hv1 : prefixMatches (v2Start resolved ++ (addressBlock resolved ++ payload))
            V1_PREFIX = false := by
          rw [v2Start, List.append_assoc]
          exact prefixMatches_append_false (by decide) _
        have hv2 : prefixMatches (v2Start resolved ++ (addressBlock resolved ++ payload))
            V2_SIGNATURE = true := by
          rw [v2Start, List.append_assoc]
          exact (prefixMatches_append (Nat.le_refl _) _).trans (by decide)
        rw [List.append_assoc, parseIncomingProxyHeader, hv1, if_neg Bool.false_ne_true, hv2,
          if_neg (by decide)]
        exact hparse

/-- A header is incomplete until its last byte. -/
theorem parse_proper_start {header part rest : Bytes} {parsed : ParsedProxyHeader}
    (hparse : parseIncomingProxyHeader header = .ok (some parsed))
    (hbytes : parsed.bytes = header.length) (hsplit : header = part ++ rest) (hrest : rest ≠ []) :
    parseIncomingProxyHeader part = .ok none := by
  by_contra hne
  have hstable := parseIncomingProxyHeader_append hne rest
  rw [← hsplit, hparse] at hstable
  have hle := parseIncomingProxyHeader_bytes_le hstable.symm
  rw [hbytes, hsplit, List.length_append] at hle
  have := List.length_pos_of_ne_nil hrest
  omega

/-- The header of two addresses of one family is read as these addresses and ports, with its own
length, and no proper start of it is; what some bytes give, a header or an error, every
extension of them gives; and the ingress treats chunks as it treats their bytes at once. -/
theorem proxy_header_round_trip :
    (∀ (mode : StreamProxyProtocol) (input : ProxyProtocolEndpoints)
        (source destination : ParsedIp) (sourcePort destinationPort : Nat),
      parseIp input.sourceAddress = some source →
      parseIp input.destinationAddress = some destination →
      source.version = destination.version →
      input.sourcePort = some (sourcePort : ℚ) → sourcePort ≤ 65535 →
      input.destinationPort = some (destinationPort : ℚ) → destinationPort ≤ 65535 →
      ∃ header, proxyProtocolHeader mode .tcp input = .ok header ∧
        (∀ payload, ∃ connection, parseIncomingProxyHeader (header ++ payload) =
            .ok (some { bytes := header.length, connection := some connection }) ∧
          parseIp connection.sourceAddress = some source ∧
          parseIp connection.destinationAddress = some destination ∧
          connection.sourcePort = sourcePort ∧ connection.destinationPort = destinationPort) ∧
        ∀ part rest, header = part ++ rest → rest ≠ [] →
          parseIncomingProxyHeader part = .ok none) ∧
      (∀ data more, parseIncomingProxyHeader data ≠ .ok none →
        parseIncomingProxyHeader (data ++ more) = parseIncomingProxyHeader data) ∧
      ∀ (allowDirect : Bool) (direct : IncomingProxyConnection) (chunks : List Bytes),
        chunks.foldl (receive allowDirect direct) (.buffering []) =
            receive allowDirect direct (.buffering []) chunks.flatten ∧
          chunks.foldl (inspect direct) (.buffering []) =
            inspect direct (.buffering []) chunks.flatten := by
  refine ⟨?_, fun data more h => parseIncomingProxyHeader_append h more, ?_⟩
  · intro mode input source destination sourcePort destinationPort hsource hdestination hversion
      hs hsle hd hdle
    have hresolved := endpoints_ok hsource hdestination hversion hs hsle hd hdle
    obtain ⟨header, hheader, hread⟩ := parse_proxyProtocolHeader mode
      ⟨hsource, hdestination, hversion, hsle, hdle⟩ hresolved
    refine ⟨header, hheader, hread, fun part rest hsplit hrest => ?_⟩
    obtain ⟨connection, hparse, -⟩ := hread []
    rw [List.append_nil] at hparse
    exact parse_proper_start hparse rfl hsplit hrest
  · intro allowDirect direct chunks
    refine ⟨(receive_absorbs allowDirect direct).foldl ?_ chunks,
      (inspect_absorbs direct).foldl rfl chunks⟩
    cases allowDirect <;> rfl

/-- An IPv6 header with extreme ports in the text form. -/
theorem proxy_header_round_trip_v6 :
    ∃ header, proxyProtocolHeader .v1 .tcp
        { sourceAddress := "2001:DB8::1%eth0".toList
          destinationAddress := "::ffff:192.0.2.7".toList
          sourcePort := some 0
          destinationPort := some 65535 } = .ok header ∧
      (∀ payload, ∃ connection, parseIncomingProxyHeader (header ++ payload) =
          .ok (some { bytes := header.length, connection := some connection }) ∧
        parseIp connection.sourceAddress =
          some { version := .v6, value := 0x20010db8000000000000000000000001 } ∧
        parseIp connection.destinationAddress = some { version := .v6, value := 0xffffc0000207 } ∧
        connection.sourcePort = 0 ∧ connection.destinationPort = 65535) ∧
      ∀ part rest, header = part ++ rest → rest ≠ [] →
        parseIncomingProxyHeader part = .ok none :=
  proxy_header_round_trip.1 .v1 _ _ _ 0 65535 (by decide +kernel) (by decide +kernel) rfl
    (by rw [Nat.cast_zero]) (by decide) (by rw [Nat.cast_ofNat]) (by decide)

end BurrowGate.ProxyProtocol
