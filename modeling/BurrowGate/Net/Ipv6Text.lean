import BurrowGate.Net.Ip

/-!
# `canonicalIpv6` of `stream-proxy-protocol.ts`

The text of an IPv6 address, in which the first longest run of at least two zero
groups is written `::`. `isIP` and `parseIp` read it back as the address.
-/

namespace BurrowGate.Net

open Js
open Lib.Positional

def ipv6Groups (value : Nat) : List Nat :=
  [112, 96, 80, 64, 48, 32, 16, 0].map fun shift => value >>> shift % 65536

/-- The length of the run of zeros that a list starts with. -/
def zeroRun (groups : List Nat) : Nat := (groups.takeWhile (· = 0)).length

/-- `bestStart` and `bestLength`. The loop of the source skips the rest of a run, which is
shorter than the run and never better. -/
def bestZeroRun : Nat → List Nat → Nat × Nat → Nat × Nat
  | _, [], best => best
  | index, group :: rest, best =>
      let length := zeroRun (group :: rest)
      bestZeroRun (index + 1) rest (if best.2 < length then (index, length) else best)

/-- `groups.map((group) => group.toString(16)).join(":")` -/
def joinGroups (groups : List Nat) : List Char := [':'].intercalate (groups.map (Nat.toDigits 16))

def canonicalIpv6 (value : Nat) : List Char :=
  let groups := ipv6Groups value
  let (bestStart, bestLength) := bestZeroRun 0 groups (0, 0)
  if bestLength < 2 then joinGroups groups
  else
    let left := joinGroups (groups.take bestStart)
    let right := joinGroups (groups.drop (bestStart + bestLength))
    left ++ ':' :: ':' :: right

/-! ## The run that is left out -/

/-- A stretch of zeros of the list. -/
def IsZeroRun (groups : List Nat) (run : Nat × Nat) : Prop :=
  run.1 + run.2 ≤ groups.length ∧ (groups.drop run.1).take run.2 = List.replicate run.2 0

theorem take_zeroRun (groups : List Nat) :
    groups.take (zeroRun groups) = List.replicate (zeroRun groups) 0 := by
  have htake : groups.take (zeroRun groups) = groups.takeWhile (· = 0) :=
    (List.prefix_iff_eq_take.mp (List.takeWhile_prefix _)).symm
  rw [htake, List.eq_replicate_iff]
  refine ⟨rfl, fun g hg => ?_⟩
  simpa using List.mem_takeWhile_imp hg

theorem bestZeroRun_isZeroRun {groups : List Nat} (before rest : List Nat) (best : Nat × Nat)
    (hsplit : groups = before ++ rest) (hbest : IsZeroRun groups best) :
    IsZeroRun groups (bestZeroRun before.length rest best) := by
  induction rest generalizing before best with
  | nil => exact hbest
  | cons group rest ih =>
      have hnext := ih (before ++ [group])
        (if best.2 < zeroRun (group :: rest) then (before.length, zeroRun (group :: rest)) else best)
        (by rw [hsplit, List.append_assoc, List.singleton_append])
      rw [List.length_append, List.length_singleton] at hnext
      refine hnext ?_
      split
      · refine ⟨?_, ?_⟩
        · have hle : zeroRun (group :: rest) ≤ (group :: rest).length :=
            (List.takeWhile_prefix _).length_le
          rw [hsplit, List.length_append]
          show before.length + zeroRun (group :: rest) ≤ _
          omega
        · show (groups.drop before.length).take (zeroRun (group :: rest)) = _
          rw [hsplit, List.drop_left, take_zeroRun]
      · exact hbest

/-- The groups are what stands before the run, the run, and what stands after it. -/
theorem IsZeroRun.groups_eq {groups : List Nat} {run : Nat × Nat} (h : IsZeroRun groups run) :
    groups = groups.take run.1 ++ List.replicate run.2 0 ++ groups.drop (run.1 + run.2) := by
  conv => lhs; rw [← List.take_append_drop run.1 groups,
    ← List.take_append_drop run.2 (groups.drop run.1), h.2, List.drop_drop]
  rw [List.append_assoc]

theorem bestZeroRun_ipv6Groups (value : Nat) :
    IsZeroRun (ipv6Groups value) (bestZeroRun 0 (ipv6Groups value) (0, 0)) :=
  bestZeroRun_isZeroRun [] (ipv6Groups value) (0, 0) rfl ⟨Nat.zero_le _, rfl⟩

/-! ## The groups -/

theorem ipv6Groups_eq (value : Nat) : ipv6Groups value = digitsOf 65536 8 value := by
  simp only [ipv6Groups, digitsOf, List.map_cons, List.map_nil, List.nil_append,
    List.cons_append, Nat.shiftRight_eq_div_pow, Nat.div_div_eq_div_mul, Nat.reducePow,
    Nat.reduceMul, Nat.div_one]

theorem ipv6Groups_lt {value g : Nat} (h : g ∈ ipv6Groups value) : g < 65536 := by
  rw [ipv6Groups_eq] at h
  exact digitsOf_lt (by decide) h

/-- A character of a group in lower case hexadecimal. -/
theorem hexDigit_characters : ∀ d < 16, isHexDigit (Nat.digitChar d) = true ∧
    isLowerHexDigit (Nat.digitChar d) = true ∧ (Nat.digitChar d).toLower = Nat.digitChar d ∧
    Nat.digitChar d ≠ ':' ∧ Nat.digitChar d ≠ '.' ∧ Nat.digitChar d ≠ '%' := by
  decide

theorem toDigits_hex_characters {g : Nat} {c : Char} (hc : c ∈ Nat.toDigits 16 g) :
    isHexDigit c = true ∧ isLowerHexDigit c = true ∧ c.toLower = c ∧ c ≠ ':' ∧ c ≠ '.' ∧ c ≠ '%' := by
  obtain ⟨d, hd, rfl⟩ := exists_of_mem_toDigits (by decide) hc
  exact hexDigit_characters d hd

theorem length_toDigits_group {g : Nat} (h : g < 65536) : (Nat.toDigits 16 g).length ≤ 4 := by
  rw [Nat.length_toDigits_le_iff (by decide) (by decide)]
  exact h

theorem isV6Segment_toDigits {g : Nat} (h : g < 65536) :
    isV6Segment (Nat.toDigits 16 g) = true := by
  have hall : (Nat.toDigits 16 g).all isHexDigit = true :=
    List.all_eq_true.mpr fun c hc => (toDigits_hex_characters hc).1
  have hlen := length_toDigits_group h
  have hne : Nat.toDigits 16 g ≠ [] := Nat.toDigits_ne_nil
  simp [isV6Segment, hall, hlen, hne]

theorem parseV6Group_toDigits {g : Nat} (h : g < 65536) :
    parseV6Group (Nat.toDigits 16 g) = some g := by
  have hall : (Nat.toDigits 16 g).all isLowerHexDigit = true :=
    List.all_eq_true.mpr fun c hc => (toDigits_hex_characters hc).2.1
  rw [parseV6Group, if_pos ⟨Nat.toDigits_ne_nil, length_toDigits_group h, hall⟩]
  exact digitsValue_toDigits (by decide) (by decide) g

/-! ## Joining and splitting -/

theorem mem_joinGroups {groups : List Nat} {c : Char} (hc : c ∈ joinGroups groups) :
    c = ':' ∨ ∃ g ∈ groups, c ∈ Nat.toDigits 16 g := by
  induction groups with
  | nil => cases hc
  | cons g rest ih =>
      cases rest with
      | nil =>
          rw [joinGroups, List.map_singleton, List.intercalate_singleton] at hc
          exact .inr ⟨g, List.mem_cons_self, hc⟩
      | cons next rest =>
          rw [joinGroups, List.map_cons, List.map_cons, List.intercalate_cons_cons] at hc
          rcases List.mem_append.mp hc with hc | hc
          · rcases List.mem_snoc.mp hc with hc | hc
            · exact .inr ⟨g, List.mem_cons_self, hc⟩
            · exact .inl hc
          · rcases ih hc with rfl | ⟨h, hmem, hin⟩
            · exact .inl rfl
            · exact .inr ⟨h, List.mem_cons_of_mem _ hmem, hin⟩

theorem splitDoubleColon_cons {c : Char} {rest : List Char}
    (h : c ≠ ':' ∨ rest.head? ≠ some ':') :
    splitDoubleColon (c :: rest) = (splitDoubleColon rest).modifyHead (c :: ·) := by
  rw [splitDoubleColon]
  rintro tail rfl rfl
  rcases h with h | h
  · exact h rfl
  · exact h rfl

theorem modifyHead_append_append (w u : List Char) (parts : List (List Char)) :
    (parts.modifyHead (u ++ ·)).modifyHead (w ++ ·) = parts.modifyHead (w ++ u ++ ·) := by
  cases parts with
  | nil => rfl
  | cons part parts => simp

theorem splitDoubleColon_append {w tail : List Char} (h : ∀ c ∈ w, c ≠ ':') :
    splitDoubleColon (w ++ tail) = (splitDoubleColon tail).modifyHead (w ++ ·) := by
  induction w with
  | nil =>
      cases hparts : splitDoubleColon tail with
      | nil => exact hparts
      | cons part parts => exact hparts
  | cons c w ih =>
      have hrest := ih fun d hd => h d (List.mem_cons_of_mem _ hd)
      show splitDoubleColon (c :: (w ++ tail)) = _
      rw [splitDoubleColon_cons (.inl (h c List.mem_cons_self)), hrest]
      exact modifyHead_append_append [c] w _

/-- No two separators meet within joined groups. -/
theorem splitDoubleColon_joinGroups (groups : List Nat) (tail : List Char) :
    splitDoubleColon (joinGroups groups ++ tail) =
      (splitDoubleColon tail).modifyHead (joinGroups groups ++ ·) := by
  have hcolon : ∀ g, ∀ c ∈ Nat.toDigits 16 g, c ≠ ':' :=
    fun g c hc => (toDigits_hex_characters hc).2.2.2.1
  induction groups with
  | nil => exact splitDoubleColon_append (fun c hc => by cases hc)
  | cons g rest ih =>
      cases rest with
      | nil =>
          rw [joinGroups, List.map_singleton, List.intercalate_singleton]
          exact splitDoubleColon_append (hcolon g)
      | cons next rest =>
          have hjoin : joinGroups (g :: next :: rest) =
              Nat.toDigits 16 g ++ ([':'] ++ joinGroups (next :: rest)) := by
            rw [joinGroups, List.map_cons, List.map_cons, List.intercalate_cons_cons,
              List.append_assoc]
            rfl
          have hhead : (joinGroups (next :: rest) ++ tail).head? ≠ some ':' := by
            obtain ⟨c, cs, hcs⟩ := List.exists_cons_of_ne_nil (@Nat.toDigits_ne_nil next 16)
            have hne : c ≠ ':' := hcolon next c (hcs ▸ List.mem_cons_self)
            cases rest with
            | nil => simp [joinGroups, hcs, hne]
            | cons third rest =>
                simp [joinGroups, List.intercalate_cons_cons, hcs, hne]
          rw [hjoin, List.append_assoc, splitDoubleColon_append (hcolon g)]
          show (splitDoubleColon (':' :: (joinGroups (next :: rest) ++ tail))).modifyHead _ = _
          rw [splitDoubleColon_cons (.inr hhead), ih]
          show ((List.modifyHead _ _).modifyHead ([':'] ++ ·)).modifyHead _ = _
          rw [modifyHead_append_append, modifyHead_append_append, List.append_assoc (_ : List Char)]

theorem colonGroups_joinGroups (groups : List Nat) :
    colonGroups (joinGroups groups) = groups.map (Nat.toDigits 16) := by
  cases groups with
  | nil => rfl
  | cons g rest =>
      have hne : joinGroups (g :: rest) ≠ [] := by
        intro h
        cases rest with
        | nil =>
            rw [joinGroups, List.map_singleton, List.intercalate_singleton] at h
            exact Nat.toDigits_ne_nil h
        | cons next rest =>
            rw [joinGroups, List.map_cons, List.map_cons, List.intercalate_cons_cons] at h
            simp at h
      rw [colonGroups, if_neg hne]
      refine List.splitOn_intercalate ':' (fun part hpart hin => ?_) (by simp)
      obtain ⟨h, -, rfl⟩ := List.mem_map.mp hpart
      exact (toDigits_hex_characters hin).2.2.2.1 rfl

theorem groupCount_hex {groups : List Nat} (h : ∀ g ∈ groups, g < 65536) (dottedTail : Bool) :
    groupCount (groups.map (Nat.toDigits 16)) dottedTail = some groups.length := by
  have hv4 : ∀ text ∈ groups.map (Nat.toDigits 16), isIPv4 text = false := by
    intro text htext
    obtain ⟨g, -, rfl⟩ := List.mem_map.mp htext
    have hdot : '.' ∉ Nat.toDigits 16 g := fun hin => (toDigits_hex_characters hin).2.2.2.2.1 rfl
    simp [isIPv4, List.splitOn_eq_singleton hdot]
  have hlast : ((groups.map (Nat.toDigits 16)).getLast?.any isIPv4) = false := by
    cases hl : (groups.map (Nat.toDigits 16)).getLast? with
    | none => rfl
    | some text => exact hv4 text (List.mem_of_getLast? hl)
  have hall : (groups.map (Nat.toDigits 16)).all isV6Segment = true := by
    rw [List.all_eq_true]
    intro text htext
    obtain ⟨g, hg, rfl⟩ := List.mem_map.mp htext
    exact isV6Segment_toDigits (h g hg)
  have hdotted : ¬(dottedTail = true ∧
      ((groups.map (Nat.toDigits 16)).getLast?.any isIPv4) = true) := by
    rw [hlast]
    exact fun hc => Bool.false_ne_true hc.2
  rw [groupCount, if_neg hdotted, if_pos hall, List.length_map]

/-! ## Reading the text -/

/-- Hexadecimal digits and separators. -/
def IsHexText (text : List Char) : Prop :=
  ∀ c ∈ text, c = ':' ∨ ∃ g, c ∈ Nat.toDigits 16 g

theorem joinGroups_isHexText (groups : List Nat) : IsHexText (joinGroups groups) := by
  intro c hc
  rcases mem_joinGroups hc with rfl | ⟨g, -, hin⟩
  · exact .inl rfl
  · exact .inr ⟨g, hin⟩

theorem IsHexText.append {left right : List Char} (hl : IsHexText left) (hr : IsHexText right) :
    IsHexText (left ++ right) := by
  intro c hc
  rcases List.mem_append.mp hc with hc | hc
  · exact hl c hc
  · exact hr c hc

theorem IsHexText.character {text : List Char} (h : IsHexText text) {c : Char} (hc : c ∈ text) :
    c.toLower = c ∧ c ≠ '.' ∧ c ≠ '%' := by
  rcases h c hc with rfl | ⟨g, hin⟩
  · decide
  · obtain ⟨-, -, hlower, -, hdot, hpercent⟩ := toDigits_hex_characters hin
    exact ⟨hlower, hdot, hpercent⟩

/-- Text without a zone, a dotted tail or upper case is read as it stands. -/
theorem parseIp_hexText {text : List Char} (h : IsHexText text) :
    isIP text = (if isV6Address text then some .v6 else none) ∧
      parseIpv6 text =
        match splitDoubleColon text with
        | [groups] =>
            let left := colonGroups groups
            if left.length = 8 then parseGroups left else none
        | [left, right] =>
            let left := colonGroups left
            let right := colonGroups right
            if left.length + right.length ≤ 8 then
              parseGroups (left ++ List.replicate (8 - left.length - right.length) ['0'] ++ right)
            else none
        | _ => none := by
  have hdot : '.' ∉ text := fun hin => (h.character hin).2.1 rfl
  have hpercent : ∀ c ∈ text, decide (c ≠ '%') = true :=
    fun c hc => decide_eq_true (h.character hc).2.2
  have htake : text.takeWhile (· ≠ '%') = text := List.takeWhile_eq_self_iff.mpr hpercent
  have hdrop : text.dropWhile (· ≠ '%') = [] := List.dropWhile_eq_nil_iff.mpr hpercent
  have hlower : text.map Char.toLower = text := by
    conv => rhs; rw [← List.map_id text]
    exact List.map_congr_left fun c hc => (h.character hc).1
  constructor
  · have hv4 : isIPv4 text = false := by simp [isIPv4, List.splitOn_eq_singleton hdot]
    have hv6 : isIPv6 text = isV6Address text := by
      unfold isIPv6
      rw [htake, hdrop]
      exact Bool.and_true _
    rw [isIP, hv4, hv6]
    rfl
  · unfold parseIpv6
    dsimp only
    rw [hlower, htake, replaceDottedTail, if_neg hdot]
    rfl

theorem splitDoubleColon_joined (groups : List Nat) :
    splitDoubleColon (joinGroups groups) = [joinGroups groups] := by
  have hsplit := splitDoubleColon_joinGroups groups []
  rw [List.append_nil] at hsplit
  rw [hsplit]
  show [joinGroups groups ++ []] = _
  rw [List.append_nil]

/-- Eight joined groups are an address. -/
theorem parse_joinGroups {groups : List Nat} (hlt : ∀ g ∈ groups, g < 65536)
    (hlen : groups.length = 8) :
    isIP (joinGroups groups) = some .v6 ∧
      parseIpv6 (joinGroups groups) = parseGroups (groups.map (Nat.toDigits 16)) := by
  obtain ⟨his, hvalue⟩ := parseIp_hexText (joinGroups_isHexText groups)
  constructor
  · have hv6 : isV6Address (joinGroups groups) = true := by
      unfold isV6Address
      rw [splitDoubleColon_joined]
      dsimp only
      rw [colonGroups_joinGroups, groupCount_hex hlt, hlen]
      rfl
    rw [his, if_pos hv6]
  · rw [hvalue, splitDoubleColon_joined]
    dsimp only
    rw [colonGroups_joinGroups, List.length_map, hlen, if_pos rfl]

/-- So are two halves of at most seven, which stand for the groups with zeros in between. -/
theorem parse_halves {left right : List Nat} (hleft : ∀ g ∈ left, g < 65536)
    (hright : ∀ g ∈ right, g < 65536) (hlen : left.length + right.length ≤ 7) :
    isIP (joinGroups left ++ ':' :: ':' :: joinGroups right) = some .v6 ∧
      parseIpv6 (joinGroups left ++ ':' :: ':' :: joinGroups right) =
        parseGroups ((left ++ List.replicate (8 - left.length - right.length) 0 ++ right).map
          (Nat.toDigits 16)) := by
  have htext : IsHexText (joinGroups left ++ ':' :: ':' :: joinGroups right) := by
    refine (joinGroups_isHexText left).append ?_
    intro c hc
    rcases List.mem_cons.mp hc with rfl | hc
    · exact .inl rfl
    · rcases List.mem_cons.mp hc with rfl | hc
      · exact .inl rfl
      · exact joinGroups_isHexText right c hc
  obtain ⟨his, hvalue⟩ := parseIp_hexText htext
  have hsplit : splitDoubleColon (joinGroups left ++ ':' :: ':' :: joinGroups right) =
      [joinGroups left, joinGroups right] := by
    rw [splitDoubleColon_joinGroups, splitDoubleColon, splitDoubleColon_joined]
    show [joinGroups left ++ [], joinGroups right] = _
    rw [List.append_nil]
  constructor
  · have hv6 : isV6Address (joinGroups left ++ ':' :: ':' :: joinGroups right) = true := by
      unfold isV6Address
      rw [hsplit]
      dsimp only
      rw [colonGroups_joinGroups, colonGroups_joinGroups, groupCount_hex hleft,
        groupCount_hex hright]
      exact decide_eq_true hlen
    rw [his, if_pos hv6]
  · rw [hvalue, hsplit]
    dsimp only
    rw [colonGroups_joinGroups, colonGroups_joinGroups, List.length_map, List.length_map,
      if_pos (by omega), List.map_append, List.map_append, List.map_replicate]
    rfl

/-- The text of an address reads back as the address. -/
theorem parseIp_canonicalIpv6 {v : Nat} (h : v < 2 ^ 128) :
    isIP (canonicalIpv6 v) = some .v6 ∧ parseIpv6 (canonicalIpv6 v) = some v := by
  have hlen : (ipv6Groups v).length = 8 := rfl
  have hparse : parseGroups ((ipv6Groups v).map (Nat.toDigits 16)) = some v := by
    rw [parseGroups, ipv6Groups_eq, placeValue_map_digitsOf (by decide)
      (fun d hd => parseV6Group_toDigits hd)]
    exact congrArg some (Nat.mod_eq_of_lt h)
  unfold canonicalIpv6
  dsimp only
  split
  · rw [← hparse]
    exact parse_joinGroups (fun g hg => ipv6Groups_lt hg) hlen
  · rename_i hlong
    have hrun := bestZeroRun_ipv6Groups v
    generalize bestZeroRun 0 (ipv6Groups v) (0, 0) = run at hlong hrun ⊢
    obtain ⟨start, length⟩ := run
    have hfit : start + length ≤ 8 := hrun.1
    have hlong : 2 ≤ length := Nat.le_of_not_lt hlong
    have hleft : ((ipv6Groups v).take start).length = start := by
      rw [List.length_take, hlen]
      omega
    have hright : ((ipv6Groups v).drop (start + length)).length = 8 - (start + length) := by
      rw [List.length_drop, hlen]
    obtain ⟨his, hvalue⟩ := parse_halves
      (fun g hg => ipv6Groups_lt (List.mem_of_mem_take hg))
      (fun g hg => ipv6Groups_lt (List.mem_of_mem_drop hg))
      (show ((ipv6Groups v).take start).length + ((ipv6Groups v).drop (start + length)).length ≤ 7
        by omega)
    have hmissing : 8 - start - (8 - (start + length)) = length := by omega
    refine ⟨his, ?_⟩
    rw [hvalue, hleft, hright, hmissing, ← hrun.groups_eq]
    exact hparse

example : canonicalIpv6 0x20010db8000000000001000000000001 = "2001:db8::1:0:0:1".toList ∧
    canonicalIpv6 0 = "::".toList ∧
    canonicalIpv6 0x10002000300040005000600070000 = "1:2:3:4:5:6:7:0".toList := by
  decide +kernel

end BurrowGate.Net
