import BurrowGate.Js.Text
import BurrowGate.Lib.PrefixBlock
import Mathlib.Data.List.Basic

/-!
# `utils/ip.ts`

`isIP` is Node's documented test (dotted decimal without leading zeros; colon
groups with one `::` for at least one group, a dotted tail and a zone suffix).
The parsers are the repository's own. Strings are lists of characters.
-/

namespace BurrowGate.Net

open Js
open Lib.Positional
open Lib.PrefixBlock

inductive IpVersion
  | v4
  | v6
  deriving DecidableEq

def IpVersion.bits : IpVersion → Nat
  | .v4 => 32
  | .v6 => 128

/-- What `parseIp` returns; `bits` is `version.bits`. -/
structure ParsedIp where
  version : IpVersion
  value : Nat
  deriving DecidableEq

structure ParsedCidr where
  version : IpVersion
  network : Nat
  bits : Nat
  length : Nat
  deriving DecidableEq

/-! ## `isIP` -/

def isHexDigit (c : Char) : Bool := (digitValue c).isSome

/-- `25[0-5]|2[0-4]\d|1\d\d|[1-9]\d|\d` -/
def isV4Segment (part : List Char) : Bool :=
  part.all isDigit && (part.length = 1 || part.head? ≠ some '0') &&
    (digitsValue 10 part).any (· ≤ 255)

def isIPv4 (ip : List Char) : Bool :=
  let parts := ip.splitOn '.'
  parts.length = 4 && parts.all isV4Segment

def isV6Segment (group : List Char) : Bool :=
  group ≠ [] && group.length ≤ 4 && group.all isHexDigit

/-- `string.split("::")` -/
def splitDoubleColon : List Char → List (List Char)
  | ':' :: ':' :: rest => [] :: splitDoubleColon rest
  | c :: rest => (splitDoubleColon rest).modifyHead (c :: ·)
  | [] => [[]]

/-- `text ? text.split(":") : []` -/
def colonGroups (text : List Char) : List (List Char) :=
  if text = [] then [] else text.splitOn ':'

/-- The number of 16-bit groups, where the last one may be a dotted address. -/
def groupCount (groups : List (List Char)) (dottedTail : Bool) : Option Nat :=
  if dottedTail ∧ (groups.getLast?.any isIPv4) = true then
    if groups.dropLast.all isV6Segment then some (groups.length + 1) else none
  else if groups.all isV6Segment then some groups.length
  else none

def isV6Address (text : List Char) : Bool :=
  match splitDoubleColon text with
  | [groups] => groupCount (colonGroups groups) true = some 8
  | [left, right] =>
      match groupCount (colonGroups left) false, groupCount (colonGroups right) true with
      | some l, some r => l + r ≤ 7
      | _, _ => false
  | _ => false

def isZoneCharacter (c : Char) : Bool :=
  isDigit c || ('a' ≤ c && c ≤ 'z') || ('A' ≤ c && c ≤ 'Z') || c = '-' || c = '.' || c = ':'

def isIPv6 (ip : List Char) : Bool :=
  isV6Address (ip.takeWhile (· ≠ '%')) &&
    match ip.dropWhile (· ≠ '%') with
    | [] => true
    | _ :: zone => zone ≠ [] && zone.all isZoneCharacter

def isIP (ip : List Char) : Option IpVersion :=
  if isIPv4 ip then some .v4 else if isIPv6 ip then some .v6 else none

/-! ## The parsers -/

def parseV4Part (part : List Char) : Option Nat :=
  if part ≠ [] ∧ part.length ≤ 3 ∧ part.all isDigit = true then
    (digitsValue 10 part).filter (· ≤ 255)
  else none

def parseIpv4 (ip : List Char) : Option Nat :=
  let parts := ip.splitOn '.'
  if parts.length = 4 then placeValue 256 parseV4Part parts else none

def isLowerHexDigit (c : Char) : Bool := isDigit c || ('a' ≤ c && c ≤ 'f')

def parseV6Group (group : List Char) : Option Nat :=
  if group ≠ [] ∧ group.length ≤ 4 ∧ group.all isLowerHexDigit = true then digitsValue 16 group
  else none

/-- A dotted tail is rewritten as two groups. -/
def replaceDottedTail (text : List Char) : Option (List Char) :=
  if '.' ∈ text then
    let tail := (text.reverse.takeWhile (· ≠ ':')).reverse
    if ':' ∈ text then
      (parseIpv4 tail).map fun ipv4 =>
        text.take (text.length - tail.length) ++ Nat.toDigits 16 (ipv4 / 65536 % 65536) ++
          ':' :: Nat.toDigits 16 (ipv4 % 65536)
    else none
  else some text

def parseGroups (groups : List (List Char)) : Option Nat := placeValue 65536 parseV6Group groups

def parseIpv6 (ip : List Char) : Option Nat :=
  let normalized := (ip.map Char.toLower).takeWhile (· ≠ '%')
  (replaceDottedTail normalized).bind fun normalized =>
    match splitDoubleColon normalized with
    | [groups] =>
        let left := colonGroups groups
        if left.length = 8 then parseGroups left else none
    | [left, right] =>
        let left := colonGroups left
        let right := colonGroups right
        if left.length + right.length ≤ 8 then
          parseGroups (left ++ List.replicate (8 - left.length - right.length) ['0'] ++ right)
        else none
    | _ => none

def parseIp (ip : List Char) : Option ParsedIp :=
  match isIP ip with
  | some .v4 => (parseIpv4 ip).map fun value => { version := .v4, value }
  | some .v6 => (parseIpv6 ip).map fun value => { version := .v6, value }
  | none => none

/-- The prefix text of a CIDR: `Number(text)` when it is an integer of the range `0..bits`. -/
def parsePrefixLength (bits : Nat) (text : List Char) : Option Nat :=
  (toNumber text).bind fun q =>
    if q.den = 1 ∧ 0 ≤ q ∧ q ≤ bits then some q.num.toNat else none

def parseCidr (input : List Char) : Option ParsedCidr :=
  match (trim input).splitOn '/' with
  | [] => none
  | address :: rest =>
      (parseIp address).bind fun parsed =>
        let bits := parsed.version.bits
        (match rest with
        | [] => some bits
        | text :: _ => parsePrefixLength bits text).map fun length =>
            { version := parsed.version
              network := mask (bits - length) parsed.value
              bits
              length }

/-- `cidrContains` on what the two parsers returned. -/
def ParsedCidr.contains (cidr : ParsedCidr) (ip : ParsedIp) : Bool :=
  cidr.version = ip.version && mask (cidr.bits - cidr.length) ip.value = cidr.network

def cidrContains (cidr : ParsedCidr) (ip : List Char) : Bool := (parseIp ip).any cidr.contains

/-! ## Private addresses -/

def PRIVATE_CIDRS : List (List Char) :=
  ["10.0.0.0/8".toList, "172.16.0.0/12".toList, "192.168.0.0/16".toList, "127.0.0.0/8".toList,
    "169.254.0.0/16".toList, "100.64.0.0/10".toList, "::1/128".toList, "fc00::/7".toList,
    "fe80::/10".toList]

/-- Dotted decimal. -/
def ipv4Text (value : Nat) : List Char :=
  ['.'].intercalate ([value >>> 24 % 256, value >>> 16 % 256, value >>> 8 % 256, value % 256].map
    (Nat.toDigits 10))

def ipv4FromMapped (value : Nat) : Option (List Char) :=
  if value >>> 32 = 0xffff then some (ipv4Text (value % 2 ^ 32)) else none

def isPrivateIp (ip : List Char) : Bool :=
  match parseIp ip with
  | none => false
  | some parsed =>
      let candidates := ip ::
        (if parsed.version = .v6 then (ipv4FromMapped parsed.value).toList else [])
      candidates.any fun candidate =>
        PRIVATE_CIDRS.any fun cidr => (parseCidr cidr).any (cidrContains · candidate)

def splitCidrsByFamily (cidrs : List (List Char)) : List (List Char) × List (List Char) :=
  (cidrs.filter fun c => (parseCidr c).any (·.version = .v4),
    cidrs.filter fun c => (parseCidr c).any (·.version = .v6))

example : parseCidr " 192.168.7.9/24\n".toList =
      some { version := .v4, network := 0xc0a80700, bits := 32, length := 24 } ∧
    (parseIp "::ffff:1.2.3.4".toList).map (·.value) = some 0xffff01020304 ∧
    parseIp "1:2:3:4:5:6:7:8:9".toList = none ∧ isPrivateIp "::ffff:10.0.0.1".toList = true := by
  decide +kernel

/-! ## Values and lengths are in range -/

theorem digitsValue_lt {base : Nat} {cs : List Char} {v : Nat} (h : digitsValue base cs = some v) :
    v < base ^ cs.length := by
  rw [digitsValue] at h
  split at h
  · cases h
  · refine placeValue_lt (fun c _ d hd => ?_) h
    have := (Option.filter_eq_some_iff.mp hd).2
    simpa using this

theorem parseV4Part_lt {part : List Char} {v : Nat} (h : parseV4Part part = some v) : v < 256 := by
  rw [parseV4Part] at h
  split at h
  · have := (Option.filter_eq_some_iff.mp h).2
    have hle : v ≤ 255 := by simpa using this
    omega
  · cases h

theorem parseIpv4_lt {ip : List Char} {v : Nat} (h : parseIpv4 ip = some v) : v < 2 ^ 32 := by
  rw [parseIpv4] at h
  split at h
  · rename_i hlen
    have hlt := placeValue_lt (fun part _ d hd => parseV4Part_lt hd) h
    rw [hlen] at hlt
    exact Nat.lt_of_lt_of_eq hlt (by decide)
  · cases h

theorem parseV6Group_lt {group : List Char} {v : Nat} (h : parseV6Group group = some v) :
    v < 65536 := by
  rw [parseV6Group] at h
  split at h
  · rename_i hgroup
    have hlt := digitsValue_lt h
    have hle : 16 ^ group.length ≤ 16 ^ 4 := Nat.pow_le_pow_right (by decide) hgroup.2.1
    exact Nat.lt_of_lt_of_le hlt hle
  · cases h

theorem parseGroups_lt {groups : List (List Char)} {v : Nat} (h : parseGroups groups = some v)
    (hlen : groups.length = 8) : v < 2 ^ 128 := by
  have hlt := placeValue_lt (fun group _ d hd => parseV6Group_lt hd) h
  rw [hlen] at hlt
  exact Nat.lt_of_lt_of_eq hlt (by decide)

theorem parseIpv6_lt {ip : List Char} {v : Nat} (h : parseIpv6 ip = some v) : v < 2 ^ 128 := by
  obtain ⟨normalized, -, h⟩ := Option.bind_eq_some_iff.mp h
  dsimp only at h
  split at h
  · split at h
    · rename_i hlen
      exact parseGroups_lt h hlen
    · cases h
  · split at h
    · rename_i hlen
      refine parseGroups_lt h ?_
      simp only [List.length_append, List.length_replicate]
      omega
    · cases h
  · cases h

/-- An address has as many bits as its family. -/
theorem parseIp_lt {ip : List Char} {p : ParsedIp} (h : parseIp ip = some p) :
    p.value < 2 ^ p.version.bits := by
  rw [parseIp] at h
  split at h
  · obtain ⟨v, hv, rfl⟩ := Option.map_eq_some_iff.mp h
    exact parseIpv4_lt hv
  · obtain ⟨v, hv, rfl⟩ := Option.map_eq_some_iff.mp h
    exact parseIpv6_lt hv
  · cases h

/-- What an accepted CIDR looks like: a length of its family, and a network without host bits. -/
structure ParsedCidr.WellFormed (c : ParsedCidr) : Prop where
  bits : c.bits = c.version.bits
  length : c.length ≤ c.bits
  network : mask (c.bits - c.length) c.network = c.network
  lt : c.network < 2 ^ c.bits

theorem parsePrefixLength_le {bits n : Nat} {text : List Char}
    (h : parsePrefixLength bits text = some n) : n ≤ bits := by
  obtain ⟨q, -, hq⟩ := Option.bind_eq_some_iff.mp h
  split at hq
  · rename_i hrange
    obtain rfl := Option.some.inj hq
    have hnum : (q.num : ℚ) = q := Rat.coe_int_num_of_den_eq_one hrange.1
    have hle : q.num ≤ bits := by
      have := hrange.2.2
      rw [← hnum] at this
      exact_mod_cast this
    omega
  · cases hq

theorem parseCidr_wellFormed {input : List Char} {c : ParsedCidr} (h : parseCidr input = some c) :
    c.WellFormed := by
  rw [parseCidr] at h
  split at h
  · cases h
  · obtain ⟨parsed, hparsed, h⟩ := Option.bind_eq_some_iff.mp h
    obtain ⟨length, hlength, rfl⟩ := Option.map_eq_some_iff.mp h
    refine ⟨rfl, ?_, mask_idem _ _, mask_lt (parseIp_lt hparsed)⟩
    dsimp only at hlength ⊢
    split at hlength
    · obtain rfl := Option.some.inj hlength
      exact Nat.le_refl _
    · exact parsePrefixLength_le hlength

/-! ## The characters of an address -/

def isAddressCharacter (c : Char) : Bool := isHexDigit c || c = '.' || c = ':'

theorem mem_splitOn_or (sep : Char) {c : Char} {text : List Char} (hc : c ∈ text) :
    c = sep ∨ ∃ part ∈ text.splitOn sep, c ∈ part := by
  induction text with
  | nil => cases hc
  | cons d text ih =>
      by_cases hd : d = sep
      · rcases List.mem_cons.mp hc with rfl | hc
        · exact .inl hd
        · rcases ih hc with heq | ⟨part, hpart, hin⟩
          · exact .inl heq
          · refine .inr ⟨part, ?_, hin⟩
            rw [List.splitOn_cons_eq_if_modifyHead, if_pos (by simpa using hd)]
            exact List.mem_cons_of_mem _ hpart
      · rw [List.splitOn_cons_eq_if_modifyHead, if_neg (by simpa using hd)]
        obtain ⟨first, rest, hsplit⟩ := List.exists_cons_of_ne_nil (List.splitOn_ne_nil sep text)
        rw [hsplit] at ih ⊢
        rw [List.modifyHead_cons]
        rcases List.mem_cons.mp hc with rfl | hc
        · exact .inr ⟨_, List.mem_cons_self, List.mem_cons_self⟩
        · rcases ih hc with heq | ⟨part, hpart, hin⟩
          · exact .inl heq
          · rcases List.mem_cons.mp hpart with rfl | hrest
            · exact .inr ⟨_, List.mem_cons_self, List.mem_cons_of_mem _ hin⟩
            · exact .inr ⟨part, List.mem_cons_of_mem _ hrest, hin⟩

theorem isAddressCharacter_of_isDigit {c : Char} (h : isDigit c = true) :
    isAddressCharacter c = true := by
  have hrange : '0' ≤ c ∧ c ≤ '9' := by simpa [isDigit] using h
  simp [isAddressCharacter, isHexDigit, digitValue, hrange]

theorem isIPv4_characters {ip : List Char} (h : isIPv4 ip = true) :
    ∀ c ∈ ip, isAddressCharacter c = true := by
  obtain ⟨-, hparts⟩ := (Bool.and_eq_true _ _).mp h
  intro c hc
  rcases mem_splitOn_or '.' hc with rfl | ⟨part, hpart, hin⟩
  · decide
  · have hsegment := List.all_eq_true.mp hparts part hpart
    obtain ⟨hrest, -⟩ := (Bool.and_eq_true _ _).mp hsegment
    obtain ⟨hdigits, -⟩ := (Bool.and_eq_true _ _).mp hrest
    exact isAddressCharacter_of_isDigit (List.all_eq_true.mp hdigits c hin)

theorem isV6Segment_characters {group : List Char} (h : isV6Segment group = true) :
    ∀ c ∈ group, isAddressCharacter c = true := by
  obtain ⟨-, hhex⟩ := (Bool.and_eq_true _ _).mp h
  intro c hc
  simp [isAddressCharacter, List.all_eq_true.mp hhex c hc]

theorem groupCount_characters {groups : List (List Char)} {dotted : Bool} {n : Nat}
    (h : groupCount groups dotted = some n) :
    ∀ group ∈ groups, ∀ c ∈ group, isAddressCharacter c = true := by
  unfold groupCount at h
  split at h
  · rename_i hlast
    split at h
    · rename_i hinit
      obtain ⟨last, hsome, hv4⟩ := (Option.any_eq_true _ _).mp hlast.2
      have happ := List.dropLast_append_getLast? last hsome
      intro group hgroup
      rw [← happ] at hgroup
      rcases List.mem_snoc.mp hgroup with hin | rfl
      · exact isV6Segment_characters (List.all_eq_true.mp hinit group hin)
      · exact isIPv4_characters hv4
    · cases h
  · split at h
    · rename_i hall
      exact fun group hgroup => isV6Segment_characters (List.all_eq_true.mp hall group hgroup)
    · cases h

theorem colonGroups_characters {text : List Char} {dotted : Bool} {n : Nat}
    (h : groupCount (colonGroups text) dotted = some n) :
    ∀ c ∈ text, isAddressCharacter c = true := by
  intro c hc
  have hne : text ≠ [] := List.ne_nil_of_mem hc
  rw [colonGroups, if_neg hne] at h
  rcases mem_splitOn_or ':' hc with rfl | ⟨part, hpart, hin⟩
  · decide
  · exact groupCount_characters h part hpart c hin

theorem splitDoubleColon_ne_nil (text : List Char) : splitDoubleColon text ≠ [] := by
  fun_induction splitDoubleColon text with
  | case1 => exact List.cons_ne_nil _ _
  | case2 d rest _ ih =>
      obtain ⟨first, halves, hsplit⟩ := List.exists_cons_of_ne_nil ih
      rw [hsplit]
      exact List.cons_ne_nil _ _
  | case3 => exact List.cons_ne_nil _ _

theorem mem_splitDoubleColon {text : List Char} {c : Char} (hc : c ∈ text) :
    c = ':' ∨ ∃ half ∈ splitDoubleColon text, c ∈ half := by
  fun_induction splitDoubleColon text with
  | case1 rest ih =>
      rcases List.mem_cons.mp hc with rfl | hc
      · exact .inl rfl
      · rcases List.mem_cons.mp hc with rfl | hc
        · exact .inl rfl
        · rcases ih hc with heq | ⟨half, hhalf, hin⟩
          · exact .inl heq
          · exact .inr ⟨half, List.mem_cons_of_mem _ hhalf, hin⟩
  | case2 d rest hne ih =>
      obtain ⟨first, halves, hsplit⟩ := List.exists_cons_of_ne_nil (splitDoubleColon_ne_nil rest)
      rw [hsplit] at ih ⊢
      rw [List.modifyHead_cons]
      rcases List.mem_cons.mp hc with rfl | hc
      · exact .inr ⟨_, List.mem_cons_self, List.mem_cons_self⟩
      · rcases ih hc with heq | ⟨half, hhalf, hin⟩
        · exact .inl heq
        · rcases List.mem_cons.mp hhalf with rfl | hrest
          · exact .inr ⟨_, List.mem_cons_self, List.mem_cons_of_mem _ hin⟩
          · exact .inr ⟨half, List.mem_cons_of_mem _ hrest, hin⟩
  | case3 => cases hc

theorem isV6Address_characters {text : List Char} (h : isV6Address text = true) :
    ∀ c ∈ text, isAddressCharacter c = true := by
  intro c hc
  rcases mem_splitDoubleColon hc with rfl | ⟨half, hhalf, hin⟩
  · decide
  · unfold isV6Address at h
    split at h
    · rename_i groups hsplit
      rw [hsplit] at hhalf
      obtain rfl := List.mem_singleton.mp hhalf
      exact colonGroups_characters (of_decide_eq_true h) c hin
    · rename_i left right hsplit
      rw [hsplit] at hhalf
      split at h
      · rename_i hleft hright
        rcases List.mem_cons.mp hhalf with rfl | hhalf
        · exact colonGroups_characters hleft c hin
        · obtain rfl := List.mem_singleton.mp hhalf
          exact colonGroups_characters hright c hin
      · cases h
    · cases h

/-- An address has address characters, and behind a percent sign those of its zone. -/
theorem isIP_characters {ip : List Char} {version : IpVersion} (h : isIP ip = some version) :
    ∀ c ∈ ip, isAddressCharacter c = true ∨
      ('%' ∈ ip ∧ (c = '%' ∨ isZoneCharacter c = true)) := by
  intro c hc
  unfold isIP at h
  split at h
  · rename_i hv4
    exact .inl (isIPv4_characters hv4 c hc)
  · split at h
    · rename_i hv6
      obtain ⟨haddress, hzone⟩ := (Bool.and_eq_true _ _).mp hv6
      have happ := List.takeWhile_append_dropWhile (p := (· ≠ '%')) (l := ip)
      rw [← happ] at hc
      rcases List.mem_append.mp hc with hin | hin
      · exact .inl (isV6Address_characters haddress c hin)
      · cases hdrop : ip.dropWhile (· ≠ '%') with
        | nil =>
            rw [hdrop] at hin
            cases hin
        | cons percent zone =>
            have hpercent : percent = '%' := by
              have := List.head?_dropWhile_not (· ≠ '%') ip
              rw [hdrop] at this
              simpa using this
            have hmem : '%' ∈ ip := by
              rw [← happ, hdrop, hpercent]
              simp
            rw [hdrop] at hin hzone
            obtain ⟨-, hall⟩ := (Bool.and_eq_true _ _).mp hzone
            rcases List.mem_cons.mp hin with rfl | hin
            · exact .inr ⟨hmem, .inl hpercent⟩
            · exact .inr ⟨hmem, .inr (List.all_eq_true.mp hall c hin)⟩
    · cases h

end BurrowGate.Net
