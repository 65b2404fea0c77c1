import BurrowGate.Net.AddressValue

/-!
# What `parseCidr` accepts

CIDR notation is an address, alone or followed by one slash and the decimal number of
its network bits. `parseCidr` converts the text behind the first slash with `Number` and
drops what follows a second one.
-/

namespace BurrowGate.Net

open Js
open Lib.PrefixBlock

/-- `text` writes the network of the first `length` bits of the address `a`. -/
def IsCidrNotation (text : List Char) (a : ParsedIp) (length : Nat) : Prop :=
  length ≤ a.version.bits ∧ ∃ address, addressOf address = some a ∧
    ((text = address ∧ length = a.version.bits) ∨
      text = address ++ '/' :: Nat.toDigits 10 length)

/-- `b` is of the family of `a` and has its first `length` bits. -/
def Agrees (length : Nat) (a b : ParsedIp) : Prop :=
  b.version = a.version ∧ ∀ i < length,
    b.value.testBit (a.version.bits - 1 - i) = a.value.testBit (a.version.bits - 1 - i)

/-- `parseCidr` accepts the input exactly when it is CIDR notation, and the network then
contains the addresses that agree with the one written. -/
def CidrExact (input : List Char) : Prop :=
  ((parseCidr input).isSome = true ↔ ∃ a length, IsCidrNotation (trim input) a length) ∧
    ∀ a length, IsCidrNotation (trim input) a length → ∀ c, parseCidr input = some c →
      ∀ ip, cidrContains c ip = true ↔ ∃ b, addressOf ip = some b ∧ Agrees length a b

/-- Behind the address and a slash stands text that `Number` converts to a length of the
family, and which is not the decimal text of that length, or is followed by a slash. -/
def ReadsLoosely (input : List Char) : Prop :=
  ∃ address text more version length, (trim input).splitOn '/' = address :: text :: more ∧
    isIP address = some version ∧ parsePrefixLength version.bits text = some length ∧
      (more ≠ [] ∨ text ≠ Nat.toDigits 10 length)

/-! ## Splitting at the slash -/

theorem address_noSlash {text : List Char} {a : ParsedIp} (h : addressOf text = some a) :
    '/' ∉ text := by
  intro hslash
  obtain ⟨version, his, -⟩ := Option.map_eq_some_iff.mp h
  rcases isIP_characters his _ hslash with haddress | ⟨-, heq | hzone⟩
  · revert haddress
    decide
  · cases heq
  · revert hzone
    decide

theorem splitOn_cidr {address digits : List Char} (haddress : '/' ∉ address)
    (hdigits : '/' ∉ digits) : (address ++ '/' :: digits).splitOn '/' = [address, digits] := by
  rw [List.splitOn_append_cons_self, List.splitOn_eq_singleton haddress,
    List.splitOn_eq_singleton hdigits]
  rfl

theorem toDigits_noSlash (n : Nat) : '/' ∉ Nat.toDigits 10 n := by
  intro h
  obtain ⟨d, hd, heq⟩ := exists_of_mem_toDigits (by decide) h
  have htable : ∀ d < 10, '/' ≠ Nat.digitChar d := by decide
  exact htable d hd heq

/-- The parts of CIDR notation: the address, and the decimal length unless it stands alone. -/
theorem IsCidrNotation.parts {text : List Char} {a : ParsedIp} {length : Nat}
    (h : IsCidrNotation text a length) : ∃ address, addressOf address = some a ∧
      ((text.splitOn '/' = [address] ∧ length = a.version.bits) ∨
        text.splitOn '/' = [address, Nat.toDigits 10 length]) := by
  obtain ⟨-, address, haddress, ⟨rfl, hbits⟩ | rfl⟩ := h
  · exact ⟨text, haddress, .inl ⟨List.splitOn_eq_singleton (address_noSlash haddress), hbits⟩⟩
  · exact ⟨address, haddress,
      .inr (splitOn_cidr (address_noSlash haddress) (toDigits_noSlash length))⟩

/-- `Number` reads the decimal text of a length as the length. -/
theorem parsePrefixLength_toDigits {bits n : Nat} (hbits : bits ≤ 128) (hn : n ≤ bits) :
    parsePrefixLength bits (Nat.toDigits 10 n) = some n := by
  have htable : ∀ n < 129, toNumber (Nat.toDigits 10 n) = some (n : ℚ) := by decide +kernel
  have hle : (n : ℚ) ≤ bits := by exact_mod_cast hn
  unfold parsePrefixLength
  rw [htable n (by omega), Option.bind_some, if_pos ⟨rfl, Nat.cast_nonneg n, hle⟩]
  rfl

theorem bits_le (version : IpVersion) : version.bits ≤ 128 := by
  cases version <;> decide

/-! ## The network -/

/-- The network of the first `length` bits of an address. -/
def networkOf (a : ParsedIp) (length : Nat) : ParsedCidr where
  version := a.version
  network := mask (a.version.bits - length) a.value
  bits := a.version.bits
  length := length

theorem parseCidr_eq {input address : List Char} {rest : List (List Char)}
    (hsplit : (trim input).splitOn '/' = address :: rest) :
    parseCidr input = (addressOf address).bind fun a =>
      (match rest with
        | [] => some a.version.bits
        | text :: _ => parsePrefixLength a.version.bits text).map (networkOf a) := by
  unfold parseCidr
  rw [hsplit]
  dsimp only
  rw [parseIp_eq_addressOf]
  rfl

theorem addressOf_lt {text : List Char} {a : ParsedIp} (h : addressOf text = some a) :
    a.value < 2 ^ a.version.bits := by
  rw [← parseIp_eq_addressOf] at h
  exact parseIp_lt h

theorem cidrContains_networkOf {address : List Char} {a : ParsedIp} {length : Nat}
    (ha : addressOf address = some a) (hlength : length ≤ a.version.bits) (ip : List Char) :
    cidrContains (networkOf a length) ip = true ↔
      ∃ b, addressOf ip = some b ∧ Agrees length a b := by
  unfold cidrContains
  rw [parseIp_eq_addressOf, Option.any_eq_true]
  refine exists_congr fun b => and_congr_right fun hb => ?_
  unfold ParsedCidr.contains networkOf Agrees
  rw [Bool.and_eq_true, decide_eq_true_eq, decide_eq_true_eq]
  refine Iff.trans (and_congr_left' eq_comm) (and_congr_right fun hversion => ?_)
  have hlt := addressOf_lt hb
  rw [hversion] at hlt
  rw [mask_eq_mask_iff (Nat.sub_le _ _) hlt (addressOf_lt ha), Nat.sub_sub_self hlength]

/-! ## The claim -/

/-- What is notation is accepted, as the network it writes. -/
theorem parseCidr_of_isCidrNotation {input : List Char} {a : ParsedIp} {length : Nat}
    (h : IsCidrNotation (trim input) a length) : parseCidr input = some (networkOf a length) := by
  obtain ⟨address, haddress, ⟨hsplit, rfl⟩ | hsplit⟩ := h.parts
  · rw [parseCidr_eq hsplit, haddress]
    rfl
  · rw [parseCidr_eq hsplit, haddress]
    dsimp only [Option.bind_some]
    rw [parsePrefixLength_toDigits (bits_le _) h.1]
    rfl

/-- What is accepted and not notation is read loosely, and the other way round. -/
theorem accepted_iff (input : List Char) :
    (parseCidr input).isSome = true ↔
      (∃ a length, IsCidrNotation (trim input) a length) ∨ ReadsLoosely input := by
  constructor
  · intro h
    obtain ⟨address, rest, hsplit⟩ := List.exists_cons_of_ne_nil
      (List.splitOn_ne_nil '/' (trim input))
    rw [parseCidr_eq hsplit] at h
    have hjoin : ['/'].intercalate ((trim input).splitOn '/') = trim input :=
      List.intercalate_splitOn '/'
    cases haddress : addressOf address with
    | none =>
        rw [haddress] at h
        cases h
    | some a =>
        rw [haddress, Option.bind_some, Option.isSome_map] at h
        cases rest with
        | nil =>
            refine .inl ⟨a, a.version.bits, Nat.le_refl _, address, haddress, .inl ⟨?_, rfl⟩⟩
            rw [← hjoin, hsplit, List.intercalate_singleton]
        | cons text more =>
            obtain ⟨length, hlength⟩ := Option.isSome_iff_exists.mp h
            by_cases hstrict : more = [] ∧ text = Nat.toDigits 10 length
            · obtain ⟨rfl, rfl⟩ := hstrict
              refine .inl ⟨a, length, parsePrefixLength_le hlength, address, haddress, .inr ?_⟩
              rw [← hjoin, hsplit, List.intercalate_cons_cons, List.intercalate_singleton]
              simp
            · obtain ⟨version, his, rfl⟩ := Option.map_eq_some_iff.mp haddress
              refine .inr ⟨address, text, more, version, length, hsplit, his, hlength, ?_⟩
              by_cases hmore : more = []
              · exact .inr fun htext => hstrict ⟨hmore, htext⟩
              · exact .inl hmore
  · rintro (⟨a, length, h⟩ | ⟨address, text, more, version, length, hsplit, his, hlength, -⟩)
    · rw [parseCidr_of_isCidrNotation h]
      rfl
    · rw [parseCidr_eq hsplit, addressOf, his, Option.map_some, Option.bind_some]
      dsimp only
      rw [hlength]
      rfl

/-- A loosely read text is no notation. -/
theorem not_cidr_of_readsLoosely {input : List Char} (h : ReadsLoosely input) {a : ParsedIp}
    {n : Nat} : ¬ IsCidrNotation (trim input) a n := by
  intro hcidr
  obtain ⟨address, text, more, version, length, hsplit, his, hlength, hloose⟩ := h
  obtain ⟨address', haddress', ⟨hsplit', -⟩ | hsplit'⟩ := hcidr.parts
  · rw [hsplit] at hsplit'
    simp at hsplit'
  · rw [hsplit] at hsplit'
    obtain ⟨rfl, hrest⟩ := List.cons.inj hsplit'
    obtain ⟨rfl, rfl⟩ := List.cons.inj hrest
    -- the decimal text reads as the number it is the text of
    obtain ⟨version', his', rfl⟩ := Option.map_eq_some_iff.mp haddress'
    obtain rfl := Option.some.inj (his.symm.trans his')
    have hread := parsePrefixLength_toDigits (bits_le version) hcidr.1
    obtain rfl := Option.some.inj (hlength.symm.trans hread)
    rcases hloose with hmore | htext
    · exact hmore rfl
    · exact htext rfl

/-- `parseCidr` is exact on an input unless it reads the length loosely. -/
theorem parseCidr_exact (input : List Char) : CidrExact input ↔ ¬ ReadsLoosely input := by
  constructor
  · rintro ⟨hiff, -⟩ hloose
    obtain ⟨a, n, hcidr⟩ := hiff.mp ((accepted_iff input).mpr (.inr hloose))
    exact not_cidr_of_readsLoosely hloose hcidr
  · intro hstrict
    refine ⟨?_, ?_⟩
    · rw [accepted_iff]
      exact or_iff_left hstrict
    · intro a length hcidr c hc ip
      rw [parseCidr_of_isCidrNotation hcidr] at hc
      obtain rfl := Option.some.inj hc
      obtain ⟨address, haddress, -⟩ := hcidr.parts
      exact cidrContains_networkOf haddress hcidr.1 ip

/-- An empty prefix length is read as zero: the text stands for every IPv4 address. -/
theorem empty_prefix_accepted : ¬ ∀ input, CidrExact input := by
  intro h
  have hexact := h "10.0.0.1/".toList
  have hsome : (parseCidr "10.0.0.1/".toList).isSome = true := by decide +kernel
  obtain ⟨a, n, hcidr⟩ := hexact.1.mp hsome
  obtain ⟨address, -, ⟨hsplit, -⟩ | hsplit⟩ := hcidr.parts
  · have hlen := congrArg List.length hsplit
    have htwo : ((trim "10.0.0.1/".toList).splitOn '/').length = 2 := by decide +kernel
    rw [htwo] at hlen
    cases hlen
  · have hsecond := congrArg (·[1]?) hsplit
    have hempty : ((trim "10.0.0.1/".toList).splitOn '/')[1]? = some [] := by decide +kernel
    rw [hempty] at hsecond
    exact Nat.toDigits_ne_nil (Option.some.inj hsecond).symm

end BurrowGate.Net
