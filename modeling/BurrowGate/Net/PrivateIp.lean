import BurrowGate.Net.Ip

/-!
# `isPrivateIp` on values

`isPrivateIp` compares texts; the dotted text it makes of an IPv4-mapped address
reads back as the address. So it is membership in a fixed list of blocks.
-/

namespace BurrowGate.Net

open Js
open Lib.Positional
open Lib.PrefixBlock

/-! ## Dotted text -/

/-- A byte in decimal is a segment that reads as the byte. -/
theorem decimal_byte : ∀ n < 256, isV4Segment (Nat.toDigits 10 n) = true ∧
    parseV4Part (Nat.toDigits 10 n) = some n ∧ '.' ∉ Nat.toDigits 10 n := by
  decide +kernel

theorem parseIp_ipv4Text {v : Nat} (h : v < 2 ^ 32) :
    parseIp (ipv4Text v) = some { version := .v4, value := v } := by
  have hbyte : ∀ k, v >>> k % 256 < 256 := fun k => Nat.mod_lt _ (by decide)
  obtain ⟨ha, ha', ha''⟩ := decimal_byte _ (hbyte 24)
  obtain ⟨hb, hb', hb''⟩ := decimal_byte _ (hbyte 16)
  obtain ⟨hc, hc', hc''⟩ := decimal_byte _ (hbyte 8)
  obtain ⟨hd, hd', hd''⟩ := decimal_byte _ (hbyte 0)
  rw [Nat.shiftRight_zero] at hd hd' hd''
  have hsplit : (ipv4Text v).splitOn '.' =
      [v >>> 24 % 256, v >>> 16 % 256, v >>> 8 % 256, v % 256].map (Nat.toDigits 10) := by
    refine List.splitOn_intercalate '.' (fun part hpart => ?_) (by simp)
    simp only [List.map_cons, List.map_nil, List.mem_cons, List.not_mem_nil, or_false] at hpart
    rcases hpart with rfl | rfl | rfl | rfl
    · exact ha''
    · exact hb''
    · exact hc''
    · exact hd''
  have his : isIPv4 (ipv4Text v) = true := by
    unfold isIPv4
    rw [hsplit]
    simp [ha, hb, hc, hd]
  have hparse : parseIpv4 (ipv4Text v) = some v := by
    unfold parseIpv4
    rw [hsplit]
    simp only [List.map_cons, List.map_nil, List.length_cons, List.length_nil, Nat.zero_add,
      if_true, placeValue, List.foldl_cons, List.foldl_nil, ha', hb', hc', hd', Option.bind_some,
      Option.map_some, Nat.zero_mul, Nat.reduceAdd]
    simp only [Nat.shiftRight_eq_div_pow]
    congr 1
    omega
  unfold parseIp isIP
  rw [if_pos his]
  simp [hparse]

/-! ## The private blocks -/

/-- A block of IPv4 addresses in its IPv4-mapped form. -/
def ParsedCidr.mapped (c : ParsedCidr) : ParsedCidr :=
  { version := .v6, network := 0xffff * 2 ^ 32 + c.network, bits := 128, length := 96 + c.length }

def privateCidrs : List ParsedCidr := PRIVATE_CIDRS.filterMap parseCidr

/-- The private blocks, those of IPv4 also in their IPv4-mapped form. -/
def privateBlocks : List ParsedCidr :=
  privateCidrs ++ (privateCidrs.filter (·.version = .v4)).map .mapped

theorem cidrContains_of_parse {c : ParsedCidr} {ip : List Char} {p : ParsedIp}
    (h : parseIp ip = some p) : cidrContains c ip = c.contains p := by
  rw [cidrContains, h]
  rfl

theorem privateCidrs_any {ip : List Char} {p : ParsedIp} (h : parseIp ip = some p) :
    (PRIVATE_CIDRS.any fun cidr => (parseCidr cidr).any (cidrContains · ip)) =
      privateCidrs.any (·.contains p) := by
  unfold privateCidrs
  rw [List.any_filterMap]
  congr 1
  funext cidr
  cases parseCidr cidr with
  | none => rfl
  | some c => exact cidrContains_of_parse h

/-- A mapped block holds the mapped addresses of the block. -/
theorem mapped_contains {c : ParsedCidr} (hc : c.WellFormed) (hv : c.version = .v4) (v : Nat) :
    c.mapped.contains { version := .v6, value := v } =
      (v >>> 32 = 0xffff && c.contains { version := .v4, value := v % 2 ^ 32 } : Bool) := by
  have hbits : c.bits = 32 := by
    rw [hc.bits, hv]
    rfl
  have hlen : c.length ≤ 32 := hbits ▸ hc.length
  have hshift : 128 - (96 + c.length) = 32 - c.length := by omega
  have hle : 32 - c.length ≤ 32 := Nat.sub_le _ _
  have hdecomp : v >>> 32 * 2 ^ 32 + v % 2 ^ 32 = v := by
    rw [Nat.shiftRight_eq_div_pow]
    exact Nat.div_add_mod' v (2 ^ 32)
  have hlt : mask (32 - c.length) (v % 2 ^ 32) < 2 ^ 32 :=
    mask_lt (Nat.mod_lt _ (Nat.two_pow_pos 32))
  have hnet : c.network < 2 ^ 32 := hbits ▸ hc.lt
  have hmask : mask (32 - c.length) v = v >>> 32 * 2 ^ 32 + mask (32 - c.length) (v % 2 ^ 32) := by
    conv => lhs; rw [← hdecomp]
    exact mask_mul_add hle _ _
  rw [Bool.eq_iff_iff]
  simp only [ParsedCidr.contains, ParsedCidr.mapped, hv, hbits, hshift, decide_true, Bool.true_and,
    Bool.and_eq_true, decide_eq_true_eq]
  rw [hmask]
  constructor
  · intro h
    constructor <;> omega
  · rintro ⟨htop, hlow⟩
    rw [htop, hlow]

theorem mem_privateCidrs {c : ParsedCidr} (h : c ∈ privateCidrs) : c.WellFormed := by
  obtain ⟨text, -, hparse⟩ := List.mem_filterMap.mp h
  exact parseCidr_wellFormed hparse

theorem any_congr_of_mem {α : Type*} {xs : List α} {p q : α → Bool} (h : ∀ x ∈ xs, p x = q x) :
    xs.any p = xs.any q := by
  rw [Bool.eq_iff_iff, List.any_eq_true, List.any_eq_true]
  constructor
  · rintro ⟨x, hx, hp⟩
    exact ⟨x, hx, h x hx ▸ hp⟩
  · rintro ⟨x, hx, hq⟩
    exact ⟨x, hx, (h x hx).symm ▸ hq⟩

/-- An address is private when a private block holds it. -/
theorem isPrivateIp_eq (ip : List Char) :
    isPrivateIp ip = (parseIp ip).any fun p => privateBlocks.any (·.contains p) := by
  unfold isPrivateIp
  cases hp : parseIp ip with
  | none => rfl
  | some p =>
      dsimp only
      rw [Option.any_some, List.any_cons, privateCidrs_any hp]
      unfold privateBlocks
      rw [List.any_append]
      refine congrArg (privateCidrs.any (·.contains p) || ·) ?_
      obtain ⟨version, value⟩ := p
      cases version with
      | v4 =>
          rw [if_neg (by simp), List.any_nil]
          symm
          rw [List.any_eq_false]
          intro c hc
          obtain ⟨d, -, rfl⟩ := List.mem_map.mp hc
          simp [ParsedCidr.contains, ParsedCidr.mapped]
      | v6 =>
          rw [if_pos rfl, List.any_map, List.any_filter]
          unfold ipv4FromMapped
          by_cases hmapped : value >>> 32 = 0xffff
          · have htext := parseIp_ipv4Text (Nat.mod_lt value (Nat.two_pow_pos 32))
            rw [if_pos hmapped, Option.toList_some, List.any_cons, List.any_nil, Bool.or_false,
              privateCidrs_any htext]
            refine any_congr_of_mem fun c hc => ?_
            by_cases hv : c.version = .v4
            · have := mapped_contains (mem_privateCidrs hc) hv value
              simp [hv, this, hmapped]
            · simp [hv, ParsedCidr.contains]
          · rw [if_neg hmapped, Option.toList_none, List.any_nil]
            symm
            rw [List.any_eq_false]
            intro c hc
            by_cases hv : c.version = .v4
            · have := mapped_contains (mem_privateCidrs hc) hv value
              simp [this, hmapped]
            · simp [hv]

end BurrowGate.Net
