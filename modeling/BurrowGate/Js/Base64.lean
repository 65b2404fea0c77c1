import Mathlib.Data.List.Basic
import Mathlib.Data.List.DropRight

/-!
# Base64 in JavaScript

`btoa` on bytes, and the URL-safe form of `utils/crypto.ts`.
-/

namespace BurrowGate.Js

def base64Alphabet : List Char :=
  "ABCDEFGHIJKLMNOPQRSTUVWXYZabcdefghijklmnopqrstuvwxyz0123456789+/".toList

def base64Char (sextet : Nat) : Char := base64Alphabet.getD sextet '='

/-- Groups of three bytes as four numbers below 64, and what is left as two or three. -/
def sextets : List UInt8 → List Nat
  | a :: b :: c :: rest =>
      (a.toNat / 4) :: (a.toNat % 4 * 16 + b.toNat / 16) :: (b.toNat % 16 * 4 + c.toNat / 64) ::
        (c.toNat % 64) :: sextets rest
  | [a, b] => [a.toNat / 4, a.toNat % 4 * 16 + b.toNat / 16, b.toNat % 16 * 4]
  | [a] => [a.toNat / 4, a.toNat % 4 * 16]
  | [] => []

/-- `padEnd` to a multiple of four. -/
def padBase64 (cs : List Char) : List Char :=
  cs ++ List.replicate ((4 - cs.length % 4) % 4) '='

def btoa (bytes : List UInt8) : List Char := padBase64 ((sextets bytes).map base64Char)

/-- `replaceAll("+", "-").replaceAll("/", "_")` -/
def urlSafe (c : Char) : Char := if c = '+' then '-' else if c = '/' then '_' else c

def toBase64Url (bytes : List UInt8) : List Char :=
  ((btoa bytes).map urlSafe).rdropWhile (· == '=')

/-! ## The encoded text -/

theorem sextets_lt : ∀ (bytes : List UInt8), ∀ n ∈ sextets bytes, n < 64
  | [], n, h => by cases h
  | [a], n, h => by
      have ha := a.toNat_lt
      simp only [sextets, List.mem_cons, List.not_mem_nil, or_false] at h
      omega
  | [a, b], n, h => by
      have ha := a.toNat_lt
      have hb := b.toNat_lt
      simp only [sextets, List.mem_cons, List.not_mem_nil, or_false] at h
      omega
  | a :: b :: c :: rest, n, h => by
      have ha := a.toNat_lt
      have hb := b.toNat_lt
      have hc := c.toNat_lt
      simp only [sextets, List.mem_cons] at h
      rcases h with h | h | h | h | h
      · omega
      · omega
      · omega
      · omega
      · exact sextets_lt rest n h

theorem urlSafe_base64Char_ne_pad : ∀ n < 64, urlSafe (base64Char n) ≠ '=' := by
  decide +kernel

/-- The characters of an encoded text: those of the alphabet, in the URL-safe form. -/
theorem toBase64Url_eq (bytes : List UInt8) :
    toBase64Url bytes = (sextets bytes).map fun n => urlSafe (base64Char n) := by
  have hplain : ((sextets bytes).map fun n => urlSafe (base64Char n)).rdropWhile (· == '=') =
      (sextets bytes).map fun n => urlSafe (base64Char n) := by
    rw [List.rdropWhile_eq_self_iff]
    intro hne hlast
    obtain ⟨n, hn, heq⟩ := List.mem_map.mp (List.getLast_mem hne)
    rw [← heq] at hlast
    exact urlSafe_base64Char_ne_pad n (sextets_lt bytes n hn) (beq_iff_eq.mp hlast)
  rw [toBase64Url, btoa, padBase64, List.map_append, List.map_map, List.map_replicate,
    show urlSafe '=' = '=' from rfl]
  generalize (4 - ((sextets bytes).map base64Char).length % 4) % 4 = count
  induction count with
  | zero =>
      rw [List.replicate_zero, List.append_nil]
      exact hplain
  | succ count ih =>
      rw [List.replicate_succ', ← List.append_assoc, List.rdropWhile_concat_pos _ _ _ (by rfl)]
      exact ih

end BurrowGate.Js
