import BurrowGate.Lib.Lists
import Mathlib.Data.List.Induction
import Mathlib.Algebra.Order.Ring.Nat

/-!
# Positional notation

`placeValue base digit parts` reads a list of parts, each of which may or may not
be a digit, as a number to the given base, the most significant part first.
-/

namespace BurrowGate.Lib.Positional

variable {α : Type*} {base : Nat} {digit : α → Option Nat}

def placeValue (base : Nat) (digit : α → Option Nat) (parts : List α) : Option Nat :=
  parts.foldl (fun value p => value.bind fun v => (digit p).map fun d => v * base + d) (some 0)

@[simp] theorem placeValue_nil : placeValue base digit [] = some 0 := rfl

theorem placeValue_concat (parts : List α) (p : α) :
    placeValue base digit (parts ++ [p]) =
      (placeValue base digit parts).bind fun v => (digit p).map fun d => v * base + d := by
  rw [placeValue, List.foldl_append]
  rfl

/-- A number of `n` digits is below the `n`-th power of the base. -/
theorem placeValue_lt {parts : List α} {v : Nat}
    (hdigit : ∀ p ∈ parts, ∀ d, digit p = some d → d < base)
    (h : placeValue base digit parts = some v) : v < base ^ parts.length := by
  induction parts using List.reverseRecOn generalizing v with
  | nil =>
      obtain rfl := Option.some.inj h
      exact Nat.one_pos
  | append_singleton parts p ih =>
      rw [placeValue_concat] at h
      obtain ⟨w, hw, hp⟩ := Option.bind_eq_some_iff.mp h
      obtain ⟨d, hd, rfl⟩ := Option.map_eq_some_iff.mp hp
      have hlt := ih (fun q hq => hdigit q (List.mem_append_left _ hq)) hw
      have hdlt := hdigit p (List.mem_append_right _ (List.mem_singleton.mpr rfl)) d hd
      rw [List.length_append, List.length_singleton, pow_succ]
      calc w * base + d < w * base + base := Nat.add_lt_add_left hdlt _
        _ = (w + 1) * base := by rw [Nat.succ_mul]
        _ ≤ base ^ parts.length * base := Nat.mul_le_mul_right base hlt

/-- Only a list of digits has a value. -/
theorem digit_of_placeValue {parts : List α} {v : Nat} (h : placeValue base digit parts = some v) :
    ∀ p ∈ parts, (digit p).isSome := by
  induction parts using List.reverseRecOn generalizing v with
  | nil => simp
  | append_singleton parts p ih =>
      rw [placeValue_concat] at h
      obtain ⟨w, hw, hp⟩ := Option.bind_eq_some_iff.mp h
      obtain ⟨d, hd, -⟩ := Option.map_eq_some_iff.mp hp
      intro q hq
      rcases List.mem_snoc.mp hq with hq | rfl
      · exact ih hw q hq
      · rw [hd]
        rfl

/-! ## Writing -/

/-- The last `n` digits of a number, the most significant first. -/
def digitsOf (base : Nat) : Nat → Nat → List Nat
  | 0, _ => []
  | n + 1, v => digitsOf base n (v / base) ++ [v % base]

@[simp] theorem length_digitsOf (base n v : Nat) : (digitsOf base n v).length = n := by
  induction n generalizing v with
  | zero => rfl
  | succ n ih => rw [digitsOf, List.length_append, ih, List.length_singleton]

theorem digitsOf_lt (hbase : 0 < base) {n v d : Nat} (h : d ∈ digitsOf base n v) : d < base := by
  induction n generalizing v with
  | zero => cases h
  | succ n ih =>
      rcases List.mem_snoc.mp h with h | rfl
      · exact ih h
      · exact Nat.mod_lt _ hbase

/-- The number that a list of digits writes. -/
def foldDigits (base : Nat) (digits : List Nat) : Nat := digits.foldl (fun v d => v * base + d) 0

theorem foldDigits_concat (digits : List Nat) (d : Nat) :
    foldDigits base (digits ++ [d]) = foldDigits base digits * base + d := by
  rw [foldDigits, List.foldl_append]
  rfl

/-- Parts that all read as digits write the number of these digits. -/
theorem placeValue_of_map_eq {parts : List α} {digits : List Nat}
    (h : parts.map digit = digits.map some) :
    placeValue base digit parts = some (foldDigits base digits) := by
  induction parts using List.reverseRecOn generalizing digits with
  | nil =>
      obtain rfl := List.map_eq_nil_iff.mp h.symm
      rfl
  | append_singleton parts p ih =>
      rw [List.map_append, List.map_singleton] at h
      obtain ⟨init, last, rfl, hinit, hlast⟩ := List.map_eq_append_iff.mp h.symm
      obtain ⟨d, rfl, hd⟩ := List.map_eq_singleton_iff.mp hlast
      rw [placeValue_concat, ih hinit.symm, ← hd, foldDigits_concat]
      rfl

theorem placeValue_eq_foldDigits {parts : List α} {value : α → Nat}
    (h : ∀ p ∈ parts, digit p = some (value p)) :
    placeValue base digit parts = some (foldDigits base (parts.map value)) := by
  apply placeValue_of_map_eq
  rw [List.map_map]
  exact List.map_congr_left h

/-- Parts that stand for the last `n` digits of a number read as the rest of a division. -/
theorem placeValue_map_digitsOf {α : Type*} {digit : α → Option Nat} {write : Nat → α}
    (hbase : 0 < base) (hwrite : ∀ d < base, digit (write d) = some d) (n v : Nat) :
    placeValue base digit ((digitsOf base n v).map write) = some (v % base ^ n) := by
  induction n generalizing v with
  | zero => rw [pow_zero, Nat.mod_one]; rfl
  | succ n ih =>
      rw [digitsOf, List.map_append, List.map_singleton, placeValue_concat, ih,
        hwrite _ (Nat.mod_lt _ hbase)]
      show some (v / base % base ^ n * base + v % base) = some (v % base ^ (n + 1))
      rw [pow_succ', Nat.mod_mul, Nat.mul_comm, Nat.add_comm]

end BurrowGate.Lib.Positional
