import Mathlib.Algebra.Order.Ring.Nat
import Mathlib.Data.Set.Lattice
import Mathlib.Order.CompletePartialOrder

/-!
# Blocks of numbers that share their high bits

`mask k v` clears the `k` low bits of `v`. The numbers with the same mask form a
block; blocks are ordered by containment like a tree: two of them are nested or
disjoint, and which one holds the other is decided at its first number.
-/

namespace BurrowGate.Lib.PrefixBlock

/-- `v` with its `k` low bits cleared. -/
def mask (k v : Nat) : Nat := (v >>> k) <<< k

theorem mask_eq (k v : Nat) : mask k v = v / 2 ^ k * 2 ^ k := by
  rw [mask, Nat.shiftLeft_eq, Nat.shiftRight_eq_div_pow]

theorem mask_le (k v : Nat) : mask k v ≤ v := by
  rw [mask_eq]
  exact Nat.div_mul_le_self v (2 ^ k)

/-- Clearing more bits forgets that fewer were cleared before. -/
theorem mask_mask {k l : Nat} (h : k ≤ l) (v : Nat) : mask l (mask k v) = mask l v := by
  obtain ⟨d, rfl⟩ := Nat.exists_eq_add_of_le h
  have hpos : 0 < 2 ^ k := Nat.two_pow_pos k
  have hdiv : v / 2 ^ k * 2 ^ k / 2 ^ (k + d) = v / 2 ^ (k + d) := by
    rw [Nat.pow_add, ← Nat.div_div_eq_div_mul, Nat.mul_div_cancel _ hpos, Nat.div_div_eq_div_mul]
  rw [mask_eq, mask_eq, mask_eq, hdiv]

theorem mask_idem (k v : Nat) : mask k (mask k v) = mask k v := mask_mask (Nat.le_refl k) v

theorem mask_lt {k v n : Nat} (h : v < 2 ^ n) : mask k v < 2 ^ n :=
  Nat.lt_of_le_of_lt (mask_le k v) h

/-- Two numbers of `n` bits keep the same value when the low `k` bits are cleared exactly when
they agree on the first `n - k` bits. -/
theorem mask_eq_mask_iff {k n v w : Nat} (hk : k ≤ n) (hv : v < 2 ^ n) (hw : w < 2 ^ n) :
    mask k v = mask k w ↔ ∀ i < n - k, v.testBit (n - 1 - i) = w.testBit (n - 1 - i) := by
  have hshift : mask k v = mask k w ↔ v >>> k = w >>> k := by
    constructor
    · intro h
      have h' := congrArg (· >>> k) h
      simpa only [mask, Nat.shiftLeft_shiftRight] using h'
    · intro h
      rw [mask, mask, h]
  rw [hshift]
  constructor
  · intro h i hi
    have hbit := congrArg (Nat.testBit · (n - 1 - i - k)) h
    simp only [Nat.testBit_shiftRight] at hbit
    rwa [show k + (n - 1 - i - k) = n - 1 - i by omega] at hbit
  · intro h
    apply Nat.eq_of_testBit_eq
    intro j
    rw [Nat.testBit_shiftRight, Nat.testBit_shiftRight]
    by_cases hj : k + j < n
    · have hbit := h (n - 1 - (k + j)) (by omega)
      rwa [show n - 1 - (n - 1 - (k + j)) = k + j by omega] at hbit
    · have hpow : 2 ^ n ≤ 2 ^ (k + j) := Nat.pow_le_pow_right (by decide) (by omega)
      rw [Nat.testBit_lt_two_pow (by omega), Nat.testBit_lt_two_pow (by omega)]

/-- Clearing low bits does not touch what stands above them. -/
theorem mask_mul_add {k n : Nat} (h : k ≤ n) (a v : Nat) :
    mask k (a * 2 ^ n + v) = a * 2 ^ n + mask k v := by
  obtain ⟨d, rfl⟩ := Nat.exists_eq_add_of_le h
  have hpow : a * 2 ^ (k + d) = a * 2 ^ d * 2 ^ k := by
    rw [Nat.pow_add, Nat.mul_comm (2 ^ k), Nat.mul_assoc]
  rw [mask_eq, mask_eq, hpow, Nat.add_comm (a * 2 ^ d * 2 ^ k) v,
    Nat.add_mul_div_right _ _ (Nat.two_pow_pos k), Nat.add_mul, Nat.add_comm]

/-- The numbers whose mask is `n`. -/
def block (k n : Nat) : Set Nat := { v | mask k v = n }

theorem mem_block {k n v : Nat} : v ∈ block k n ↔ mask k v = n := Iff.rfl

theorem self_mem_block {k n : Nat} (h : mask k n = n) : n ∈ block k n := h

/-- A smaller block with a member in a larger one lies in it. -/
theorem block_subset {k l m n v : Nat} (hkl : k ≤ l) (hv : v ∈ block k m) (hv' : v ∈ block l n) :
    block k m ⊆ block l n := by
  intro w hw
  rw [mem_block] at hv hv' hw ⊢
  rw [← mask_mask hkl w, hw, ← hv, mask_mask hkl v, hv']

/-- A block lies in another one exactly when that one is not smaller and holds its first number. -/
theorem block_subset_iff {k l m n : Nat} (hm : mask k m = m) (hkl : k ≤ l) :
    block k m ⊆ block l n ↔ mask l m = n := by
  constructor
  · exact fun h => h (self_mem_block hm)
  · exact fun h => block_subset hkl (self_mem_block hm) h

end BurrowGate.Lib.PrefixBlock
