import Mathlib.Algebra.BigOperators.Group.Finset.Basic
import Mathlib.Algebra.BigOperators.Ring.Finset
import Mathlib.Algebra.Order.BigOperators.Group.Finset
import Mathlib.NumberTheory.Harmonic.Defs
import Mathlib.Tactic.FieldSimp
import Mathlib.Tactic.Linarith
import Mathlib.Tactic.Ring

/-!
# Smooth weighted round robin

Every candidate has a weight and a credit. In a selection each credit grows by its weight,
a candidate with the greatest credit is picked, and it pays the sum of the weights. The
credits start at zero. How ties are broken does not matter here.
-/

namespace BurrowGate.Lib.SmoothRoundRobin

open Finset

variable {ι : Type*} [DecidableEq ι]

/-- What one selection of `i` makes of the credits of the candidates. -/
structure Picks (s : Finset ι) (w : ι → ℤ) (before : ι → ℤ) (i : ι) (after : ι → ℤ) : Prop where
  mem : i ∈ s
  greatest : ∀ j ∈ s, before j + w j ≤ before i + w i
  credit : ∀ j ∈ s, after j = before j + w j - if j = i then ∑ k ∈ s, w k else 0

/-- The selections from credits of zero on, and the credits after them. -/
inductive Run (s : Finset ι) (w : ι → ℤ) : List ι → (ι → ℤ) → Prop
  | start {c : ι → ℤ} (h : ∀ j ∈ s, c j = 0) : Run s w [] c
  | pick {picks : List ι} {before after : ι → ℤ} {i : ι} (h : Run s w picks before)
      (hpick : Picks s w before i after) : Run s w (picks ++ [i]) after

variable {s : Finset ι} {w : ι → ℤ} {picks : List ι} {c before after : ι → ℤ} {i j : ι}

/-- A credit is what the weight has earned less what the selections have cost. -/
theorem Run.credit_eq (h : Run s w picks c) (hj : j ∈ s) :
    c j = picks.length * w j - picks.count j * ∑ k ∈ s, w k := by
  induction h with
  | start hzero => simp [hzero j hj]
  | pick hrun hpick ih =>
      rename_i i
      rw [hpick.credit j hj, ih, List.length_append, List.count_append]
      by_cases hij : j = i
      · subst hij
        simp only [↓reduceIte, List.length_singleton, List.count_singleton_self, Nat.cast_add,
          Nat.cast_one]
        ring
      · rw [if_neg hij, List.count_singleton, if_neg (by simpa using Ne.symm hij)]
        simp only [List.length_singleton, Nat.cast_add, Nat.cast_one, Nat.add_zero]
        ring

theorem Picks.sum_eq (h : Picks s w before i after) (t : Finset ι) (ht : t ⊆ s) :
    ∑ j ∈ t, after j =
      ∑ j ∈ t, (before j + w j) - if i ∈ t then ∑ k ∈ s, w k else 0 := by
  rw [Finset.sum_congr rfl fun j hj => h.credit j (ht hj), Finset.sum_sub_distrib,
    Finset.sum_ite_eq']

theorem Run.sum_credit (h : Run s w picks c) : ∑ j ∈ s, c j = 0 := by
  induction h with
  | start hzero => exact Finset.sum_eq_zero hzero
  | pick hrun hpick ih =>
      rw [hpick.sum_eq s (Finset.Subset.refl s), if_pos hpick.mem, Finset.sum_add_distrib, ih]
      omega

/-! ## No candidate is ahead of its share by a whole turn -/

theorem Picks.winner_pos (h : Picks s w before i after) (hzero : ∑ j ∈ s, before j = 0)
    (htotal : 0 < ∑ j ∈ s, w j) : 0 < before i + w i := by
  by_contra hnonpos
  have hle : ∑ j ∈ s, (before j + w j) ≤ 0 := by
    apply Finset.sum_nonpos
    intro j hj
    have hgreatest := h.greatest j hj
    omega
  rw [Finset.sum_add_distrib] at hle
  omega

theorem Run.neg_total_lt (h : Run s w picks c) (hw : ∀ j ∈ s, 0 ≤ w j)
    (htotal : 0 < ∑ k ∈ s, w k) : ∀ j ∈ s, -(∑ k ∈ s, w k) < c j := by
  induction h with
  | start hzero =>
      intro j hj
      rw [hzero j hj]
      omega
  | pick hrun hpick ih =>
      rename_i i
      intro j hj
      rw [hpick.credit j hj]
      by_cases hij : j = i
      · subst hij
        have hpos := hpick.winner_pos hrun.sum_credit htotal
        rw [if_pos rfl]
        omega
      · have hbefore := ih j hj
        have hweight := hw j hj
        rw [if_neg hij]
        omega

/-- After as many selections as the sum of the weights each candidate had its weight. -/
theorem Run.block (h : Run s w picks c) (hw : ∀ j ∈ s, 0 ≤ w j) (htotal : 0 < ∑ k ∈ s, w k)
    (hlength : (picks.length : ℤ) = ∑ k ∈ s, w k) :
    ∀ j ∈ s, (picks.count j : ℤ) = w j ∧ c j = 0 := by
  have hcredit : ∀ j ∈ s, c j = (∑ k ∈ s, w k) * (w j - picks.count j) := by
    intro j hj
    rw [h.credit_eq hj, hlength]
    ring
  -- A multiple of the total above minus the total is not negative, and all of them sum to zero.
  have hnonneg : ∀ j ∈ s, 0 ≤ c j := by
    intro j hj
    have hlt := h.neg_total_lt hw htotal j hj
    have hfactor : 0 ≤ w j - picks.count j := by
      by_contra hneg
      rw [hcredit j hj] at hlt
      have hle : (w j - picks.count j : ℤ) ≤ -1 := by omega
      nlinarith
    rw [hcredit j hj]
    exact mul_nonneg (by omega) hfactor
  have hzero := (Finset.sum_eq_zero_iff_of_nonneg hnonneg).mp h.sum_credit
  intro j hj
  refine ⟨?_, hzero j hj⟩
  have hmul := hcredit j hj
  rw [hzero j hj] at hmul
  rcases mul_eq_zero.mp hmul.symm with htotal' | hfactor
  · omega
  · omega

/-! ## No set of candidates is far behind its share -/

theorem sum_le_card_mul (h : Picks s w before i after) {t : Finset ι} (ht : t ⊆ s) :
    ∑ j ∈ t, (before j + w j) ≤ t.card * (before i + w i) := by
  have hle := Finset.sum_le_card_nsmul t (fun j => before j + w j) (before i + w i)
    fun j hj => h.greatest j (ht hj)
  rwa [nsmul_eq_mul] at hle

theorem scaled_bound {n : ℚ} (b total : ℚ) (hn : n + 1 ≠ 0) :
    n * ((n + 1) * b + total) = (n + 1) * (n * (b + total * (n + 1)⁻¹)) := by
  field_simp

/-- The step for a set that was not picked from: it is outweighed by the winner. -/
theorem Picks.sum_le_of_notMem (h : Picks s w before i after) {t : Finset ι} (ht : t ⊆ s)
    (hi : i ∉ t) (hw : ∀ j ∈ s, 0 ≤ w j) {b : ℚ}
    (hbound : ((∑ j ∈ insert i t, before j : ℤ) : ℚ) ≤ (t.card + 1) * b) :
    ((∑ j ∈ t, after j : ℤ) : ℚ) ≤
      t.card * (b + ((∑ k ∈ s, w k : ℤ) : ℚ) * ((t.card + 1 : ℕ) : ℚ)⁻¹) := by
  have hinsert : insert i t ⊆ s := Finset.insert_subset h.mem ht
  have hweights : ∑ j ∈ insert i t, w j ≤ ∑ k ∈ s, w k :=
    Finset.sum_le_sum_of_subset_of_nonneg hinsert fun j hj _ => hw j hj
  have hwinner := sum_le_card_mul h ht
  have hafter := h.sum_eq t ht
  rw [if_neg hi, sub_zero] at hafter
  rw [hafter]
  have hsplit : ∑ j ∈ insert i t, (before j + w j) =
      (before i + w i) + ∑ j ∈ t, (before j + w j) := Finset.sum_insert hi
  rw [Finset.sum_add_distrib] at hsplit
  have hcast : (((∑ j ∈ insert i t, before j : ℤ) : ℚ)) + ((∑ j ∈ insert i t, w j : ℤ) : ℚ) =
      ((before i + w i : ℤ) : ℚ) + ((∑ j ∈ t, (before j + w j) : ℤ) : ℚ) := by
    exact_mod_cast hsplit
  have hweights' : ((∑ j ∈ insert i t, w j : ℤ) : ℚ) ≤ ((∑ k ∈ s, w k : ℤ) : ℚ) := by
    exact_mod_cast hweights
  have hwinner' : ((∑ j ∈ t, (before j + w j) : ℤ) : ℚ) ≤
      t.card * ((before i + w i : ℤ) : ℚ) := by
    exact_mod_cast hwinner
  have hpos : (0 : ℚ) < (t.card + 1 : ℕ) := by exact_mod_cast Nat.succ_pos _
  have hcard : (0 : ℚ) ≤ t.card := Nat.cast_nonneg _
  push_cast at hpos ⊢
  rw [← mul_le_mul_iff_right₀ hpos]
  calc ((t.card : ℚ) + 1) * (∑ j ∈ t, ((before j : ℚ) + (w j : ℚ)))
      ≤ t.card * ((t.card + 1) * b + ∑ k ∈ s, (w k : ℚ)) := by
        push_cast at hcast hweights' hwinner' hbound
        clear h
        nlinarith
    _ = (t.card + 1) * (t.card * (b + (∑ k ∈ s, (w k : ℚ)) * ((t.card : ℚ) + 1)⁻¹)) :=
        scaled_bound b _ hpos.ne'

theorem harmonic_mono {m n : ℕ} (h : m ≤ n) : harmonic m ≤ harmonic n := by
  apply Finset.sum_le_sum_of_subset_of_nonneg (Finset.range_mono h)
  intro k _ _
  exact inv_nonneg.mpr (Nat.cast_nonneg _)

/-- The bound of the sum of any set of credits. For a single credit it is the sum of the weights
times the harmonic number of the candidates less one. -/
theorem Run.sum_le (h : Run s w picks c) (hw : ∀ j ∈ s, 0 ≤ w j) :
    ∀ t ⊆ s, ((∑ j ∈ t, c j : ℤ) : ℚ) ≤
      t.card * (((∑ k ∈ s, w k : ℤ) : ℚ) * (harmonic s.card - harmonic t.card)) := by
  have htotal : 0 ≤ ∑ k ∈ s, w k := Finset.sum_nonneg hw
  induction h with
  | start hzero =>
      intro t ht
      rw [Finset.sum_eq_zero fun j hj => hzero j (ht hj), Int.cast_zero]
      have hmono := harmonic_mono (Finset.card_le_card ht)
      apply mul_nonneg (Nat.cast_nonneg _)
      apply mul_nonneg (by exact_mod_cast htotal)
      exact sub_nonneg.mpr hmono
  | pick hrun hpick ih =>
      rename_i i
      intro t ht
      by_cases hi : i ∈ t
      · have hsum := hpick.sum_eq t ht
        rw [if_pos hi, Finset.sum_add_distrib] at hsum
        have hweights : ∑ j ∈ t, w j ≤ ∑ k ∈ s, w k :=
          Finset.sum_le_sum_of_subset_of_nonneg ht fun j hj _ => hw j hj
        refine le_trans ?_ (ih t ht)
        rw [hsum]
        exact_mod_cast (by omega)
      · have hbound := ih (insert i t) (Finset.insert_subset hpick.mem ht)
        rw [Finset.card_insert_of_notMem hi] at hbound
        have hstep := hpick.sum_le_of_notMem ht hi hw (by exact_mod_cast hbound)
        rw [harmonic_succ] at hstep
        refine hstep.trans (le_of_eq ?_)
        ring

/-- What one candidate can be behind its share. -/
theorem Run.le_harmonic (h : Run s w picks c) (hw : ∀ j ∈ s, 0 ≤ w j) (hj : j ∈ s) :
    (c j : ℚ) ≤ ((∑ k ∈ s, w k : ℤ) : ℚ) * (harmonic s.card - 1) := by
  have hsingle := h.sum_le hw {j} (Finset.singleton_subset_iff.mpr hj)
  rw [Finset.sum_singleton, Finset.card_singleton] at hsingle
  have hone : harmonic 1 = 1 := by
    rw [harmonic_succ, harmonic_zero]
    norm_num
  rw [hone, Nat.cast_one, one_mul] at hsingle
  exact hsingle

end BurrowGate.Lib.SmoothRoundRobin
