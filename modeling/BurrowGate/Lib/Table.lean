import Mathlib.Data.List.Nodup

/-!
# Rows with a key

A table is a list of rows that a key names. An update rewrites the row of one key.
-/

namespace BurrowGate.Lib.Table

variable {ρ κ : Type*} {key : ρ → κ} {rows : List ρ}

/-- Rows with one key are one row. -/
theorem eq_of_key (hkeys : (rows.map key).Nodup) {row row' : ρ} (hrow : row ∈ rows)
    (hrow' : row' ∈ rows) (h : key row = key row') : row = row' :=
  List.inj_on_of_nodup_map hkeys hrow hrow' h

variable [DecidableEq κ] {k : κ} {f : ρ → ρ}

/-- `UPDATE … WHERE key = k` -/
def updateWhere (key : ρ → κ) (k : κ) (f : ρ → ρ) (rows : List ρ) : List ρ :=
  rows.map fun row => if key row = k then f row else row

theorem map_key_updateWhere (hf : ∀ row, key (f row) = key row) :
    (updateWhere key k f rows).map key = rows.map key := by
  rw [updateWhere, List.map_map]
  refine List.map_congr_left fun row _ => ?_
  change key (if key row = k then f row else row) = key row
  split
  · exact hf row
  · rfl

theorem mem_updateWhere {row : ρ} (h : row ∈ updateWhere key k f rows) :
    (row ∈ rows ∧ key row ≠ k) ∨ ∃ before ∈ rows, key before = k ∧ row = f before := by
  obtain ⟨before, hbefore, rfl⟩ := List.mem_map.mp h
  split
  · rename_i heq
    exact .inr ⟨before, hbefore, heq, rfl⟩
  · rename_i hne
    exact .inl ⟨hbefore, hne⟩

theorem updateWhere_mem {row : ρ} (h : row ∈ rows) (heq : key row = k) :
    f row ∈ updateWhere key k f rows :=
  List.mem_map.mpr ⟨row, h, if_pos heq⟩

theorem updateWhere_mem_of_ne {row : ρ} (h : row ∈ rows) (hne : key row ≠ k) :
    row ∈ updateWhere key k f rows :=
  List.mem_map.mpr ⟨row, h, if_neg hne⟩

end BurrowGate.Lib.Table
