import Mathlib.Data.List.Basic

/-!
# Lists that grow at their end

Logs and queues take their entries at the end; calls that are under way stand in a list of
slots, each rewritten in its place.
-/

theorem List.mem_snoc {α : Type*} {l : List α} {a b : α} : a ∈ l ++ [b] ↔ a ∈ l ∨ a = b := by
  rw [List.mem_append, List.mem_singleton]

namespace BurrowGate.Lib.Lists

variable {α : Type*} {slots : List α} {i j : Nat} {a b : α}

/-- A slot after a write is the written one or as it was. -/
theorem getElem?_set_cases (h : (slots.set i a)[j]? = some b) :
    (j = i ∧ b = a) ∨ (j ≠ i ∧ slots[j]? = some b) := by
  by_cases hij : j = i
  · subst hij
    rw [List.getElem?_set_self'] at h
    obtain ⟨_, -, hb⟩ := Option.map_eq_some_iff.mp h
    exact .inl ⟨rfl, hb.symm⟩
  · rw [List.getElem?_set_ne (Ne.symm hij)] at h
    exact .inr ⟨hij, h⟩

/-- A slot after one is added is as it was or the added one. -/
theorem getElem?_concat_cases (h : (slots ++ [a])[j]? = some b) :
    slots[j]? = some b ∨ (j = slots.length ∧ b = a) := by
  rcases Nat.lt_trichotomy j slots.length with hlt | rfl | hgt
  · rw [List.getElem?_append_left hlt] at h
    exact .inl h
  · rw [List.getElem?_concat_length] at h
    exact .inr ⟨rfl, (Option.some.inj h).symm⟩
  · have hout : (slots ++ [a]).length ≤ j := by
      rw [List.length_append, List.length_singleton]
      omega
    rw [List.getElem?_eq_none hout] at h
    cases h

/-- What a write changes in a count is the written slot. -/
theorem countP_set {p : α → Bool} (h : slots[i]? = some b) :
    (slots.set i a).countP p + (if p b then 1 else 0) =
      slots.countP p + (if p a then 1 else 0) := by
  induction slots generalizing i with
  | nil => cases h
  | cons x xs ih =>
      cases i with
      | zero =>
          obtain rfl := Option.some.inj h
          simp only [List.set_cons_zero, List.countP_cons]
          omega
      | succ i =>
          have hrest := ih (i := i) h
          simp only [List.set_cons_succ, List.countP_cons]
          omega

end BurrowGate.Lib.Lists
