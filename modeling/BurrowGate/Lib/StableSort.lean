import Mathlib.Data.List.Basic

/-!
# The first hit in a stably sorted list

Sorting the candidates once and taking the first that qualifies selects the best
qualifying candidate, the earliest of the input among equals.
-/

namespace BurrowGate.Lib.StableSort

variable {α : Type*}

/-- Among the qualifying elements `x` is a best one, and no earlier one is as good. -/
def FirstBest (le : α → α → Bool) (p : α → Bool) (l : List α) (x : α) : Prop :=
  ∃ before after, l = before ++ x :: after ∧ p x = true ∧
    (∀ y ∈ before, p y = true → le y x = false) ∧ ∀ y ∈ after, p y = true → le x y = true

theorem FirstBest.mem {le : α → α → Bool} {p : α → Bool} {l : List α} {x : α}
    (h : FirstBest le p l x) : x ∈ l := by
  obtain ⟨before, after, rfl, -⟩ := h
  exact List.mem_append_right _ List.mem_cons_self

theorem FirstBest.holds {le : α → α → Bool} {p : α → Bool} {l : List α} {x : α}
    (h : FirstBest le p l x) : p x = true := by
  obtain ⟨-, -, -, hp, -⟩ := h
  exact hp

theorem FirstBest.unique {le : α → α → Bool} {p : α → Bool} {l : List α} {x y : α}
    (hx : FirstBest le p l x) (hy : FirstBest le p l y) : x = y := by
  obtain ⟨before, after, rfl, hpx, hbefore, hafter⟩ := hx
  obtain ⟨before', after', hl, hpy, hbefore', hafter'⟩ := hy
  -- whichever stands first in the list, the other one contradicts it
  rcases List.append_eq_append_iff.mp hl with ⟨mid, rfl, hmid⟩ | ⟨mid, rfl, hmid⟩
  · cases mid with
    | nil => exact (List.cons.inj hmid).1
    | cons z mid =>
        obtain ⟨rfl, rfl⟩ := List.cons.inj hmid
        have hno := hbefore' x (List.mem_append_right _ List.mem_cons_self) hpx
        have hyes := hafter y (List.mem_append_right _ List.mem_cons_self) hpy
        rw [hyes] at hno
        cases hno
  · cases mid with
    | nil => exact (List.cons.inj hmid).1.symm
    | cons z mid =>
        obtain ⟨rfl, rfl⟩ := List.cons.inj hmid
        have hno := hbefore y (List.mem_append_right _ List.mem_cons_self) hpy
        have hyes := hafter' x (List.mem_append_right _ List.mem_cons_self) hpx
        rw [hyes] at hno
        cases hno

theorem FirstBest.cons {le : α → α → Bool} {p : α → Bool} {l : List α} {a x : α}
    (h : FirstBest le p l x) (ha : p a = true → le a x = false) : FirstBest le p (a :: l) x := by
  obtain ⟨before, after, rfl, hp, hbefore, hafter⟩ := h
  refine ⟨a :: before, after, rfl, hp, fun y hy hpy => ?_, hafter⟩
  rcases List.mem_cons.mp hy with rfl | hy
  · exact ha hpy
  · exact hbefore y hy hpy

section Sorted

variable {le : α → α → Bool} (trans : ∀ a b c, le a b = true → le b c = true → le a c = true)
  (total : ∀ a b, (le a b || le b a) = true)
include trans total

theorem firstBest_of_find {p : α → Bool} {l : List α} {x : α}
    (h : (l.mergeSort le).find? p = some x) : FirstBest le p l x := by
  induction l generalizing x with
  | nil =>
      rw [List.mergeSort_nil] at h
      cases h
  | cons a l ih =>
      obtain ⟨worse, better, hsort, htail, hlt⟩ := List.mergeSort_cons trans total a l
      rw [htail] at ih
      rw [hsort, List.find?_append] at h
      cases hfound : worse.find? p with
      | some y =>
          -- a hit of the tail that is better than the head
          have hxy : y = x := by simpa [hfound] using h
          subst hxy
          have htail' : (worse ++ better).find? p = some y := by
            rw [List.find?_append, hfound]
            rfl
          have hle := hlt y (List.mem_of_find?_eq_some hfound)
          exact (ih htail').cons fun _ => by simpa using hle
      | none =>
          rw [hfound, Option.none_or, List.find?_cons] at h
          cases hpa : p a with
          | true =>
              rw [hpa] at h
              obtain rfl := Option.some.inj h
              refine ⟨[], l, rfl, hpa, fun y hy => absurd hy List.not_mem_nil, fun y hy hpy => ?_⟩
              have hmem : y ∈ worse ++ better := by
                rw [← htail]
                exact List.mem_mergeSort.mpr hy
              rcases List.mem_append.mp hmem with hworse | hbetter
              · exact absurd hpy (List.find?_eq_none.mp hfound y hworse)
              · have hpairs := List.pairwise_mergeSort trans total (a :: l)
                rw [hsort] at hpairs
                have htop := (List.pairwise_append.mp hpairs).2.1
                exact (List.pairwise_cons.mp htop).1 y hbetter
          | false =>
              rw [hpa] at h
              have htail' : (worse ++ better).find? p = some x := by
                rw [List.find?_append, hfound]
                exact h
              exact (ih htail').cons fun htrue => by rw [hpa] at htrue; cases htrue

/-- The first hit in sorted order is the first of the best. -/
theorem find_mergeSort_iff {p : α → Bool} {l : List α} {x : α} :
    (l.mergeSort le).find? p = some x ↔ FirstBest le p l x := by
  refine ⟨firstBest_of_find trans total, fun h => ?_⟩
  cases hfound : (l.mergeSort le).find? p with
  | none =>
      have hno := List.find?_eq_none.mp hfound x (List.mem_mergeSort.mpr h.mem)
      exact absurd h.holds hno
  | some y => rw [(firstBest_of_find trans total hfound).unique h]

end Sorted

theorem find_mergeSort_none {le : α → α → Bool} {p : α → Bool} {l : List α} :
    (l.mergeSort le).find? p = none ↔ ∀ x ∈ l, p x = false := by
  rw [List.find?_eq_none]
  constructor
  · exact fun h x hx => Bool.eq_false_iff.mpr (h x (List.mem_mergeSort.mpr hx))
  · exact fun h x hx => Bool.eq_false_iff.mp (h x (List.mem_mergeSort.mp hx))

end BurrowGate.Lib.StableSort
