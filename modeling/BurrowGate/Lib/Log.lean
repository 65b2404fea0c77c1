import BurrowGate.Lib.Lists
import Mathlib.Order.Nat

/-!
# Numbered logs

A log is a list of entries whose numbers increase strictly; numbers may be
skipped. A reader keeps a cursor, the number it has read up to, and takes a
window of the log: a list that leaves out nothing between the cursor and its own
last entry. Reading the window entry by entry then reads the log.
-/

namespace BurrowGate.Lib.Log

variable {ρ : Type*} {seq : ρ → Nat}

/-- Numbers increase strictly. -/
def Sorted (seq : ρ → Nat) (l : List ρ) : Prop := l.Pairwise fun a b => seq a < seq b

/-- The entries numbered at most `n`. -/
def upTo (seq : ρ → Nat) (n : Nat) (l : List ρ) : List ρ := l.filter fun r => seq r ≤ n

/-- `rows` is part of the log and leaves out nothing between `cursor` and its last entry. -/
structure Window (seq : ρ → Nat) (log : List ρ) (cursor : Nat) (rows : List ρ) : Prop where
  sorted : Sorted seq rows
  mem : ∀ r ∈ rows, r ∈ log
  closed : ∀ x ∈ log, cursor < seq x → ∀ y ∈ rows, seq x ≤ seq y → x ∈ rows

theorem Sorted.filter {l : List ρ} (h : Sorted seq l) (p : ρ → Bool) :
    Sorted seq (l.filter p) :=
  List.Pairwise.filter p h

theorem Sorted.take {l : List ρ} (h : Sorted seq l) (n : Nat) : Sorted seq (l.take n) :=
  List.Pairwise.sublist (List.take_sublist n l) h

theorem Sorted.concat {l : List ρ} {r : ρ} (h : Sorted seq l) (hr : ∀ x ∈ l, seq x < seq r) :
    Sorted seq (l ++ [r]) := by
  refine List.pairwise_append.mpr ⟨h, List.pairwise_singleton _ _, ?_⟩
  intro x hx y hy
  obtain rfl := List.mem_singleton.mp hy
  exact hr x hx

/-- Two entries of one log with one number are the same entry. -/
theorem Sorted.eq_of_seq_eq {l : List ρ} (h : Sorted seq l) {x y : ρ} (hx : x ∈ l) (hy : y ∈ l)
    (heq : seq x = seq y) : x = y := by
  induction l with
  | nil => cases hx
  | cons a l ih =>
      obtain ⟨ha, hl⟩ := List.pairwise_cons.mp h
      rcases List.mem_cons.mp hx with hxa | hx <;> rcases List.mem_cons.mp hy with hya | hy
      · exact hxa.trans hya.symm
      · exact absurd (hxa ▸ heq) (ha y hy).ne
      · exact absurd (hya ▸ heq.symm) (ha x hx).ne
      · exact ih hl hx hy

theorem upTo_eq_self {n : Nat} {l : List ρ} (h : ∀ x ∈ l, seq x ≤ n) : upTo seq n l = l :=
  List.filter_eq_self.mpr fun x hx => by simpa using h x hx

/-- An entry beyond `n` does not change what is read up to `n`. -/
theorem upTo_concat {n : Nat} {l : List ρ} {r : ρ} (h : n < seq r) :
    upTo seq n (l ++ [r]) = upTo seq n l := by
  simp [upTo, List.filter_append, Nat.not_le_of_lt h]

/-- Reading the next entry of a log. -/
theorem upTo_next {cursor : Nat} {l : List ρ} {r : ρ} (hs : Sorted seq l) (hr : r ∈ l)
    (hlt : cursor < seq r) (hnext : ∀ x ∈ l, cursor < seq x → seq x ≤ seq r → x = r) :
    upTo seq (seq r) l = upTo seq cursor l ++ [r] := by
  induction l with
  | nil => cases hr
  | cons a l ih =>
      obtain ⟨ha, hl⟩ := List.pairwise_cons.mp hs
      rcases List.mem_cons.mp hr with rfl | hr'
      · -- everything after the entry is numbered beyond it
        have hrest (n : Nat) (hn : n ≤ seq r) : upTo seq n l = [] := by
          refine List.filter_eq_nil_iff.mpr fun x hx => ?_
          have := ha x hx
          simp only [decide_eq_true_eq]
          omega
        simp only [upTo] at hrest
        simp [upTo, hrest (seq r) le_rfl, hrest cursor hlt.le, Nat.not_le_of_lt hlt]
      · have hrec := ih hl hr' fun x hx => hnext x (List.mem_cons_of_mem a hx)
        by_cases hac : seq a ≤ cursor
        · have hle : seq a ≤ seq r := hac.trans hlt.le
          simp only [upTo, List.filter_cons, hac, hle, decide_true, if_true] at hrec ⊢
          rw [hrec, List.cons_append]
        · have heq := hnext a List.mem_cons_self (Nat.lt_of_not_le hac) (ha r hr').le
          exact absurd (ha r hr') (heq ▸ lt_irrefl _)

/-- Dropping entries from the front of what lies beyond `removed` leaves what lies beyond a
later number. -/
theorem Sorted.drop_filter {l : List ρ} (h : Sorted seq l) (removed n : Nat) :
    ∃ m, removed ≤ m ∧ (m = removed ∨ ∃ r ∈ l, m = seq r) ∧
      (l.filter fun r => removed < seq r).drop n = l.filter fun r => m < seq r := by
  induction n with
  | zero => exact ⟨removed, le_rfl, .inl rfl, rfl⟩
  | succ n ih =>
      obtain ⟨m, hle, hm, heq⟩ := ih
      cases hl : l.filter fun r => m < seq r with
      | nil => exact ⟨m, hle, hm, by rw [← List.drop_drop, heq, hl]; rfl⟩
      | cons a rest =>
          have ha : a ∈ l ∧ m < seq a := by
            have : a ∈ l.filter fun r => m < seq r := by rw [hl]; exact List.mem_cons_self
            simpa using this
          refine ⟨seq a, hle.trans ha.2.le, .inr ⟨a, ha.1, rfl⟩, ?_⟩
          have hsub : l.filter (fun r => seq a < seq r) =
              (l.filter fun r => m < seq r).filter fun r => seq a < seq r := by
            rw [List.filter_filter]
            refine List.filter_congr fun x _ => ?_
            by_cases hx : seq a < seq x
            · simp [hx, ha.2.trans hx]
            · simp [hx]
          have hafter : ∀ x ∈ rest, seq a < seq x := by
            have hs := h.filter fun r => m < seq r
            rw [hl] at hs
            exact (List.pairwise_cons.mp hs).1
          rw [← List.drop_drop, heq, hsub, hl]
          simp only [List.filter_cons, lt_irrefl, decide_false, Bool.false_eq_true, if_false,
            List.drop_succ_cons, List.drop_zero]
          exact (List.filter_eq_self.mpr fun x hx => by simpa using hafter x hx).symm

/-! ## Windows -/

theorem Window.nil {log : List ρ} {cursor : Nat} : Window seq log cursor [] :=
  ⟨List.Pairwise.nil, by simp, by simp⟩

/-- An entry numbered right after the cursor is a window. -/
theorem Window.succ {log : List ρ} {cursor : Nat} {r : ρ} (hs : Sorted seq log) (hr : r ∈ log)
    (hle : seq r ≤ cursor + 1) : Window seq log cursor [r] := by
  refine ⟨List.pairwise_singleton _ _, by simpa using hr, ?_⟩
  intro x hx hlt y hy hxy
  obtain rfl := List.mem_singleton.mp hy
  exact List.mem_singleton.mpr (hs.eq_of_seq_eq hx hr (by omega))

/-- A log that grows at its end keeps its windows. -/
theorem Window.concat {log rows : List ρ} {cursor : Nat} {r : ρ}
    (h : Window seq log cursor rows) (hr : ∀ x ∈ log, seq x < seq r) :
    Window seq (log ++ [r]) cursor rows := by
  refine ⟨h.sorted, fun x hx => List.mem_append_left _ (h.mem x hx), ?_⟩
  intro x hx hlt y hy hxy
  rcases List.mem_snoc.mp hx with hx | rfl
  · exact h.closed x hx hlt y hy hxy
  · have := hr y (h.mem y hy)
    omega

theorem Window.mono {log rows : List ρ} {c c' : Nat} (h : Window seq log c rows) (hle : c ≤ c') :
    Window seq log c' rows :=
  ⟨h.sorted, h.mem, fun x hx hlt => h.closed x hx (hle.trans_lt hlt)⟩

/-- An entry the cursor has passed can be skipped. -/
theorem Window.skip {log rows : List ρ} {cursor : Nat} {r : ρ}
    (h : Window seq log cursor (r :: rows)) (hle : seq r ≤ cursor) :
    Window seq log cursor rows := by
  refine ⟨(List.pairwise_cons.mp h.sorted).2, fun x hx => h.mem x (List.mem_cons_of_mem _ hx), ?_⟩
  intro x hx hlt y hy hxy
  rcases List.mem_cons.mp (h.closed x hx hlt y (List.mem_cons_of_mem _ hy) hxy) with rfl | hin
  · omega
  · exact hin

/-- After reading its first entry, the rest of a window is a window. -/
theorem Window.tail {log rows : List ρ} {cursor : Nat} {r : ρ}
    (h : Window seq log cursor (r :: rows)) (hlt : cursor ≤ seq r) :
    Window seq log (seq r) rows := by
  refine ⟨(List.pairwise_cons.mp h.sorted).2, fun x hx => h.mem x (List.mem_cons_of_mem _ hx), ?_⟩
  intro x hx hx' y hy hxy
  rcases List.mem_cons.mp
    (h.closed x hx (hlt.trans_lt hx') y (List.mem_cons_of_mem _ hy) hxy) with rfl | hin
  · omega
  · exact hin

/-- The first entry of a window is the next one the reader needs. -/
theorem Window.next {log rows : List ρ} {cursor : Nat} {r : ρ}
    (h : Window seq log cursor (r :: rows)) {x : ρ} (hx : x ∈ log) (hlt : cursor < seq x)
    (hle : seq x ≤ seq r) : x = r := by
  rcases List.mem_cons.mp (h.closed x hx hlt r List.mem_cons_self hle) with heq | hin
  · exact heq
  · have := (List.pairwise_cons.mp h.sorted).1 x hin
    omega

theorem Window.upTo_head {log rows : List ρ} {cursor : Nat} {r : ρ} (hs : Sorted seq log)
    (h : Window seq log cursor (r :: rows)) (hlt : cursor < seq r) :
    upTo seq (seq r) log = upTo seq cursor log ++ [r] :=
  upTo_next hs (h.mem r List.mem_cons_self) hlt fun _ hx hlt hle => h.next hx hlt hle

/-- A page read from the surviving end of a log. It starts at most one number beyond the
cursor, so nothing between the cursor and the page was removed. -/
theorem window_of_page {log : List ρ} {cursor since removed limit : Nat} (hs : Sorted seq log)
    (hstart : ∀ r ∈ ((log.filter fun r => removed < seq r).filter
      fun r => since < seq r).head?, seq r ≤ cursor + 1) :
    Window seq log cursor (((log.filter fun r => removed < seq r).filter
      fun r => since < seq r).take limit) := by
  set page := (log.filter fun r => removed < seq r).filter fun r => since < seq r with hpage
  have hsorted : Sorted seq page := (hs.filter _).filter _
  refine ⟨hsorted.take limit, fun r hr => ?_, ?_⟩
  · exact List.mem_of_mem_filter (List.mem_of_mem_filter (List.mem_of_mem_take hr))
  · intro x hx hlt y hy hxy
    have hy' : y ∈ page := List.mem_of_mem_take hy
    obtain ⟨first, rest, heq⟩ : ∃ first rest, page = first :: rest := by
      cases hp : page with
      | nil => rw [hp] at hy'; cases hy'
      | cons a l => exact ⟨a, l, rfl⟩
    have hle : seq first ≤ cursor + 1 := hstart first (by rw [heq]; rfl)
    have hfirst : first ∈ page := by rw [heq]; exact List.mem_cons_self
    have hxpage : x ∈ page := by
      simp only [hpage, List.mem_filter, decide_eq_true_eq] at hfirst ⊢
      exact ⟨⟨hx, by omega⟩, by omega⟩
    -- an entry at or before one that was taken was taken
    rw [← List.take_append_drop limit page] at hxpage
    rcases List.mem_append.mp hxpage with hin | hout
    · exact hin
    · have hcross := hsorted
      unfold Sorted at hcross
      rw [← List.take_append_drop limit page] at hcross
      have := (List.pairwise_append.mp hcross).2.2 y hy x hout
      omega

end BurrowGate.Lib.Log
