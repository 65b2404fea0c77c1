import Mathlib.Algebra.Order.Ring.Nat
import Mathlib.Data.List.Nodup
import Mathlib.Data.Option.Basic

/-!
# Maps that remember the order of insertion

A finite map as the list of its entries, oldest key first, each key once. Setting a
key that is present keeps its place; a new key goes to the end. So the first entry
is the oldest one, which is what eviction removes.
-/

namespace BurrowGate.Lib

/-- `entries` in insertion order. -/
structure OrderedMap (κ : Type*) (α : Type*) where
  entries : List (κ × α)
  nodup : (entries.map Prod.fst).Nodup

namespace OrderedMap

variable {κ α : Type*}

def empty : OrderedMap κ α := ⟨[], List.nodup_nil⟩

def keys (m : OrderedMap κ α) : List κ := m.entries.map Prod.fst

def size (m : OrderedMap κ α) : Nat := m.entries.length

def filter (m : OrderedMap κ α) (p : κ × α → Bool) : OrderedMap κ α :=
  ⟨m.entries.filter p, m.nodup.sublist (List.filter_sublist.map _)⟩

/-- The map without its `n` oldest entries. -/
def drop (m : OrderedMap κ α) (n : Nat) : OrderedMap κ α :=
  ⟨m.entries.drop n, m.nodup.sublist ((List.drop_sublist n _).map _)⟩

theorem size_filter_le (m : OrderedMap κ α) (p : κ × α → Bool) : (m.filter p).size ≤ m.size :=
  List.length_filter_le p m.entries

theorem size_drop (m : OrderedMap κ α) (n : Nat) : (m.drop n).size = m.size - n :=
  List.length_drop

variable [DecidableEq κ]

def get? (m : OrderedMap κ α) (k : κ) : Option α :=
  (m.entries.find? fun e => e.1 = k).map Prod.snd

def erase (m : OrderedMap κ α) (k : κ) : OrderedMap κ α :=
  m.filter fun e => e.1 ≠ k

/-- The value put at `k` into a list of entries, at the end when `k` is new. -/
def setEntries (k : κ) (v : α) : List (κ × α) → List (κ × α)
  | [] => [(k, v)]
  | e :: es => if e.1 = k then (k, v) :: es else e :: setEntries k v es

theorem mem_keys_setEntries (k : κ) (v : α) (es : List (κ × α)) (x : κ) :
    x ∈ (setEntries k v es).map Prod.fst ↔ x = k ∨ x ∈ es.map Prod.fst := by
  induction es with
  | nil => simp [setEntries]
  | cons e es ih =>
      rw [setEntries]
      split
      · next h => subst h; simp
      · simp only [List.map_cons, List.mem_cons, ih]
        tauto

theorem nodup_setEntries (k : κ) (v : α) {es : List (κ × α)} (h : (es.map Prod.fst).Nodup) :
    ((setEntries k v es).map Prod.fst).Nodup := by
  induction es with
  | nil => simp [setEntries]
  | cons e es ih =>
      obtain ⟨hhead, htail⟩ := List.nodup_cons.mp h
      rw [setEntries]
      split
      · next he => subst he; exact h
      · next he =>
          refine List.nodup_cons.mpr ⟨fun hmem => ?_, ih htail⟩
          rcases (mem_keys_setEntries k v es e.1).mp hmem with heq | hes
          · exact he heq
          · exact hhead hes

def set (m : OrderedMap κ α) (k : κ) (v : α) : OrderedMap κ α :=
  ⟨setEntries k v m.entries, nodup_setEntries k v m.nodup⟩

/-! ## Reading -/

@[simp] theorem get?_empty (k : κ) : (empty : OrderedMap κ α).get? k = none := rfl

theorem get?_eq_some {m : OrderedMap κ α} {k : κ} {v : α} :
    m.get? k = some v ↔ (k, v) ∈ m.entries := by
  constructor
  · intro h
    obtain ⟨e, hfind, rfl⟩ := Option.map_eq_some_iff.mp h
    have hkey : e.1 = k := by simpa using List.find?_some hfind
    subst hkey
    exact List.mem_of_find?_eq_some hfind
  · intro h
    cases hfind : m.entries.find? fun e => e.1 = k with
    | none => exact absurd (decide_eq_true rfl) (List.find?_eq_none.mp hfind _ h)
    | some e =>
        have hkey : e.1 = k := by simpa using List.find?_some hfind
        have he : e = (k, v) :=
          List.inj_on_of_nodup_map m.nodup (List.mem_of_find?_eq_some hfind) h hkey
        simp [get?, hfind, he]

theorem get?_eq_none {m : OrderedMap κ α} {k : κ} : m.get? k = none ↔ k ∉ m.keys := by
  rw [get?, Option.map_eq_none_iff, List.find?_eq_none]
  simp only [decide_eq_true_eq, keys, List.mem_map, not_exists, not_and]

theorem mem_keys {m : OrderedMap κ α} {k : κ} : k ∈ m.keys ↔ ∃ v, m.get? k = some v := by
  rw [← Option.isSome_iff_exists, ← Option.ne_none_iff_isSome, Ne, get?_eq_none, not_not]

theorem get?_filter (m : OrderedMap κ α) (p : κ × α → Bool) (k : κ) :
    (m.filter p).get? k = (m.get? k).filter fun v => p (k, v) := by
  ext v
  rw [get?_eq_some, Option.filter_eq_some_iff, get?_eq_some]
  exact List.mem_filter

@[simp] theorem get?_erase_self (m : OrderedMap κ α) (k : κ) : (m.erase k).get? k = none := by
  rw [erase, get?_filter]
  cases m.get? k <;> simp

theorem get?_erase_ne (m : OrderedMap κ α) {k x : κ} (h : x ≠ k) :
    (m.erase k).get? x = m.get? x := by
  rw [erase, get?_filter]
  cases m.get? x <;> simp [h]

theorem find?_setEntries (k : κ) (v : α) (es : List (κ × α)) (x : κ) :
    ((setEntries k v es).find? fun e => e.1 = x).map Prod.snd =
      if x = k then some v else (es.find? fun e => e.1 = x).map Prod.snd := by
  induction es with
  | nil => by_cases h : k = x <;> simp [setEntries, h, eq_comm]
  | cons e es ih =>
      rw [setEntries]
      by_cases he : e.1 = k
      · by_cases hx : x = k
        · simp [he, hx]
        · simp [he, hx, Ne.symm hx]
      · by_cases hx : e.1 = x
        · have hxk : x ≠ k := fun h => he (hx.trans h)
          simp [hx, hxk]
        · rw [if_neg he, List.find?_cons_of_neg (by simpa using hx), ih,
            List.find?_cons_of_neg (by simpa using hx)]

theorem get?_set (m : OrderedMap κ α) (k : κ) (v : α) (x : κ) :
    (m.set k v).get? x = if x = k then some v else m.get? x :=
  find?_setEntries k v m.entries x

@[simp] theorem get?_set_self (m : OrderedMap κ α) (k : κ) (v : α) :
    (m.set k v).get? k = some v := by
  simp [get?_set]

theorem get?_set_ne (m : OrderedMap κ α) {k x : κ} (v : α) (h : x ≠ k) :
    (m.set k v).get? x = m.get? x := by
  simp [get?_set, h]

/-! ## Several entries at once -/

/-- `new Map([...])`, or the entries set on top of a map: the last one of a key counts. -/
def setAll (m : OrderedMap κ α) (es : List (κ × α)) : OrderedMap κ α :=
  es.foldl (fun m e => m.set e.1 e.2) m

theorem get?_setAll_of_notMem (m : OrderedMap κ α) {es : List (κ × α)} {k : κ}
    (h : k ∉ es.map Prod.fst) : (m.setAll es).get? k = m.get? k := by
  induction es generalizing m with
  | nil => rfl
  | cons e es ih =>
      obtain ⟨hne, htail⟩ := not_or.mp (List.mem_cons.not.mp h)
      exact (ih (m.set e.1 e.2) htail).trans (get?_set_ne m e.2 hne)

/-- A key whose entries all carry one value has this value. -/
theorem get?_setAll_of_mem (m : OrderedMap κ α) {es : List (κ × α)} {k : κ} {v : α}
    (hmem : (k, v) ∈ es) (hall : ∀ e ∈ es, e.1 = k → e.2 = v) :
    (m.setAll es).get? k = some v := by
  induction es generalizing m with
  | nil => cases hmem
  | cons e es ih =>
      by_cases hlater : k ∈ es.map Prod.fst
      · obtain ⟨⟨k', v'⟩, he, rfl⟩ := List.mem_map.mp hlater
        obtain rfl : v' = v := hall _ (List.mem_cons_of_mem _ he) rfl
        exact ih _ he fun x hx => hall x (List.mem_cons_of_mem _ hx)
      · have he : e = (k, v) := by
          rcases List.mem_cons.mp hmem with h | h
          · exact h.symm
          · exact absurd (List.mem_map_of_mem (f := Prod.fst) h) hlater
        subst he
        exact (get?_setAll_of_notMem (m.set k v) hlater).trans (get?_set_self m k v)

/-- The last entry of a key decides. -/
theorem get?_setAll (m : OrderedMap κ α) (es : List (κ × α)) (k : κ) :
    (m.setAll es).get? k =
      ((es.filterMap fun e => if e.1 = k then some e.2 else none).getLast?).or (m.get? k) := by
  induction es generalizing m with
  | nil => rfl
  | cons e es ih =>
      have htail : (m.setAll (e :: es)).get? k = ((m.set e.1 e.2).setAll es).get? k := rfl
      rw [htail, ih, List.filterMap_cons, get?_set]
      by_cases hk : e.1 = k
      · rw [if_pos hk, if_pos hk.symm, List.getLast?_cons]
        cases (es.filterMap fun e => if e.1 = k then some e.2 else none).getLast? with
        | none => rfl
        | some v => rfl
      · rw [if_neg hk, if_neg fun h => hk h.symm]

/-! ## Size -/

theorem size_erase_le (m : OrderedMap κ α) (k : κ) : (m.erase k).size ≤ m.size :=
  size_filter_le m _

theorem size_erase_lt {m : OrderedMap κ α} {k : κ} {v : α} (h : m.get? k = some v) :
    (m.erase k).size < m.size := by
  refine List.length_filter_lt_length_iff_exists.mpr ⟨(k, v), get?_eq_some.mp h, ?_⟩
  simp

theorem length_setEntries (k : κ) (v : α) (es : List (κ × α)) :
    (setEntries k v es).length = if k ∈ es.map Prod.fst then es.length else es.length + 1 := by
  induction es with
  | nil => simp [setEntries]
  | cons e es ih =>
      rw [setEntries]
      by_cases he : e.1 = k
      · simp [he]
      · simp only [if_neg he, List.length_cons, ih, List.map_cons, List.mem_cons, Ne.symm he,
          false_or]
        split <;> rfl

theorem setEntries_of_notMem {k : κ} {v : α} {es : List (κ × α)} (h : k ∉ es.map Prod.fst) :
    setEntries k v es = es ++ [(k, v)] := by
  induction es with
  | nil => rfl
  | cons e es ih =>
      rw [List.map_cons, List.mem_cons, not_or] at h
      rw [setEntries, if_neg (Ne.symm h.1), ih h.2, List.cons_append]

/-- A new key goes to the end. -/
theorem entries_set_of_get?_eq_none {m : OrderedMap κ α} {k : κ} (v : α) (h : m.get? k = none) :
    (m.set k v).entries = m.entries ++ [(k, v)] :=
  setEntries_of_notMem (get?_eq_none.mp h)

theorem size_set (m : OrderedMap κ α) (k : κ) (v : α) :
    (m.set k v).size = if k ∈ m.keys then m.size else m.size + 1 :=
  length_setEntries k v m.entries

theorem size_set_le (m : OrderedMap κ α) (k : κ) (v : α) : (m.set k v).size ≤ m.size + 1 := by
  rw [size_set]
  split <;> omega

theorem get?_drop_eq_some {m : OrderedMap κ α} {n : Nat} {k : κ} {v : α}
    (h : (m.drop n).get? k = some v) : m.get? k = some v :=
  get?_eq_some.mpr (List.mem_of_mem_drop (get?_eq_some.mp h))

/-! ## Sums over the entries -/

/-- The sum of a weight over the entries. -/
def total (m : OrderedMap κ α) (w : κ × α → Nat) : Nat := (m.entries.map w).sum

theorem sum_setEntries (w : κ × α → Nat) (k : κ) (v : α) (es : List (κ × α)) :
    ((setEntries k v es).map w).sum +
        (((es.find? fun e => e.1 = k).map Prod.snd).elim 0 fun u => w (k, u)) =
      (es.map w).sum + w (k, v) := by
  induction es with
  | nil => simp [setEntries]
  | cons e es ih =>
      rw [setEntries]
      by_cases he : e.1 = k
      · subst he
        rw [if_pos rfl, List.find?_cons_of_pos (by simp)]
        simp only [List.map_cons, List.sum_cons, Option.map_some, Option.elim_some, Prod.mk.eta]
        omega
      · rw [if_neg he, List.find?_cons_of_neg (by simpa using he)]
        simp only [List.map_cons, List.sum_cons]
        omega

theorem total_set (m : OrderedMap κ α) (w : κ × α → Nat) (k : κ) (v : α) :
    (m.set k v).total w + ((m.get? k).elim 0 fun u => w (k, u)) = m.total w + w (k, v) :=
  sum_setEntries w k v m.entries

/-- Adding to the value of a key, present or not, adds to the sum. -/
theorem total_set_add (m : OrderedMap κ α) (w : κ × α → Nat) (add : α → α → α) (zero : α)
    (hadd : ∀ k a b, w (k, add a b) = w (k, a) + w (k, b)) (hzero : ∀ k, w (k, zero) = 0)
    (k : κ) (v : α) :
    (m.set k (add ((m.get? k).getD zero) v)).total w = m.total w + w (k, v) := by
  have h := m.total_set w k (add ((m.get? k).getD zero) v)
  rw [hadd] at h
  cases hk : m.get? k with
  | none =>
      rw [hk, Option.elim_none, Option.getD_none, hzero, Nat.add_zero, Nat.zero_add] at h
      exact h
  | some a =>
      rw [hk, Option.elim_some, Option.getD_some] at h
      rw [Option.getD_some]
      omega

section

omit [DecidableEq κ]

theorem total_filter_add (m : OrderedMap κ α) (p : κ × α → Bool) (w : κ × α → Nat) :
    (m.filter p).total w + (m.filter fun e => !p e).total w = m.total w := by
  change ((m.entries.filter p).map w).sum + ((m.entries.filter fun e => !p e).map w).sum =
    (m.entries.map w).sum
  induction m.entries with
  | nil => rfl
  | cons e es ih => cases hp : p e <;> simp [hp, ← ih] <;> omega

theorem total_filter_le (m : OrderedMap κ α) (p : κ × α → Bool) (w : κ × α → Nat) :
    (m.filter p).total w ≤ m.total w := by
  have h := m.total_filter_add p w
  omega

/-- Entries of no weight do not matter. -/
theorem total_filter_eq (m : OrderedMap κ α) {p : κ × α → Bool} {w : κ × α → Nat}
    (h : ∀ e, p e = false → w e = 0) : (m.filter p).total w = m.total w := by
  have hsplit := m.total_filter_add p w
  have hzero : (m.filter fun e => !p e).total w = 0 := by
    refine List.sum_eq_zero_iff_forall_eq_nat.mpr fun x hx => ?_
    obtain ⟨e, he, rfl⟩ := List.mem_map.mp hx
    exact h e (by simpa using (List.mem_filter.mp he).2)
  omega

end

end OrderedMap

end BurrowGate.Lib
