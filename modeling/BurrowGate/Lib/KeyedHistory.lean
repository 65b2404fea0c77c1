import Mathlib.Algebra.Ring.Int.Defs
import Mathlib.Data.List.Basic
import Mathlib.Data.List.Nodup
import Mathlib.Logic.Function.Basic

/-!
# A recency-ordered map and its history

A map kept as a list of values with keys, the least recently used one first. Every change
is an event, and what the events come to, `replay`, says which value stands under a key and
when the key was last used. `Represents` is the agreement of the list with the history; one
rule for each kind of event keeps it.
-/

namespace BurrowGate.Lib.KeyedHistory

variable {κ β ρ : Type*} [DecidableEq κ]

inductive Event (κ β ρ : Type*)
  | put (key : κ) (value : β)
  | touch (key : κ)
  | drop (key : κ) (reason : ρ)
  deriving DecidableEq

/-- `time` counts the events, and `lastUse` is the number of the last put or touch of a key. -/
structure Book (κ β : Type*) where
  standing : κ → Option β
  lastUse : κ → Nat
  time : Nat

def Book.empty : Book κ β := ⟨fun _ => none, fun _ => 0, 0⟩

def Book.record (book : Book κ β) : Event κ β ρ → Book κ β
  | .put key value =>
      { standing := Function.update book.standing key (some value)
        lastUse := Function.update book.lastUse key (book.time + 1)
        time := book.time + 1 }
  | .touch key =>
      { standing := book.standing
        lastUse := Function.update book.lastUse key (book.time + 1)
        time := book.time + 1 }
  | .drop key _ =>
      { standing := Function.update book.standing key none
        lastUse := book.lastUse
        time := book.time + 1 }

/-- The events in the order in which they happened. -/
def replay (events : List (Event κ β ρ)) : Book κ β := events.foldl Book.record Book.empty

theorem replay_append (older newer : List (Event κ β ρ)) :
    replay (older ++ newer) = newer.foldl Book.record (replay older) :=
  List.foldl_append

/-! ## Keyed lists -/

section Keyed

variable {key : β → κ} {entries : List β} {value : β} {k : κ}

theorem find?_filter_ne (entries : List β) (k : κ) (other : κ) :
    (entries.filter (key · ≠ k)).find? (key · = other) =
      if other = k then none else entries.find? (key · = other) := by
  rw [List.find?_filter]
  by_cases h : other = k
  · rw [if_pos h, List.find?_eq_none]
    intro entry _
    simp only [decide_not, Bool.not_eq_eq_eq_not, Bool.not_true,
      decide_eq_false_iff_not, decide_eq_true_eq, not_and]
    intro hne heq
    exact hne (heq.trans h)
  · rw [if_neg h]
    congr 1
    funext entry
    by_cases heq : key entry = other
    · simp [heq, h]
    · simp [heq]

/-- Removing the entry under a key takes its measure off the sum. -/
theorem sum_filter_ne (measure : β → Int) (hnodup : (entries.map key).Nodup)
    (hfind : entries.find? (key · = k) = some value) :
    ((entries.filter (key · ≠ k)).map measure).sum = (entries.map measure).sum - measure value := by
  induction entries with
  | nil => cases hfind
  | cons head rest ih =>
      rw [List.map_cons, List.nodup_cons] at hnodup
      rw [List.map_cons, List.sum_cons]
      by_cases hhead : key head = k
      · rw [List.find?_cons_of_pos (by simpa using hhead)] at hfind
        obtain rfl := Option.some.inj hfind
        have hrest : rest.filter (key · ≠ k) = rest := by
          apply List.filter_eq_self.mpr
          intro entry hentry
          apply decide_eq_true
          rintro rfl
          exact hnodup.1 (hhead ▸ List.mem_map_of_mem hentry)
        rw [List.filter_cons_of_neg (by simpa using hhead), hrest]
        omega
      · rw [List.find?_cons_of_neg (by simpa using hhead)] at hfind
        rw [List.filter_cons_of_pos (by simpa using hhead), List.map_cons, List.sum_cons,
          ih hnodup.2 hfind]
        omega

theorem find?_key_eq_some (hnodup : (entries.map key).Nodup) :
    entries.find? (key · = k) = some value ↔ value ∈ entries ∧ key value = k := by
  constructor
  · intro h
    exact ⟨List.mem_of_find?_eq_some h, by simpa using List.find?_some h⟩
  · rintro ⟨hmem, rfl⟩
    cases hfind : entries.find? (key · = key value) with
    | none => simpa using List.find?_eq_none.mp hfind value hmem
    | some found =>
        have hkey : key found = key value := by simpa using List.find?_some hfind
        rw [List.inj_on_of_nodup_map hnodup (List.mem_of_find?_eq_some hfind) hmem hkey]

/-- With distinct keys, removing the keys of the first `n` entries leaves the others. -/
theorem filter_keys_take (hnodup : (entries.map key).Nodup) (n : Nat) :
    entries.filter (fun entry => !((entries.take n).map key).contains (key entry)) =
      entries.drop n := by
  induction entries generalizing n with
  | nil => simp
  | cons head rest ih =>
      rw [List.map_cons, List.nodup_cons] at hnodup
      cases n with
      | zero => simp
      | succ n =>
          rw [List.drop_succ_cons, ← ih hnodup.2 n, List.take_succ_cons, List.map_cons,
            List.filter_cons_of_neg (by simp)]
          apply List.filter_congr
          intro entry hentry
          have hne : key entry ≠ key head :=
            fun heq => hnodup.1 (heq ▸ List.mem_map_of_mem hentry)
          simp [hne]

end Keyed

/-! ## The agreement -/

variable {key : β → κ} {book : Book κ β} {entries : List β}

structure Represents (key : β → κ) (book : Book κ β) (entries : List β) : Prop where
  find : ∀ k, entries.find? (key · = k) = book.standing k
  recency : entries.Pairwise fun older newer => book.lastUse (key older) < book.lastUse (key newer)
  used : ∀ k, book.lastUse k ≤ book.time

theorem represents_empty : Represents key (Book.empty : Book κ β) [] :=
  ⟨fun _ => rfl, .nil, fun _ => Nat.le_refl 0⟩

theorem Represents.nodup (h : Represents key book entries) : (entries.map key).Nodup := by
  rw [List.Nodup, List.pairwise_map]
  apply h.recency.imp
  intro older newer hlt heq
  rw [heq] at hlt
  exact Nat.lt_irrefl _ hlt

theorem Represents.drop (h : Represents key book entries) (k : κ) (reason : ρ) :
    Represents key (book.record (.drop k reason : Event κ β ρ)) (entries.filter (key · ≠ k)) := by
  constructor
  · intro other
    rw [find?_filter_ne, h.find other]
    change _ = Function.update book.standing k none other
    rw [Function.update_apply]
  · exact h.recency.filter _
  · intro other
    exact Nat.le_succ_of_le (h.used other)

/-- A key that moves to the end is used last. -/
theorem recency_moved (h : Represents key book entries) (value : β) :
    (entries.filter (key · ≠ key value) ++ [value]).Pairwise fun older newer =>
      Function.update book.lastUse (key value) (book.time + 1) (key older) <
        Function.update book.lastUse (key value) (book.time + 1) (key newer) := by
  rw [List.pairwise_append]
  have hother : ∀ entry ∈ entries.filter (key · ≠ key value),
      Function.update book.lastUse (key value) (book.time + 1) (key entry) =
        book.lastUse (key entry) := by
    intro entry hentry
    have hne := of_decide_eq_true (List.mem_filter.mp hentry).2
    exact Function.update_of_ne hne _ _
  refine ⟨?_, List.pairwise_singleton _ _, ?_⟩
  · apply List.Pairwise.imp_of_mem _ (h.recency.filter _)
    intro older newer holder hnewer hlt
    rw [hother older holder, hother newer hnewer]
    exact hlt
  · intro older holder newer hnewer
    rw [List.mem_singleton.mp hnewer, Function.update_self, hother older holder]
    exact Nat.lt_succ_of_le (h.used _)

theorem used_moved (h : Represents key book entries) (k other : κ) :
    Function.update book.lastUse k (book.time + 1) other ≤ book.time + 1 := by
  rw [Function.update_apply]
  split
  · exact Nat.le_refl _
  · exact Nat.le_succ_of_le (h.used other)

theorem find?_moved (entries : List β) (value : β) (k : κ) :
    (entries.filter (key · ≠ key value) ++ [value]).find? (key · = k) =
      if k = key value then some value else entries.find? (key · = k) := by
  rw [List.find?_append, find?_filter_ne]
  by_cases h : k = key value
  · simp [h]
  · have hlast : [value].find? (key · = k) = none := by simp [Ne.symm h]
    rw [if_neg h, if_neg h, hlast, Option.or_none]

theorem Represents.put (h : Represents key book entries) (value : β) :
    Represents key (book.record (.put (key value) value : Event κ β ρ))
      (entries.filter (key · ≠ key value) ++ [value]) := by
  refine ⟨?_, recency_moved h value, used_moved h (key value)⟩
  intro k
  rw [find?_moved, h.find k]
  change _ = Function.update book.standing (key value) (some value) k
  rw [Function.update_apply]

theorem Represents.touch (h : Represents key book entries) {value : β}
    (hfind : book.standing (key value) = some value) :
    Represents key (book.record (.touch (key value) : Event κ β ρ))
      (entries.filter (key · ≠ key value) ++ [value]) := by
  refine ⟨?_, recency_moved h value, used_moved h (key value)⟩
  intro k
  rw [find?_moved, h.find k]
  change _ = book.standing k
  by_cases hk : k = key value
  · rw [if_pos hk, hk, hfind]
  · rw [if_neg hk]

/-- Several keys go for one reason. -/
theorem Represents.drops (h : Represents key book entries) (keys : List κ) (reason : ρ) :
    Represents key ((keys.map fun k => (.drop k reason : Event κ β ρ)).foldl Book.record book)
      (entries.filter fun entry => !keys.contains (key entry)) := by
  induction keys generalizing book entries with
  | nil =>
      have hall : entries.filter (fun entry => !([] : List κ).contains (key entry)) = entries := by
        simp
      rw [hall]
      exact h
  | cons k keys ih =>
      have hrest := ih (h.drop k reason)
      rw [List.filter_filter] at hrest
      rw [List.map_cons, List.foldl_cons]
      convert hrest using 2
      funext entry
      by_cases heq : key entry = k
      · simp [heq]
      · simp [heq]

end BurrowGate.Lib.KeyedHistory
