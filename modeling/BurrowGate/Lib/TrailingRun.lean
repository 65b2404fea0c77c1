import BurrowGate.Lib.Lists
import Mathlib.Data.List.Induction
import Mathlib.Data.List.TakeWhile

/-!
# Runs at the end of a history

A history grows at its end. `trailing` counts the last elements in a row that satisfy a
predicate. A latch is set by a run of one kind and cleared by a later run of another kind.
-/

namespace BurrowGate.Lib

variable {α : Type*} {p q : α → Bool} {m n : Nat} {xs ys : List α} {x : α}

/-- How many of the last elements in a row satisfy `p`. -/
def trailing (p : α → Bool) (xs : List α) : Nat := (xs.reverse.takeWhile p).length

/-- The last `n` elements exist and all of them satisfy `p`. -/
def EndsIn (p : α → Bool) (n : Nat) (xs : List α) : Prop :=
  ∃ before run, xs = before ++ run ∧ run.length = n ∧ ∀ x ∈ run, p x = true

@[simp] theorem trailing_nil : trailing p [] = 0 := rfl

theorem trailing_concat : trailing p (xs ++ [x]) = if p x then trailing p xs + 1 else 0 := by
  rw [trailing, List.reverse_append, List.reverse_singleton, List.singleton_append,
    List.takeWhile_cons]
  split
  · rw [List.length_cons, trailing]
  · rfl

theorem le_trailing_append (xs ys : List α) : trailing p ys ≤ trailing p (xs ++ ys) := by
  induction ys using List.reverseRecOn with
  | nil => exact Nat.zero_le _
  | append_singleton ys y ih =>
      rw [← List.append_assoc, trailing_concat, trailing_concat]
      split
      · omega
      · exact Nat.le_refl 0

/-- A run does not reach back over an element of another kind. -/
theorem trailing_append (h : trailing p xs = 0) : trailing p (xs ++ ys) = trailing p ys := by
  induction ys using List.reverseRecOn with
  | nil => rw [List.append_nil, h, trailing_nil]
  | append_singleton ys y ih => rw [← List.append_assoc, trailing_concat, trailing_concat, ih]

theorem endsIn_iff : EndsIn p n xs ↔ n ≤ trailing p xs := by
  constructor
  · rintro ⟨before, run, rfl, hlength, hrun⟩
    have hall : trailing p run = run.length := by
      have hrev : ∀ x ∈ run.reverse, p x = true := fun x hx => hrun x (List.mem_reverse.mp hx)
      rw [trailing, List.takeWhile_eq_self_iff.mpr hrev, List.length_reverse]
    have hle := le_trailing_append (p := p) before run
    omega
  · intro h
    induction n generalizing xs with
    | zero => exact ⟨xs, [], (List.append_nil xs).symm, rfl, by simp⟩
    | succ n ih =>
        cases xs using List.reverseRecOn with
        | nil => simp at h
        | append_singleton xs x =>
            rw [trailing_concat] at h
            split at h
            · rename_i hx
              obtain ⟨before, run, rfl, hlength, hrun⟩ := ih (Nat.le_of_succ_le_succ h)
              refine ⟨before, run ++ [x], List.append_assoc .., ?_, ?_⟩
              · rw [List.length_append, hlength, List.length_singleton]
              · intro y hy
                rcases List.mem_snoc.mp hy with hy | hy
                · exact hrun y hy
                · rw [hy, hx]
            · omega

/-- Where one kind has just been seen, no run of another kind has begun. -/
theorem trailing_eq_zero (hdisjoint : ∀ x, p x = true → q x = false) (h : 0 < trailing p xs) :
    trailing q xs = 0 := by
  cases xs using List.reverseRecOn with
  | nil => rfl
  | append_singleton xs x =>
      rw [trailing_concat] at h ⊢
      split at h
      · rename_i hx
        rw [hdisjoint x hx, if_neg Bool.false_ne_true]
      · omega

/-! ## Latches -/

/-- Some point ended in a run of `m` elements of `p`, and no run of `n` elements of `q` has
occurred since. -/
def Latched (p q : α → Bool) (m n : Nat) (xs : List α) : Prop :=
  ∃ before since, xs = before ++ since ∧ EndsIn p m before ∧
    ∀ part, part <+: since → ¬ EndsIn q n part

theorem not_latched_nil (hm : 0 < m) : ¬ Latched p q m n ([] : List α) := by
  rintro ⟨before, since, h, hset, -⟩
  rw [(List.append_eq_nil_iff.mp h.symm).1, endsIn_iff, trailing_nil] at hset
  omega

theorem latched_concat (hdisjoint : ∀ x, p x = true → q x = false) (hm : 0 < m) (hn : 0 < n) :
    Latched p q m n (xs ++ [x]) ↔
      EndsIn p m (xs ++ [x]) ∨ (Latched p q m n xs ∧ ¬ EndsIn q n (xs ++ [x])) := by
  constructor
  · rintro ⟨before, since, hsplit, hset, hreset⟩
    cases since using List.reverseRecOn with
    | nil =>
        rw [List.append_nil] at hsplit
        exact .inl (hsplit ▸ hset)
    | append_singleton since y =>
        rw [← List.append_assoc, List.append_singleton_inj] at hsplit
        obtain ⟨rfl, rfl⟩ := hsplit
        refine .inr ⟨⟨before, since, rfl, hset, ?_⟩, ?_⟩
        · intro part hpart
          exact hreset part (hpart.trans (List.prefix_append ..))
        · have hlast := hreset _ (List.prefix_refl _)
          -- The run that set the latch stands between the two kinds.
          have hzero : trailing q before = 0 :=
            trailing_eq_zero hdisjoint (Nat.lt_of_lt_of_le hm (endsIn_iff.mp hset))
          rw [endsIn_iff] at hlast ⊢
          rwa [List.append_assoc, trailing_append hzero]
  · rintro (hset | ⟨⟨before, since, rfl, hset, hreset⟩, hlast⟩)
    · refine ⟨xs ++ [x], [], (List.append_nil _).symm, hset, ?_⟩
      intro part hpart hrun
      rw [List.prefix_nil.mp hpart, endsIn_iff, trailing_nil] at hrun
      omega
    · refine ⟨before, since ++ [x], List.append_assoc .., hset, ?_⟩
      intro part hpart hrun
      rcases List.prefix_concat_iff.mp hpart with rfl | hpart
      · apply hlast
        rw [endsIn_iff] at hrun ⊢
        rw [List.append_assoc]
        exact hrun.trans (le_trailing_append ..)
      · exact hreset part hpart hrun

/-- A latch stays set while no clearing run has begun and ended. -/
theorem Latched.append (hdisjoint : ∀ x, p x = true → q x = false) (hm : 0 < m) (hn : 0 < n)
    (h : Latched p q m n xs) (hzero : trailing q xs = 0)
    (hnone : ∀ part, part <+: ys → ¬ EndsIn q n part) : Latched p q m n (xs ++ ys) := by
  induction ys using List.reverseRecOn with
  | nil => rwa [List.append_nil]
  | append_singleton ys y ih =>
      rw [← List.append_assoc, latched_concat hdisjoint hm hn]
      refine .inr ⟨ih ?_, ?_⟩
      · intro part hpart
        exact hnone part (hpart.trans (List.prefix_append ..))
      · have hlast := hnone _ (List.prefix_refl _)
        rw [endsIn_iff] at hlast ⊢
        rwa [List.append_assoc, trailing_append hzero]

theorem not_latched_of_endsIn (hdisjoint : ∀ x, p x = true → q x = false) (hm : 0 < m)
    (hn : 0 < n) (h : EndsIn q n xs) : ¬ Latched p q m n xs := by
  cases xs using List.reverseRecOn with
  | nil => exact not_latched_nil hm
  | append_singleton xs x =>
      rw [latched_concat hdisjoint hm hn]
      rintro (hset | ⟨-, hnot⟩)
      · have hzero := trailing_eq_zero hdisjoint (Nat.lt_of_lt_of_le hm (endsIn_iff.mp hset))
        rw [endsIn_iff, hzero] at h
        omega
      · exact hnot h

end BurrowGate.Lib
