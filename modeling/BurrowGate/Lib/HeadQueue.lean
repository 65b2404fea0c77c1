import Mathlib.Data.List.Basic

/-!
# A queue that is flushed from its head

Entries wait in one queue. A flush drops the entries that are no longer live and sends the
others in order until the sink accepts no more, or until the send of an entry fails, which
then stays where it is. `arrived` and `sent` are the entries in order of arrival and of sending.
-/

namespace BurrowGate.Lib.HeadQueue

variable {α : Type*} (live fails : α → Bool)

/-- What a flush sends, and what it leaves, when the sink accepts `accepts` entries. -/
def flush : Nat → List α → List α × List α
  | _, [] => ([], [])
  | accepts, x :: rest =>
      if live x then
        if fails x then ([], x :: rest)
        else
          match accepts with
          | 0 => ([], x :: rest)
          | n + 1 => (x :: (flush n rest).1, (flush n rest).2)
      else flush accepts rest

/-- Some flushes by a sink that accepts everything. -/
def drains : Nat → List α → List α × List α
  | 0, queue => ([], queue)
  | k + 1, queue =>
      let first := flush live fails queue.length queue
      let rest := drains k first.2
      (first.1 ++ rest.1, rest.2)

/-- No entry stays for ever, and every live entry that can be sent is. -/
def Progresses (queue : List α) : Prop :=
  ∃ k, (drains live fails k queue).2 = [] ∧
    ∀ x ∈ queue, live x = true → fails x = false → x ∈ (drains live fails k queue).1

/-- What was sent is in order of arrival, and the queue holds the latest arrivals. -/
def InOrder (arrived sent queue : List α) : Prop :=
  ∃ settled, arrived = settled ++ queue ∧ List.Sublist sent settled

variable {live fails} {queue arrived sent : List α} {x : α}

/-! ## One flush -/

theorem flush_dead (h : live x = false) (n : Nat) (rest : List α) :
    flush live fails n (x :: rest) = flush live fails n rest := by
  rw [flush.eq_def]
  simp only [h, Bool.false_eq_true, if_false]

theorem flush_fails (h : live x = true) (hfails : fails x = true) (n : Nat) (rest : List α) :
    flush live fails n (x :: rest) = ([], x :: rest) := by
  rw [flush.eq_def]
  simp only [h, hfails, if_true]

theorem flush_zero (h : live x = true) (rest : List α) :
    flush live fails 0 (x :: rest) = ([], x :: rest) := by
  rw [flush.eq_def]
  simp only [h, if_true, ite_self]

theorem flush_sends (h : live x = true) (hfails : fails x = false) (n : Nat) (rest : List α) :
    flush live fails (n + 1) (x :: rest) =
      (x :: (flush live fails n rest).1, (flush live fails n rest).2) := by
  rw [flush.eq_def]
  simp only [h, hfails, if_true, Bool.false_eq_true, if_false]

/-- A flush takes a first part of the queue, and sends what is live in it. -/
theorem flush_split (n : Nat) (queue : List α) :
    ∃ settled, queue = settled ++ (flush live fails n queue).2 ∧
      (flush live fails n queue).1 = settled.filter live := by
  induction queue generalizing n with
  | nil => exact ⟨[], rfl, rfl⟩
  | cons x rest ih =>
      cases hlive : live x with
      | false =>
          obtain ⟨settled, hqueue, hsent⟩ := ih n
          rw [flush_dead hlive]
          refine ⟨x :: settled, congrArg (x :: ·) hqueue, ?_⟩
          rw [List.filter_cons_of_neg (by simp [hlive])]
          exact hsent
      | true =>
          cases hfails : fails x with
          | true =>
              rw [flush_fails hlive hfails]
              exact ⟨[], rfl, rfl⟩
          | false =>
              cases n with
              | zero =>
                  rw [flush_zero hlive]
                  exact ⟨[], rfl, rfl⟩
              | succ n =>
                  obtain ⟨settled, hqueue, hsent⟩ := ih n
                  rw [flush_sends hlive hfails]
                  refine ⟨x :: settled, congrArg (x :: ·) hqueue, ?_⟩
                  rw [List.filter_cons_of_pos hlive]
                  exact congrArg (x :: ·) hsent

theorem flush_sublist (n : Nat) (queue : List α) :
    List.Sublist (flush live fails n queue).2 queue := by
  obtain ⟨settled, hqueue, -⟩ := @flush_split _ live fails n queue
  conv_rhs => rw [hqueue]
  exact List.sublist_append_right ..

/-- A live entry whose send fails is left. -/
theorem flush_keeps (hlive : live x = true) (hfails : fails x = true) (n : Nat)
    (hx : x ∈ queue) : x ∈ (flush live fails n queue).2 := by
  induction queue generalizing n with
  | nil => cases hx
  | cons y rest ih =>
      cases hy : live y with
      | false =>
          rw [flush_dead hy]
          rcases List.mem_cons.mp hx with rfl | hx
          · rw [hlive] at hy
            cases hy
          · exact ih n hx
      | true =>
          cases hfy : fails y with
          | true => rw [flush_fails hy hfy]; exact hx
          | false =>
              cases n with
              | zero => rw [flush_zero hy]; exact hx
              | succ n =>
                  rw [flush_sends hy hfy]
                  rcases List.mem_cons.mp hx with rfl | hx
                  · rw [hfy] at hfails; cases hfails
                  · exact ih n hx

theorem flush_all (h : ∀ x ∈ queue, live x = true → fails x = false) {n : Nat}
    (hn : queue.length ≤ n) : flush live fails n queue = (queue.filter live, []) := by
  induction queue generalizing n with
  | nil => cases n <;> rfl
  | cons x rest ih =>
      rw [List.length_cons] at hn
      have hrest : ∀ y ∈ rest, live y = true → fails y = false :=
        fun y hy => h y (List.mem_cons_of_mem _ hy)
      cases hlive : live x with
      | false =>
          rw [flush_dead hlive, ih hrest (by omega), List.filter_cons_of_neg (by simp [hlive])]
      | true =>
          obtain ⟨m, rfl⟩ : ∃ m, n = m + 1 := ⟨n - 1, by omega⟩
          rw [flush_sends hlive (h x List.mem_cons_self hlive), ih hrest (by omega),
            List.filter_cons_of_pos hlive]

/-! ## Progress -/

theorem drains_keeps (hlive : live x = true) (hfails : fails x = true) (k : Nat)
    (hx : x ∈ queue) : x ∈ (drains live fails k queue).2 := by
  induction k generalizing queue with
  | zero => exact hx
  | succ k ih => exact ih (flush_keeps hlive hfails _ hx)

/-- The queue makes progress exactly when no live entry in it fails. -/
theorem progresses_iff :
    Progresses live fails queue ↔ ∀ x ∈ queue, live x = true → fails x = false := by
  constructor
  · rintro ⟨k, hempty, -⟩ x hx hlive
    by_contra hfails
    have hkept := drains_keeps hlive (eq_true_of_ne_false hfails) k hx
    rw [hempty] at hkept
    cases hkept
  · intro h
    refine ⟨1, ?_, fun x hx hlive _ => ?_⟩
    · rw [drains, flush_all h (Nat.le_refl _)]
      rfl
    · rw [drains, flush_all h (Nat.le_refl _)]
      exact List.mem_append_left _ (List.mem_filter.mpr ⟨hx, hlive⟩)

/-! ## Order -/

theorem inOrder_nil : InOrder ([] : List α) [] [] := ⟨[], rfl, .slnil⟩

/-- An arrival joins the queue. -/
theorem InOrder.push (h : InOrder arrived sent queue) (x : α) :
    InOrder (arrived ++ [x]) sent (queue ++ [x]) := by
  obtain ⟨settled, rfl, hsent⟩ := h
  exact ⟨settled, List.append_assoc .., hsent⟩

/-- An arrival is sent at once while nothing waits. -/
theorem InOrder.direct (h : InOrder arrived sent []) (x : α) :
    InOrder (arrived ++ [x]) (sent ++ [x]) [] := by
  obtain ⟨settled, rfl, hsent⟩ := h
  refine ⟨settled ++ [x], ?_, hsent.append (List.Sublist.refl _)⟩
  rw [List.append_nil, List.append_nil]

theorem InOrder.flush (h : InOrder arrived sent queue) (n : Nat) :
    InOrder arrived (sent ++ (flush live fails n queue).1) (flush live fails n queue).2 := by
  obtain ⟨settled, rfl, hsent⟩ := h
  obtain ⟨done, hqueue, hdone⟩ := @flush_split _ live fails n queue
  refine ⟨settled ++ done, ?_, ?_⟩
  · rw [List.append_assoc, ← hqueue]
  · rw [hdone]
    exact hsent.append List.filter_sublist

end BurrowGate.Lib.HeadQueue
