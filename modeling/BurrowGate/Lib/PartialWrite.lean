import Mathlib.Data.List.Basic

/-!
# Writing chunks to a sink that takes a part

A sink answers a write with the length that it takes, or fails. `flush` offers the chunks of
a backlog in order and stops at the first that is not taken whole.
-/

namespace BurrowGate.Lib.PartialWrite

variable {α : Type*} {ended : Bool} {answer : Option Nat} {data : List α} {n : Nat}

/-- How much of the data is taken; nothing can be written after the end. -/
def write (ended : Bool) (answer : Option Nat) (data : List α) : Option Nat :=
  if ended then none else answer.map fun count => min count data.length

theorem write_eq_some (h : write ended answer data = some n) :
    ∃ count ∈ answer, n = min count data.length := by
  rw [write] at h
  split at h
  · cases h
  · obtain ⟨count, hcount, rfl⟩ := Option.map_eq_some_iff.mp h
    exact ⟨count, hcount, rfl⟩

theorem open_of_write (h : write ended answer data = some n) : ended = false := by
  cases ended with
  | false => rfl
  | true => cases h

/-- A backlog after a flush: what was taken, what is left, and whether a write failed. -/
structure Flushed (α : Type*) where
  taken : List α
  rest : List (List α)
  failed : Bool

/-- The writes of a flush; a sink that does not answer takes nothing. -/
def flush (ended : Bool) : List (List α) → List (Option Nat) → Flushed α
  | [], _ => ⟨[], [], false⟩
  | chunk :: queue, answers =>
      match write ended (answers.headD (some 0)) chunk with
      | none => ⟨[], chunk :: queue, true⟩
      | some written =>
          if written < chunk.length then
            ⟨chunk.take written, chunk.drop written :: queue, false⟩
          else
            let later := flush ended queue answers.tail
            { later with taken := chunk ++ later.taken }

/-- Nothing of a backlog is lost, repeated or moved. -/
theorem flush_taken_append (ended : Bool) (queue : List (List α)) (answers : List (Option Nat)) :
    (flush ended queue answers).taken ++ (flush ended queue answers).rest.flatten =
      queue.flatten := by
  induction queue generalizing answers with
  | nil => rfl
  | cons chunk queue ih =>
      rw [flush]
      split
      · rfl
      · split
        · rw [List.flatten_cons, List.flatten_cons, ← List.append_assoc, List.take_append_drop]
        · rw [List.flatten_cons, List.append_assoc, ih]

/-- No write takes a chunk in part only. -/
def Drains : List (List α) → List (Option Nat) → Prop
  | [], _ => True
  | chunk :: queue, answers =>
      ∀ count ∈ answers.headD (some 0), chunk.length ≤ count ∧ Drains queue answers.tail

instance decidableDrains : ∀ (queue : List (List α)) (answers : List (Option Nat)),
    Decidable (Drains queue answers)
  | [], _ => isTrue trivial
  | chunk :: queue, answers =>
      have := decidableDrains queue answers.tail
      inferInstanceAs (Decidable
        (∀ count ∈ answers.headD (some 0), chunk.length ≤ count ∧ Drains queue answers.tail))

theorem flush_of_drains {queue : List (List α)} {answers : List (Option Nat)}
    (h : Drains queue answers) (hopen : (flush ended queue answers).failed = false) :
    (flush ended queue answers).rest = [] := by
  induction queue generalizing answers with
  | nil => rfl
  | cons chunk queue ih =>
      rw [flush] at hopen ⊢
      split at hopen
      · cases hopen
      case h_2 written hwritten =>
        obtain ⟨count, hcount, hle⟩ := write_eq_some hwritten
        obtain ⟨hlength, hqueue⟩ := h count hcount
        have hwhole : ¬ written < chunk.length := by omega
        rw [if_neg hwhole] at hopen ⊢
        exact ih hqueue hopen

end BurrowGate.Lib.PartialWrite
