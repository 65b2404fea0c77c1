import Mathlib.Data.List.Basic

/-!
# Logs of transitions

A log of pairs of states is chained from `p` to `q` when each pair starts where the one
before ended and changes the state.
-/

namespace BurrowGate.Lib

variable {σ : Type*}

/-- The log leads from the first state to the last one. -/
def Chained (p : σ) : List (σ × σ) → σ → Prop
  | [], q => p = q
  | e :: log, q => e.1 = p ∧ e.1 ≠ e.2 ∧ Chained e.2 log q

namespace Chained

@[simp] theorem nil_iff {p q : σ} : Chained p [] q ↔ p = q := Iff.rfl

theorem append {p q r : σ} {log more : List (σ × σ)} (h : Chained p log q)
    (hmore : Chained q more r) : Chained p (log ++ more) r := by
  induction log generalizing p with
  | nil => exact (nil_iff.mp h) ▸ hmore
  | cons e log ih => exact ⟨h.1, h.2.1, ih h.2.2⟩

theorem concat {p q : σ} {log : List (σ × σ)} {e : σ × σ} (h : Chained p log q) (hfrom : e.1 = q)
    (hne : e.1 ≠ e.2) : Chained p (log ++ [e]) e.2 :=
  h.append ⟨hfrom, hne, rfl⟩

/-- A prefix of a chained log is chained. -/
theorem of_append {p r : σ} {log more : List (σ × σ)} (h : Chained p (log ++ more) r) :
    ∃ q, Chained p log q ∧ Chained q more r := by
  induction log generalizing p with
  | nil => exact ⟨p, rfl, h⟩
  | cons e log ih =>
      obtain ⟨q, hlog, hmore⟩ := ih h.2.2
      exact ⟨q, ⟨h.1, h.2.1, hlog⟩, hmore⟩

end Chained

end BurrowGate.Lib
