import Mathlib.Data.List.Basic

/-!
# Input in chunks

A consumer that may be fed a chunk in two parts without a difference does not see
how its input is cut.
-/

namespace BurrowGate.Lib.Chunks

variable {σ α : Type*} {step : σ → List α → σ}

/-- Two chunks do what their concatenation does. -/
def Absorbs (step : σ → List α → σ) : Prop :=
  ∀ s first second, step (step s first) second = step s (first ++ second)

theorem Absorbs.foldl_step (h : Absorbs step) (s : σ) (chunk : List α) (chunks : List (List α)) :
    chunks.foldl step (step s chunk) = step s (chunk ++ chunks.flatten) := by
  induction chunks generalizing chunk with
  | nil => rw [List.foldl_nil, List.flatten_nil, List.append_nil]
  | cons next chunks ih => rw [List.foldl_cons, h, ih, List.flatten_cons, List.append_assoc]

/-- A run over chunks is one step over their bytes, from a state that the empty chunk keeps. -/
theorem Absorbs.foldl (h : Absorbs step) {s : σ} (hs : step s [] = s) (chunks : List (List α)) :
    chunks.foldl step s = step s chunks.flatten := by
  have hrun := h.foldl_step s [] chunks
  rw [hs, List.nil_append] at hrun
  exact hrun

end BurrowGate.Lib.Chunks
