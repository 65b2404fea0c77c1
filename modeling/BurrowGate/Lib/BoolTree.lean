import Mathlib.Data.List.Basic

/-!
# Boolean formulas as trees

Conjunctions and disjunctions of any length, and negations, over leaves of any type.
-/

namespace BurrowGate.Lib

inductive BoolTree (α : Type)
  | leaf (x : α)
  | all (children : List (BoolTree α))
  | any (children : List (BoolTree α))
  | not (child : BoolTree α)

namespace BoolTree

variable {α : Type}

mutual

/-- The value of a tree whose leaves have the values `v`. -/
def eval (v : α → Bool) : BoolTree α → Bool
  | .leaf x => v x
  | .all children => evalEvery v children
  | .any children => evalSome v children
  | .not child => !eval v child

def evalEvery (v : α → Bool) : List (BoolTree α) → Bool
  | [] => true
  | child :: children => eval v child && evalEvery v children

def evalSome (v : α → Bool) : List (BoolTree α) → Bool
  | [] => false
  | child :: children => eval v child || evalSome v children

end

mutual

/-- The leaves from left to right. -/
def leaves : BoolTree α → List α
  | .leaf x => [x]
  | .all children => leavesOf children
  | .any children => leavesOf children
  | .not child => leaves child

def leavesOf : List (BoolTree α) → List α
  | [] => []
  | child :: children => leaves child ++ leavesOf children

end

mutual

/-- Only the values of its own leaves matter to a tree. -/
theorem eval_congr {v u : α → Bool} (tree : BoolTree α)
    (h : ∀ leaf ∈ tree.leaves, v leaf = u leaf) : tree.eval v = tree.eval u := by
  cases tree with
  | leaf x => exact h x (by rw [leaves, List.mem_singleton])
  | all children =>
      rw [eval, eval]
      exact (eval_congr_list children h).1
  | any children =>
      rw [eval, eval]
      exact (eval_congr_list children h).2
  | not child =>
      rw [eval, eval, eval_congr child h]

theorem eval_congr_list {v u : α → Bool} (children : List (BoolTree α))
    (h : ∀ leaf ∈ leavesOf children, v leaf = u leaf) :
    evalEvery v children = evalEvery u children ∧ evalSome v children = evalSome u children := by
  cases children with
  | nil => exact ⟨rfl, rfl⟩
  | cons child children =>
      have hchild := eval_congr child fun leaf hleaf => h leaf (by
        rw [leavesOf]
        exact List.mem_append_left _ hleaf)
      have hrest := eval_congr_list children fun leaf hleaf => h leaf (by
        rw [leavesOf]
        exact List.mem_append_right _ hleaf)
      rw [evalEvery, evalEvery, evalSome, evalSome, hchild, hrest.1, hrest.2]
      exact ⟨rfl, rfl⟩

end

end BoolTree

end BurrowGate.Lib
