import Mathlib.Tactic.TypeStar

/-!
# Expressions of AND, OR and NOT

Negation binds tighter than conjunction and conjunction tighter than disjunction; operands that
stand next to each other are a conjunction. What the operators build is a parameter.
-/

namespace BurrowGate.Lib.Precedence

inductive Symbol (ν : Type*)
  | operand (node : ν)
  | and
  | or
  | not
  | opening
  | closing

/-- What is built of the operands. -/
structure Builder (ν : Type*) where
  and : List ν → ν
  or : List ν → ν
  not : ν → ν

inductive Level
  | negation
  | conjunction
  | disjunction
  deriving DecidableEq

variable {ν : Type*}

/-- The symbols are an expression of the level with these operands, with parentheses at most
`depth` deep. -/
inductive Phrase (build : Builder ν) : Nat → Level → List (Symbol ν) → List ν → Prop
  | operand (depth : Nat) (node : ν) : Phrase build depth .negation [.operand node] [node]
  | not {depth : Nat} {symbols : List (Symbol ν)} {node : ν}
      (h : Phrase build depth .negation symbols [node]) :
      Phrase build depth .negation (.not :: symbols) [build.not node]
  | group {depth : Nat} {symbols : List (Symbol ν)} {nodes : List ν}
      (h : Phrase build depth .disjunction symbols nodes) :
      Phrase build (depth + 1) .negation (.opening :: (symbols ++ [Symbol.closing])) [build.or nodes]
  | single {depth : Nat} {symbols : List (Symbol ν)} {node : ν}
      (h : Phrase build depth .negation symbols [node]) :
      Phrase build depth .conjunction symbols [node]
  | and {depth : Nat} {symbols others : List (Symbol ν)} {node : ν} {nodes : List ν}
      (h : Phrase build depth .negation symbols [node])
      (hothers : Phrase build depth .conjunction others nodes) :
      Phrase build depth .conjunction (symbols ++ .and :: others) (node :: nodes)
  | adjacent {depth : Nat} {symbols others : List (Symbol ν)} {node : ν} {nodes : List ν}
      (h : Phrase build depth .negation symbols [node])
      (hothers : Phrase build depth .conjunction others nodes) :
      Phrase build depth .conjunction (symbols ++ others) (node :: nodes)
  | alone {depth : Nat} {symbols : List (Symbol ν)} {nodes : List ν}
      (h : Phrase build depth .conjunction symbols nodes) :
      Phrase build depth .disjunction symbols [build.and nodes]
  | or {depth : Nat} {symbols others : List (Symbol ν)} {nodes more : List ν}
      (h : Phrase build depth .conjunction symbols nodes)
      (hothers : Phrase build depth .disjunction others more) :
      Phrase build depth .disjunction (symbols ++ .or :: others) (build.and nodes :: more)

/-- The symbols that an expression can start with. -/
def Symbol.starts : Symbol ν → Bool
  | .operand _ | .not | .opening => true
  | .and | .or | .closing => false

def Symbol.isOperand : Symbol ν → Bool
  | .operand _ => true
  | _ => false

/-- The number of operands. -/
def operands (symbols : List (Symbol ν)) : Nat := symbols.countP Symbol.isOperand

theorem operands_cons {symbol : Symbol ν} (h : symbol.isOperand = false)
    (symbols : List (Symbol ν)) : operands (symbol :: symbols) = operands symbols :=
  List.countP_cons_of_neg (by rw [h]; exact Bool.false_ne_true)

theorem operands_append (symbols others : List (Symbol ν)) :
    operands (symbols ++ others) = operands symbols + operands others :=
  List.countP_append

theorem Phrase.head {build : Builder ν} {depth : Nat} {level : Level}
    {symbols : List (Symbol ν)} {nodes : List ν} (h : Phrase build depth level symbols nodes) :
    ∃ first others, symbols = first :: others ∧ first.starts = true := by
  have happend : ∀ {symbols : List (Symbol ν)} (more : List (Symbol ν)),
      (∃ first others, symbols = first :: others ∧ first.starts = true) →
      ∃ first others, symbols ++ more = first :: others ∧ first.starts = true := by
    rintro symbols more ⟨first, others, rfl, hstarts⟩
    exact ⟨first, others ++ more, rfl, hstarts⟩
  induction h with
  | operand depth node => exact ⟨_, _, rfl, rfl⟩
  | not _ _ => exact ⟨_, _, rfl, rfl⟩
  | group _ _ => exact ⟨_, _, rfl, rfl⟩
  | single _ ih => exact ih
  | and _ _ ih _ => exact happend _ ih
  | adjacent _ _ ih _ => exact happend _ ih
  | alone _ ih => exact ih
  | or _ _ ih _ => exact happend _ ih

end BurrowGate.Lib.Precedence
