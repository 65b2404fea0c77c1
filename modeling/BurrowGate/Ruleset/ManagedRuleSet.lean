import BurrowGate.Js.CaseTable
import BurrowGate.Js.UriComponent
import BurrowGate.Ruleset.StreamRuleSet

/-!
# `managed-ruleset-compiler.ts`: the inspection of a request

A compiled leaf reads a field of the request, brings it into the form that its transforms
describe, and compares it. The regular expression engine and the case tables are parameters.
-/

namespace BurrowGate.Ruleset.Managed

open Js
open Lib

inductive RuleFieldSource
  | method
  | path
  | query
  | requestTarget
  | header
  deriving DecidableEq

inductive RuleTransform
  | urlDecode
  | lowercase
  | uppercase
  | trim
  | collapseWhitespace
  deriving DecidableEq

inductive RuleOperator
  | regex
  | contains
  | equals
  | startsWith
  | endsWith
  | exists
  | notEmpty
  deriving DecidableEq

/-- `RULESET_LIMITS` -/
def maxFieldLength : Nat := 16384
def headerMaxFieldLength : Nat := 512

inductive ManagedProtectionLocation
  | requestTarget
  | query
  | header
  deriving DecidableEq

structure ManagedProtectionMatch where
  ruleId : List Char
  title : List Char
  category : List Char
  severity : ManagedProtectionSeverity
  location : ManagedProtectionLocation
  deriving DecidableEq

structure CompiledLeaf where
  source : RuleFieldSource
  header : Option (List Char)
  transforms : List RuleTransform
  operator : RuleOperator
  regex : Option RegExp
  value : Option (List Char)
  caseInsensitive : Bool
  negate : Bool

abbrev CompiledCondition : Type := BoolTree CompiledLeaf

structure CompiledRule where
  «match» : ManagedProtectionMatch
  condition : CompiledCondition

/-- What the rules read of a request and its URL. -/
structure ManagedRuleSetContext where
  method : List Char
  pathname : List Char
  search : List Char
  headers : List Char → Option (List Char)

structure Engine where
  cases : CaseTable
  test : RegExp → List Char → Bool

/-! ## Transforms -/

/-- The passes of `urlDecode` that are left. -/
def urlDecodePasses : Nat → List Char → List Char
  | 0, result => result
  | passes + 1, result =>
      match decodeURIComponent result with
      | none => result
      | some next => if next = result then result else urlDecodePasses passes next

def urlDecode (value : List Char) : List Char := urlDecodePasses 2 value

variable (engine : Engine)

def applyTransform (value : List Char) : RuleTransform → List Char
  | .urlDecode => urlDecode value
  | .lowercase => engine.cases.toLowerCase value
  | .uppercase => engine.cases.toUpperCase value
  | .trim => trim value
  | .collapseWhitespace => collapseWhitespace value

/-! ## Evaluation -/

def rawField (context : ManagedRuleSetContext) (source : RuleFieldSource)
    (header : Option (List Char)) : Option (List Char) :=
  match source with
  | .method => some context.method
  | .path => some context.pathname
  | .query => some context.search
  | .requestTarget => some (context.pathname ++ context.search)
  | .header => context.headers (header.getD [])

def resolveValue (leaf : CompiledLeaf) (context : ManagedRuleSetContext) : List Char :=
  let maxLength := if leaf.source = .header then headerMaxFieldLength else maxFieldLength
  leaf.transforms.foldl (applyTransform engine)
    (bounded ((rawField context leaf.source leaf.header).getD []) maxLength)

/-- The switch over the operator. -/
def operatorResult (leaf : CompiledLeaf) (value : List Char) : Bool :=
  let comparand := leaf.value.getD []
  let fold (text : List Char) :=
    if leaf.caseInsensitive then engine.cases.toLowerCase text else text
  match leaf.operator with
  | .regex => leaf.regex.any fun regex => engine.test regex value
  | .notEmpty => 0 < value.length
  | .contains => fold comparand <:+: fold value
  | .equals => fold value = fold comparand
  | .startsWith => (fold comparand).isPrefixOf (fold value)
  | .endsWith => (fold comparand).isSuffixOf (fold value)
  | .exists => false

def evaluateLeaf (leaf : CompiledLeaf) (context : ManagedRuleSetContext) : Bool :=
  if leaf.operator = .exists then
    let present :=
      if leaf.source = .header then (context.headers (leaf.header.getD [])).isSome
      else (rawField context leaf.source leaf.header).isSome
    if leaf.negate then !present else present
  else
    let result := operatorResult engine leaf (resolveValue engine leaf context)
    if leaf.negate then !result else result

/-- The quantifiers `every` and `some` and the negation are those of the tree. -/
def evaluateCondition (node : CompiledCondition) (context : ManagedRuleSetContext) : Bool :=
  node.eval fun leaf => evaluateLeaf engine leaf context

end BurrowGate.Ruleset.Managed
