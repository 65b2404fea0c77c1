import BurrowGate.Js.Text
import Mathlib.Data.List.Sort
import Mathlib.Data.List.Infix
import Mathlib.Algebra.Order.Ring.Nat

/-!
# `route-policy-service.ts`: matching a request to a route policy

A record keeps the columns that matching reads; `methods` is the parsed list of
`methods_json`. Strings are lists of characters, and lengths count UTF-16 units.
-/

namespace BurrowGate.Routes

open Js (utf16Length)

inductive RouteAccessMode
  | inherit
  | challenge
  | bypass
  | block
  deriving DecidableEq

structure RoutePolicyRecord (I : Type*) where
  id : I
  siteId : I
  pathPattern : List Char
  methods : List (List Char)
  accessMode : RouteAccessMode
  priority : Int
  enabled : Bool
  createdAt : Nat
  deriving DecidableEq

/-! ## Path patterns -/

/-- One piece of the regular expression a pattern is compiled to. -/
inductive PathMatcher
  | literal (c : Char)
  | singleStar
  | doubleStar
  | subtree
  deriving DecidableEq

/-- The characters `.` does not match. -/
def isLineTerminator (c : Char) : Bool :=
  c = '\n' || c = '\r' || c = '\u2028' || c = '\u2029'

/-- Without the `/**` ending; the two control characters stand for the stars in the source. -/
def compileStars : List Char → List PathMatcher
  | '*' :: '*' :: rest => .doubleStar :: compileStars rest
  | '*' :: rest => .singleStar :: compileStars rest
  | c :: rest =>
      (if c = '\u0000' then .doubleStar else if c = '\u0001' then .singleStar else .literal c) ::
        compileStars rest
  | [] => []

def compileBase (base : List Char) : List PathMatcher :=
  base.map fun c => if c = '*' ∨ c = '\u0001' then .singleStar else .literal c

def compilePattern (pattern : List Char) : List PathMatcher :=
  if ['/', '*', '*'] <:+ pattern then
    compileBase (pattern.take (pattern.length - 3)) ++ [PathMatcher.subtree]
  else compileStars pattern

/-- `p*` followed by `rest`. -/
def matchMany (p : Char → Bool) (rest : List Char → Bool) : List Char → Bool
  | [] => rest []
  | c :: cs => rest (c :: cs) || (p c && matchMany p rest cs)

def matchPath : List PathMatcher → List Char → Bool
  | [], cs => cs.isEmpty
  | .literal c :: ms, d :: cs => c = d && matchPath ms cs
  | .literal _ :: _, [] => false
  | .singleStar :: ms, cs => matchMany (· ≠ '/') (matchPath ms) cs
  | .doubleStar :: ms, cs => matchMany (!isLineTerminator ·) (matchPath ms) cs
  | .subtree :: ms, cs =>
      matchPath ms cs ||
        match cs with
        | '/' :: cs => matchMany (!isLineTerminator ·) (matchPath ms) cs
        | _ => false

def pathPatternMatches (pattern pathname : List Char) : Bool :=
  matchPath (compilePattern pattern) pathname

example : pathPatternMatches "/api/**".toList "/api".toList = true ∧
    pathPatternMatches "/api/*/x".toList "/api/a/b/x".toList = false := by decide +kernel

/-! ## The matching policy -/

variable {I : Type*}

def specificity (policy : RoutePolicyRecord I) : Int :=
  let literal := utf16Length (policy.pathPattern.filter (· ≠ '*'))
  literal * 100 + (if policy.methods = [] then 0 else 10) -
    (if ['*', '*'] <:+: policy.pathPattern then 2 else 0)

def routePolicyMatches (policy : RoutePolicyRecord I) (method pathname : List Char) : Bool :=
  policy.enabled &&
    (policy.methods.isEmpty || policy.methods.contains (method.map Char.toUpper)) &&
      pathPatternMatches policy.pathPattern pathname

/-- The comparator puts `left` not after `right`. -/
def sortsBefore (left right : RoutePolicyRecord I) : Bool :=
  right.priority < left.priority ||
    (right.priority = left.priority &&
      (specificity right < specificity left ||
        (specificity right = specificity left && left.createdAt ≤ right.createdAt)))

def matchingRoutePolicy (policies : List (RoutePolicyRecord I)) (method pathname : List Char) :
    Option (RoutePolicyRecord I) :=
  ((policies.filter fun p => routePolicyMatches p method pathname).mergeSort sortsBefore).head?

end BurrowGate.Routes
