import Mathlib.Data.List.DropRight
import Mathlib.Order.Basic

/-!
# The origin of a URL reference

What the WHATWG URL parser makes of a reference resolved against an `http` or `https` URL, as
far as its origin goes. The host parser is a parameter.
-/

namespace BurrowGate.Js

inductive Scheme
  | http
  | https
  deriving DecidableEq

structure Origin (H : Type) where
  scheme : Scheme
  host : H
  /-- `none` for the scheme's default port. -/
  port : Option Nat
  deriving DecidableEq

variable {H : Type} {host : List Char → Option H} {base : Origin H}

/-! ## The text that is parsed -/

def isC0OrSpace (c : Char) : Bool := c.toNat ≤ 0x20

def isTabOrNewline (c : Char) : Bool := c = '\t' || c = '\n' || c = '\r'

/-- Leading and trailing C0 controls and spaces are removed, then every tab and newline. -/
def urlText (input : List Char) : List Char :=
  ((input.dropWhile isC0OrSpace).rdropWhile isC0OrSpace).filter (!isTabOrNewline ·)

/-- A backslash counts as a slash, since the scheme is a special one. -/
def isSlash (c : Char) : Bool := c = '/' || c = '\\'

def startsWithSlash : List Char → Bool
  | [] => false
  | c :: _ => isSlash c

/-! ## The authority -/

def endsAuthority (c : Char) : Bool := isSlash c || c = '?' || c = '#'

/-- The text before the first colon outside brackets, and the text after it. -/
def splitHost (inside : Bool) : List Char → List Char × Option (List Char)
  | [] => ([], none)
  | c :: rest =>
      if c = ':' ∧ inside = false then ([], some rest)
      else
        let split := splitHost (if c = '[' then true else if c = ']' then false else inside) rest
        (c :: split.1, split.2)

def Scheme.defaultPort : Scheme → Nat
  | .http => 80
  | .https => 443

/-- The port state. The outer `none` is a failure. -/
def portOf (scheme : Scheme) (text : List Char) : Option (Option Nat) :=
  if text.all Char.isDigit then
    if text = [] then some none
    else
      let port := text.foldl (fun n c => 10 * n + (c.toNat - '0'.toNat)) 0
      if 65535 < port then none
      else some (if port = scheme.defaultPort then none else some port)
  else none

/-- The authority state and the host and port states after it. -/
def authority (host : List Char → Option H) (scheme : Scheme) (text : List Char) :
    Option (Origin H) :=
  let given := text.takeWhile (!endsAuthority ·)
  let hostPort := given.rtakeWhile (· ≠ '@')
  let split := splitHost false hostPort
  if split.1 = [] then none
  else do
    let parsed ← host split.1
    let port ← split.2.elim (some none) (portOf scheme)
    some ⟨scheme, parsed, port⟩

/-! ## The reference -/

def isSchemeChar (c : Char) : Bool := c.isAlphanum || c = '+' || c = '-' || c = '.'

/-- The scheme in lower case, and the text after its colon. -/
def schemeOf (text : List Char) : Option (List Char × List Char) :=
  match text with
  | [] => none
  | c :: _ =>
      if c.isAlpha then
        match text.dropWhile isSchemeChar with
        | ':' :: rest => some ((text.takeWhile isSchemeChar).map Char.toLower, rest)
        | _ => none
      else none

def schemeNamed (name : List Char) : Option Scheme :=
  if name = "http".toList then some .http
  else if name = "https".toList then some .https
  else none

/-- The relative state. Two slashes begin an authority, behind which more slashes are ignored. -/
def relative (host : List Char → Option H) (base : Origin H) : List Char → Option (Origin H)
  | c :: d :: rest =>
      if isSlash c && isSlash d then authority host base.scheme (rest.dropWhile isSlash)
      else some base
  | _ => some base

/-- `none` where the parser fails or the URL's scheme is not `http` or `https`. -/
def resolveOrigin (host : List Char → Option H) (base : Origin H) (input : List Char) :
    Option (Origin H) :=
  let text := urlText input
  match schemeOf text with
  | none => relative host base text
  | some (name, rest) =>
      (schemeNamed name).bind fun scheme =>
        if scheme = base.scheme then relative host base rest
        else authority host scheme (rest.dropWhile isSlash)

/-! ## References that begin with a slash -/

theorem isSlash_cases {c : Char} (h : isSlash c = true) : c = '/' ∨ c = '\\' :=
  (Bool.or_eq_true_iff.mp h).imp of_decide_eq_true of_decide_eq_true

theorem isSlash_of_isC0OrSpace {c : Char} (h : isC0OrSpace c = true) : isSlash c = false := by
  by_contra hslash
  rcases isSlash_cases (eq_true_of_ne_false hslash) with rfl | rfl
  · exact absurd h (by decide)
  · exact absurd h (by decide)

theorem startsWithSlash_append {xs ys : List Char} (h : startsWithSlash ys = false) :
    startsWithSlash (xs ++ ys) = startsWithSlash xs := by
  cases xs with
  | nil => exact h
  | cons c xs => rfl

/-- What is cut off at the end begins with no slash. -/
theorem startsWithSlash_rdropWhile (rest : List Char) :
    startsWithSlash ((rest.rdropWhile isC0OrSpace).filter (!isTabOrNewline ·)) =
      startsWithSlash (rest.filter (!isTabOrNewline ·)) := by
  induction rest using List.reverseRecOn with
  | nil => rfl
  | append_singleton rest c ih =>
      rw [List.rdropWhile_concat]
      by_cases hc : isC0OrSpace c = true
      · have hlast : startsWithSlash ([c].filter (!isTabOrNewline ·)) = false := by
          rw [List.filter_cons]
          split
          · exact isSlash_of_isC0OrSpace hc
          · rfl
        rw [if_pos hc, ih, List.filter_append, startsWithSlash_append hlast]
      · rw [if_neg hc]

theorem urlText_slash (rest : List Char) :
    urlText ('/' :: rest) = '/' :: (rest.rdropWhile isC0OrSpace).filter (!isTabOrNewline ·) := by
  have hcut : ('/' :: rest).rdropWhile isC0OrSpace = '/' :: rest.rdropWhile isC0OrSpace := by
    induction rest using List.reverseRecOn with
    | nil => rfl
    | append_singleton rest c ih =>
        rw [← List.cons_append, List.rdropWhile_concat, List.rdropWhile_concat]
        split
        · exact ih
        · rfl
  rw [urlText, List.dropWhile_cons_of_neg (by decide), hcut, List.filter_cons_of_pos (by decide)]

/-- Where the authority begins when a second slash follows the first. -/
def afterSlashes (rest : List Char) : List Char :=
  ((rest.rdropWhile isC0OrSpace).filter (!isTabOrNewline ·)).dropWhile isSlash

theorem resolveOrigin_slash (rest : List Char) :
    resolveOrigin host base ('/' :: rest) =
      if startsWithSlash (rest.filter (!isTabOrNewline ·)) then
        authority host base.scheme (afterSlashes rest)
      else some base := by
  rw [resolveOrigin, urlText_slash, ← startsWithSlash_rdropWhile, afterSlashes]
  cases (rest.rdropWhile isC0OrSpace).filter (!isTabOrNewline ·) with
  | nil => rfl
  | cons d text =>
      by_cases hd : isSlash d = true
      · rw [List.dropWhile_cons_of_pos hd, startsWithSlash, if_pos hd]
        exact if_pos hd
      · rw [startsWithSlash, if_neg hd]
        exact if_neg hd

end BurrowGate.Js
