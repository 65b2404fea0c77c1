import BurrowGate.Lib.Positional
import Mathlib.Algebra.Order.Field.Rat
import Mathlib.Data.List.TakeWhile

/-!
# JavaScript strings and numbers

Strings are lists of characters. `toNumber` is `Number(string)`: `none` stands for
`NaN` and the infinities, a finite double for the rational number it is.
-/

namespace BurrowGate.Js

open Lib.Positional

/-! ## White space -/

/-- The `WhiteSpace` and `LineTerminator` characters. -/
def isWhiteSpace (c : Char) : Bool :=
  c = '\t' || c = '\n' || c = '\u000b' || c = '\u000c' || c = '\r' || c = ' ' || c = '\u00a0' ||
    c = '\u1680' || ('\u2000' ≤ c && c ≤ '\u200a') || c = '\u2028' || c = '\u2029' ||
    c = '\u202f' || c = '\u205f' || c = '\u3000' || c = '\ufeff'

def trimStart (cs : List Char) : List Char := cs.dropWhile isWhiteSpace

def trimEnd (cs : List Char) : List Char := (cs.reverse.dropWhile isWhiteSpace).reverse

def trim (cs : List Char) : List Char := trimEnd (trimStart cs)

theorem trimEnd_append (cs : List Char) :
    ∃ tail, cs = trimEnd cs ++ tail ∧ ∀ c ∈ tail, isWhiteSpace c = true := by
  refine ⟨(cs.reverse.takeWhile isWhiteSpace).reverse, ?_, fun c hc => ?_⟩
  · have h := List.takeWhile_append_dropWhile (p := isWhiteSpace) (l := cs.reverse)
    have := congrArg List.reverse h
    rw [List.reverse_append, List.reverse_reverse] at this
    exact this.symm
  · exact List.mem_takeWhile_imp (List.mem_reverse.mp hc)

/-- A string is white space, its trimmed middle, and white space. -/
theorem trim_append (cs : List Char) :
    ∃ lead tail, cs = lead ++ trim cs ++ tail ∧ (∀ c ∈ lead, isWhiteSpace c = true) ∧
      ∀ c ∈ tail, isWhiteSpace c = true := by
  obtain ⟨tail, htail, hblank⟩ := trimEnd_append (trimStart cs)
  refine ⟨cs.takeWhile isWhiteSpace, tail, ?_, fun c hc => List.mem_takeWhile_imp hc, hblank⟩
  have h := List.takeWhile_append_dropWhile (p := isWhiteSpace) (l := cs)
  rw [List.append_assoc, trim, ← htail]
  exact h.symm

/-! ## Length -/

/-- `length` counts UTF-16 code units. -/
def utf16Length (cs : List Char) : Nat := (cs.map fun c => if c.val < 0x10000 then 1 else 2).sum

/-- The UTF-16 code units of a character. -/
def utf16Units (c : Char) : List UInt32 :=
  if c.val < 0x10000 then [c.val]
  else
    let offset : UInt32 := c.val - 0x10000
    [0xD800 + offset / 0x400, 0xDC00 + offset % 0x400]

/-! ## Digits -/

def digitValue (c : Char) : Option Nat :=
  if '0' ≤ c ∧ c ≤ '9' then some (c.toNat - '0'.toNat)
  else if 'a' ≤ c ∧ c ≤ 'f' then some (c.toNat - 'a'.toNat + 10)
  else if 'A' ≤ c ∧ c ≤ 'F' then some (c.toNat - 'A'.toNat + 10)
  else none

def isDigit (c : Char) : Bool := '0' ≤ c && c ≤ '9'

/-- The value of a non-empty string of digits to the given base. -/
def digitsValue (base : Nat) (cs : List Char) : Option Nat :=
  if cs = [] then none else placeValue base (fun c => (digitValue c).filter (· < base)) cs

/-! ## `toString(base)` -/

theorem digitValue_digitChar : ∀ d < 16, digitValue (Nat.digitChar d) = some d := by
  decide

/-- The text of a number to a base up to 16 reads back as the number. -/
theorem digitsValue_toDigits {base : Nat} (hlo : 1 < base) (hhi : base ≤ 16) (n : Nat) :
    digitsValue base (Nat.toDigits base n) = some n := by
  rw [digitsValue, if_neg Nat.toDigits_ne_nil]
  have hdigit : ∀ d < base, (digitValue (Nat.digitChar d)).filter (· < base) = some d := by
    intro d hd
    rw [digitValue_digitChar d (by omega)]
    simp [hd]
  induction n using Nat.strongRecOn with
  | ind n ih =>
      rw [Nat.toDigits_eq_if hlo]
      split
      · rename_i hlt
        show placeValue base _ ([] ++ [Nat.digitChar n]) = some n
        rw [placeValue_concat, placeValue_nil, hdigit n hlt]
        simp
      · rename_i hge
        have hdiv : n / base < n := Nat.div_lt_self (by omega) hlo
        rw [placeValue_concat, ih _ hdiv, hdigit _ (Nat.mod_lt _ (by omega))]
        show some (n / base * base + n % base) = some n
        rw [Nat.div_add_mod']

/-- Every character of such a text is the one of a digit. -/
theorem exists_of_mem_toDigits {base n : Nat} (hlo : 1 < base) {c : Char}
    (h : c ∈ Nat.toDigits base n) : ∃ d < base, c = Nat.digitChar d := by
  induction n using Nat.strongRecOn with
  | ind n ih =>
      rw [Nat.toDigits_eq_if hlo] at h
      split at h
      · rename_i hlt
        exact ⟨n, hlt, List.mem_singleton.mp h⟩
      · rename_i hge
        rcases List.mem_snoc.mp h with h | h
        · exact ih _ (Nat.div_lt_self (by omega) hlo) h
        · exact ⟨n % base, Nat.mod_lt _ (by omega), h⟩

/-- Only zero is written with a leading zero. -/
theorem head?_toDigits {base n : Nat} (hlo : 1 < base) (h : n ≠ 0) :
    (Nat.toDigits base n).head? ≠ some '0' := by
  induction n using Nat.strongRecOn with
  | ind n ih =>
      rw [Nat.toDigits_eq_if hlo]
      split
      · rw [List.head?_cons, Ne, Option.some.injEq, Nat.digitChar_eq_zero]
        exact h
      · rename_i hge
        have hpos : n / base ≠ 0 := Nat.ne_of_gt (Nat.div_pos (by omega) (by omega))
        have hhead := ih _ (Nat.div_lt_self (by omega) hlo) hpos
        obtain ⟨c, cs, hcs⟩ := List.exists_cons_of_ne_nil (@Nat.toDigits_ne_nil (n / base) base)
        rw [hcs] at hhead ⊢
        exact hhead

/-! ## Doubles -/

/-- The exponent of the highest binary digit of a positive number. -/
def floorLog2 (q : ℚ) : Int :=
  let k : Int := (Nat.log2 q.num.natAbs : Int) - Nat.log2 q.den
  if (2 : ℚ) ^ k ≤ q then k else k - 1

/-- To the nearest natural number, ties to even. -/
def roundHalfEven (q : ℚ) : Nat :=
  let n := q.floor.toNat
  let rest := q - n
  if rest < 1 / 2 then n else if 1 / 2 < rest then n + 1 else if n % 2 = 0 then n else n + 1

/-- The double nearest to a positive number, were the exponent unbounded above. -/
def roundPositive (q : ℚ) : ℚ :=
  let ulp : ℚ := (2 : ℚ) ^ max (floorLog2 q - 52) (-1074)
  roundHalfEven (q / ulp) * ulp

def roundDouble (q : ℚ) : ℚ :=
  if q = 0 then 0 else if 0 < q then roundPositive q else -roundPositive (-q)

/-- The finite double nearest to a number, if it does not round to an infinity. -/
def toDouble (q : ℚ) : Option ℚ :=
  let r := roundDouble q
  if -2 ^ 1024 < r ∧ r < 2 ^ 1024 then some r else none

/-! ## `Number(string)` -/

/-- An optional `e` with a signed exponent, up to the end. -/
def exponentPart : List Char → Option Int
  | [] => some 0
  | e :: rest =>
      if e = 'e' ∨ e = 'E' then
        match rest with
        | '-' :: ds => (digitsValue 10 ds).map fun n => -(n : Int)
        | '+' :: ds => (digitsValue 10 ds).map Int.ofNat
        | ds => (digitsValue 10 ds).map Int.ofNat
      else none

/-- `StrUnsignedDecimalLiteral` without `Infinity`. -/
def unsignedDecimal (cs : List Char) : Option ℚ :=
  let ints := cs.takeWhile isDigit
  let rest := cs.dropWhile isDigit
  let fracs := match rest with
    | '.' :: ds => ds.takeWhile isDigit
    | _ => []
  let rest := match rest with
    | '.' :: ds => ds.dropWhile isDigit
    | _ => rest
  (digitsValue 10 (ints ++ fracs)).bind fun n =>
    (exponentPart rest).map fun e => (n : ℚ) * (10 : ℚ) ^ (e - (fracs.length : Int))

def toNumber (cs : List Char) : Option ℚ :=
  match trim cs with
  | [] => some 0
  | '0' :: x :: ds =>
      if x = 'x' ∨ x = 'X' then (digitsValue 16 ds).bind fun n => toDouble n
      else if x = 'o' ∨ x = 'O' then (digitsValue 8 ds).bind fun n => toDouble n
      else if x = 'b' ∨ x = 'B' then (digitsValue 2 ds).bind fun n => toDouble n
      else (unsignedDecimal ('0' :: x :: ds)).bind toDouble
  | '-' :: ds => (unsignedDecimal ds).bind fun q => toDouble (-q)
  | '+' :: ds => (unsignedDecimal ds).bind toDouble
  | ds => (unsignedDecimal ds).bind toDouble

example : toNumber " 0x18\n".toList = some 24 ∧ toNumber "2.4e1".toList = some 24 ∧
    toNumber "24.00000000000000000001".toList = some 24 ∧ toNumber "".toList = some 0 ∧
    toNumber "24a".toList = none := by decide +kernel

end BurrowGate.Js
