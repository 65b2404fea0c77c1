import BurrowGate.Search.SearchQuery

/-!
# `search-sql.ts`

A tree is compiled to a predicate of SQL, which is kept as a tree here: every fragment that the
code joins with an operator is in parentheses or binds tighter. Its value on a row is three-valued.
-/

namespace BurrowGate.Search

open Js
open Lib.Glob

inductive SqlOperator
  | eq
  | compare (comparison : Comparison)
  deriving DecidableEq

/-- Columns are the texts of SQL expressions. `null` is a parameter that is `undefined`. -/
inductive SqlPredicate
  | null
  | isNotNull (column : List Char)
  | number (column : List Char) (operator : SqlOperator) (value : WithBot (WithTop ℚ))
  | notEmpty (column : List Char)
  | lowerLike (column pattern : List Char)
  | lowerEquals (column value : List Char)
  | equals (column value : List Char)
  | and (left right : SqlPredicate)
  | or (left right : SqlPredicate)
  | not (predicate : SqlPredicate)

/-! ## Compilation -/

def joined (operator : SqlPredicate → SqlPredicate → SqlPredicate) :
    List SqlPredicate → SqlPredicate
  | [] => .null
  | first :: others => others.foldl operator first

def likeChar (c : Char) : List Char :=
  if c = GLOB_ANY then ['%']
  else if c = GLOB_ONE then ['_']
  else if c = '!' ∨ c = '%' ∨ c = '_' then ['!', c]
  else [c]

def likePattern (cases : CaseTable) (value : List Char) : List Char :=
  (cases.toLowerCase value).flatMap likeChar

def freeText {ρ : Type} (cases : CaseTable) (schema : SearchSchema ρ) (value : List Char) :
    Except SearchSyntaxError SqlPredicate :=
  let contains := '%' :: likePattern cases value ++ ['%']
  match schema.textSql.map (SqlPredicate.lowerLike · contains) ++
      schema.exactSql.map (SqlPredicate.equals · value) with
  | [] => syntaxError
      "Free text is not supported here; search a field, as in name:value".toList 0
  | parts => .ok (joined .or parts)

def numberPredicate (column : List Char) : ValueMatch → SqlPredicate
  | .exists => .isNotNull column
  | .equals value _ => .and (.isNotNull column) (.number column .eq (numberValue value))
  | .range low high =>
      .and (.and (.isNotNull column) (.number column (.compare .ge) (numberValue low)))
        (.number column (.compare .le) (numberValue high))
  | .compare comparison value =>
      .and (.isNotNull column) (.number column (.compare comparison) (numberValue value))

def textPredicate (cases : CaseTable) (column : List Char) :
    ValueMatch → Except SearchSyntaxError SqlPredicate
  | .exists => .ok (.notEmpty column)
  | .equals value true => .ok (.lowerLike column (likePattern cases value))
  | .equals value false => .ok (.lowerEquals column (cases.toLowerCase value))
  | _ => syntaxError "Comparisons only apply to number fields".toList 0

def fieldPredicate (cases : CaseTable) (column : List Char) (numeric : Bool)
    (valueMatch : ValueMatch) : Except SearchSyntaxError SqlPredicate :=
  if numeric then .ok (numberPredicate column valueMatch)
  else textPredicate cases column valueMatch

section Compile

variable {ρ : Type} (cases : CaseTable) (schema : SearchSchema ρ)

mutual

def compile : SearchNode ρ → Except SearchSyntaxError SqlPredicate
  | .and children => (compileAll children).map (joined .and)
  | .or children => (compileAll children).map (joined .or)
  | .not child => (compile child).map .not
  | .text value => freeText cases schema value
  | .field field _ valueMatch =>
      match field.sql with
      | none => syntaxError (field.name ++ " cannot be searched here".toList) 0
      | some column => fieldPredicate cases column field.type.isNumeric valueMatch

def compileAll : List (SearchNode ρ) → Except SearchSyntaxError (List SqlPredicate)
  | [] => .ok []
  | child :: children => do
      let predicate ← compile child
      let predicates ← compileAll children
      return predicate :: predicates

end

/-- `none` adds nothing to the statement. -/
def searchSql (node : Option (SearchNode ρ)) : Except SearchSyntaxError (Option SqlPredicate) :=
  match node with
  | none => .ok none
  | some node => (compile cases schema node).map some

end Compile

/-! ## The value of a predicate -/

inductive SqlValue
  | null
  | text (value : List Char)
  | number (value : ℚ)
  deriving DecidableEq

/-- `AND` with unknown values. -/
def sqlAnd : Option Bool → Option Bool → Option Bool
  | some false, _ => some false
  | _, some false => some false
  | some true, some true => some true
  | _, _ => none

def sqlOr : Option Bool → Option Bool → Option Bool
  | some true, _ => some true
  | _, some true => some true
  | some false, some false => some false
  | _, _ => none

/-- `LIKE` with `ESCAPE '!'` -/
def likeItems : List Char → List (Item Char)
  | [] => []
  | c :: cs =>
      if c = '!' then
        match cs with
        | [] => [.literal c]
        | next :: rest => .literal next :: likeItems rest
      else if c = '%' then .any :: likeItems cs
      else if c = '_' then .one :: likeItems cs
      else .literal c :: likeItems cs

def like (text pattern : List Char) : Bool :=
  Matches (fun p t => p = t) (likeItems pattern) text

/-- `COALESCE(column,'')` of a column of texts. -/
def SqlValue.text? : SqlValue → Option (List Char)
  | .null => some []
  | .text value => some value
  | .number _ => none

def SqlOperator.holds (operator : SqlOperator) (x y : WithBot (WithTop ℚ)) : Bool :=
  match operator with
  | .eq => x = y
  | .compare comparison => comparison.holds x y

/-- `LOWER` folds ASCII. A predicate on a column of the other type is unknown here. -/
def SqlPredicate.eval (column : List Char → SqlValue) : SqlPredicate → Option Bool
  | .null => none
  | .isNotNull c => some (column c ≠ .null)
  | .number c operator value =>
      match column c with
      | .number q => some (operator.holds (extended q) value)
      | _ => none
  | .notEmpty c => (column c).text?.map (· ≠ [])
  | .lowerLike c pattern => (column c).text?.map fun text => like (text.map asciiLower) pattern
  | .lowerEquals c value => (column c).text?.map (·.map asciiLower = value)
  | .equals c value =>
      match column c with
      | .text text => some (text = value)
      | _ => none
  | .and left right => sqlAnd (left.eval column) (right.eval column)
  | .or left right => sqlOr (left.eval column) (right.eval column)
  | .not predicate => (predicate.eval column).map (!·)

end BurrowGate.Search
