import BurrowGate.Js.CaseTable
import BurrowGate.Js.Value
import BurrowGate.Lib.Glob
import Mathlib.Order.WithBot

/-!
# `search-query.ts`

A query is cut into tokens, which a recursive descent parser turns into a tree, and the tree is
evaluated on rows. The parser's recursion is bounded by fuel; `QueryParser` shows that what
`parseSearch` gives it is enough.
-/

namespace BurrowGate.Search

open Js
open Lib.Glob

inductive SearchFieldType
  | text
  | number
  | ip
  | country
  | status
  deriving DecidableEq

/-- `ρ` is the type of the rows. -/
structure SearchField (ρ : Type) where
  name : List Char
  aliases : List (List Char)
  type : SearchFieldType
  sql : Option (List Char)
  get : Option (ρ → JsValue)

structure SearchSchema (ρ : Type) where
  fields : List (SearchField ρ)
  textSql : List (List Char)
  exactSql : List (List Char)
  text : Option (ρ → List Char)
  dynamic : Option (ρ → List Char → JsValue)

inductive Comparison
  | gt
  | ge
  | lt
  | le
  deriving DecidableEq

inductive ValueMatch
  | exists
  | equals (value : List Char) (glob : Bool)
  | compare (comparison : Comparison) (value : List Char)
  | range (low high : List Char)
  deriving DecidableEq

inductive SearchNode (ρ : Type)
  | and (children : List (SearchNode ρ))
  | or (children : List (SearchNode ρ))
  | not (child : SearchNode ρ)
  | text (value : List Char)
  | field (field : SearchField ρ) (path : Option (List Char)) (valueMatch : ValueMatch)

structure SearchSyntaxError where
  message : List Char
  position : Nat
  deriving DecidableEq

/-- `SEARCH_LIMITS` -/
def maxLength : Nat := 2000
def maxTerms : Nat := 64
def maxDepth : Nat := 8
def maxValueLength : Nat := 512

def GLOB_ANY : Char := '\u0000'

def GLOB_ONE : Char := '\u0001'

/-! ## Tokens -/

structure Word where
  position : Nat
  raw : List Char
  value : List Char
  quoted : Bool
  negated : Bool
  deriving DecidableEq

inductive Token
  | opening (position : Nat)
  | closing (position : Nat)
  | word (word : Word)
  deriving DecidableEq

def Token.position : Token → Nat
  | .opening position | .closing position => position
  | .word w => w.position

def isNameStart (c : Char) : Bool :=
  ('A' ≤ c && c ≤ 'Z') || ('a' ≤ c && c ≤ 'z') || c = '_'

def isNameChar (c : Char) : Bool := isNameStart c || isDigit c || c = '.'

/-- `FIELD_PREFIX`: the name, and what stands behind the colon. -/
def fieldPrefix (raw : List Char) : Option (List Char × List Char) :=
  if raw.head?.any isNameStart then
    match raw.dropWhile isNameChar with
    | ':' :: rest => some (raw.takeWhile isNameChar, rest)
    | _ => none
  else none

/-- A word that is being read. -/
structure Pending where
  position : Nat
  negated : Bool
  raw : List Char
  value : List Char

/-- Between the tokens and inside a word, or inside the quotes that began at `start`. -/
inductive Mode
  | plain (pending : Option Pending)
  | quoted (pending : Pending) (start : Nat)

/-- The token of a word that ends here; a dash with nothing behind it stands for itself. -/
def Pending.token (p : Pending) : Token :=
  if p.raw = [] then .word ⟨p.position, ['-'], ['-'], false, false⟩
  else .word ⟨p.position, p.raw, p.value, false, p.negated⟩

def flush (pending : Option Pending) (tokens : List Token) : List Token :=
  match pending with
  | none => tokens
  | some p => p.token :: tokens

/-- What a character of a plain word adds to its value. -/
def globChar (c : Char) : Char := if c = '*' then GLOB_ANY else if c = '?' then GLOB_ONE else c

def Pending.add (p : Pending) (raw value : List Char) : Pending :=
  { p with raw := p.raw ++ raw, value := p.value ++ value }

/-- `raw` may be continued with a quote when it is empty, or a field prefix and no more. -/
def mayQuote (raw : List Char) : Bool :=
  raw = [] || (fieldPrefix raw).isSome && raw.getLast? = some ':'

abbrev Tokenize : Type := Except SearchSyntaxError (List Token)

def syntaxError {α : Type} (message : List Char) (position : Nat) : Except SearchSyntaxError α :=
  .error ⟨message, position⟩

/-- `index` is the position of the next character, in UTF-16 code units. -/
def tokenizeFrom : Mode → Nat → List Char → Tokenize
  | .quoted _ start, _, [] => syntaxError "Unterminated quoted value".toList start
  | .quoted p start, index, c :: rest =>
      if c = '\\' then
        match rest with
        | [] => syntaxError "Unterminated quoted value".toList start
        | next :: rest =>
            tokenizeFrom (.quoted (p.add [c, next] [next]) start)
              (index + 1 + utf16Length [next]) rest
      else if c = '"' then
        let p := p.add [c] []
        (tokenizeFrom (.plain none) (index + 1) rest).map
          (.word ⟨p.position, p.raw, p.value, true, p.negated⟩ :: ·)
      else tokenizeFrom (.quoted (p.add [c] [c]) start) (index + utf16Length [c]) rest
  | .plain pending, _, [] => .ok (flush pending [])
  | .plain pending, index, c :: rest =>
      if isWhiteSpace c then
        (tokenizeFrom (.plain none) (index + 1) rest).map (flush pending)
      else if c = '(' then
        (tokenizeFrom (.plain none) (index + 1) rest).map (flush pending <| .opening index :: ·)
      else if c = ')' then
        (tokenizeFrom (.plain none) (index + 1) rest).map (flush pending <| .closing index :: ·)
      else if pending.isNone && c = '-' && rest.head?.any (fun next => !isWhiteSpace next) then
        tokenizeFrom (.plain (some ⟨index, true, [], []⟩)) (index + 1) rest
      else
        let p := pending.getD ⟨index, false, [], []⟩
        if c = '"' then
          if mayQuote p.raw then tokenizeFrom (.quoted (p.add [c] []) index) (index + 1) rest
          else syntaxError "A quote can only start a value, as in path:\"/a b\"".toList index
        else if c = '\\' then
          match rest with
          | [] => syntaxError "A backslash must escape a character".toList index
          | next :: rest =>
              tokenizeFrom (.plain (some (p.add [c, next] [next])))
                (index + 1 + utf16Length [next]) rest
        else
          tokenizeFrom (.plain (some (p.add [c] [globChar c]))) (index + utf16Length [c]) rest

def tokenize (input : List Char) : Tokenize := tokenizeFrom (.plain none) 0 input

/-! ## Values -/

def isNumeric (value : List Char) : Bool :=
  let unsigned := match value with
    | '-' :: rest => rest
    | _ => value
  let ints := unsigned.takeWhile isDigit
  !ints.isEmpty &&
    match unsigned.dropWhile isDigit with
    | [] => true
    | '.' :: fraction => !fraction.isEmpty && fraction.all isDigit
    | _ => false

def numericValue {ρ : Type} (field : SearchField ρ) (value : List Char) (position : Nat) :
    Except SearchSyntaxError (List Char) :=
  if isNumeric value then .ok value
  else syntaxError (field.name ++ " must be a number".toList) position

/-- `COMPARISON` -/
def comparisonPrefix : List Char → Option (Comparison × List Char)
  | '>' :: '=' :: c :: rest => some (.ge, c :: rest)
  | '<' :: '=' :: c :: rest => some (.le, c :: rest)
  | '>' :: c :: rest => some (.gt, c :: rest)
  | '<' :: c :: rest => some (.lt, c :: rest)
  | _ => none

/-- `RANGE` -/
def rangeEnds (value : List Char) : Option (List Char × List Char) :=
  let low := value.takeWhile (· ≠ '.')
  match value.dropWhile (· ≠ '.') with
  | '.' :: '.' :: high =>
      if !low.isEmpty && !high.isEmpty && !high.contains '.' then some (low, high) else none
  | _ => none

/-- `Number(value)` of a numeric text, which may be too large for a double. -/
def numberValue (value : List Char) : WithBot (WithTop ℚ) :=
  match toNumber value with
  | some q => ((q : WithTop ℚ) : WithBot (WithTop ℚ))
  | none => if value.head? = some '-' then ⊥ else ((⊤ : WithTop ℚ) : WithBot (WithTop ℚ))

/-- `/^[1-5]xx$/iu`: the digit. -/
def statusClass : List Char → Option Char
  | [d, x, y] =>
      if '1' ≤ d ∧ d ≤ '5' ∧ (x = 'x' ∨ x = 'X') ∧ (y = 'x' ∨ y = 'X') then some d else none
  | _ => none

def isOctet (text : List Char) : Bool :=
  text.length ≤ 3 && (digitsValue 10 text).any (· ≤ 255)

/-- How many octets of the network count. -/
def keptOctets (bits : List Char) : Option Nat :=
  if bits = "8".toList then some 1
  else if bits = "16".toList then some 2
  else if bits = "24".toList then some 3
  else if bits = "32".toList then some 4
  else none

def cidrError : List Char :=
  ("CIDR searches support IPv4 on /8, /16, /24 or /32. " ++
    "Use a wildcard such as 10.0.* otherwise").toList

def cidrPattern (value : List Char) (position : Nat) : Except SearchSyntaxError (List Char) :=
  match value.splitOn '/' with
  | [address, bits] =>
      let octets := address.splitOn '.'
      match keptOctets bits with
      | some keep =>
          if octets.length = 4 && octets.all isOctet then
            let kept := ['.'].intercalate (octets.take keep)
            .ok (if keep = 4 then kept else kept ++ ['.', GLOB_ANY])
          else syntaxError cidrError position
      | none => syntaxError cidrError position
  | _ => syntaxError cidrError position

/-- `replaceAll(GLOB_ANY, "*").replaceAll(GLOB_ONE, "?")` -/
def unglob (value : List Char) : List Char :=
  value.map fun c => if c = GLOB_ANY then '*' else if c = GLOB_ONE then '?' else c

def hasGlob (value : List Char) : Bool := value.contains GLOB_ANY || value.contains GLOB_ONE

def SearchFieldType.isNumeric (type : SearchFieldType) : Bool :=
  type = .number || type = .status

/-- The part of `parseValue` for an unquoted value of a field of numbers. -/
def parseNumber {ρ : Type} (field : SearchField ρ) (value : List Char) (position : Nat) :
    Except SearchSyntaxError ValueMatch :=
  match comparisonPrefix value with
  | some (comparison, rest) => return .compare comparison (← numericValue field rest position)
  | none =>
      match rangeEnds value with
      | some (low, high) => do
          let low ← numericValue field low position
          let high ← numericValue field high position
          if numberValue high < numberValue low then
            syntaxError ("The range for ".toList ++ field.name ++ " runs backwards".toList) position
          else return .range low high
      | none =>
          match if field.type = .status then statusClass value else none with
          | some digit => return .range [digit, '0', '0'] [digit, '9', '9']
          | none => return .equals (← numericValue field value position) false

def parseValue {ρ : Type} (cases : CaseTable) (field : SearchField ρ) (value : List Char)
    (quoted : Bool) (position : Nat) : Except SearchSyntaxError ValueMatch :=
  if maxValueLength < utf16Length value then
    syntaxError "Values can be at most 512 characters".toList position
  else if !quoted && value = [GLOB_ANY] then .ok .exists
  else if !quoted && field.type.isNumeric then parseNumber field value position
  else if field.type = .ip && !quoted && value.contains '/' then
    return .equals (← cidrPattern value position) true
  else
    let glob := !quoted && hasGlob value
    -- A wildcard in a field of numbers is unquoted and so was refused above.
    if field.type.isNumeric then return .equals (← numericValue field value position) false
    else
      let literal := if glob then value else unglob value
      .ok (.equals (if field.type = .country then cases.toUpperCase literal else literal) glob)

/-! ## The parser -/

inductive ParserStop
  | syntaxError (error : SearchSyntaxError)
  | outOfFuel
  deriving DecidableEq

abbrev Parse (α : Type) : Type := Except ParserStop α

def stop {α : Type} (message : String) (position : Nat) : Parse α :=
  .error (.syntaxError ⟨message.toList, position⟩)

/-- `tokens` are those from the index on. -/
structure ParserState where
  tokens : List Token
  terms : Nat
  warnings : List (List Char)

/-- `lastPosition` is the position of the last of all tokens. -/
structure ParserConfig (ρ : Type) where
  schema : SearchSchema ρ
  cases : CaseTable
  lastPosition : Nat

inductive Operator
  | and
  | or
  | not
  deriving DecidableEq

def Operator.text : Operator → List Char
  | .and => "AND".toList
  | .or => "OR".toList
  | .not => "NOT".toList

section Parser

variable {ρ : Type} (config : ParserConfig ρ)

def isOperator (token : Token) (operator : Operator) : Bool :=
  match token with
  | .word w => !w.quoted && !w.negated && config.cases.toUpperCase w.raw = operator.text
  | _ => false

/-- A dash that stands for itself. -/
def isDash (token : Token) : Bool :=
  match token with
  | .word w => w.raw = ['-'] && !w.quoted
  | _ => false

def startsTerm (tokens : List Token) : Bool :=
  match tokens with
  | [] => false
  | .closing _ :: _ => false
  | token :: _ => !isOperator config token .and && !isOperator config token .or

/-- The check of `enter`; the new depth is one more. -/
def enter (depth position : Nat) : Parse Nat :=
  if maxDepth ≤ depth then stop "Queries can nest at most 8 groups deep" position
  else .ok (depth + 1)

def countTerm (s : ParserState) (position : Nat) : Parse ParserState :=
  if maxTerms < s.terms + 1 then stop "Queries can have at most 64 terms" position
  else .ok { s with terms := s.terms + 1 }

def DYNAMIC_FIELD : SearchField ρ := ⟨['*'], [], .text, none, none⟩

def resolveField (name : List Char) : Option (SearchField ρ × Option (List Char)) :=
  let lower := config.cases.toLowerCase name
  match config.schema.fields.find? fun candidate =>
      candidate.name = lower || candidate.aliases.contains lower with
  | some field => some (field, none)
  | none => if config.schema.dynamic.isSome then some (DYNAMIC_FIELD, some name) else none

mutual

def withPath (path : List Char) : SearchNode ρ → SearchNode ρ
  | .field field _ valueMatch => .field field (some path) valueMatch
  | .not child => .not (withPath path child)
  | .and children => .and (withPathAll path children)
  | .or children => .or (withPathAll path children)
  | .text value => .text value

def withPathAll (path : List Char) : List (SearchNode ρ) → List (SearchNode ρ)
  | [] => []
  | child :: children => withPath path child :: withPathAll path children

end

def withPath? (path : Option (List Char)) (node : SearchNode ρ) : SearchNode ρ :=
  match path with
  | none => node
  | some path => withPath path node

/-- A term of a field. -/
def fieldTerm (field : SearchField ρ) (path : Option (List Char)) (w : Word) (value : List Char)
    (position : Nat) (s : ParserState) : Parse (SearchNode ρ × ParserState) := do
  let s ← countTerm s w.position
  match parseValue config.cases field value w.quoted position with
  | .error error => .error (.syntaxError error)
  | .ok valueMatch => return (.field field path valueMatch, s)

/-- A term that is searched as text. -/
def textTerm (w : Word) (s : ParserState) : Parse (SearchNode ρ × ParserState) := do
  let s ← countTerm s w.position
  let text := unglob w.value
  if maxValueLength < utf16Length text then
    stop "Values can be at most 512 characters" w.position
  else return (.text text, s)

/-- What stands behind the field's name is another colon, or the rest of a URL. -/
def notAField (rest : List Char) : Bool :=
  rest.head? = some ':' || "//".toList.isPrefixOf rest

def warning (name raw : List Char) : List Char :=
  '"' :: name ++ "\" is not a field here, so \"".toList ++ raw ++ "\" was searched as text".toList

/-- The child alone, or a node over several. -/
def collapse (node : List (SearchNode ρ) → SearchNode ρ) : List (SearchNode ρ) → SearchNode ρ
  | [child] => child
  | children => node children

/-- `this.tokens[this.index++]` is the closing parenthesis. -/
def expectClosing (position : Nat) (s : ParserState) : Parse ParserState :=
  match s.tokens with
  | .closing _ :: tokens => .ok { s with tokens }
  | _ => stop "Missing closing parenthesis" position

mutual

def parseOr : Nat → Nat → Option (SearchField ρ) → ParserState → Parse (SearchNode ρ × ParserState)
  | 0, _, _, _ => .error .outOfFuel
  | fuel + 1, depth, bound, s => do
      let (first, s) ← parseAnd fuel depth bound s
      let (others, s) ← parseOrRest fuel depth bound s
      return (collapse .or (first :: others), s)

/-- The loop of `parseOr`: the other children. -/
def parseOrRest : Nat → Nat → Option (SearchField ρ) → ParserState →
    Parse (List (SearchNode ρ) × ParserState)
  | 0, _, _, _ => .error .outOfFuel
  | fuel + 1, depth, bound, s =>
      match s.tokens with
      | [] => .ok ([], s)
      | token :: tokens =>
          if isOperator config token .or then
            if startsTerm config tokens then do
              let (child, s) ← parseAnd fuel depth bound { s with tokens }
              let (others, s) ← parseOrRest fuel depth bound s
              return (child :: others, s)
            else stop "OR must be followed by a term" token.position
          else .ok ([], s)

def parseAnd : Nat → Nat → Option (SearchField ρ) → ParserState →
    Parse (SearchNode ρ × ParserState)
  | 0, _, _, _ => .error .outOfFuel
  | fuel + 1, depth, bound, s => do
      let (first, s) ← parseUnary fuel depth bound s
      let (others, s) ← parseAndRest fuel depth bound s
      return (collapse .and (first :: others), s)

/-- The loop of `parseAnd`: the other children. -/
def parseAndRest : Nat → Nat → Option (SearchField ρ) → ParserState →
    Parse (List (SearchNode ρ) × ParserState)
  | 0, _, _, _ => .error .outOfFuel
  | fuel + 1, depth, bound, s =>
      match s.tokens with
      | [] => .ok ([], s)
      | token :: tokens =>
          if isOperator config token .and then
            if startsTerm config tokens then do
              let (child, s) ← parseUnary fuel depth bound { s with tokens }
              let (others, s) ← parseAndRest fuel depth bound s
              return (child :: others, s)
            else stop "AND must be followed by a term" token.position
          else if startsTerm config s.tokens then do
            let (child, s) ← parseUnary fuel depth bound s
            let (others, s) ← parseAndRest fuel depth bound s
            return (child :: others, s)
          else .ok ([], s)

def parseUnary : Nat → Nat → Option (SearchField ρ) → ParserState →
    Parse (SearchNode ρ × ParserState)
  | 0, _, _, _ => .error .outOfFuel
  | fuel + 1, depth, bound, s =>
      match s.tokens with
      | [] => stop "Expected a term" config.lastPosition
      | token :: tokens =>
          if isOperator config token .not || isDash token then
            if startsTerm config tokens then do
              let (child, s) ← parseUnary fuel depth bound { s with tokens }
              return (.not child, s)
            else stop "NOT must be followed by a term" token.position
          else parsePrimary fuel depth bound token { s with tokens }

/-- The token has been taken off already. -/
def parsePrimary : Nat → Nat → Option (SearchField ρ) → Token → ParserState →
    Parse (SearchNode ρ × ParserState)
  | 0, _, _, _, _ => .error .outOfFuel
  | fuel + 1, depth, bound, token, s =>
      match token with
      | .opening position => do
          let (inner, s) ← parseOr fuel (← enter depth position) bound s
          return (inner, ← expectClosing position s)
      | .closing position => stop "Unmatched closing parenthesis" position
      | .word w => do
          let (node, s) ← parseWord fuel depth bound w s
          return (if w.negated then .not node else node, s)

def parseWord : Nat → Nat → Option (SearchField ρ) → Word → ParserState →
    Parse (SearchNode ρ × ParserState)
  | 0, _, _, _, _ => .error .outOfFuel
  | fuel + 1, depth, bound, w, s =>
      match bound with
      | some field => fieldTerm config field none w w.value w.position s
      | none =>
          match fieldPrefix w.raw with
          | none => textTerm w s
          | some (name, rest) =>
              if notAField rest then textTerm w s
              else
                match resolveField config name with
                | none => textTerm w { s with warnings := s.warnings ++ [warning name w.raw] }
                | some (field, path) =>
                    let length := name.length + 1
                    let valueStart := w.position + (if w.negated then 1 else 0) + length
                    if rest = [] then
                      match s.tokens with
                      | .opening position :: tokens => do
                          let (inner, s) ← parseOr fuel (← enter depth position) (some field)
                            { s with tokens }
                          return (withPath? path inner, ← expectClosing position s)
                      | _ =>
                          if w.quoted then
                            fieldTerm config field path w (w.value.drop length) valueStart s
                          else
                            .error (.syntaxError
                              ⟨"Missing value for ".toList ++ name, valueStart⟩)
                    else fieldTerm config field path w (w.value.drop length) valueStart s

end

def parse (fuel : Nat) (tokens : List Token) : Parse (Option (SearchNode ρ) × List (List Char)) :=
  if tokens = [] then .ok (none, [])
  else do
    let (node, s) ← parseOr config fuel 0 none ⟨tokens, 0, []⟩
    match s.tokens with
    | [] => return (some node, s.warnings)
    | .closing position :: _ => stop "Unmatched closing parenthesis" position
    | token :: _ => stop "Unexpected input" token.position

end Parser

structure ParsedSearch (ρ : Type) where
  node : Option (SearchNode ρ)
  warnings : List (List Char)

/-- `[...new Set(texts)]` -/
def distinctTexts : List (List Char) → List (List Char)
  | [] => []
  | text :: texts => text :: (distinctTexts texts).filter (· ≠ text)

/-- The fuel that is enough for the tokens. -/
def parserFuel (tokens : List Token) : Nat := 6 * tokens.length + 5

def parseSearch {ρ : Type} (cases : CaseTable) (schema : SearchSchema ρ) (input : List Char) :
    Parse (ParsedSearch ρ) :=
  let source := input.filter fun c => c ≠ GLOB_ANY && c ≠ GLOB_ONE
  if maxLength < utf16Length source then stop "Queries can be at most 2000 characters" maxLength
  else
    match tokenize source with
    | .error error => .error (.syntaxError error)
    | .ok tokens => do
        let config := ⟨schema, cases, (tokens.getLast?.map Token.position).getD 0⟩
        let (node, warnings) ← parse config (parserFuel tokens) tokens
        return ⟨node, distinctTexts warnings⟩

/-! ## Evaluation -/

/-- The pattern of `globRegExp`; every other character is escaped. -/
def globItem (c : Char) : Item Char :=
  if c = GLOB_ANY then .any else if c = GLOB_ONE then .one else .literal c

/-- `globRegExp(value).test(text)`: the regular expression ignores case by simple folding. -/
def globTest (cases : CaseTable) (value text : List Char) : Bool :=
  Matches (fun p t => cases.fold p = cases.fold t) (value.map globItem) text

/-- What the code takes from the runtime. -/
structure SearchRuntime where
  cases : CaseTable
  stringify : JsValue → List Char

variable (runtime : SearchRuntime)

def stringValue (value : JsValue) : List Char :=
  match value with
  | .undefined | .null => []
  | .string text => text
  | .array _ | .object _ => runtime.stringify value
  | value => value.toText

/-- The number of a raw value, `none` when it is missing or not finite. -/
def finiteNumber (raw : JsValue) : Option ℚ :=
  match raw with
  | .undefined | .null | .string [] => none
  | raw => raw.toNumber

def Comparison.holds (comparison : Comparison) (x y : WithBot (WithTop ℚ)) : Bool :=
  match comparison with
  | .gt => y < x
  | .ge => y ≤ x
  | .lt => x < y
  | .le => x ≤ y

def extended (q : ℚ) : WithBot (WithTop ℚ) := ((q : WithTop ℚ) : WithBot (WithTop ℚ))

/-- `matchesValue` of a field of numbers. -/
def matchesNumber (raw : JsValue) (valueMatch : ValueMatch) : Bool :=
  match finiteNumber raw with
  | none => false
  | some number =>
      match valueMatch with
      | .exists => true
      | .range low high => numberValue low ≤ extended number && extended number ≤ numberValue high
      | .compare comparison value => comparison.holds (extended number) (numberValue value)
      | .equals value _ => extended number = numberValue value

def matchesText (raw : JsValue) (valueMatch : ValueMatch) : Bool :=
  let text := stringValue runtime raw
  match valueMatch with
  | .exists => text ≠ []
  | .equals value true => globTest runtime.cases value text
  | .equals value false => runtime.cases.toLowerCase text = runtime.cases.toLowerCase value
  | _ => false

def matchesValue {ρ : Type} (field : SearchField ρ) (raw : JsValue) (valueMatch : ValueMatch) :
    Bool :=
  if field.type.isNumeric then matchesNumber raw valueMatch
  else matchesText runtime raw valueMatch

variable {ρ : Type} (schema : SearchSchema ρ) (row : ρ)

/-- The value of a field's node on the row. -/
def rawValue (field : SearchField ρ) (path : Option (List Char)) : JsValue :=
  match path with
  | some path => (schema.dynamic.map fun dynamic => dynamic row path).getD .undefined
  | none => (field.get.map fun get => get row).getD .undefined

mutual

def evaluateNode : SearchNode ρ → Bool
  | .and children => evaluateEvery children
  | .or children => evaluateSome children
  | .not child => !evaluateNode child
  | .text value =>
      runtime.cases.toLowerCase value <:+:
        runtime.cases.toLowerCase ((schema.text.map fun text => text row).getD [])
  | .field field path valueMatch => matchesValue runtime field (rawValue schema row field path)
      valueMatch

def evaluateEvery : List (SearchNode ρ) → Bool
  | [] => true
  | child :: children => evaluateNode child && evaluateEvery children

def evaluateSome : List (SearchNode ρ) → Bool
  | [] => false
  | child :: children => evaluateNode child || evaluateSome children

end

def evaluateSearch (node : Option (SearchNode ρ)) : Bool :=
  match node with
  | none => true
  | some node => evaluateNode runtime schema row node

end BurrowGate.Search
