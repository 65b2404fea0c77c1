import BurrowGate.Js.Value
import BurrowGate.Lib.BoolTree
import Mathlib.Data.List.Infix
import Mathlib.Order.WithBot

/-!
# `stream-ruleset-format.ts` and `stream-ruleset-compiler.ts`

A document is checked and compiled to rules. The regular expression engine, the case tables
and the texts of numbers are parameters: nothing here depends on what they answer.
-/

namespace BurrowGate.Ruleset

open Js
open Lib

/-! ## The vocabulary -/

def STREAM_RULESET_SCHEMA_VERSION : List Char := "1".toList

inductive StreamRuleTransform
  | lowercase
  | uppercase
  | trim
  | collapseWhitespace
  deriving DecidableEq

inductive StreamRuleOperator
  | regex
  | contains
  | equals
  | startsWith
  | endsWith
  | exists
  | notEmpty
  | gt
  | gte
  | lt
  | lte
  deriving DecidableEq

inductive ManagedProtectionSeverity
  | low
  | medium
  | high
  | critical
  deriving DecidableEq

inductive StreamRuleLocation
  | connection
  | handshake
  | login
  deriving DecidableEq

def STREAM_RULE_TRANSFORMS : List (List Char × StreamRuleTransform) :=
  [("lowercase".toList, .lowercase), ("uppercase".toList, .uppercase), ("trim".toList, .trim),
    ("collapse-whitespace".toList, .collapseWhitespace)]

def STREAM_RULE_OPERATORS : List (List Char × StreamRuleOperator) :=
  [("regex".toList, .regex), ("contains".toList, .contains), ("equals".toList, .equals),
    ("starts-with".toList, .startsWith), ("ends-with".toList, .endsWith),
    ("exists".toList, .exists), ("not-empty".toList, .notEmpty), ("gt".toList, .gt),
    ("gte".toList, .gte), ("lt".toList, .lt), ("lte".toList, .lte)]

def STREAM_RULE_SEVERITIES : List (List Char × ManagedProtectionSeverity) :=
  [("low".toList, .low), ("medium".toList, .medium), ("high".toList, .high),
    ("critical".toList, .critical)]

def STREAM_RULE_LOCATIONS : List (List Char × StreamRuleLocation) :=
  [("connection".toList, .connection), ("handshake".toList, .handshake), ("login".toList, .login)]

/-- `set.has(value)`, with what the text stands for. -/
def vocabulary {α : Type} (words : List (List Char × α)) (value : JsValue) : Option α :=
  match value with
  | .string text => (words.find? (·.1 = text)).map (·.2)
  | _ => none

/-- `STREAM_RULESET_LIMITS` -/
def maxRules : Nat := 500
def maxConditionNodes : Nat := 64
def maxConditionDepth : Nat := 8
def maxPatternLength : Nat := 1000
def maxValueLength : Nat := 2000
def maxTransforms : Nat := 8
def maxFieldLength : Nat := 4096
def decodeTimeoutMsMin : Int := 100
def decodeTimeoutMsMax : Int := 30000
def decodeTimeoutMsDefault : Int := 3000
def decodeMaxBytesMin : Int := 64
def decodeMaxBytesMax : Int := 65536
def decodeMaxBytesDefault : Int := 2048

def STREAM_ALLOWED_REGEX_FLAGS : List Char := ['i', 'm', 's', 'u']

def GENERIC_STREAM_FIELDS : List (List Char) :=
  ["connection.protocol", "connection.attempts_60s", "connection.disconnects_60s",
    "connection.avg_session_ms_60s", "connection.upstream_failures_60s",
    "connection.bytes_per_second", "connection.packets_per_second",
    "connection.zero_byte_disconnect"].map String.toList

def MINECRAFT_JAVA_FIELDS : List (List Char) :=
  GENERIC_STREAM_FIELDS ++
    ["handshake_valid", "protocol_version", "server_address", "server_address_length",
      "next_state", "username", "username_length"].map String.toList

/-- What an object literal inherits: reading one of these names yields no set of fields. -/
def OBJECT_PROTOTYPE : List (List Char) :=
  ["constructor", "hasOwnProperty", "isPrototypeOf", "propertyIsEnumerable", "toLocaleString",
    "toString", "valueOf", "__defineGetter__", "__defineSetter__", "__lookupGetter__",
    "__lookupSetter__", "__proto__"].map String.toList

/-- `STREAM_PROTOCOL_FIELDS[protocol]` -/
inductive ProtocolFields
  | unknown
  | inherited
  | known (fields : List (List Char))

def STREAM_PROTOCOL_FIELDS (protocol : List Char) : ProtocolFields :=
  if protocol = "generic".toList then .known GENERIC_STREAM_FIELDS
  else if protocol = "minecraft-java".toList then .known MINECRAFT_JAVA_FIELDS
  else if OBJECT_PROTOTYPE.contains protocol then .inherited
  else .unknown

/-! ## Built-ins -/

/-- A number that is not `NaN`. -/
abbrev JsNumber : Type := WithBot (WithTop ℚ)

structure RegExp where
  source : List Char
  flags : List Char
  deriving DecidableEq

/-- `regExpError` is the message of what `new RegExp` throws, `number` is `Number(text)`. -/
structure Builtins where
  regExpError : RegExp → Option (List Char)
  test : RegExp → List Char → Bool
  toLowerCase : List Char → List Char
  toUpperCase : List Char → List Char
  number : List Char → Option JsNumber
  numberText : ℚ → List Char

/-- `value.slice(0, maximum)`; half of a surrogate pair is dropped. -/
def bounded : List Char → Nat → List Char
  | [], _ => []
  | c :: cs, maximum =>
      if utf16Length [c] ≤ maximum then c :: bounded cs (maximum - utf16Length [c]) else []

/-- `value.replace(/\s+/gu, " ")` -/
def collapseWhitespace : List Char → List Char
  | [] => []
  | c :: cs =>
      if isWhiteSpace c then
        match cs with
        | [] => [' ']
        | next :: _ =>
            if isWhiteSpace next then collapseWhitespace cs else ' ' :: collapseWhitespace cs
      else c :: collapseWhitespace cs

/-! ## Compiled rules -/

structure CompiledLeaf where
  field : List Char
  transforms : List StreamRuleTransform
  operator : StreamRuleOperator
  regex : Option RegExp
  value : Option (List Char)
  caseInsensitive : Bool
  negate : Bool

abbrev CompiledCondition : Type := BoolTree CompiledLeaf

structure StreamProtectionMatch where
  ruleId : List Char
  rulesetId : List Char
  title : List Char
  category : List Char
  severity : ManagedProtectionSeverity
  location : StreamRuleLocation
  deriving DecidableEq

structure CompiledRule where
  «match» : StreamProtectionMatch
  condition : CompiledCondition

structure StreamDecode where
  timeoutMs : Int
  maxBytes : Int

structure StreamRuleSet where
  id : List Char
  title : List Char
  version : List Char
  description : List Char
  protocol : List Char
  decode : StreamDecode
  compiledRules : List CompiledRule

/-! ## Evaluation -/

inductive StreamFieldValue
  | string (text : List Char)
  | number (value : ℚ)
  | boolean (b : Bool)

/-- `none` is a field that has not been decoded. -/
abbrev StreamRuleSetContext : Type := List Char → Option StreamFieldValue

section Evaluation

variable (js : Builtins)

def applyTransform (value : List Char) : StreamRuleTransform → List Char
  | .lowercase => js.toLowerCase value
  | .uppercase => js.toUpperCase value
  | .trim => trim value
  | .collapseWhitespace => collapseWhitespace value

def stringifyFieldValue : Option StreamFieldValue → List Char
  | none => []
  | some (.boolean b) => if b then "true".toList else "false".toList
  | some (.string text) => text
  | some (.number value) => js.numberText value

def resolveValue (leaf : CompiledLeaf) (fields : StreamRuleSetContext) : List Char :=
  leaf.transforms.foldl (applyTransform js)
    (bounded (stringifyFieldValue js (fields leaf.field)) maxFieldLength)

/-- The comparison operators; a value that is not a number compares as false. -/
def compareNumbers (operator : StreamRuleOperator) (value : List Char)
    (comparand : List Char) : Bool :=
  match js.number value, js.number comparand with
  | some numericValue, some comparand =>
      match operator with
      | .gt => comparand < numericValue
      | .gte => comparand ≤ numericValue
      | .lt => numericValue < comparand
      | _ => numericValue ≤ comparand
  | _, _ => false

/-- The switch over the operator. -/
def operatorResult (leaf : CompiledLeaf) (value : List Char) : Bool :=
  let comparand := leaf.value.getD []
  let fold (text : List Char) := if leaf.caseInsensitive then js.toLowerCase text else text
  match leaf.operator with
  | .regex => leaf.regex.any fun regex => js.test regex value
  | .notEmpty => 0 < value.length
  | .contains => fold comparand <:+: fold value
  | .equals => fold value = fold comparand
  | .startsWith => (fold comparand).isPrefixOf (fold value)
  | .endsWith => (fold comparand).isSuffixOf (fold value)
  | .gt | .gte | .lt | .lte => compareNumbers js leaf.operator value comparand
  | .exists => false

def evaluateLeaf (leaf : CompiledLeaf) (fields : StreamRuleSetContext) : Bool :=
  let present := (fields leaf.field).isSome
  if leaf.operator = .exists then if leaf.negate then !present else present
  else if !present then false
  else
    let result := operatorResult js leaf (resolveValue js leaf fields)
    if leaf.negate then !result else result

/-- The quantifiers `every` and `some` and the negation are those of the tree. -/
def evaluateCondition (node : CompiledCondition) (fields : StreamRuleSetContext) : Bool :=
  node.eval fun leaf => evaluateLeaf js leaf fields

def StreamRuleSet.inspect (ruleSet : StreamRuleSet) (fields : StreamRuleSetContext) :
    List StreamProtectionMatch :=
  (ruleSet.compiledRules.filter fun rule => evaluateCondition js rule.condition fields).map
    (·.match)

end Evaluation

/-! ## Compilation -/

/-- `typeError` is what the engine throws where the field sets are not what the code expects. -/
inductive CompileError
  | validation (message path : List Char)
  | typeError

abbrev Compile (α : Type) : Type := Except CompileError α

def fail {α : Type} (message : String) (path : List Char) : Compile α :=
  .error (.validation message.toList path)

/-- A message with a value in its middle. -/
def failWith {α : Type} (before : String) (value : List Char) (after : String)
    (path : List Char) : Compile α :=
  .error (.validation (before.toList ++ value ++ after.toList) path)

def member (path : List Char) (key : String) : List Char := path ++ '.' :: key.toList

def element (path : List Char) (index : Nat) : List Char :=
  path ++ '[' :: Nat.toDigits 10 index ++ [']']

/-- `isObject(value)` -/
def asObject : JsValue → Option Entries
  | .object entries => some entries
  | _ => none

/-- `key in object` -/
def hasKey (entries : Entries) (key : String) : Bool := entries.any (·.1 = key.toList)

def getKey (entries : Entries) (key : String) : JsValue := entries.get key.toList

def isUndefined : JsValue → Bool
  | .undefined => true
  | _ => false

def requireString (value : JsValue) (path : List Char) (max : Nat) (allowEmpty : Bool) :
    Compile (List Char) :=
  match value with
  | .string text =>
      if !allowEmpty && trim text = [] then fail "must not be empty" path
      else if max < utf16Length text then
        failWith "must be at most " (Nat.toDigits 10 max) " characters" path
      else .ok text
  | _ => fail "expected a string" path

/-- `value === undefined ? undefined : requireString(...)` -/
def optionalString (value : JsValue) (path : List Char) (max : Nat) (allowEmpty : Bool) :
    Compile (Option (List Char)) :=
  if isUndefined value then .ok none else (requireString value path max allowEmpty).map some

/-- The check of `enabled`. -/
def requireBooleanOrNothing (value : JsValue) (path : List Char) : Compile Unit :=
  match value with
  | .undefined | .boolean _ => .ok ()
  | _ => fail "enabled must be a boolean" path

def isLower (c : Char) : Bool := 'a' ≤ c && c ≤ 'z'

def isUpper (c : Char) : Bool := 'A' ≤ c && c ≤ 'Z'

/-- `^[first][rest]{0,127}$` -/
def matchesPattern (first rest : Char → Bool) : List Char → Bool
  | [] => false
  | c :: cs => first c && cs.length ≤ 127 && cs.all rest

/-- `RULESET_ID_PATTERN` -/
def isRulesetId (id : List Char) : Bool :=
  matchesPattern (fun c => isLower c || isDigit c)
    (fun c => isLower c || isDigit c || c = '.' || c = '_' || c = '-') id

/-- `RULE_ID_PATTERN` -/
def isRuleId (id : List Char) : Bool :=
  matchesPattern (fun c => isUpper c || isLower c || isDigit c)
    (fun c => isUpper c || isLower c || isDigit c || c = '.' || c = '_' || c = ':' || c = '-') id

section Compilation

variable (js : Builtins)

def compilePattern (pattern : List Char) (flags : Option (List Char)) (path : List Char) :
    Compile RegExp :=
  let normalizedFlags := flags.getD []
  if maxPatternLength < utf16Length pattern then
    failWith "pattern exceeds " (Nat.toDigits 10 maxPatternLength) " characters" path
  else
    match normalizedFlags.find? fun flag => !STREAM_ALLOWED_REGEX_FLAGS.contains flag with
    | some flag => failWith "regex flag \"" [flag] "\" is not allowed" path
    | none =>
        match js.regExpError ⟨pattern, normalizedFlags⟩ with
        | some message => failWith "invalid regex: " message "" path
        | none => .ok ⟨pattern, normalizedFlags⟩

/-- The entries from `index` on. -/
def compileTransformsFrom (path : List Char) : Nat → List JsValue →
    Compile (List StreamRuleTransform)
  | _, [] => .ok []
  | index, entry :: entries =>
      match vocabulary STREAM_RULE_TRANSFORMS entry with
      | none => failWith "unknown transform \"" entry.toText "\"" (element path index)
      | some transform => do
          let transforms ← compileTransformsFrom path (index + 1) entries
          return transform :: transforms

def compileTransforms (value : JsValue) (path : List Char) :
    Compile (List StreamRuleTransform) :=
  match value with
  | .undefined => .ok []
  | .array items =>
      if maxTransforms < items.length then
        failWith "at most " (Nat.toDigits 10 maxTransforms) " transforms allowed" path
      else compileTransformsFrom path 0 items
  | _ => fail "transforms must be an array" path

/-- `typeof field === "string" && knownFields?.has(field)` -/
def knownField (value : JsValue) (protocol : List Char) (path : List Char) :
    Compile (List Char) :=
  let error : Compile (List Char) :=
    .error (.validation ("unknown field \"".toList ++ value.toText ++
      "\" for protocol \"".toList ++ protocol ++ "\"".toList) (member path "field"))
  match value with
  | .string field =>
      match STREAM_PROTOCOL_FIELDS protocol with
      | .unknown => error
      | .inherited => .error .typeError
      | .known fields => if fields.contains field then .ok field else error
  | _ => error

def compileLeaf (input : Entries) (protocol : List Char) (path : List Char) :
    Compile CompiledLeaf := do
  let field ← knownField (getKey input "field") protocol path
  match vocabulary STREAM_RULE_OPERATORS (getKey input "operator") with
  | none =>
      failWith "unknown operator \"" (getKey input "operator").toText "\""
        (member path "operator")
  | some operator => do
      let transforms ← compileTransforms (getKey input "transforms") (member path "transforms")
      let caseInsensitive := match getKey input "caseInsensitive" with
        | .boolean b => b
        | _ => false
      let negate := match getKey input "negate" with
        | .boolean b => b
        | _ => false
      match operator with
      | .regex =>
          let flags ← optionalString (getKey input "flags") (member path "flags") 16 true
          let pattern ← requireString (getKey input "pattern") (member path "pattern") 4096 false
          let regex ← compilePattern js pattern flags (member path "pattern")
          return ⟨field, transforms, operator, some regex, none, caseInsensitive, negate⟩
      | .exists | .notEmpty =>
          return ⟨field, transforms, operator, none, none, caseInsensitive, negate⟩
      | _ =>
          let value ← requireString (getKey input "value") (member path "value") maxValueLength true
          return ⟨field, transforms, operator, none, some value, caseInsensitive, negate⟩

/-- `children.map(...)` from `index` on; the counter goes through the calls. -/
def compileChildren
    (compile : JsValue → List Char → Nat → Compile (CompiledCondition × Nat)) (path : List Char) :
    Nat → List JsValue → Nat → Compile (List CompiledCondition × Nat)
  | _, [], nodes => .ok ([], nodes)
  | index, child :: children, nodes => do
      let (compiled, nodes) ← compile child (element path index) nodes
      let (rest, nodes) ← compileChildren compile path (index + 1) children nodes
      return (compiled :: rest, nodes)

/-- `levels` is how many levels are left: `maxConditionDepth + 1 - depth`. -/
def compileCondition (protocol : List Char) : Nat → JsValue → List Char → Nat →
    Compile (CompiledCondition × Nat)
  | 0, _, path, _ =>
      failWith "condition nesting exceeds " (Nat.toDigits 10 maxConditionDepth) "" path
  | levels + 1, value, path, nodes =>
      match asObject value with
      | none => fail "condition must be an object" path
      | some input =>
          let nodes := nodes + 1
          if maxConditionNodes < nodes then
            failWith "rule has more than " (Nat.toDigits 10 maxConditionNodes) " condition nodes"
              path
          else if 1 < (["all", "any", "not"].filter (hasKey input)).length then
            fail "condition may use only one of all/any/not" path
          else if hasKey input "all" || hasKey input "any" then
            let key := if hasKey input "all" then "all" else "any"
            match getKey input key with
            | .array (child :: children) => do
                let (compiled, nodes) ← compileChildren (compileCondition protocol levels)
                  (member path key) 0 (child :: children) nodes
                return (if key = "all" then .all compiled else .any compiled, nodes)
            | _ => failWith "\"" key.toList "\" must be a non-empty array" (member path key)
          else if hasKey input "not" then do
            let (child, nodes) ←
              compileCondition protocol levels (getKey input "not") (member path "not") nodes
            return (.not child, nodes)
          else do
            let leaf ← compileLeaf js input protocol path
            return (.leaf leaf, nodes)

def compileRule (value : JsValue) (protocol rulesetId : List Char) (index : Nat)
    (seen : List (List Char)) : Compile (CompiledRule × List (List Char)) :=
  let path := element "rules".toList index
  match asObject value with
  | none => fail "rule must be an object" path
  | some input => do
      let id ← requireString (getKey input "id") (member path "id") 128 false
      if !isRuleId id then fail "rule id has invalid characters" (member path "id")
      else if seen.contains id then failWith "duplicate rule id \"" id "\"" (member path "id")
      else
        match vocabulary STREAM_RULE_SEVERITIES (getKey input "severity") with
        | none => fail "severity must be low, medium, high or critical" (member path "severity")
        | some severity =>
        match vocabulary STREAM_RULE_LOCATIONS (getKey input "location") with
        | none => fail "location must be connection, handshake or login" (member path "location")
        | some location => do
            requireBooleanOrNothing (getKey input "enabled") (member path "enabled")
            let title ← requireString (getKey input "title") (member path "title") 256 false
            let category ←
              requireString (getKey input "category") (member path "category") 128 false
            let (condition, _) ← compileCondition js protocol (maxConditionDepth + 1)
              (getKey input "match") (member path "match") 0
            let found := ⟨id, rulesetId, title, category, severity, location⟩
            return (⟨found, condition⟩, id :: seen)

/-- A number of `decode` with its default and its range. -/
def compileDecodeNumber (value : JsValue) (default min max : Int) (path : List Char) :
    Compile Int :=
  let number : Option ℚ := if isUndefined value then some default else value.toNumber
  match number with
  | some q =>
      if q.den = 1 ∧ min ≤ q.num ∧ q.num ≤ max then .ok q.num
      else
        .error (.validation ("must be an integer from ".toList ++ intText min ++ " to ".toList ++
          intText max) path)
  | none =>
      .error (.validation ("must be an integer from ".toList ++ intText min ++ " to ".toList ++
        intText max) path)
where
  intText (n : Int) : List Char := Nat.toDigits 10 n.toNat

def compileDecode (value : JsValue) (path : List Char) : Compile StreamDecode :=
  match value with
  | .undefined => .ok ⟨decodeTimeoutMsDefault, decodeMaxBytesDefault⟩
  | .object input => do
      let timeoutMs ← compileDecodeNumber (getKey input "timeoutMs") decodeTimeoutMsDefault
        decodeTimeoutMsMin decodeTimeoutMsMax (member path "timeoutMs")
      let maxBytes ← compileDecodeNumber (getKey input "maxBytes") decodeMaxBytesDefault
        decodeMaxBytesMin decodeMaxBytesMax (member path "maxBytes")
      return ⟨timeoutMs, maxBytes⟩
  | _ => fail "decode must be an object" path

/-- `isObject(rule) ? rule.enabled !== false : true` -/
def isEnabled (rule : JsValue) : Bool :=
  match asObject rule with
  | some input =>
      match getKey input "enabled" with
      | .boolean b => b
      | _ => true
  | none => true

/-- The rules from `index` on that are enabled. -/
def compileRules (protocol id : List Char) : Nat → List JsValue → List (List Char) →
    Compile (List CompiledRule)
  | _, [], _ => .ok []
  | index, rule :: rules, seen => do
      let (compiled, seen) ← compileRule js rule protocol id index seen
      let rest ← compileRules protocol id (index + 1) rules seen
      return if isEnabled rule then compiled :: rest else rest

def compileStreamRuleSet (value : JsValue) : Compile StreamRuleSet :=
  match asObject value with
  | none => fail "document must be an object" "$".toList
  | some document => do
      let schemaVersion ←
        requireString (getKey document "schemaVersion") "schemaVersion".toList 4096 false
      if schemaVersion ≠ STREAM_RULESET_SCHEMA_VERSION then
        .error (.validation ("unsupported schemaVersion \"".toList ++ schemaVersion ++
          "\" (expected \"".toList ++ STREAM_RULESET_SCHEMA_VERSION ++ "\")".toList)
          "schemaVersion".toList)
      else
        let id ← requireString (getKey document "id") "id".toList 128 false
        if !isRulesetId id then fail "ruleset id has invalid characters" "id".toList
        else
          let title ← requireString (getKey document "title") "title".toList 256 false
          let version ← requireString (getKey document "version") "version".toList 64 false
          let description ←
            optionalString (getKey document "description") "description".toList 4096 true
          let protocol ← requireString (getKey document "protocol") "protocol".toList 64 false
          match STREAM_PROTOCOL_FIELDS protocol with
          | .unknown =>
              failWith "unknown protocol \"" protocol "\" (no decoder registered for it)"
                "protocol".toList
          | _ =>
              let decode ← compileDecode (getKey document "decode") "decode".toList
              match getKey document "rules" with
              | .array rules =>
                  if rules.length = 0 then
                    fail "ruleset must contain at least one rule" "rules".toList
                  else if maxRules < rules.length then
                    failWith "ruleset has more than " (Nat.toDigits 10 maxRules) " rules"
                      "rules".toList
                  else
                    let compiledRules ← compileRules js protocol id 0 rules []
                    return {
                      id, title, version, description := description.getD [], protocol, decode
                      compiledRules }
              | _ => fail "rules must be an array" "rules".toList

end Compilation

end BurrowGate.Ruleset
