import BurrowGate.Js.Text

/-!
# JavaScript values that come out of `JSON.parse`

A number is kept with the text `String` makes of it; `finite` is its value, none
for `NaN` and the infinities.
-/

namespace BurrowGate.Js

inductive JsValue
  | undefined
  | null
  | boolean (b : Bool)
  | number (finite : Option ℚ) (text : List Char)
  | string (text : List Char)
  | array (items : List JsValue)
  | object (entries : List (List Char × JsValue))

namespace JsValue

/-- `String(value)` and `Number(value)` throw: an object has a `toString` of its own, which is no
function, and its `valueOf` does not give a primitive. An array converts its items. -/
def throws : JsValue → Bool
  | array items => anyThrows items
  | object entries => entries.any (·.1 = "toString".toList)
  | _ => false
where
  anyThrows : List JsValue → Bool
    | [] => false
    | item :: items => item.throws || anyThrows items

/-- `String(value)` where it does not throw; inside an array `null` and `undefined` are empty. -/
def toText : JsValue → List Char
  | undefined => "undefined".toList
  | null => "null".toList
  | boolean b => if b then "true".toList else "false".toList
  | number _ text => text
  | string text => text
  | array items => [','].intercalate (itemTexts items)
  | object _ => "[object Object]".toList
where
  itemTexts : List JsValue → List (List Char)
    | [] => []
    | undefined :: items => [] :: itemTexts items
    | null :: items => [] :: itemTexts items
    | item :: items => item.toText :: itemTexts items

/-- `value ?? fallback` -/
def orElse (v : JsValue) (fallback : JsValue) : JsValue :=
  match v with
  | undefined | null => fallback
  | v => v

/-- `Number(value)` where it does not throw. -/
def toNumber : JsValue → Option ℚ
  | undefined => none
  | null => some 0
  | boolean b => some (if b then 1 else 0)
  | number finite _ => finite
  | string text => Js.toNumber text
  | array items => Js.toNumber (array items).toText
  | object _ => none

/-- `typeof value === "string" ? value : undefined` -/
def string? : JsValue → Option (List Char)
  | string text => some text
  | _ => none

end JsValue

/-! ## Objects -/

abbrev Entries : Type := List (List Char × JsValue)

/-- `value && typeof value === "object" && !Array.isArray(value) ? value : {}` -/
def JsValue.entries : JsValue → Entries
  | .object entries => entries
  | _ => []

/-- `object[key]` -/
def Entries.get (entries : Entries) (key : List Char) : JsValue :=
  ((entries.find? (·.1 = key)).map (·.2)).getD .undefined

/-- `{ ...base, ...extra }`, up to the order of the keys. -/
def Entries.spread (base extra : Entries) : Entries :=
  base.filter (fun entry => !extra.any (·.1 = entry.1)) ++ extra

/-- `Number.isSafeInteger(x) ? x : undefined` -/
def safeInteger (x : Option ℚ) : Option Int :=
  x.bind fun q => if q.den = 1 ∧ -(2 ^ 53) < q ∧ q < 2 ^ 53 then some q.num else none

end BurrowGate.Js
