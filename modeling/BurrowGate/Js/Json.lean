import BurrowGate.Js.Text

/-!
# `JSON.stringify`

Objects of strings and natural numbers.
-/

namespace BurrowGate.Js

def escapeChar (c : Char) : List Char :=
  if c = '"' then ['\\', '"']
  else if c = '\\' then ['\\', '\\']
  else if c = '\u0008' then ['\\', 'b']
  else if c = '\u000c' then ['\\', 'f']
  else if c = '\n' then ['\\', 'n']
  else if c = '\r' then ['\\', 'r']
  else if c = '\t' then ['\\', 't']
  else if c.toNat < 0x20 then
    ['\\', 'u', '0', '0', Nat.digitChar (c.toNat / 16), Nat.digitChar (c.toNat % 16)]
  else [c]

def quoteJson (cs : List Char) : List Char := ['"'] ++ cs.flatMap escapeChar ++ ['"']

/-- A member's value, a string or a natural number below `1e21`. -/
inductive JsonScalar
  | string (text : List Char)
  | number (n : Nat)

def JsonScalar.stringify : JsonScalar → List Char
  | .string text => quoteJson text
  | .number n => Nat.toDigits 10 n

def stringifyMember (member : List Char × JsonScalar) : List Char :=
  quoteJson member.1 ++ [':'] ++ member.2.stringify

def stringifyObject (members : List (List Char × JsonScalar)) : List Char :=
  ['{'] ++ [','].intercalate (members.map stringifyMember) ++ ['}']

end BurrowGate.Js
