import BurrowGate.Lib.Lexer
import BurrowGate.Net.Ip

/-!
# `firewall-sync/nftables-adapter.ts`: the replace script

The script pastes the stored texts in; `parseNftScript` is the fragment of the
`nft -f` language it is written in. Blanks separate words, a command ends at a
newline or a semicolon, and an element is an address without a zone, optionally
followed by a slash and decimal digits.
-/

namespace BurrowGate.Firewall

open Js
open Net
open Lib.Lexer

def NFT_TABLE : List Char := "burrowgate".toList
def NFT_SET_V4 : List Char := "banned_ips".toList
def NFT_SET_V6 : List Char := "banned_ips_v6".toList

def flushLine (set : List Char) : List Char :=
  "flush set inet ".toList ++ NFT_TABLE ++ " ".toList ++ set

def addLine (set : List Char) (cidrs : List (List Char)) : List Char :=
  "add element inet ".toList ++ NFT_TABLE ++ " ".toList ++ set ++ " \x7b ".toList ++
    ", ".toList.intercalate cidrs ++ " \x7d".toList

def replaceLines (cidrsV4 cidrsV6 : List (List Char)) : List (List Char) :=
  flushLine NFT_SET_V4 :: (if cidrsV4 = [] then [] else [addLine NFT_SET_V4 cidrsV4]) ++
    flushLine NFT_SET_V6 :: (if cidrsV6 = [] then [] else [addLine NFT_SET_V6 cidrsV6])

def buildNftReplaceScript (cidrsV4 cidrsV6 : List (List Char)) : List Char :=
  ['\n'].intercalate (replaceLines cidrsV4 cidrsV6) ++ ['\n']

/-! ## The language -/

def isNftBlank (c : Char) : Bool := c = ' ' || c = '\t'

def isNftMark (c : Char) : Bool :=
  c = '{' || c = '}' || c = ',' || c = '/' || c = ';' || c = '\n'

abbrev NftToken := Token Char

def nftTokens (text : List Char) : List NftToken := lex isNftBlank isNftMark text

def isSeparator (t : NftToken) : Bool := t = .mark '\n' || t = .mark ';'

structure NftElement where
  address : List Char
  length : Option (List Char)

inductive NftCommand
  | flushSet (table set : List Char)
  | addElement (table set : List Char) (elements : List NftElement)

def plainAddress (a : List Char) : Bool := (isIP a).isSome && !a.contains '%'

def plainLength (p : List Char) : Bool := p ≠ [] && p.all isDigit

def parseElement : List NftToken → Option NftElement
  | [.word a] => if plainAddress a then some { address := a, length := none } else none
  | [.word a, .mark '/', .word p] =>
      if plainAddress a && plainLength p then some { address := a, length := some p } else none
  | _ => none

def parseElements (ts : List NftToken) : Option (List NftElement) :=
  parseAll parseElement (ts.splitOn (.mark ','))

def parseNftCommand : List NftToken → Option NftCommand
  | [.word flush, .word set, .word inet, .word table, .word name] =>
      if flush = "flush".toList ∧ set = "set".toList ∧ inet = "inet".toList then
        some (.flushSet table name)
      else none
  | .word add :: .word element :: .word inet :: .word table :: .word name :: .mark '{' :: rest =>
      if add = "add".toList ∧ element = "element".toList ∧ inet = "inet".toList ∧
          rest.getLast? = some (.mark '}') then
        (parseElements rest.dropLast).map (.addElement table name)
      else none
  | _ => none

/-- The commands of a script, empty lines left out. -/
def commandTokens (ts : List NftToken) : List (List NftToken) :=
  (ts.splitOnP isSeparator).filter (· ≠ [])

def parseNftScript (script : List Char) : Option (List NftCommand) :=
  parseAll parseNftCommand (commandTokens (nftTokens script))

/-! ## What the script is to say -/

/-- Two flushes and, for each set that gets elements, one addition. -/
def replaceCommands (v4 v6 : List NftElement) : List NftCommand :=
  NftCommand.flushSet NFT_TABLE NFT_SET_V4 ::
      (if v4 = [] then [] else [NftCommand.addElement NFT_TABLE NFT_SET_V4 v4]) ++
    NftCommand.flushSet NFT_TABLE NFT_SET_V6 ::
      (if v6 = [] then [] else [NftCommand.addElement NFT_TABLE NFT_SET_V6 v6])

/-- Every accepted text becomes one element of its family's set, and the script nothing more. -/
def Contained (cidrs : List (List Char)) : Prop :=
  ∃ v4 v6, parseNftScript (buildNftReplaceScript (splitCidrsByFamily cidrs).1
      (splitCidrsByFamily cidrs).2) = some (replaceCommands v4 v6) ∧
    v4.length = (splitCidrsByFamily cidrs).1.length ∧
    v6.length = (splitCidrsByFamily cidrs).2.length ∧
    (∀ e ∈ v4, isIP e.address = some .v4) ∧ ∀ e ∈ v6, isIP e.address = some .v6

/-- Apart from spaces and tabs around its parts, an address without a zone, alone or followed by
one slash and decimal digits. -/
def isPlainCidr (cidr : List Char) : Bool :=
  match cidr.splitOn '/' with
  | [a] => plainAddress (strip isNftBlank a)
  | [a, p] => plainAddress (strip isNftBlank a) && plainLength (strip isNftBlank p)
  | _ => false

example : (parseNftScript (buildNftReplaceScript ["1.2.3.4/24".toList] [])).isSome = true ∧
    parseNftScript (buildNftReplaceScript ["1.2.3.4/0x18".toList] []) = none ∧
    (parseCidr "1.2.3.4/0x18".toList).isSome = true := by
  refine ⟨by decide +kernel, ?_, by decide +kernel⟩
  rw [← Option.isNone_iff_eq_none]
  decide +kernel

end BurrowGate.Firewall
