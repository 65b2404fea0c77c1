import BurrowGate.Js.Value
import BurrowGate.Net.Ip
import Mathlib.Algebra.Order.Monoid.Unbundled.WithTop

/-!
# `crowdsec-decision-store.ts`: one decision

What the Local API sends is untrusted; `materialize` keeps what can be enforced.
Times are milliseconds; an amount of them may overflow to an infinity. `Date.parse`
and `toUpperCase` are parameters.
-/

namespace BurrowGate.CrowdSec

open Js
open Net
open Lib.PrefixBlock

inductive Remediation
  | ban
  | captcha
  deriving DecidableEq

inductive Scope
  | ip
  | range
  | country
  | asn
  deriving DecidableEq

/-- A number that is not `NaN`. -/
abbrev Milliseconds := WithBot (WithTop ℚ)

abbrev finite (q : ℚ) : Milliseconds := (q : WithTop ℚ)

structure CrowdSecDecision where
  id : Int
  remediation : Remediation
  origin : List Char
  scenario : List Char
  scope : Scope
  value : List Char
  expiresAt : Option Milliseconds
  deriving DecidableEq

structure RawCrowdSecDecision where
  id : JsValue := .undefined
  type : JsValue := .undefined
  scope : JsValue := .undefined
  value : JsValue := .undefined
  duration : JsValue := .undefined
  untilDate : JsValue := .undefined
  origin : JsValue := .undefined
  scenario : JsValue := .undefined

/-! ## Expiry -/

/-- The longest unit name that starts the text, in milliseconds. -/
def durationUnit : List Char → Option (ℚ × List Char)
  | 'n' :: 's' :: rest => some (roundDouble (1 / 10 ^ 6), rest)
  | 'u' :: 's' :: rest => some (roundDouble (1 / 10 ^ 3), rest)
  | '\u00b5' :: 's' :: rest => some (roundDouble (1 / 10 ^ 3), rest)
  | '\u03bc' :: 's' :: rest => some (roundDouble (1 / 10 ^ 3), rest)
  | 'm' :: 's' :: rest => some (1, rest)
  | 's' :: rest => some (1000, rest)
  | 'm' :: rest => some (60000, rest)
  | 'h' :: rest => some (3600000, rest)
  | _ => none

/-- `\d+(?:\.\d+)?` at the start of the text. -/
def durationAmount (cs : List Char) : List Char × List Char :=
  let ints := cs.takeWhile isDigit
  match cs.dropWhile isDigit with
  | '.' :: rest =>
      if ints = [] ∨ rest.takeWhile isDigit = [] then (ints, '.' :: rest)
      else (ints ++ '.' :: rest.takeWhile isDigit, rest.dropWhile isDigit)
  | rest => (ints, rest)

/-- The double nearest to a number that is not negative. -/
def roundTop : WithTop ℚ → WithTop ℚ
  | ⊤ => ⊤
  | (q : ℚ) => (toDouble q).elim ⊤ fun r => r

/-- The sum of the amounts, up to `fuel` of them; each takes a character at least. -/
def durationTotal : Nat → WithTop ℚ → List Char → Option (WithTop ℚ)
  | _, total, [] => some total
  | 0, _, _ => none
  | fuel + 1, total, cs =>
      let parts := durationAmount cs
      if parts.1 = [] then none
      else
        (toNumber parts.1).bind fun amount =>
          (durationUnit parts.2).bind fun unit =>
            durationTotal fuel (roundTop (total + roundTop ↑(amount * unit.1))) unit.2

def negate : WithTop ℚ → Milliseconds
  | ⊤ => ⊥
  | (q : ℚ) => finite (-q)

def parseGoDurationMs (input : List Char) : Option Milliseconds :=
  let trimmed := trim input
  let negative := trimmed.head? = some '-'
  let body := if negative ∨ trimmed.head? = some '+' then trimmed.drop 1 else trimmed
  if body = [] then none
  else (durationTotal body.length 0 body).map fun total => if negative then negate total else total

/-- `now + milliseconds` -/
def later (now : ℚ) : Milliseconds → Milliseconds
  | ⊥ => ⊥
  | ⊤ => ⊤
  | (q : ℚ) => (toDouble (now + q)).elim (if now + q < 0 then ⊥ else ⊤) finite

def decisionExpiry (dateParse : List Char → Option ℚ) (raw : RawCrowdSecDecision) (now : ℚ) :
    Option Milliseconds :=
  match raw.duration.string?.bind parseGoDurationMs with
  | some milliseconds => some (later now milliseconds)
  | none => (raw.untilDate.string?.bind dateParse).map finite

/-! ## Scope and remediation -/

/-- `String(value ?? "").trim().toLowerCase()`; what it is compared with is ASCII. -/
def normalizedText (v : JsValue) : List Char :=
  (trim (v.orElse (.string [])).toText).map Char.toLower

def normalizeScope (v : JsValue) : Option Scope :=
  let scope := normalizedText v
  if scope = "ip".toList then some .ip
  else if scope = "range".toList then some .range
  else if scope = "country".toList then some .country
  else if scope = "as".toList ∨ scope = "asn".toList then some .asn
  else none

/-- `unknownFallback` is none for `ignore`. -/
def normalizeRemediation (v : JsValue) (unknownFallback : Option Remediation) :
    Option Remediation :=
  let type := normalizedText v
  if type = "ban".toList then some .ban
  else if type = "captcha".toList then some .captcha
  else unknownFallback

/-- `typeof value === "string" ? value.trim() : ""` -/
def rawValue (v : JsValue) : List Char := trim (v.string?.getD [])

def decisionId (v : JsValue) : Int := (safeInteger v.toNumber).getD (-1)

/-- `typeof value === "string" && value ? value : fallback` -/
def textOr (v : JsValue) (fallback : List Char) : List Char :=
  (v.string?.filter (· ≠ [])).getD fallback

/-- A conversion of `applyDelta`'s loop over what is deleted throws. -/
def removalThrows (raw : RawCrowdSecDecision) : Bool :=
  raw.scope.throws ||
    (normalizeScope raw.scope).isSome && rawValue raw.value ≠ [] && raw.id.throws

/-- A conversion of `materialize` throws; what it has rejected by then is not converted. -/
def materializeThrows (unknownFallback : Option Remediation) (raw : RawCrowdSecDecision) : Bool :=
  raw.scope.throws ||
    (normalizeScope raw.scope).isSome && (raw.type.throws ||
      (normalizeRemediation raw.type unknownFallback).isSome && rawValue raw.value ≠ [] &&
        raw.id.throws)

/-- `materialize` of a raw decision for which it does not throw. -/
def materialize (dateParse : List Char → Option ℚ) (raw : RawCrowdSecDecision) (now : ℚ)
    (unknownFallback : Option Remediation) : Option CrowdSecDecision :=
  match normalizeScope raw.scope, normalizeRemediation raw.type unknownFallback with
  | some scope, some remediation =>
      let expiresAt := decisionExpiry dateParse raw now
      if rawValue raw.value = [] ∨ expiresAt.any (· ≤ finite now) = true then none
      else
        some
          { id := decisionId raw.id
            remediation
            origin := textOr raw.origin "unknown".toList
            scenario := textOr raw.scenario []
            scope
            value := rawValue raw.value
            expiresAt }
  | _, _ => none

/-! ## Rank -/

def priority (d : CrowdSecDecision) : Nat :=
  match d.remediation with
  | .ban => 2
  | .captcha => 1

def outranks (candidate incumbent : CrowdSecDecision) : Bool :=
  if priority candidate ≠ priority incumbent then priority incumbent < priority candidate
  else
    match candidate.expiresAt, incumbent.expiresAt with
    | none, _ => true
    | some _, none => false
    | some c, some i => i < c

/-- `a` expires after `b`; a decision without expiry lasts longest. -/
def outlasts (a b : Option Milliseconds) : Bool :=
  match a, b with
  | none, some _ => true
  | some x, some y => y < x
  | _, none => false

/-- Ban over captcha, then the later expiry. -/
def stronger (a b : CrowdSecDecision) : Bool :=
  priority b < priority a || (priority a = priority b && outlasts a.expiresAt b.expiresAt)

/-- `decision.expiresAt !== null && decision.expiresAt <= now` -/
def lapsed (now : ℚ) (d : CrowdSecDecision) : Bool := d.expiresAt.any (· ≤ finite now)

theorem lapsed_mono {now now' : ℚ} (h : now ≤ now') {d : CrowdSecDecision}
    (hd : lapsed now' d = false) : lapsed now d = false := by
  unfold lapsed at hd ⊢
  cases he : d.expiresAt with
  | none => rfl
  | some e =>
      rw [he] at hd
      simp only [Option.any_some, decide_eq_false_iff_not, not_le] at hd ⊢
      have hle : finite now ≤ finite now' := WithBot.coe_le_coe.mpr (WithTop.coe_le_coe.mpr h)
      exact lt_of_le_of_lt hle hd

theorem stronger_self (a : CrowdSecDecision) : stronger a a = false := by
  unfold stronger outlasts
  cases a.expiresAt <;> simp

/-- The relation in which no decision is stronger is transitive. -/
theorem not_stronger_trans {a b c : CrowdSecDecision} (hab : stronger a b = false)
    (hbc : stronger b c = false) : stronger a c = false := by
  unfold stronger outlasts at *
  simp only [Bool.or_eq_false_iff, Bool.and_eq_false_iff, decide_eq_false_iff_not] at *
  obtain ⟨hab, hab'⟩ := hab
  obtain ⟨hbc, hbc'⟩ := hbc
  refine ⟨by omega, ?_⟩
  by_cases heq : priority a = priority c
  · right
    have h1 : priority a = priority b := by omega
    have h2 : priority b = priority c := by omega
    replace hab' := hab'.resolve_left (not_not_intro h1)
    replace hbc' := hbc'.resolve_left (not_not_intro h2)
    cases ha : a.expiresAt <;> cases hb : b.expiresAt <;> cases hc : c.expiresAt <;>
      simp_all
    exact hab'.trans hbc'
  · exact .inl heq

theorem not_stronger_of_outranks {a b : CrowdSecDecision} (h : outranks a b = true) :
    stronger b a = false := by
  unfold outranks at h
  unfold stronger outlasts
  split at h
  · rename_i hne
    have hlt : priority b < priority a := by simpa using h
    have hne' : ¬ priority b = priority a := by omega
    have hnlt : ¬ priority a < priority b := by omega
    simp [hne', hnlt]
  · rename_i heq
    have heq' : priority a = priority b := by simpa using heq
    cases ha : a.expiresAt <;> cases hb : b.expiresAt <;> simp_all [le_of_lt]

theorem not_stronger_of_not_outranks {a b : CrowdSecDecision} (h : outranks a b = false) :
    stronger a b = false := by
  unfold outranks at h
  unfold stronger outlasts
  split at h
  · rename_i hne
    have hnlt : ¬ priority b < priority a := by simpa using h
    simp [hne, hnlt]
  · rename_i heq
    have heq' : priority a = priority b := by simpa using heq
    cases ha : a.expiresAt <;> cases hb : b.expiresAt <;> simp_all

/-! ## Addresses and locations -/

inductive NumericAddress
  | v4 (value : Nat)
  | v6 (value : Nat)
  deriving DecidableEq

def numericAddress (ip : List Char) : Option NumericAddress :=
  (parseIp ip).map fun parsed =>
    match parsed.version with
    | .v4 => .v4 parsed.value
    | .v6 =>
        if parsed.value >>> 32 = 0xffff then .v4 (parsed.value % 2 ^ 32) else .v6 parsed.value

/-- A key of one of the store's maps. -/
inductive Location
  | ipv4 (address : Nat)
  | ipv6 (address : Nat)
  | rangeV4 (length network : Nat)
  | rangeV6 (length network : Nat)
  | asn (asn : Nat)
  | country (code : List Char)
  deriving DecidableEq

def maskIpv4 (value length : Nat) : Nat := mask (32 - length) value

def maskIpv6 (value length : Nat) : Nat := mask (128 - length) value

/-- `/^as/iu` also matches a long s. -/
def dropAs : List Char → List Char
  | a :: s :: rest =>
      if (a = 'a' ∨ a = 'A') ∧ (s = 's' ∨ s = 'S' ∨ s = '\u017f') then rest else a :: s :: rest
  | text => text

def isCountryCode (code : List Char) : Bool :=
  code.length = 2 && code.all fun c => 'A' ≤ c && c ≤ 'Z'

def locate (toUpperCase : List Char → List Char) (scope : Scope) (value : List Char) :
    Option Location :=
  match scope with
  | .ip =>
      (numericAddress (trim value)).map fun address =>
        match address with
        | .v4 value => .ipv4 value
        | .v6 value => .ipv6 value
  | .range =>
      (parseCidr (trim value)).map fun cidr =>
        match cidr.version with
        | .v4 =>
            if cidr.length = 32 then .ipv4 cidr.network
            else .rangeV4 cidr.length (maskIpv4 cidr.network cidr.length)
        | .v6 =>
            if cidr.length = 128 then .ipv6 cidr.network
            else .rangeV6 cidr.length (maskIpv6 cidr.network cidr.length)
  | .country =>
      let code := toUpperCase (trim value)
      if isCountryCode code then some (.country code) else none
  | .asn =>
      (safeInteger (toNumber (dropAs (trim value)))).bind fun asn =>
        if 0 < asn then some (.asn asn.toNat) else none

end BurrowGate.CrowdSec
