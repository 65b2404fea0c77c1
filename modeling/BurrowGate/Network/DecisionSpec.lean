import BurrowGate.Network.NetworkDecision
import BurrowGate.Net.PrivateIp
import Mathlib.Data.List.Nodup

/-!
# What a network decision is

The specification of the chain, and where the two forms of an IPv4 address part: the
databases and the private blocks know an IPv4-mapped address, the IP rules do not.
-/

namespace BurrowGate.Network

open Net
open Lib.PrefixBlock
open Lib.StableSort

variable {A B : Type}

/-! ## The specification -/

/-- A longer prefix, or one as long of a newer rule. -/
def Outranks (item other : CachedIpRule A) : Prop :=
  other.cidr.length < item.cidr.length ∨
    (item.cidr.length = other.cidr.length ∧ other.rule.createdAt < item.rule.createdAt)

/-- The newest unexpired rule of longest prefix that covers the address; rules of one prefix and
one instant stand in the order of the table. -/
def Selected (rules : NetworkRules A) (now : Int) (ip : List Char) (item : CachedIpRule A) : Prop :=
  ∃ before after, parsedIpRules rules.ipRules = before ++ item :: after ∧
    applies now ip item = true ∧
    (∀ other ∈ before, applies now ip other = true → Outranks item other) ∧
    ∀ other ∈ after, applies now ip other = true → ¬ Outranks other item

def NoIpRule (rules : NetworkRules A) (now : Int) (ip : List Char) : Prop :=
  ∀ item ∈ parsedIpRules rules.ipRules, applies now ip item = false

/-- The unexpired rule of the ASN. -/
structure AsnRuleFor (rules : NetworkRules A) (now : Int) (located : Located)
    (rule : AsnRuleRecord A) : Prop where
  mem : rule ∈ rules.asnRules
  asn : located.asn = some rule.asn
  active : active rule.expiresAt now = true

/-- The unexpired rule of the country. -/
structure CountryRuleFor (rules : NetworkRules A) (now : Int) (located : Located)
    (rule : CountryRuleRecord A) : Prop where
  mem : rule ∈ rules.countryRules
  country : located.countryCode = some rule.countryCode
  active : active rule.expiresAt now = true

/-- A country default counts when a country is known. -/
def countryDefaultFor (policy : NetworkPolicy A) (located : Located) : Option A :=
  if located.countryCode.isSome then configuredAction policy.defaultCountryAction else none

/-- The action, the source and the expiry that the chain decides. -/
inductive Decides (policy : NetworkPolicy A) (now : Int) (ip : List Char) (located : Located) :
    Option A → NetworkDecisionSource → Option Int → Prop
  | ipRule {item : CachedIpRule A} (h : Selected policy.rules now ip item) :
      Decides policy now ip located (some item.rule.action) .ipRule item.rule.expiresAt
  | asnRule {rule : AsnRuleRecord A} (hip : NoIpRule policy.rules now ip)
      (h : AsnRuleFor policy.rules now located rule) :
      Decides policy now ip located (some rule.action) .asnRule rule.expiresAt
  | countryRule {rule : CountryRuleRecord A} (hip : NoIpRule policy.rules now ip)
      (hasn : ∀ rule, ¬ AsnRuleFor policy.rules now located rule)
      (h : CountryRuleFor policy.rules now located rule) :
      Decides policy now ip located (some rule.action) .countryRule rule.expiresAt
  | countryDefault {action : A} (hip : NoIpRule policy.rules now ip)
      (hasn : ∀ rule, ¬ AsnRuleFor policy.rules now located rule)
      (hcountry : ∀ rule, ¬ CountryRuleFor policy.rules now located rule)
      (h : countryDefaultFor policy located = some action) :
      Decides policy now ip located (some action) .countryDefault none
  | ipDefault {action : A} (hip : NoIpRule policy.rules now ip)
      (hasn : ∀ rule, ¬ AsnRuleFor policy.rules now located rule)
      (hcountry : ∀ rule, ¬ CountryRuleFor policy.rules now located rule)
      (hdefault : countryDefaultFor policy located = none)
      (h : configuredAction policy.defaultIpAction = some action) :
      Decides policy now ip located (some action) .ipDefault none
  | route (hip : NoIpRule policy.rules now ip)
      (hasn : ∀ rule, ¬ AsnRuleFor policy.rules now located rule)
      (hcountry : ∀ rule, ¬ CountryRuleFor policy.rules now located rule)
      (hdefault : countryDefaultFor policy located = none)
      (h : configuredAction policy.defaultIpAction = none) :
      Decides policy now ip located none .route none

/-! ## The lookups meet it -/

theorem sortsBefore_iff {left right : CachedIpRule A} :
    sortsBefore left right = true ↔ ¬ Outranks right left := by
  unfold sortsBefore Outranks
  simp only [Bool.or_eq_true, Bool.and_eq_true, decide_eq_true_eq]
  omega

theorem sortsBefore_trans (a b c : CachedIpRule A) (hab : sortsBefore a b = true)
    (hbc : sortsBefore b c = true) : sortsBefore a c = true := by
  rw [sortsBefore_iff] at hab hbc ⊢
  unfold Outranks at *
  omega

theorem sortsBefore_total (a b : CachedIpRule A) : (sortsBefore a b || sortsBefore b a) = true := by
  rw [Bool.or_eq_true, sortsBefore_iff, sortsBefore_iff]
  unfold Outranks
  omega

theorem selected_iff {rules : NetworkRules A} {now : Int} {ip : List Char}
    {item : CachedIpRule A} :
    Selected rules now ip item ↔
      FirstBest sortsBefore (applies now ip) (parsedIpRules rules.ipRules) item := by
  have hworse (other : CachedIpRule A) : sortsBefore other item = false ↔ Outranks item other := by
    rw [Bool.eq_false_iff, ne_eq, sortsBefore_iff, not_not]
  simp only [Selected, FirstBest, hworse, sortsBefore_iff]

theorem Selected.not_noIpRule {rules : NetworkRules A} {now : Int} {ip : List Char}
    {item : CachedIpRule A} (h : Selected rules now ip item) : ¬ NoIpRule rules now ip := by
  intro hno
  have hbest := selected_iff.mp h
  have := hno item hbest.mem
  rw [hbest.holds] at this
  cases this

theorem parseIp_of_applies {now : Int} {ip : List Char} {item : CachedIpRule A}
    (h : applies now ip item = true) : (parseIp ip).isSome = true := by
  obtain ⟨-, hcovers⟩ := (Bool.and_eq_true _ _).mp h
  obtain ⟨parsed, hparsed, -⟩ := (Option.any_eq_true _ _).mp hcovers
  rw [hparsed]
  rfl

theorem isUnknown_of_parseIp {ip : List Char} (h : (parseIp ip).isSome = true) :
    isUnknown ip = false := by
  rw [isUnknown, decide_eq_false_iff_not]
  rintro rfl
  have hnone : (parseIp "unknown".toList).isSome = false := by decide +kernel
  rw [hnone] at h
  cases h

theorem findIpRule_some {rules : NetworkRules A} {now : Int} {ip : List Char}
    {item : CachedIpRule A} (h : Selected rules now ip item) :
    findIpRule rules now ip = some item.rule := by
  have hbest := selected_iff.mp h
  have hknown := isUnknown_of_parseIp (parseIp_of_applies hbest.holds)
  have hfind := (find_mergeSort_iff sortsBefore_trans sortsBefore_total).mpr hbest
  rw [findIpRule, if_neg (by rw [hknown]; exact Bool.false_ne_true), cachedIpRules, hfind]
  rfl

theorem findIpRule_none {rules : NetworkRules A} {now : Int} {ip : List Char}
    (h : NoIpRule rules now ip) : findIpRule rules now ip = none := by
  rw [findIpRule, cachedIpRules, find_mergeSort_none.mpr h]
  split <;> rfl

theorem selected_or_none (rules : NetworkRules A) (now : Int) (ip : List Char) :
    (∃ item, Selected rules now ip item) ∨ NoIpRule rules now ip := by
  cases hfind : ((parsedIpRules rules.ipRules).mergeSort sortsBefore).find? (applies now ip) with
  | none => exact .inr (find_mergeSort_none.mp hfind)
  | some item =>
      have hbest := (find_mergeSort_iff sortsBefore_trans sortsBefore_total).mp hfind
      exact .inl ⟨item, selected_iff.mpr hbest⟩

/-- With unique keys a map holds the rows. -/
theorem find_row_iff {α κ : Type*} [DecidableEq κ] {key : α → κ} {rows : List α} {k : κ} {row : α}
    (h : (rows.map key).Nodup) :
    rows.reverse.find? (key · = k) = some row ↔ row ∈ rows ∧ key row = k := by
  constructor
  · intro hfind
    have hkey := List.find?_some hfind
    exact ⟨List.mem_reverse.mp (List.mem_of_find?_eq_some hfind), of_decide_eq_true hkey⟩
  · rintro ⟨hmem, hkey⟩
    cases hfind : rows.reverse.find? (key · = k) with
    | none =>
        have hno := List.find?_eq_none.mp hfind row (List.mem_reverse.mpr hmem)
        exact absurd (decide_eq_true hkey) hno
    | some other =>
        have hother := List.mem_reverse.mp (List.mem_of_find?_eq_some hfind)
        have hkey' := List.find?_some hfind
        rw [decide_eq_true_eq, ← hkey] at hkey'
        rw [List.inj_on_of_nodup_map h hother hmem hkey']

theorem findAsnRule_iff {rules : NetworkRules A} {now : Int} {asn : Nat} {rule : AsnRuleRecord A} :
    findAsnRule rules now asn = some rule ↔
      rule ∈ rules.asnRules ∧ rule.asn = asn ∧ active rule.expiresAt now = true := by
  rw [findAsnRule, Option.filter_eq_some_iff, find_row_iff rules.asn_unique, and_assoc]

theorem findCountryRule_iff {rules : NetworkRules A} {now : Int} {code : List Char}
    {rule : CountryRuleRecord A} :
    findCountryRule rules now code = some rule ↔
      rule ∈ rules.countryRules ∧ rule.countryCode = code ∧ active rule.expiresAt now = true := by
  rw [findCountryRule, Option.filter_eq_some_iff, find_row_iff rules.country_unique, and_assoc]

theorem asnStep_some {policy : NetworkPolicy A} {now : Int} {located : Located}
    {rule : AsnRuleRecord A} (h : AsnRuleFor policy.rules now located rule) :
    (located.asn.bind fun asn => (findAsnRule policy.rules now asn).map
      (NetworkMatch.asnRule · asn)) = some (.asnRule rule rule.asn) := by
  rw [h.asn, Option.bind_some, findAsnRule_iff.mpr ⟨h.mem, rfl, h.active⟩]
  rfl

theorem asnStep_none {policy : NetworkPolicy A} {now : Int} {located : Located}
    (h : ∀ rule, ¬ AsnRuleFor policy.rules now located rule) :
    (located.asn.bind fun asn => (findAsnRule policy.rules now asn).map
      (NetworkMatch.asnRule · asn)) = none := by
  cases hasn : located.asn with
  | none => rfl
  | some asn =>
      cases hfind : findAsnRule policy.rules now asn with
      | none => simp [hfind]
      | some rule =>
          obtain ⟨hmem, hkey, hactive⟩ := findAsnRule_iff.mp hfind
          exact absurd ⟨hmem, by rw [hasn, hkey], hactive⟩ (h rule)

theorem countryStep_rule {policy : NetworkPolicy A} {now : Int} {located : Located}
    {rule : CountryRuleRecord A} (h : CountryRuleFor policy.rules now located rule) :
    located.countryCode.bind (matchCountry policy now) =
      some (.countryRule rule rule.countryCode) := by
  rw [h.country, Option.bind_some, matchCountry,
    findCountryRule_iff.mpr ⟨h.mem, rfl, h.active⟩]

theorem countryStep_default {policy : NetworkPolicy A} {now : Int} {located : Located}
    (h : ∀ rule, ¬ CountryRuleFor policy.rules now located rule) :
    located.countryCode.bind (matchCountry policy now) =
      (countryDefaultFor policy located).map
        (.countryDefault · (located.countryCode.getD [])) := by
  cases hcode : located.countryCode with
  | none => simp [countryDefaultFor, hcode]
  | some code =>
      cases hfind : findCountryRule policy.rules now code with
      | none => simp [matchCountry, hfind, countryDefaultFor, hcode]
      | some rule =>
          obtain ⟨hmem, hkey, hactive⟩ := findCountryRule_iff.mp hfind
          exact absurd ⟨hmem, by rw [hcode, hkey], hactive⟩ (h rule)

/-! ## The chain meets it -/

/-- The chain decides one thing, and that is what the match says. -/
theorem Decides.eq_match {policy : NetworkPolicy A} {now : Int} {ip : List Char}
    {located : Located} {action : Option A} {source : NetworkDecisionSource}
    {expiresAt : Option Int} (h : Decides policy now ip located action source expiresAt) :
    (matchNetwork policy now ip located).action = action ∧
      (matchNetwork policy now ip located).source = source ∧
      (matchNetwork policy now ip located).expiresAt = expiresAt := by
  unfold matchNetwork
  cases h with
  | ipRule h =>
      rw [findIpRule_some h]
      exact ⟨rfl, rfl, rfl⟩
  | asnRule hip h =>
      rw [findIpRule_none hip, asnStep_some h]
      exact ⟨rfl, rfl, rfl⟩
  | countryRule hip hasn h =>
      rw [findIpRule_none hip, asnStep_none hasn, countryStep_rule h]
      exact ⟨rfl, rfl, rfl⟩
  | countryDefault hip hasn hcountry h =>
      rw [findIpRule_none hip, asnStep_none hasn, countryStep_default hcountry, h]
      exact ⟨rfl, rfl, rfl⟩
  | ipDefault hip hasn hcountry hdefault h =>
      rw [findIpRule_none hip, asnStep_none hasn, countryStep_default hcountry, hdefault, h]
      exact ⟨rfl, rfl, rfl⟩
  | route hip hasn hcountry hdefault h =>
      rw [findIpRule_none hip, asnStep_none hasn, countryStep_default hcountry, hdefault, h]
      exact ⟨rfl, rfl, rfl⟩

theorem decides_exists (policy : NetworkPolicy A) (now : Int) (ip : List Char)
    (located : Located) : ∃ action source expiresAt,
      Decides policy now ip located action source expiresAt := by
  rcases selected_or_none policy.rules now ip with ⟨item, hitem⟩ | hip
  · exact ⟨_, _, _, .ipRule hitem⟩
  by_cases hasn : ∃ rule, AsnRuleFor policy.rules now located rule
  · obtain ⟨rule, hrule⟩ := hasn
    exact ⟨_, _, _, .asnRule hip hrule⟩
  have hasn := not_exists.mp hasn
  by_cases hcountry : ∃ rule, CountryRuleFor policy.rules now located rule
  · obtain ⟨rule, hrule⟩ := hcountry
    exact ⟨_, _, _, .countryRule hip hasn hrule⟩
  have hcountry := not_exists.mp hcountry
  cases hdefault : countryDefaultFor policy located with
  | some action => exact ⟨_, _, _, .countryDefault hip hasn hcountry hdefault⟩
  | none =>
      cases hipDefault : configuredAction policy.defaultIpAction with
      | some action => exact ⟨_, _, _, .ipDefault hip hasn hcountry hdefault hipDefault⟩
      | none => exact ⟨_, _, _, .route hip hasn hcountry hdefault hipDefault⟩

/-- The match says what the specification decides, and nothing else. -/
theorem decides_iff {policy : NetworkPolicy A} {now : Int} {ip : List Char} {located : Located}
    {action : Option A} {source : NetworkDecisionSource} {expiresAt : Option Int} :
    Decides policy now ip located action source expiresAt ↔
      (matchNetwork policy now ip located).action = action ∧
      (matchNetwork policy now ip located).source = source ∧
      (matchNetwork policy now ip located).expiresAt = expiresAt := by
  refine ⟨Decides.eq_match, fun ⟨haction, hsource, hexpires⟩ => ?_⟩
  obtain ⟨action', source', expiresAt', h⟩ := decides_exists policy now ip located
  obtain ⟨haction', hsource', hexpires'⟩ := h.eq_match
  rw [← haction, ← hsource, ← hexpires, haction', hsource', hexpires']
  exact h

end BurrowGate.Network
