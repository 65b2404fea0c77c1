import BurrowGate.Firewall.SyncService
import Mathlib.Data.List.Dedup
import Mathlib.Data.List.Range

/-!
# `aws-nacl-adapter.ts` and `ovh-adapter.ts`: the plan of a reconciliation

Both adapters plan in the same way over rules of their own shape: what a plan reads of a
rule, and how the API stores a rule it is told to create, is a `RuleKind`. Slots of the plan
are rule numbers at the one provider and sequences at the other.
-/

namespace BurrowGate.Firewall

abbrev Cidr : Type := List Char

/-- `cidr.includes("/") ? cidr : cidr + "/32"`, as both `normalizeAwsIpv4Cidr` and
`normalizeOvhIpv4Source` have it. -/
def withPrefixLength (cidr : Cidr) : Cidr :=
  if cidr.contains '/' then cidr else cidr ++ "/32".toList

/-- A created rule is `none` where the code would read past the end of the free slots. -/
structure RuleDiff where
  toDelete : List Int
  toCreate : List (Option Int × Cidr)
  deriving DecidableEq

structure RuleKind (ρ : Type) where
  slot : ρ → Int
  cidr : ρ → Option Cidr
  managed : ρ → Bool
  create : Int → Cidr → ρ

section Plan

variable {ρ : Type} (kind : RuleKind ρ)

/-- The sets that the loop over the existing rules fills. -/
structure Scan where
  keptCidrs : List Cidr
  occupied : List Int
  toDelete : List Int

/-- The CIDR of a rule that is still desired and not yet kept; an empty text counts as none. -/
def wantedCidr (wanted kept : List Cidr) (rule : ρ) : Option Cidr :=
  (kind.cidr rule).filter fun cidr => !cidr.isEmpty && wanted.contains cidr && !kept.contains cidr

def scanRule (wanted : List Cidr) (scan : Scan) (rule : ρ) : Scan :=
  if !kind.managed rule then scan
  else
    match wantedCidr kind wanted scan.keptCidrs rule with
    | some cidr =>
        { scan with
          keptCidrs := scan.keptCidrs ++ [cidr]
          occupied := scan.occupied ++ [kind.slot rule] }
    | none => { scan with toDelete := scan.toDelete ++ [kind.slot rule] }

/-- The slots of the rules that are not the adapter's own. -/
def reservedSlots (existing : List ρ) : List Int :=
  ((existing.filter fun rule => !kind.managed rule).map kind.slot).dedup

/-- `desiredCidrs.slice(0, availableSlots)` -/
def cappedCidrs (maxRules : Nat) (desired : List Cidr) (existing : List ρ) : List Cidr :=
  desired.take (maxRules - (reservedSlots kind existing).length)

def scanRules (wanted : List Cidr) (existing : List ρ) : Scan :=
  existing.foldl (scanRule kind wanted) ⟨[], reservedSlots kind existing, []⟩

def computeRuleDiff (maxRules : Nat) (candidates : List Int) (desired : List Cidr)
    (existing : List ρ) : RuleDiff :=
  let capped := cappedCidrs kind maxRules desired existing
  let scan := scanRules kind capped existing
  let missing := capped.filter fun cidr => !scan.keptCidrs.contains cidr
  let free := candidates.filter fun slot => !scan.occupied.contains slot
  { toDelete := scan.toDelete
    toCreate := missing.zipIdx.map fun (cidr, index) => (free[index]?, cidr) }

/-- What the API has after every call of the plan: rules are deleted by their slot. -/
def applyDiff (existing : List ρ) (diff : RuleDiff) : List ρ :=
  (existing.filter fun rule => !diff.toDelete.contains (kind.slot rule)) ++
    diff.toCreate.filterMap fun (slot, cidr) => slot.map fun slot => kind.create slot cidr

end Plan

/-! ## AWS network ACLs -/

inductive RuleAction
  | allow
  | deny
  deriving DecidableEq

structure AwsNaclExistingEntry where
  ruleNumber : Int
  ruleAction : RuleAction
  protocol : List Char
  cidrBlock : Option Cidr
  portRangeFrom : Option Int
  portRangeTo : Option Int
  deriving DecidableEq

def isAwsNaclManagedRule (entry : AwsNaclExistingEntry) : Bool :=
  entry.ruleAction = .deny && entry.protocol = "-1".toList && entry.portRangeFrom = none &&
    entry.portRangeTo = none

def awsNaclKind : RuleKind AwsNaclExistingEntry where
  slot entry := entry.ruleNumber
  cidr entry := entry.cidrBlock
  managed := isAwsNaclManagedRule
  create ruleNumber cidrBlock := ⟨ruleNumber, .deny, "-1".toList, some cidrBlock, none, none⟩

def reservedRuleNumbers (ruleNumberStart : Int) : List Int :=
  (List.range AWS_NACL_MAX_RULES.toNat).map fun index => ruleNumberStart + (index : Nat)

/-- The entries whose numbers are reserved. -/
def inRange (ruleNumberStart : Int) (entry : AwsNaclExistingEntry) : Bool :=
  (reservedRuleNumbers ruleNumberStart).contains entry.ruleNumber

def computeAwsNaclRuleDiff (desiredCidrs : List Cidr) (existingEntries : List AwsNaclExistingEntry)
    (ruleNumberStart : Int) : RuleDiff :=
  computeRuleDiff awsNaclKind AWS_NACL_MAX_RULES.toNat (reservedRuleNumbers ruleNumberStart)
    desiredCidrs (existingEntries.filter (inRange ruleNumberStart))

/-! ## The OVH edge firewall -/

structure OvhExistingRule where
  sequence : Int
  source : Option Cidr
  action : List Char
  protocol : List Char
  sourcePort : Option (List Char)
  destinationPort : Option (List Char)
  deriving DecidableEq

/-- `!port` -/
def noPort (port : Option (List Char)) : Bool := port.all (·.isEmpty)

def isOvhManagedRule (rule : OvhExistingRule) : Bool :=
  rule.action = "deny".toList && rule.protocol = "ipv4".toList && noPort rule.sourcePort &&
    noPort rule.destinationPort

def ovhKind : RuleKind OvhExistingRule where
  slot rule := rule.sequence
  cidr rule := rule.source
  managed := isOvhManagedRule
  create sequence source := ⟨sequence, some source, "deny".toList, "ipv4".toList, none, none⟩

def ovhSequences : List Int :=
  (List.range OVH_MAX_RULES.toNat).map fun sequence => (sequence : Nat)

def computeOvhRuleDiff (desiredCidrs : List Cidr) (existingRules : List OvhExistingRule) :
    RuleDiff :=
  computeRuleDiff ovhKind OVH_MAX_RULES.toNat ovhSequences desiredCidrs existingRules

end BurrowGate.Firewall
