import BurrowGate.Net.Ip
import BurrowGate.Lib.StableSort

/-!
# The network decision

The rule evaluation of sites (`ip-rule-service.ts`), routes (`route-ip-rule-service.ts`)
and streams (`stream-ip-rule-service.ts`), with the address lookups of
`geoip-service.ts`. The three copies walk one chain; each has its own words and record.
-/

namespace BurrowGate.Network

open Net

/-! ## The address databases -/

def PRIVATE_COUNTRY_CODE : List Char := "XX".toList

def UNKNOWN_COUNTRY_CODE : List Char := "ZZ".toList

def NO_ASN : Nat := 0

/-- The two `iso_code` texts of a country response. -/
structure CountryResponse where
  country : Option (List Char)
  registeredCountry : Option (List Char)

structure AsnResponse where
  autonomousSystemNumber : Option Nat
  autonomousSystemOrganization : Option (List Char)

/-- The `maxmind` package: `validate`, and `get` of the databases that are loaded. A `get`
that throws has no response. -/
structure GeoIp where
  validate : List Char → Bool
  reader : Option (List Char → Option CountryResponse)
  asnReader : Option (List Char → Option AsnResponse)

/-- `/^[A-Z]{2}$/u` -/
def isCountryCode (code : List Char) : Bool :=
  code.length = 2 && code.all fun c => 'A' ≤ c && c ≤ 'Z'

def lookupCountryCode (geo : GeoIp) (ip : List Char) : Option (List Char) :=
  if isPrivateIp ip then some PRIVATE_COUNTRY_CODE
  else
    match geo.reader with
    | none => none
    | some get =>
        if geo.validate ip then
          ((get ip).bind fun response => response.country <|> response.registeredCountry).filter
            isCountryCode
        else none

def countryCodeForStorage (geo : GeoIp) (ip : List Char) : Option (List Char) :=
  if isPrivateIp ip then some PRIVATE_COUNTRY_CODE
  else if geo.reader.isNone then none
  else some ((lookupCountryCode geo ip).getD UNKNOWN_COUNTRY_CODE)

def lookupAsn (geo : GeoIp) (ip : List Char) : Option (Nat × List Char) :=
  if isPrivateIp ip then none
  else
    match geo.asnReader with
    | none => none
    | some get =>
        if geo.validate ip then
          (get ip).bind fun response =>
            response.autonomousSystemNumber.bind fun asn =>
              response.autonomousSystemOrganization.map fun org => (asn, org)
        else none

def asnForStorage (geo : GeoIp) (ip : List Char) : Option Nat × Option (List Char) :=
  if isPrivateIp ip then (some NO_ASN, some "Private network".toList)
  else if geo.asnReader.isNone then (none, none)
  else
    match lookupAsn geo ip with
    | some (asn, org) => (some asn, some org)
    | none => (some NO_ASN, some "Unknown".toList)

/-- What an evaluation knows of the address. -/
structure Located where
  asn : Option Nat
  asnOrg : Option (List Char)
  countryCode : Option (List Char)
  deriving DecidableEq

def isUnknown (ip : List Char) : Bool := ip = "unknown".toList

def locate (geo : GeoIp) (ip : List Char) : Located :=
  if isUnknown ip then { asn := none, asnOrg := none, countryCode := none }
  else
    { asn := (asnForStorage geo ip).1
      asnOrg := (asnForStorage geo ip).2
      countryCode := countryCodeForStorage geo ip }

/-! ## The rules -/

inductive IpRuleAction
  | allow
  | pass
  | block
  | challenge
  deriving DecidableEq

inductive StreamRuleAction
  | allow
  | block
  deriving DecidableEq

inductive DefaultNetworkAction (A : Type)
  | inherit
  | action (action : A)
  deriving DecidableEq

structure IpRuleRecord (A : Type) where
  networkCidr : List Char
  action : A
  reason : List Char
  createdAt : Int
  expiresAt : Option Int
  deriving DecidableEq

structure CountryRuleRecord (A : Type) where
  countryCode : List Char
  action : A
  reason : List Char
  expiresAt : Option Int
  deriving DecidableEq

structure AsnRuleRecord (A : Type) where
  asn : Nat
  action : A
  reason : List Char
  expiresAt : Option Int
  deriving DecidableEq

/-- The rows of one site, route policy or stream as the queries return them. The tables have
one row for a country and one for an ASN. -/
structure NetworkRules (A : Type) where
  ipRules : List (IpRuleRecord A)
  countryRules : List (CountryRuleRecord A)
  asnRules : List (AsnRuleRecord A)
  country_unique : (countryRules.map (·.countryCode)).Nodup
  asn_unique : (asnRules.map (·.asn)).Nodup

/-- What an evaluation reads of a site, a route policy or a stream. -/
structure NetworkPolicy (A : Type) where
  id : List Char
  rules : NetworkRules A
  defaultIpAction : Option (DefaultNetworkAction A)
  defaultCountryAction : Option (DefaultNetworkAction A)

/-- `active`, on a record's `expires_at`. -/
def active (expiresAt : Option Int) (now : Int) : Bool :=
  match expiresAt with
  | none => true
  | some at' => now < at'

def configuredAction {A : Type} : Option (DefaultNetworkAction A) → Option A
  | some (.action action) => some action
  | _ => none

/-- `CachedIpRule` -/
structure CachedIpRule (A : Type) where
  rule : IpRuleRecord A
  cidr : ParsedCidr
  deriving DecidableEq

/-- The rules with a network that parses. -/
def parsedIpRules {A : Type} (rules : List (IpRuleRecord A)) : List (CachedIpRule A) :=
  rules.filterMap fun rule => (parseCidr rule.networkCidr).map fun cidr => { rule, cidr }

/-- The comparison of the sort is not positive: longer prefix, or as long and not older. -/
def sortsBefore {A : Type} (left right : CachedIpRule A) : Bool :=
  right.cidr.length < left.cidr.length ||
    (right.cidr.length = left.cidr.length && right.rule.createdAt ≤ left.rule.createdAt)

/-- `ipRules` of `rulesForSite`, `rulesForRoute` and `rulesForStream`. -/
def cachedIpRules {A : Type} (rules : NetworkRules A) : List (CachedIpRule A) :=
  (parsedIpRules rules.ipRules).mergeSort sortsBefore

/-- The rule is unexpired and covers the address. -/
def applies {A : Type} (now : Int) (ip : List Char) (item : CachedIpRule A) : Bool :=
  active item.rule.expiresAt now && cidrContains item.cidr ip

def findIpRule {A : Type} (rules : NetworkRules A) (now : Int) (ip : List Char) :
    Option (IpRuleRecord A) :=
  if isUnknown ip then none else ((cachedIpRules rules).find? (applies now ip)).map (·.rule)

/-- `asnRules.get(asn)`, if it is active; a map keeps the last row of a key. -/
def findAsnRule {A : Type} (rules : NetworkRules A) (now : Int) (asn : Nat) :
    Option (AsnRuleRecord A) :=
  (rules.asnRules.reverse.find? (·.asn = asn)).filter fun rule => active rule.expiresAt now

def findCountryRule {A : Type} (rules : NetworkRules A) (now : Int) (countryCode : List Char) :
    Option (CountryRuleRecord A) :=
  (rules.countryRules.reverse.find? (·.countryCode = countryCode)).filter fun rule =>
    active rule.expiresAt now

/-! ## The chain -/

/-- The branch an evaluation returns from. -/
inductive NetworkMatch (A : Type)
  | ipRule (rule : IpRuleRecord A)
  | asnRule (rule : AsnRuleRecord A) (asn : Nat)
  | countryRule (rule : CountryRuleRecord A) (countryCode : List Char)
  | countryDefault (action : A) (countryCode : List Char)
  | ipDefault (action : A)
  | route
  deriving DecidableEq

/-- The part behind the country test; `none` goes on to the IP default. -/
def matchCountry {A : Type} (policy : NetworkPolicy A) (now : Int) (countryCode : List Char) :
    Option (NetworkMatch A) :=
  match findCountryRule policy.rules now countryCode with
  | some rule => some (.countryRule rule countryCode)
  | none => (configuredAction policy.defaultCountryAction).map (.countryDefault · countryCode)

def matchNetwork {A : Type} (policy : NetworkPolicy A) (now : Int) (ip : List Char)
    (located : Located) : NetworkMatch A :=
  match findIpRule policy.rules now ip with
  | some rule => .ipRule rule
  | none =>
      match located.asn.bind fun asn => (findAsnRule policy.rules now asn).map (.asnRule · asn) with
      | some hit => hit
      | none =>
          match located.countryCode.bind (matchCountry policy now) with
          | some hit => hit
          | none =>
              match configuredAction policy.defaultIpAction with
              | some action => .ipDefault action
              | none => .route

inductive NetworkDecisionSource
  | ipRule
  | asnRule
  | countryRule
  | countryDefault
  | ipDefault
  | route
  deriving DecidableEq

namespace NetworkMatch

variable {A : Type}

def action : NetworkMatch A → Option A
  | ipRule rule => some rule.action
  | asnRule rule _ => some rule.action
  | countryRule rule _ => some rule.action
  | countryDefault action _ => some action
  | ipDefault action => some action
  | route => none

def source : NetworkMatch A → NetworkDecisionSource
  | ipRule _ => .ipRule
  | asnRule _ _ => .asnRule
  | countryRule _ _ => .countryRule
  | countryDefault _ _ => .countryDefault
  | ipDefault _ => .ipDefault
  | route => .route

def expiresAt : NetworkMatch A → Option Int
  | ipRule rule => rule.expiresAt
  | asnRule rule _ => rule.expiresAt
  | countryRule rule _ => rule.expiresAt
  | _ => none

/-- `reason || fallback` -/
def statedReason (reason fallback : List Char) : List Char :=
  if reason = [] then fallback else reason

/-- The reason texts; `word` is `route ` in the copy for routes. -/
def reason (word : List Char) : NetworkMatch A → Option (List Char)
  | ipRule rule =>
      some (statedReason rule.reason
        ("Matched ".toList ++ word ++ "IP rule ".toList ++ rule.networkCidr))
  | asnRule rule asn =>
      some (statedReason rule.reason
        ("Matched ".toList ++ word ++ "ASN rule AS".toList ++ Nat.toDigits 10 asn))
  | countryRule rule countryCode =>
      some (statedReason rule.reason
        ("Matched ".toList ++ word ++ "country rule ".toList ++ countryCode))
  | countryDefault _ countryCode =>
      some ("Default ".toList ++ word ++ "country action for ".toList ++ countryCode)
  | ipDefault _ => some ("Default ".toList ++ word ++ "IP action".toList)
  | route => none

end NetworkMatch

/-! ## The three copies -/

inductive NetworkDecisionScope
  | site
  | route
  deriving DecidableEq

structure NetworkDecision where
  action : Option IpRuleAction
  source : NetworkDecisionSource
  scope : NetworkDecisionScope
  expiresAt : Option Int
  countryCode : Option (List Char)
  asn : Option Nat
  asnOrg : Option (List Char)
  reason : Option (List Char)
  routePolicyId : Option (List Char)
  deriving DecidableEq

def evaluateIp (geo : GeoIp) (site : NetworkPolicy IpRuleAction) (now : Int) (ip : List Char) :
    NetworkDecision :=
  let located := locate geo ip
  let hit := matchNetwork site now ip located
  { action := hit.action
    source := hit.source
    scope := .site
    expiresAt := hit.expiresAt
    countryCode := located.countryCode
    asn := located.asn
    asnOrg := located.asnOrg
    reason := hit.reason []
    routePolicyId := none }

def evaluateRouteIp (geo : GeoIp) (route : NetworkPolicy IpRuleAction) (now : Int)
    (ip : List Char) : NetworkDecision :=
  let located := locate geo ip
  let hit := matchNetwork route now ip located
  { action := hit.action
    source := hit.source
    scope := .route
    expiresAt := hit.expiresAt
    countryCode := located.countryCode
    asn := located.asn
    asnOrg := located.asnOrg
    reason := hit.reason "route ".toList
    routePolicyId := some route.id }

structure StreamNetworkDecision where
  action : Option StreamRuleAction
  source : NetworkDecisionSource
  ipRule : Option (IpRuleRecord StreamRuleAction)
  asnRule : Option (AsnRuleRecord StreamRuleAction)
  countryRule : Option (CountryRuleRecord StreamRuleAction)
  countryCode : Option (List Char)
  asn : Option Nat
  asnOrg : Option (List Char)
  reason : Option (List Char)
  deriving DecidableEq

def evaluateStreamIp (geo : GeoIp) (stream : NetworkPolicy StreamRuleAction) (now : Int)
    (ip : List Char) : StreamNetworkDecision :=
  let located := locate geo ip
  let hit := matchNetwork stream now ip located
  { action := hit.action
    source := hit.source
    ipRule := match hit with
      | .ipRule rule => some rule
      | _ => none
    asnRule := match hit with
      | .asnRule rule _ => some rule
      | _ => none
    countryRule := match hit with
      | .countryRule rule _ => some rule
      | _ => none
    countryCode := located.countryCode
    asn := located.asn
    asnOrg := located.asnOrg
    reason := hit.reason [] }

/-- The route evaluation reads the clock at `routeNow`, that of the site at `siteNow`. -/
def resolveNetworkDecision (geo : GeoIp) (site : NetworkPolicy IpRuleAction)
    (routePolicy : Option (NetworkPolicy IpRuleAction)) (routeNow siteNow : Int)
    (ip : List Char) : NetworkDecision :=
  match routePolicy with
  | some route =>
      let routeDecision := evaluateRouteIp geo route routeNow ip
      if routeDecision.action.isSome then routeDecision else evaluateIp geo site siteNow ip
  | none => evaluateIp geo site siteNow ip

end BurrowGate.Network
