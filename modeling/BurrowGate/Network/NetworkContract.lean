import BurrowGate.Network.DecisionSpec

/-!
# The three copies and the forms of an address

The copies differ in words only. An IPv4-mapped address finds the countries, the ASNs
and the private blocks of its IPv4 form, but no IP rule of it.
-/

namespace BurrowGate.Network

open Net
open Lib.PrefixBlock
open Lib.StableSort

variable {A B : Type}

/-! ## The same rules with other actions -/

def StreamRuleAction.toIpRuleAction : StreamRuleAction → IpRuleAction
  | allow => .allow
  | block => .block

def DefaultNetworkAction.map (f : A → B) : DefaultNetworkAction A → DefaultNetworkAction B
  | inherit => inherit
  | action a => action (f a)

def IpRuleRecord.map (f : A → B) (r : IpRuleRecord A) : IpRuleRecord B :=
  { networkCidr := r.networkCidr, action := f r.action, reason := r.reason,
    createdAt := r.createdAt, expiresAt := r.expiresAt }

def CountryRuleRecord.map (f : A → B) (r : CountryRuleRecord A) : CountryRuleRecord B :=
  { countryCode := r.countryCode, action := f r.action, reason := r.reason,
    expiresAt := r.expiresAt }

def AsnRuleRecord.map (f : A → B) (r : AsnRuleRecord A) : AsnRuleRecord B :=
  { asn := r.asn, action := f r.action, reason := r.reason, expiresAt := r.expiresAt }

def CachedIpRule.map (f : A → B) (item : CachedIpRule A) : CachedIpRule B :=
  { rule := item.rule.map f, cidr := item.cidr }

def NetworkRules.map (f : A → B) (rules : NetworkRules A) : NetworkRules B where
  ipRules := rules.ipRules.map (·.map f)
  countryRules := rules.countryRules.map (·.map f)
  asnRules := rules.asnRules.map (·.map f)
  country_unique := by
    have h := rules.country_unique
    rw [List.map_map]
    exact h
  asn_unique := by
    have h := rules.asn_unique
    rw [List.map_map]
    exact h

def NetworkPolicy.map (f : A → B) (policy : NetworkPolicy A) : NetworkPolicy B where
  id := policy.id
  rules := policy.rules.map f
  defaultIpAction := policy.defaultIpAction.map (·.map f)
  defaultCountryAction := policy.defaultCountryAction.map (·.map f)

def NetworkMatch.map (f : A → B) : NetworkMatch A → NetworkMatch B
  | ipRule rule => ipRule (rule.map f)
  | asnRule rule asn => asnRule (rule.map f) asn
  | countryRule rule code => countryRule (rule.map f) code
  | countryDefault action code => countryDefault (f action) code
  | ipDefault action => ipDefault (f action)
  | route => route

theorem configuredAction_map (f : A → B) (default : Option (DefaultNetworkAction A)) :
    configuredAction (default.map (·.map f)) = (configuredAction default).map f := by
  cases default with
  | none => rfl
  | some d => cases d <;> rfl

theorem parsedIpRules_map (f : A → B) (rules : List (IpRuleRecord A)) :
    parsedIpRules (rules.map (·.map f)) = (parsedIpRules rules).map (·.map f) := by
  unfold parsedIpRules
  rw [List.filterMap_map, List.map_filterMap]
  congr 1
  funext rule
  show (parseCidr rule.networkCidr).map _ = _
  rw [Option.map_map]
  rfl

theorem findIpRule_map (f : A → B) (rules : NetworkRules A) (now : Int) (ip : List Char) :
    findIpRule (rules.map f) now ip = (findIpRule rules now ip).map (·.map f) := by
  unfold findIpRule cachedIpRules
  split
  · rfl
  · have hsort : (parsedIpRules (rules.map f).ipRules).mergeSort sortsBefore =
        ((parsedIpRules rules.ipRules).mergeSort sortsBefore).map (·.map f) := by
      show (parsedIpRules (rules.ipRules.map (·.map f))).mergeSort sortsBefore = _
      rw [parsedIpRules_map]
      exact (List.map_mergeSort (f := fun item : CachedIpRule A => item.map f)
        fun _ _ _ _ => rfl).symm
    rw [hsort, List.find?_map, Option.map_map, Option.map_map]
    rfl

theorem findAsnRule_map (f : A → B) (rules : NetworkRules A) (now : Int) (asn : Nat) :
    findAsnRule (rules.map f) now asn = (findAsnRule rules now asn).map (·.map f) := by
  unfold findAsnRule
  show ((rules.asnRules.map (·.map f)).reverse.find? (·.asn = asn)).filter _ = _
  rw [← List.map_reverse, List.find?_map, Option.filter_map]
  rfl

theorem findCountryRule_map (f : A → B) (rules : NetworkRules A) (now : Int) (code : List Char) :
    findCountryRule (rules.map f) now code = (findCountryRule rules now code).map (·.map f) := by
  unfold findCountryRule
  show ((rules.countryRules.map (·.map f)).reverse.find? (·.countryCode = code)).filter _ = _
  rw [← List.map_reverse, List.find?_map, Option.filter_map]
  rfl

theorem matchCountry_map (f : A → B) (policy : NetworkPolicy A) (now : Int) (code : List Char) :
    matchCountry (policy.map f) now code = (matchCountry policy now code).map (·.map f) := by
  have hfind : findCountryRule (policy.map f).rules now code =
      (findCountryRule policy.rules now code).map (·.map f) :=
    findCountryRule_map f policy.rules now code
  have hdefault : configuredAction (policy.map f).defaultCountryAction =
      (configuredAction policy.defaultCountryAction).map f :=
    configuredAction_map f policy.defaultCountryAction
  unfold matchCountry
  rw [hfind, hdefault]
  cases findCountryRule policy.rules now code with
  | some rule => rfl
  | none => cases configuredAction policy.defaultCountryAction <;> rfl

/-- The chain does not look at the actions. -/
theorem matchNetwork_map (f : A → B) (policy : NetworkPolicy A) (now : Int) (ip : List Char)
    (located : Located) :
    matchNetwork (policy.map f) now ip located = (matchNetwork policy now ip located).map f := by
  have hip : findIpRule (policy.map f).rules now ip =
      (findIpRule policy.rules now ip).map (·.map f) := findIpRule_map f policy.rules now ip
  have hasn : (located.asn.bind fun asn => (findAsnRule (policy.map f).rules now asn).map
        (NetworkMatch.asnRule · asn)) =
      (located.asn.bind fun asn => (findAsnRule policy.rules now asn).map
        (NetworkMatch.asnRule · asn)).map (·.map f) := by
    cases located.asn with
    | none => rfl
    | some asn =>
        have hfind : findAsnRule (policy.map f).rules now asn = _ :=
          findAsnRule_map f policy.rules now asn
        rw [Option.bind_some, Option.bind_some, hfind, Option.map_map, Option.map_map]
        rfl
  have hcountry : located.countryCode.bind (matchCountry (policy.map f) now) =
      (located.countryCode.bind (matchCountry policy now)).map (·.map f) := by
    cases located.countryCode with
    | none => rfl
    | some code => exact matchCountry_map f policy now code
  have hdefault : configuredAction (policy.map f).defaultIpAction =
      (configuredAction policy.defaultIpAction).map f :=
    configuredAction_map f policy.defaultIpAction
  unfold matchNetwork
  rw [hip, hasn, hcountry, hdefault]
  cases findIpRule policy.rules now ip with
  | some rule => rfl
  | none =>
      cases located.asn.bind fun asn => (findAsnRule policy.rules now asn).map
          (NetworkMatch.asnRule · asn) with
      | some hit => rfl
      | none =>
          cases located.countryCode.bind (matchCountry policy now) with
          | some hit => rfl
          | none => cases configuredAction policy.defaultIpAction <;> rfl

theorem NetworkMatch.map_action (f : A → B) (hit : NetworkMatch A) :
    (hit.map f).action = hit.action.map f := by
  cases hit <;> rfl

theorem NetworkMatch.map_source (f : A → B) (hit : NetworkMatch A) :
    (hit.map f).source = hit.source := by
  cases hit <;> rfl

/-- A site with the rules and defaults of a stream decides like the stream. -/
theorem evaluateStreamIp_agrees (geo : GeoIp) (stream : NetworkPolicy StreamRuleAction)
    (now : Int) (ip : List Char) :
    (evaluateIp geo (stream.map (·.toIpRuleAction)) now ip).action =
        (evaluateStreamIp geo stream now ip).action.map (·.toIpRuleAction) ∧
      (evaluateIp geo (stream.map (·.toIpRuleAction)) now ip).source =
        (evaluateStreamIp geo stream now ip).source := by
  dsimp only [evaluateIp, evaluateStreamIp]
  rw [matchNetwork_map]
  exact ⟨NetworkMatch.map_action _ _, NetworkMatch.map_source _ _⟩

/-! ## The route decision first -/

theorem resolve_route_iff (geo : GeoIp) (site route : NetworkPolicy IpRuleAction)
    (routeNow siteNow : Int) (ip : List Char) :
    resolveNetworkDecision geo site (some route) routeNow siteNow ip =
        evaluateRouteIp geo route routeNow ip ↔
      (evaluateRouteIp geo route routeNow ip).action ≠ none := by
  dsimp only [resolveNetworkDecision]
  cases haction : (evaluateRouteIp geo route routeNow ip).action with
  | some action => simp
  | none =>
      have hscope : (evaluateIp geo site siteNow ip).scope ≠
          (evaluateRouteIp geo route routeNow ip).scope := by
        show NetworkDecisionScope.site ≠ NetworkDecisionScope.route
        decide
      constructor
      · intro h
        exact absurd (congrArg NetworkDecision.scope h) hscope
      · exact fun h => absurd rfl h

theorem resolve_site {geo : GeoIp} {site route : NetworkPolicy IpRuleAction}
    {routeNow siteNow : Int} {ip : List Char}
    (h : (evaluateRouteIp geo route routeNow ip).action = none) :
    resolveNetworkDecision geo site (some route) routeNow siteNow ip =
      evaluateIp geo site siteNow ip := by
  dsimp only [resolveNetworkDecision]
  rw [h]
  rfl

/-! ## Both forms are located alike -/

/-- The databases answer an IPv4-mapped address as they do its IPv4 form. -/
structure GeoIp.Alike (geo : GeoIp) (ip mapped : List Char) : Prop where
  validate : geo.validate mapped = geo.validate ip
  reader : ∀ get, geo.reader = some get → get mapped = get ip
  asnReader : ∀ get, geo.asnReader = some get → get mapped = get ip

/-- `mapped` is an IPv4-mapped IPv6 form of the IPv4 address `ip`. -/
structure MappedForm (ip mapped : List Char) (value : Nat) : Prop where
  v4 : parseIp ip = some { version := .v4, value }
  v6 : parseIp mapped = some { version := .v6, value := 0xffff * 2 ^ 32 + value }

theorem MappedForm.lt {ip mapped : List Char} {value : Nat} (h : MappedForm ip mapped value) :
    value < 2 ^ 32 := parseIp_lt h.v4

/-- The private IPv6 blocks hold no IPv4-mapped address. -/
theorem privateCidrs_v6 : ∀ c ∈ privateCidrs, c.version = .v6 →
    c.bits = 128 ∧ (c.length = 128 ∧ c.network = 1 ∨ 2 ^ 48 ≤ c.network) := by
  decide +kernel

theorem not_contains_mapped {c : ParsedCidr} {value : Nat} (hc : c ∈ privateCidrs)
    (hv : value < 2 ^ 32) :
    c.contains { version := .v6, value := 0xffff * 2 ^ 32 + value } = false := by
  by_cases hversion : c.version = .v6
  · obtain ⟨hbits, hshape⟩ := privateCidrs_v6 c hc hversion
    have hle := mask_le (c.bits - c.length) (0xffff * 2 ^ 32 + value)
    have hne : mask (c.bits - c.length) (0xffff * 2 ^ 32 + value) ≠ c.network := by
      rcases hshape with ⟨hlength, hnetwork⟩ | hnetwork
      · rw [hbits, hlength, hnetwork, Nat.sub_self, mask_eq]
        omega
      · omega
    have hfalse : (decide (c.version = .v6) &&
        decide (mask (c.bits - c.length) (0xffff * 2 ^ 32 + value) = c.network)) = false := by
      rw [decide_eq_false hne, Bool.and_false]
    exact hfalse
  · simp [ParsedCidr.contains, hversion]

theorem isPrivateIp_mapped {ip mapped : List Char} {value : Nat} (h : MappedForm ip mapped value) :
    isPrivateIp mapped = isPrivateIp ip := by
  have htop : (0xffff * 2 ^ 32 + value) >>> 32 = 0xffff := by
    have := h.lt
    rw [Nat.shiftRight_eq_div_pow]
    omega
  have hlow : (0xffff * 2 ^ 32 + value) % 2 ^ 32 = value := by
    have := h.lt
    omega
  rw [isPrivateIp_eq, isPrivateIp_eq, h.v4, h.v6, Option.any_some, Option.any_some]
  unfold privateBlocks
  rw [List.any_append, List.any_append, List.any_map, List.any_map, List.any_filter,
    List.any_filter]
  have hnone : privateCidrs.any (·.contains
      { version := .v6, value := 0xffff * 2 ^ 32 + value }) = false :=
    List.any_eq_false.mpr fun c hc => by
      rw [not_contains_mapped hc h.lt]
      exact Bool.false_ne_true
  have hmapped : privateCidrs.any (fun c => c.version = .v4 &&
        c.mapped.contains { version := .v4, value }) = false :=
    List.any_eq_false.mpr fun c _ => by simp [ParsedCidr.contains, ParsedCidr.mapped]
  rw [hnone, Bool.false_or]
  refine Eq.trans ?_ ((congrArg (privateCidrs.any _ || ·) hmapped).trans (Bool.or_false _)).symm
  refine any_congr_of_mem fun c hc => ?_
  by_cases hv : c.version = .v4
  · have := mapped_contains (mem_privateCidrs hc) hv (0xffff * 2 ^ 32 + value)
    rw [Function.comp_apply, this, htop, hlow]
    simp [hv]
  · simp [hv, ParsedCidr.contains]

theorem MappedForm.known {ip mapped : List Char} {value : Nat} (h : MappedForm ip mapped value) :
    isUnknown ip = false ∧ isUnknown mapped = false :=
  ⟨isUnknown_of_parseIp (by rw [h.v4]; rfl), isUnknown_of_parseIp (by rw [h.v6]; rfl)⟩

theorem countryCodeForStorage_mapped {geo : GeoIp} {ip mapped : List Char} {value : Nat}
    (h : MappedForm ip mapped value) (hgeo : geo.Alike ip mapped) :
    countryCodeForStorage geo mapped = countryCodeForStorage geo ip := by
  unfold countryCodeForStorage lookupCountryCode
  rw [isPrivateIp_mapped h, hgeo.validate]
  cases hreader : geo.reader with
  | none => rfl
  | some get => simp only [hgeo.reader get hreader]

theorem asnForStorage_mapped {geo : GeoIp} {ip mapped : List Char} {value : Nat}
    (h : MappedForm ip mapped value) (hgeo : geo.Alike ip mapped) :
    asnForStorage geo mapped = asnForStorage geo ip := by
  unfold asnForStorage lookupAsn
  rw [isPrivateIp_mapped h, hgeo.validate]
  cases hreader : geo.asnReader with
  | none => rfl
  | some get => simp only [hgeo.asnReader get hreader]

theorem locate_mapped {geo : GeoIp} {ip mapped : List Char} {value : Nat}
    (h : MappedForm ip mapped value) (hgeo : geo.Alike ip mapped) :
    locate geo mapped = locate geo ip := by
  unfold locate
  rw [h.known.1, h.known.2, countryCodeForStorage_mapped h hgeo, asnForStorage_mapped h hgeo]

/-! ## The decisions of both forms -/

/-- No unexpired rule covers either form, or the rules selected for them say the same. -/
def FormsAlike (same : IpRuleRecord A → IpRuleRecord A → Prop) (rules : NetworkRules A)
    (now : Int) (ip mapped : List Char) : Prop :=
  (NoIpRule rules now ip ∧ NoIpRule rules now mapped) ∨
    ∃ item other, Selected rules now ip item ∧ Selected rules now mapped other ∧
      same item.rule other.rule

/-- Two rules of a site or a route rule alike; `word` is that of their reason texts. -/
def SameRuling (word : List Char) (rule other : IpRuleRecord A) : Prop :=
  other.action = rule.action ∧ other.expiresAt = rule.expiresAt ∧
    (NetworkMatch.ipRule other).reason word = (NetworkMatch.ipRule rule).reason word

/-- Two rules of a stream rule alike: a stream decision has no expiry. -/
def SameStreamRuling (rule other : IpRuleRecord A) : Prop :=
  other.action = rule.action ∧
    (NetworkMatch.ipRule other).reason [] = (NetworkMatch.ipRule rule).reason []

theorem matchNetwork_selected {policy : NetworkPolicy A} {now : Int} {ip : List Char}
    {located : Located} {item : CachedIpRule A} (h : Selected policy.rules now ip item) :
    matchNetwork policy now ip located = .ipRule item.rule := by
  unfold matchNetwork
  rw [findIpRule_some h]

theorem matchNetwork_noIpRule {policy : NetworkPolicy A} {now : Int} {ip mapped : List Char}
    {located : Located} (hip : NoIpRule policy.rules now ip)
    (hmapped : NoIpRule policy.rules now mapped) :
    matchNetwork policy now mapped located = matchNetwork policy now ip located := by
  unfold matchNetwork
  rw [findIpRule_none hip, findIpRule_none hmapped]

theorem source_noIpRule {policy : NetworkPolicy A} {now : Int} {ip : List Char}
    {located : Located} (h : NoIpRule policy.rules now ip) :
    (matchNetwork policy now ip located).source ≠ .ipRule := by
  obtain ⟨action, source, expiresAt, hdecides⟩ := decides_exists policy now ip located
  rw [hdecides.eq_match.2.1]
  cases hdecides with
  | ipRule hselected => exact absurd h hselected.not_noIpRule
  | _ => exact NetworkDecisionSource.noConfusion

/-- Whatever a caller sees of the branch, as long as it sees which branch it is. -/
theorem view_mapped_iff {V : Type} (view : NetworkMatch A → V)
    (hview : ∀ hit hit', view hit = view hit' → hit.source = hit'.source)
    (policy : NetworkPolicy A) (now : Int) (ip mapped : List Char) (located : Located) :
    view (matchNetwork policy now mapped located) = view (matchNetwork policy now ip located) ↔
      FormsAlike (fun rule other => view (.ipRule other) = view (.ipRule rule)) policy.rules now
        ip mapped := by
  constructor
  · intro h
    have hsource := hview _ _ h
    rcases selected_or_none policy.rules now ip with ⟨item, hitem⟩ | hip
    · rcases selected_or_none policy.rules now mapped with ⟨other, hother⟩ | hmapped
      · rw [matchNetwork_selected hitem, matchNetwork_selected hother] at h
        exact .inr ⟨item, other, hitem, hother, h⟩
      · rw [matchNetwork_selected hitem] at hsource
        exact absurd hsource (source_noIpRule hmapped)
    · rcases selected_or_none policy.rules now mapped with ⟨other, hother⟩ | hmapped
      · rw [matchNetwork_selected hother] at hsource
        exact absurd hsource.symm (source_noIpRule hip)
      · exact .inl ⟨hip, hmapped⟩
  · rintro (⟨hip, hmapped⟩ | ⟨item, other, hitem, hother, hsame⟩)
    · rw [matchNetwork_noIpRule hip hmapped]
    · rw [matchNetwork_selected hitem, matchNetwork_selected hother]
      exact hsame

/-- The decision of `evaluateIp` for a branch, and that of `evaluateRouteIp` with its words. -/
def decisionOf (scope : NetworkDecisionScope) (word : List Char) (id : Option (List Char))
    (located : Located) (hit : NetworkMatch IpRuleAction) : NetworkDecision :=
  { action := hit.action
    source := hit.source
    scope
    expiresAt := hit.expiresAt
    countryCode := located.countryCode
    asn := located.asn
    asnOrg := located.asnOrg
    reason := hit.reason word
    routePolicyId := id }

theorem decisionOf_mapped_iff (scope : NetworkDecisionScope) (word : List Char)
    (id : Option (List Char)) (located : Located) (policy : NetworkPolicy IpRuleAction)
    (now : Int) (ip mapped : List Char) :
    decisionOf scope word id located (matchNetwork policy now mapped located) =
        decisionOf scope word id located (matchNetwork policy now ip located) ↔
      FormsAlike (SameRuling word) policy.rules now ip mapped := by
  rw [view_mapped_iff (decisionOf scope word id located)
    (fun hit hit' h => congrArg NetworkDecision.source h)]
  have hsame : (fun rule other : IpRuleRecord IpRuleAction =>
      decisionOf scope word id located (.ipRule other) =
        decisionOf scope word id located (.ipRule rule)) = SameRuling word := by
    funext rule other
    rw [eq_iff_iff, decisionOf, decisionOf, NetworkDecision.mk.injEq]
    simp [SameRuling, NetworkMatch.action, NetworkMatch.source, NetworkMatch.expiresAt]
  rw [hsame]

theorem evaluateIp_mapped_iff {geo : GeoIp} {ip mapped : List Char} {value : Nat}
    (h : MappedForm ip mapped value) (hgeo : geo.Alike ip mapped)
    (site : NetworkPolicy IpRuleAction) (now : Int) :
    evaluateIp geo site now mapped = evaluateIp geo site now ip ↔
      FormsAlike (SameRuling []) site.rules now ip mapped := by
  dsimp only [evaluateIp]
  rw [locate_mapped h hgeo]
  exact decisionOf_mapped_iff .site [] none (locate geo ip) site now ip mapped

theorem evaluateRouteIp_mapped_iff {geo : GeoIp} {ip mapped : List Char} {value : Nat}
    (h : MappedForm ip mapped value) (hgeo : geo.Alike ip mapped)
    (route : NetworkPolicy IpRuleAction) (now : Int) :
    evaluateRouteIp geo route now mapped = evaluateRouteIp geo route now ip ↔
      FormsAlike (SameRuling "route ".toList) route.rules now ip mapped := by
  dsimp only [evaluateRouteIp]
  rw [locate_mapped h hgeo]
  exact decisionOf_mapped_iff .route "route ".toList (some route.id) (locate geo ip) route now ip
    mapped

/-- Two stream decisions are the same but for the rows they cite. -/
def StreamNetworkDecision.SameVerdict (d d' : StreamNetworkDecision) : Prop :=
  d.action = d'.action ∧ d.source = d'.source ∧ d.reason = d'.reason ∧
    d.countryCode = d'.countryCode ∧ d.asn = d'.asn ∧ d.asnOrg = d'.asnOrg

theorem evaluateStreamIp_mapped_iff {geo : GeoIp} {ip mapped : List Char} {value : Nat}
    (h : MappedForm ip mapped value) (hgeo : geo.Alike ip mapped)
    (stream : NetworkPolicy StreamRuleAction) (now : Int) :
    (evaluateStreamIp geo stream now mapped).SameVerdict (evaluateStreamIp geo stream now ip) ↔
      FormsAlike SameStreamRuling stream.rules now ip mapped := by
  have hview := view_mapped_iff
    (fun hit : NetworkMatch StreamRuleAction => (hit.action, hit.source, hit.reason []))
    (fun hit hit' heq => (Prod.mk.inj (Prod.mk.inj heq).2).1) stream now ip mapped (locate geo ip)
  have hsame : (fun rule other : IpRuleRecord StreamRuleAction =>
      ((NetworkMatch.ipRule other).action, (NetworkMatch.ipRule other).source,
          (NetworkMatch.ipRule other).reason []) =
        ((NetworkMatch.ipRule rule).action, (NetworkMatch.ipRule rule).source,
          (NetworkMatch.ipRule rule).reason [])) = SameStreamRuling := by
    funext rule other
    simp [SameStreamRuling, NetworkMatch.action, NetworkMatch.source]
  rw [hsame] at hview
  rw [← hview]
  dsimp only [evaluateStreamIp, StreamNetworkDecision.SameVerdict]
  rw [locate_mapped h hgeo, Prod.mk.injEq, Prod.mk.injEq]
  simp only [and_true]

/-! ## The contract -/

/-- What a decision is, that the copies agree, which decision wins, and that an IPv4-mapped
address is decided like its IPv4 form. -/
structure DecisionContract (geo : GeoIp) (site route : NetworkPolicy IpRuleAction)
    (stream : NetworkPolicy StreamRuleAction) (now : Int) (ip mapped : List Char) : Prop where
  decides : ∀ address action source expiresAt,
    Decides site now address (locate geo address) action source expiresAt ↔
      (evaluateIp geo site now address).action = action ∧
      (evaluateIp geo site now address).source = source ∧
      (evaluateIp geo site now address).expiresAt = expiresAt
  route_agrees : ∀ (other : NetworkPolicy IpRuleAction) (address : List Char),
    other.rules = site.rules → other.defaultIpAction = site.defaultIpAction →
      other.defaultCountryAction = site.defaultCountryAction →
      (evaluateRouteIp geo other now address).action = (evaluateIp geo site now address).action ∧
      (evaluateRouteIp geo other now address).source = (evaluateIp geo site now address).source
  stream_agrees : ∀ address : List Char,
    (evaluateIp geo (stream.map (·.toIpRuleAction)) now address).action =
        (evaluateStreamIp geo stream now address).action.map (·.toIpRuleAction) ∧
      (evaluateIp geo (stream.map (·.toIpRuleAction)) now address).source =
        (evaluateStreamIp geo stream now address).source
  resolves_route : ∀ (routeNow : Int) (address : List Char),
    resolveNetworkDecision geo site (some route) routeNow now address =
        evaluateRouteIp geo route routeNow address ↔
      (evaluateRouteIp geo route routeNow address).action ≠ none
  resolves_site : ∀ (routeNow : Int) (address : List Char),
    (evaluateRouteIp geo route routeNow address).action = none →
      resolveNetworkDecision geo site (some route) routeNow now address =
        evaluateIp geo site now address
  site_mapped : evaluateIp geo site now mapped = evaluateIp geo site now ip
  route_mapped : evaluateRouteIp geo route now mapped = evaluateRouteIp geo route now ip
  stream_mapped :
    (evaluateStreamIp geo stream now mapped).SameVerdict (evaluateStreamIp geo stream now ip)

theorem evaluateRouteIp_agrees (geo : GeoIp) {site route : NetworkPolicy IpRuleAction}
    (now : Int) (ip : List Char) (hrules : route.rules = site.rules)
    (hip : route.defaultIpAction = site.defaultIpAction)
    (hcountry : route.defaultCountryAction = site.defaultCountryAction) :
    (evaluateRouteIp geo route now ip).action = (evaluateIp geo site now ip).action ∧
      (evaluateRouteIp geo route now ip).source = (evaluateIp geo site now ip).source := by
  have hmatch : matchNetwork route now ip (locate geo ip) =
      matchNetwork site now ip (locate geo ip) := by
    unfold matchNetwork matchCountry
    rw [hrules, hip, hcountry]
  dsimp only [evaluateRouteIp, evaluateIp]
  rw [hmatch]
  exact ⟨rfl, rfl⟩

/-- All of the contract holds, but for the two forms of an address: these are decided alike
exactly when no unexpired IP rule covers either of them, or the rules selected for them rule
alike. -/
theorem network_decision_contract {geo : GeoIp} {ip mapped : List Char} {value : Nat}
    (h : MappedForm ip mapped value) (hgeo : geo.Alike ip mapped)
    (site route : NetworkPolicy IpRuleAction) (stream : NetworkPolicy StreamRuleAction)
    (now : Int) :
    DecisionContract geo site route stream now ip mapped ↔
      FormsAlike (SameRuling []) site.rules now ip mapped ∧
      FormsAlike (SameRuling "route ".toList) route.rules now ip mapped ∧
      FormsAlike SameStreamRuling stream.rules now ip mapped := by
  have hsite := evaluateIp_mapped_iff h hgeo site now
  have hroute := evaluateRouteIp_mapped_iff h hgeo route now
  have hstream := evaluateStreamIp_mapped_iff h hgeo stream now
  constructor
  · intro hcontract
    exact ⟨hsite.mp hcontract.site_mapped, hroute.mp hcontract.route_mapped,
      hstream.mp hcontract.stream_mapped⟩
  · rintro ⟨hs, hr, ht⟩
    exact
      { decides := fun _ _ _ _ => decides_iff
        route_agrees := fun _ address => evaluateRouteIp_agrees geo now address
        stream_agrees := evaluateStreamIp_agrees geo stream now
        resolves_route := fun routeNow => resolve_route_iff geo site route routeNow now
        resolves_site := fun _ _ => resolve_site
        site_mapped := hsite.mpr hs
        route_mapped := hroute.mpr hr
        stream_mapped := hstream.mpr ht }

/-! ## Two policies -/

section Example

/-- A database with one network, 203.0.113.0/24, under both of its forms. -/
def documentationGeo : GeoIp where
  validate ip := (isIP ip).isSome
  reader := some fun ip =>
    if (parseIp ip).any (fun p => p.value % 2 ^ 32 / 256 = 0xcb0071) then
      some { country := some "AU".toList, registeredCountry := none }
    else none
  asnReader := none

def noRules (A : Type) : NetworkRules A where
  ipRules := []
  countryRules := []
  asnRules := []
  country_unique := List.nodup_nil
  asn_unique := List.nodup_nil

/-- One IP rule for 203.0.113.0/24, besides a country rule. -/
def blocklist {A : Type} (networkCidr : String) (action : A) : NetworkRules A where
  ipRules := [⟨networkCidr.toList, action, "spam".toList, 1, none⟩]
  countryRules := [⟨"AU".toList, action, [], some 90⟩]
  asnRules := []
  country_unique := List.nodup_singleton _
  asn_unique := List.nodup_nil

def policyWith {A : Type} (rules : NetworkRules A) : NetworkPolicy A where
  id := "policy".toList
  rules
  defaultIpAction := some .inherit
  defaultCountryAction := none

theorem documentationGeo_alike :
    documentationGeo.Alike "203.0.113.5".toList "::ffff:203.0.113.5".toList where
  validate := by decide +kernel
  reader := by
    intro get hget
    obtain rfl := Option.some.inj hget
    dsimp only
    rw [show parseIp "203.0.113.5".toList = some { version := .v4, value := 0xcb007105 } by
        decide +kernel,
      show parseIp "::ffff:203.0.113.5".toList =
        some { version := .v6, value := 0xffffcb007105 } by decide +kernel]
    rfl
  asnReader := fun get hget => by cases hget

theorem documentation_form :
    MappedForm "203.0.113.5".toList "::ffff:203.0.113.5".toList 0xcb007105 where
  v4 := by decide +kernel
  v6 := by decide +kernel

/-- A rule for other networks leaves both forms to the country rule. -/
theorem network_decision_contract_country :
    DecisionContract documentationGeo (policyWith (blocklist "198.51.100.0/24" .block))
      (policyWith (noRules _)) (policyWith (blocklist "2001:db8::/32" .block)) 50
      "203.0.113.5".toList "::ffff:203.0.113.5".toList := by
  refine (network_decision_contract documentation_form documentationGeo_alike _ _ _ _).mpr
    ⟨.inl ?_, .inl ?_, .inl ?_⟩ <;>
    exact ⟨by unfold NoIpRule; decide +kernel, by unfold NoIpRule; decide +kernel⟩

/-- A blocked IPv4 address gets through in its IPv4-mapped form. -/
theorem network_decision_mapped :
    (evaluateIp documentationGeo (policyWith (blocklist "203.0.113.0/24" .block)) 100
        "203.0.113.5".toList).action = some .block ∧
      (evaluateIp documentationGeo (policyWith (blocklist "203.0.113.0/24" .block)) 100
        "::ffff:203.0.113.5".toList).action = none ∧
      ¬ DecisionContract documentationGeo (policyWith (blocklist "203.0.113.0/24" .block))
        (policyWith (noRules _)) (policyWith (noRules _)) 100
        "203.0.113.5".toList "::ffff:203.0.113.5".toList := by
  have hblocked : (evaluateIp documentationGeo (policyWith (blocklist "203.0.113.0/24" .block)) 100
      "203.0.113.5".toList).action = some .block := by decide +kernel
  have hopen : (evaluateIp documentationGeo (policyWith (blocklist "203.0.113.0/24" .block)) 100
      "::ffff:203.0.113.5".toList).action = none := by decide +kernel
  refine ⟨hblocked, hopen, fun hcontract => ?_⟩
  rw [hcontract.site_mapped, hblocked] at hopen
  cases hopen

end Example

end BurrowGate.Network
