import BurrowGate.Http.Cors

/-!
# A resolved CORS policy

Neither half of a policy allows every origin with credentials. The merge takes the two
fields from different halves, so the resolved policy may.
-/

namespace BurrowGate.Http

open Js

/-! ## Each half excludes the combination -/

theorem bind_ok {ε α β : Type} {x : Except ε α} {f : α → Except ε β} {b : β}
    (h : (x >>= f) = .ok b) : ∃ a, x = .ok a ∧ f a = .ok b := by
  cases x with
  | error e => cases h
  | ok a => exact ⟨a, rfl, h⟩

theorem parseSiteCors_excludes {cases : CaseMapping} {value : JsValue} {cors : SiteCorsPolicy}
    (h : parseSiteCors cases value = .ok cors) :
    ¬ (cors.allowCredentials = true ∧ wildcard ∈ cors.allowedOrigins) := by
  unfold parseSiteCors at h
  obtain ⟨allowCredentials, -, h⟩ := bind_ok h
  obtain ⟨allowedOrigins, -, h⟩ := bind_ok h
  split at h
  · cases h
  · rename_i hexcluded
    obtain ⟨mode, -, h⟩ := bind_ok h
    obtain ⟨allowedMethods, -, h⟩ := bind_ok h
    obtain ⟨allowedHeaders, -, h⟩ := bind_ok h
    obtain ⟨exposedHeaders, -, h⟩ := bind_ok h
    obtain ⟨maxAgeSeconds, -, h⟩ := bind_ok h
    obtain rfl := Except.ok.inj h
    exact hexcluded

theorem parseRouteCors_excludes {cases : CaseMapping} {value : JsValue} {cors : RouteCorsPolicy}
    (h : parseRouteCors cases value = .ok cors) :
    ¬ (cors.allowCredentials = some true ∧ wildcard ∈ cors.allowedOrigins.getD []) := by
  unfold parseRouteCors at h
  obtain ⟨allowCredentials, -, h⟩ := bind_ok h
  obtain ⟨allowedOrigins, -, h⟩ := bind_ok h
  split at h
  · cases h
  · rename_i hexcluded
    obtain ⟨mode, -, h⟩ := bind_ok h
    obtain ⟨allowedMethods, -, h⟩ := bind_ok h
    obtain ⟨allowedHeaders, -, h⟩ := bind_ok h
    obtain ⟨exposedHeaders, -, h⟩ := bind_ok h
    obtain ⟨maxAgeSeconds, -, h⟩ := bind_ok h
    obtain rfl := Except.ok.inj h
    exact hexcluded

theorem storedSiteCors_excludes (cases : CaseMapping) (others : OtherSections)
    (stored : JsValue) :
    ¬ ((storedSiteCors cases others stored).allowCredentials = true ∧
      wildcard ∈ (storedSiteCors cases others stored).allowedOrigins) := by
  unfold storedSiteCors
  split
  · rename_i cors hparse _
    exact parseSiteCors_excludes hparse
  · exact fun h => Bool.false_ne_true h.1

theorem routeCors_excludes (cases : CaseMapping) (others : OtherSections)
    (policy : Option JsValue) :
    ¬ ((routeCors cases others policy).allowCredentials = some true ∧
      wildcard ∈ (routeCors cases others policy).allowedOrigins.getD []) := by
  cases policy with
  | none => exact fun h => List.not_mem_nil h.2
  | some stored =>
      show ¬ ((storedRouteCors cases others stored).allowCredentials = some true ∧
        wildcard ∈ (storedRouteCors cases others stored).allowedOrigins.getD [])
      unfold storedRouteCors
      split
      · rename_i cors hparse _
        exact parseRouteCors_excludes hparse
      · exact fun h => List.not_mem_nil h.2

/-! ## The headers -/

theorem Headers.set_other {headers : Headers} {name other value : List Char} (h : other ≠ name) :
    headers.set name value other = headers other := if_neg h

theorem varyByOrigin_other {headers : Headers} {name : List Char} (h : name ≠ VARY) :
    varyByOrigin headers name = headers name := by
  unfold varyByOrigin
  rcases headers VARY with _ | _ | ⟨c, vary⟩
  · exact Headers.set_other h
  · exact Headers.set_other h
  · dsimp only
    split
    · rfl
    · exact Headers.set_other h

theorem allowOrigin_credentials (headers : Headers) (origin : List Char)
    (policy : SiteCorsPolicy) :
    allowOrigin headers origin policy ALLOW_CREDENTIALS = headers ALLOW_CREDENTIALS := by
  have horigin : ALLOW_CREDENTIALS ≠ ALLOW_ORIGIN := by decide
  have hvary : ALLOW_CREDENTIALS ≠ VARY := by decide
  unfold allowOrigin
  split
  · exact Headers.set_other horigin
  · rw [varyByOrigin_other hvary, Headers.set_other horigin]

theorem exposeHeaders_other {headers : Headers} {policy : SiteCorsPolicy} {name : List Char}
    (h : name ≠ EXPOSE_HEADERS) : exposeHeaders headers policy name = headers name := by
  unfold exposeHeaders
  split
  · rfl
  · exact Headers.set_other h

/-- Without credentials in the policy the response headers do not get them. -/
theorem applyCors_credentials {headers : Headers} {origin : Option (List Char)}
    {policy : SiteCorsPolicy} (h : policy.allowCredentials = false) :
    applyCorsResponseHeaders headers origin policy ALLOW_CREDENTIALS =
      headers ALLOW_CREDENTIALS := by
  have hexpose : ALLOW_CREDENTIALS ≠ EXPOSE_HEADERS := by decide
  unfold applyCorsResponseHeaders
  split
  · rfl
  · split
    · rfl
    · rfl
    · split
      · rw [exposeHeaders_other hexpose, h, if_neg Bool.false_ne_true]
        exact allowOrigin_credentials headers _ policy
      · rfl

/-- An origin that is not allowed leaves the headers alone. -/
theorem applyCors_denied {headers : Headers} {origin : List Char} {policy : SiteCorsPolicy}
    (h : corsOriginAllowed origin policy = false) :
    applyCorsResponseHeaders headers (some origin) policy = headers := by
  unfold applyCorsResponseHeaders
  split
  · rfl
  · split
    · rfl
    · rfl
    · rename_i heq
      obtain rfl := Option.some.inj heq
      rw [h, if_neg Bool.false_ne_true]

/-! ## The resolved policy -/

/-- Not every origin with credentials, in the policy and in the headers it makes. -/
structure NeverGrantsAll (policy : SiteCorsPolicy) : Prop where
  exclusive : ¬ (wildcard ∈ policy.allowedOrigins ∧ policy.allowCredentials = true)
  never_emitted : ∀ (headers : Headers) (origin : List Char),
    headers ALLOW_CREDENTIALS ≠ some "true".toList → origin ∉ policy.allowedOrigins →
      ¬ (applyCorsResponseHeaders headers (some origin) policy ALLOW_ORIGIN = some origin ∧
        applyCorsResponseHeaders headers (some origin) policy ALLOW_CREDENTIALS =
          some "true".toList)

/-- The exclusion in the policy is enough for the headers. -/
theorem neverGrantsAll_iff {policy : SiteCorsPolicy} :
    NeverGrantsAll policy ↔
      ¬ (wildcard ∈ policy.allowedOrigins ∧ policy.allowCredentials = true) := by
  refine ⟨NeverGrantsAll.exclusive, fun h => ⟨h, fun headers origin hheaders horigin hboth => ?_⟩⟩
  cases hcredentials : policy.allowCredentials with
  | false =>
      have hsame : applyCorsResponseHeaders headers (some origin) policy ALLOW_CREDENTIALS =
          headers ALLOW_CREDENTIALS := applyCors_credentials hcredentials
      rw [hsame] at hboth
      exact hheaders hboth.2
  | true =>
      have hno : wildcard ∉ policy.allowedOrigins := fun hmem => h ⟨hmem, hcredentials⟩
      have hdenied : corsOriginAllowed origin policy = false := by
        simp [corsOriginAllowed, hno, horigin]
      rw [applyCors_denied hdenied] at hboth
      exact hheaders hboth.2

/-- One half allows every origin, and the other one the credentials. -/
def SplitGrant (site : SiteCorsPolicy) (route : RouteCorsPolicy) : Prop :=
  (wildcard ∈ site.allowedOrigins ∧ route.allowedOrigins = none ∧
    route.allowCredentials = some true) ∨
  (site.allowCredentials = true ∧ route.allowCredentials = none ∧
    wildcard ∈ route.allowedOrigins.getD [])

theorem mergeCors_grants_iff {site : SiteCorsPolicy} {route : RouteCorsPolicy}
    (hsite : ¬ (site.allowCredentials = true ∧ wildcard ∈ site.allowedOrigins))
    (hroute : ¬ (route.allowCredentials = some true ∧ wildcard ∈ route.allowedOrigins.getD [])) :
    (wildcard ∈ (mergeCors site route).allowedOrigins ∧
      (mergeCors site route).allowCredentials = true) ↔ SplitGrant site route := by
  show (wildcard ∈ route.allowedOrigins.getD site.allowedOrigins ∧
    route.allowCredentials.getD site.allowCredentials = true) ↔ SplitGrant site route
  unfold SplitGrant
  -- by where each of the two fields comes from
  cases horigins : route.allowedOrigins with
  | none =>
      cases hcredentials : route.allowCredentials with
      | none =>
          constructor
          · exact fun h => absurd ⟨h.2, h.1⟩ hsite
          · rintro (⟨-, -, h⟩ | ⟨-, -, h⟩) <;> cases h
      | some credentials =>
          constructor
          · exact fun h => .inl ⟨h.1, rfl, congrArg some h.2⟩
          · rintro (⟨hwild, -, h⟩ | ⟨-, h, -⟩)
            · exact ⟨hwild, Option.some.inj h⟩
            · cases h
  | some origins =>
      rw [horigins] at hroute
      cases hcredentials : route.allowCredentials with
      | none =>
          constructor
          · exact fun h => .inr ⟨h.2, rfl, h.1⟩
          · rintro (⟨-, h, -⟩ | ⟨hgrant, -, hwild⟩)
            · cases h
            · exact ⟨hwild, hgrant⟩
      | some credentials =>
          rw [hcredentials] at hroute
          constructor
          · exact fun h => absurd ⟨congrArg some h.2, h.1⟩ hroute
          · rintro (⟨-, h, -⟩ | ⟨-, h, -⟩) <;> cases h

/-- A resolved policy keeps the exclusion exactly when the halves do not split the grant. -/
theorem resolved_cors_exclusive (cases : CaseMapping) (siteOthers routeOthers : OtherSections)
    (site : JsValue) (policy : Option JsValue) :
    NeverGrantsAll (resolveCors cases siteOthers routeOthers site policy) ↔
      ¬ SplitGrant (storedSiteCors cases siteOthers site)
        (routeCors cases routeOthers policy) := by
  rw [neverGrantsAll_iff]
  exact not_congr (mergeCors_grants_iff (storedSiteCors_excludes cases siteOthers site)
    (routeCors_excludes cases routeOthers policy))

/-! ## A site for everyone and a route with credentials -/

section Example

/-- Case conversion of ASCII. -/
def asciiCases : CaseMapping where
  toLowerCase text := text.map Char.toLower
  toUpperCase text := text.map Char.toUpper

/-- Both policies have nothing but CORS. -/
def noSections : OtherSections where
  parse _ := true
  serialize _ _ := .ok []

/-- `{ cors: { mode: "enabled", allowedOrigins: "*" } }` -/
def openSite : JsValue :=
  .object [("cors".toList, .object [("mode".toList, .string "enabled".toList),
    ("allowedOrigins".toList, .string "*".toList)])]

/-- `{ cors: { allowCredentials: true } }` -/
def credentialsRoute : JsValue :=
  .object [("cors".toList, .object [("allowCredentials".toList, .boolean true)])]

/-- What a serializer wrote, if it accepted the input. -/
def written (result : Except (List Char) JsValue) : JsValue :=
  match result with
  | .ok stored => stored
  | .error _ => .undefined

def openSiteStored : JsValue :=
  written (serializeSiteHttpPolicy asciiCases noSections openSite .undefined)

def credentialsRouteStored : JsValue :=
  written (serializeRouteHttpPolicy asciiCases noSections credentialsRoute .undefined)

theorem written_of_isOk {result : Except (List Char) JsValue} (h : result.isOk = true) :
    result = .ok (written result) := by
  cases result with
  | ok stored => rfl
  | error e => cases h

/-- The serializers accept both halves, and the resolved policy gives any origin credentials. -/
theorem resolved_cors_split :
    serializeSiteHttpPolicy asciiCases noSections openSite .undefined = .ok openSiteStored ∧
      serializeRouteHttpPolicy asciiCases noSections credentialsRoute .undefined =
        .ok credentialsRouteStored ∧
      applyCorsResponseHeaders (fun _ => none) (some "https://evil.example".toList)
        (resolveCors asciiCases noSections noSections openSiteStored
          (some credentialsRouteStored)) ALLOW_ORIGIN = some "https://evil.example".toList ∧
      applyCorsResponseHeaders (fun _ => none) (some "https://evil.example".toList)
        (resolveCors asciiCases noSections noSections openSiteStored
          (some credentialsRouteStored)) ALLOW_CREDENTIALS = some "true".toList ∧
      ¬ NeverGrantsAll (resolveCors asciiCases noSections noSections openSiteStored
          (some credentialsRouteStored)) := by
  refine ⟨written_of_isOk (by decide +kernel), written_of_isOk (by decide +kernel),
    by decide +kernel, by decide +kernel, fun h => h.exclusive ?_⟩
  decide +kernel

end Example

end BurrowGate.Http
