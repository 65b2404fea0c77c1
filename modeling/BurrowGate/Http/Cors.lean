import BurrowGate.Js.Value

/-!
# The CORS policy

The CORS section of `http-policy-service.ts`: its parsers, the serializers, the merge of
`resolveHttpPolicy` and the response headers. A stored policy is the value that its JSON
text parses to. `toLowerCase` and `toUpperCase` of strings are those of `CaseMapping`.
-/

namespace BurrowGate.Http

open Js

structure CaseMapping where
  toLowerCase : List Char → List Char
  toUpperCase : List Char → List Char

inductive SiteCorsMode
  | disabled
  | enabled
  deriving DecidableEq

inductive RouteCorsMode
  | inherit
  | disabled
  | enabled
  deriving DecidableEq

structure SiteCorsPolicy where
  mode : SiteCorsMode
  allowedOrigins : List (List Char)
  allowedMethods : List (List Char)
  allowedHeaders : List (List Char)
  exposedHeaders : List (List Char)
  allowCredentials : Bool
  maxAgeSeconds : Int
  deriving DecidableEq

structure RouteCorsPolicy where
  mode : RouteCorsMode
  allowedOrigins : Option (List (List Char))
  allowedMethods : Option (List (List Char))
  allowedHeaders : Option (List (List Char))
  exposedHeaders : Option (List (List Char))
  allowCredentials : Option Bool
  maxAgeSeconds : Option Int
  deriving DecidableEq

/-- `defaultSitePolicy().cors` -/
def defaultSiteCors : SiteCorsPolicy where
  mode := .disabled
  allowedOrigins := []
  allowedMethods := ["GET".toList, "HEAD".toList, "POST".toList]
  allowedHeaders := ["content-type".toList, "authorization".toList]
  exposedHeaders := []
  allowCredentials := false
  maxAgeSeconds := 86400

/-- `defaultRoutePolicy().cors` -/
def defaultRouteCors : RouteCorsPolicy where
  mode := .inherit
  allowedOrigins := none
  allowedMethods := none
  allowedHeaders := none
  exposedHeaders := none
  allowCredentials := none
  maxAgeSeconds := none

def MAX_CORS_LIST_ITEMS : Nat := 64

def MAX_CORS_MAX_AGE_SECONDS : Int := 86400

def MAX_HEADER_NAME_LENGTH : Nat := 128

/-! ## Absent values -/

/-- The parsers of a site: an absent value is the default. -/
def orDefault {α : Type} (parse : JsValue → Except (List Char) α) (fallback : α) (value : JsValue) :
    Except (List Char) α :=
  match value with
  | .undefined => .ok fallback
  | value => parse value

/-- The nullable parsers of a route: an absent value, `null` and `""` are null. -/
def orNull {α : Type} (parse : JsValue → Except (List Char) α) (value : JsValue) :
    Except (List Char) (Option α) :=
  match value with
  | .undefined | .null | .string [] => .ok none
  | value => (parse value).map some

/-! ## The fields -/

/-- `String(value).trim().toLowerCase()` -/
def lowerText (cases : CaseMapping) (value : JsValue) : List Char :=
  cases.toLowerCase (trim value.toText)

def siteCorsMode (cases : CaseMapping) (value : JsValue) : Except (List Char) SiteCorsMode :=
  let mode := lowerText cases value
  if mode = "enabled".toList then .ok .enabled
  else if mode = "disabled".toList then .ok .disabled
  else .error "CORS mode must be enabled or disabled".toList

def routeCorsMode (cases : CaseMapping) (value : JsValue) : Except (List Char) RouteCorsMode :=
  let mode := lowerText cases value
  if mode = "enabled".toList then .ok .enabled
  else if mode = "disabled".toList then .ok .disabled
  else if mode = "inherit".toList then .ok .inherit
  else .error "CORS mode must be inherit, enabled, or disabled".toList

/-- `Array.isArray(value) ? value : String(value).split(/[\s,]+/u)`, its items as trimmed texts
without the empty ones. -/
def rawItems (value : JsValue) : List (List Char) :=
  let raw : List (List Char) := match value with
    | .array items => items.map fun item => trim (JsValue.toText item)
    | value => value.toText.splitOnP fun c => isWhiteSpace c || c = ','
  raw.filter (· ≠ [])

/-- The characters of `[a-z0-9]` under the flags `iu`. -/
def isOriginLetter (c : Char) : Bool :=
  isDigit c || ('a' ≤ c && c ≤ 'z') || ('A' ≤ c && c ≤ 'Z') || c = 'ſ' || c = '\u212a'

/-- Simple case folding on these. -/
def foldLetter (c : Char) : Char :=
  if c = 'ſ' then 's' else if c = '\u212a' then 'k' else c.toLower

def isOriginHost (host : List Char) : Bool :=
  host.head?.any isOriginLetter && host.getLast?.any isOriginLetter &&
    host.all fun c => isOriginLetter c || c = '.' || c = '-'

/-- `(?::\d{1,5})?` -/
def isOriginPort : List Char → Bool
  | [] => true
  | _ :: port => port ≠ [] && port.length ≤ 5 && port.all isDigit

/-- What follows `https?://`, if the text begins so. -/
def afterScheme (origin : List Char) : Option (List Char) :=
  if (origin.take 7).map foldLetter = "http://".toList then some (origin.drop 7)
  else if (origin.take 8).map foldLetter = "https://".toList then some (origin.drop 8)
  else none

/-- `CORS_ORIGIN_PATTERN` -/
def isCorsOrigin (origin : List Char) : Bool :=
  (afterScheme origin).any fun rest =>
    isOriginHost (rest.takeWhile (· ≠ ':')) && isOriginPort (rest.dropWhile (· ≠ ':'))

def wildcard : List Char := ['*']

def corsOrigins (value : JsValue) : Except (List Char) (List (List Char)) :=
  let origins := (rawItems value).eraseDups
  if MAX_CORS_LIST_ITEMS < origins.length then
    .error "CORS allowed origins supports at most 64 values".toList
  else
    match origins.find? fun origin =>
        origin ≠ wildcard && (256 < origin.length || !isCorsOrigin origin) with
    | some origin => .error ("Invalid CORS origin: ".toList ++ origin)
    | none =>
        if wildcard ∈ origins ∧ 1 < origins.length then
          .error "CORS allowed origins cannot mix * with specific origins".toList
        else .ok origins

/-- `HTTP_TOKEN` -/
def isHttpToken (text : List Char) : Bool :=
  text ≠ [] && text.all fun c =>
    isDigit c || ('a' ≤ c && c ≤ 'z') || ('A' ≤ c && c ≤ 'Z') || c ∈ "!#$%&'*+.^_`|~-".toList

def corsMethods (cases : CaseMapping) (value : JsValue) : Except (List Char) (List (List Char)) :=
  let methods := ((rawItems value).map cases.toUpperCase).eraseDups
  if 32 < methods.length then .error "CORS allowed methods supports at most 32 values".toList
  else
    match methods.find? fun method => !isHttpToken method with
    | some method => .error ("Invalid CORS method: ".toList ++ method)
    | none => .ok methods

def normalizedHeaderName (cases : CaseMapping) (label : List Char) (text : List Char) :
    Except (List Char) (List Char) :=
  let name := cases.toLowerCase (trim text)
  if name = [] ∨ MAX_HEADER_NAME_LENGTH < name.length ∨ isHttpToken name = false then
    .error (label ++ " contains an invalid header name".toList)
  else .ok name

def protectedResponseSetHeaders : List (List Char) :=
  ["connection".toList, "content-encoding".toList, "content-length".toList, "keep-alive".toList,
    "proxy-authenticate".toList, "proxy-authorization".toList, "proxy-connection".toList,
    "set-cookie".toList, "te".toList, "trailer".toList, "transfer-encoding".toList,
    "upgrade".toList]

def isManagedHeader (name : List Char) : Bool :=
  name ∈ protectedResponseSetHeaders || "x-burrowgate-".toList.isPrefixOf name

def corsHeaderNames (cases : CaseMapping) (label : List Char) (guardExposed : Bool)
    (value : JsValue) : Except (List Char) (List (List Char)) := do
  let names := (← (rawItems value).mapM (normalizedHeaderName cases label)).eraseDups
  if MAX_CORS_LIST_ITEMS < names.length then
    throw (label ++ " supports at most 64 values".toList)
  match if guardExposed then names.find? isManagedHeader else none with
  | some name =>
      throw (label ++ " cannot expose ".toList ++ name ++
        ", which is managed by BurrowGate".toList)
  | none => return names

/-- `value === 1` and the like, on a number. -/
def isNumber (value : JsValue) (n : ℚ) : Bool :=
  match value with
  | .number (some q) _ => q = n
  | _ => false

def corsCredentialsBoolean (value : JsValue) : Except (List Char) Bool :=
  match value with
  | .boolean b => .ok b
  | value =>
      if value.string? = some "true".toList ∨ value.string? = some "1".toList ∨
          isNumber value 1 = true then .ok true
      else if value.string? = some "false".toList ∨ value.string? = some "0".toList ∨
          isNumber value 0 = true ∨ value.string? = some [] then .ok false
      else .error "CORS allow credentials must be a boolean".toList

/-- The non-negative maximum age of `cacheInteger`. -/
def corsMaxAge (label : List Char) (value : JsValue) : Except (List Char) Int :=
  match (safeInteger value.toNumber).filter fun n => 0 ≤ n && n ≤ MAX_CORS_MAX_AGE_SECONDS with
  | some n => .ok n
  | none => .error (label ++ " must be an integer from 0 to 86400".toList)

/-! ## The sections -/

def corsWildcardError : List Char :=
  "CORS allowed origins cannot be * when allow credentials is enabled".toList

def parseSiteCors (cases : CaseMapping) (value : JsValue) :
    Except (List Char) SiteCorsPolicy := do
  let input := value.entries
  let allowCredentials ← orDefault corsCredentialsBoolean defaultSiteCors.allowCredentials
    (input.get "allowCredentials".toList)
  let allowedOrigins ← orDefault corsOrigins defaultSiteCors.allowedOrigins
    (input.get "allowedOrigins".toList)
  if allowCredentials = true ∧ wildcard ∈ allowedOrigins then throw corsWildcardError
  let mode ← orDefault (siteCorsMode cases) defaultSiteCors.mode (input.get "mode".toList)
  let allowedMethods ← orDefault (corsMethods cases) defaultSiteCors.allowedMethods
    (input.get "allowedMethods".toList)
  let allowedHeaders ← orDefault (corsHeaderNames cases "CORS allowed headers".toList false)
    defaultSiteCors.allowedHeaders (input.get "allowedHeaders".toList)
  let exposedHeaders ← orDefault (corsHeaderNames cases "CORS exposed headers".toList true)
    defaultSiteCors.exposedHeaders (input.get "exposedHeaders".toList)
  let maxAgeSeconds ← orDefault (corsMaxAge "CORS max age".toList) defaultSiteCors.maxAgeSeconds
    (input.get "maxAgeSeconds".toList)
  return { mode, allowedOrigins, allowedMethods, allowedHeaders, exposedHeaders, allowCredentials,
           maxAgeSeconds }

def parseRouteCors (cases : CaseMapping) (value : JsValue) :
    Except (List Char) RouteCorsPolicy := do
  let input := value.entries
  let allowCredentials ← orNull corsCredentialsBoolean (input.get "allowCredentials".toList)
  let allowedOrigins ← orNull corsOrigins (input.get "allowedOrigins".toList)
  if allowCredentials = some true ∧ wildcard ∈ allowedOrigins.getD [] then throw corsWildcardError
  let mode ← orDefault (routeCorsMode cases) .inherit (input.get "mode".toList)
  let allowedMethods ← orNull (corsMethods cases) (input.get "allowedMethods".toList)
  let allowedHeaders ← orNull (corsHeaderNames cases "Route CORS allowed headers".toList false)
    (input.get "allowedHeaders".toList)
  let exposedHeaders ← orNull (corsHeaderNames cases "Route CORS exposed headers".toList true)
    (input.get "exposedHeaders".toList)
  let maxAgeSeconds ← orNull (corsMaxAge "Route CORS max age".toList)
    (input.get "maxAgeSeconds".toList)
  return { mode, allowedOrigins, allowedMethods, allowedHeaders, exposedHeaders, allowCredentials,
           maxAgeSeconds }

/-! ## Storage -/

def textList (texts : List (List Char)) : JsValue := .array (texts.map .string)

def SiteCorsMode.text : SiteCorsMode → List Char
  | disabled => "disabled".toList
  | enabled => "enabled".toList

def RouteCorsMode.text : RouteCorsMode → List Char
  | inherit => "inherit".toList
  | disabled => "disabled".toList
  | enabled => "enabled".toList

def integer (n : Int) : JsValue :=
  .number (some n) ((if n < 0 then ['-'] else []) ++ Nat.toDigits 10 n.natAbs)

/-- The policy as an object. -/
def SiteCorsPolicy.entries (cors : SiteCorsPolicy) : Entries :=
  [("mode".toList, .string cors.mode.text),
    ("allowedOrigins".toList, textList cors.allowedOrigins),
    ("allowedMethods".toList, textList cors.allowedMethods),
    ("allowedHeaders".toList, textList cors.allowedHeaders),
    ("exposedHeaders".toList, textList cors.exposedHeaders),
    ("allowCredentials".toList, .boolean cors.allowCredentials),
    ("maxAgeSeconds".toList, integer cors.maxAgeSeconds)]

def orNullValue {α : Type} (write : α → JsValue) (value : Option α) : JsValue :=
  (value.map write).getD .null

def RouteCorsPolicy.entries (cors : RouteCorsPolicy) : Entries :=
  [("mode".toList, .string cors.mode.text),
    ("allowedOrigins".toList, orNullValue textList cors.allowedOrigins),
    ("allowedMethods".toList, orNullValue textList cors.allowedMethods),
    ("allowedHeaders".toList, orNullValue textList cors.allowedHeaders),
    ("exposedHeaders".toList, orNullValue textList cors.exposedHeaders),
    ("allowCredentials".toList, orNullValue .boolean cors.allowCredentials),
    ("maxAgeSeconds".toList, orNullValue integer cors.maxAgeSeconds)]

/-- The sections of a policy besides CORS: whether those of a stored policy parse, and what a
serializer that accepts the input over the stored policy writes for them. -/
structure OtherSections where
  parse : JsValue → Bool
  serialize : JsValue → JsValue → Except (List Char) Entries

/-- The CORS section of `storedSitePolicy`: the defaults, if any section does not parse. -/
def storedSiteCors (cases : CaseMapping) (others : OtherSections) (stored : JsValue) :
    SiteCorsPolicy :=
  match parseSiteCors cases (stored.entries.get "cors".toList), others.parse stored with
  | .ok cors, true => cors
  | _, _ => defaultSiteCors

def storedRouteCors (cases : CaseMapping) (others : OtherSections) (stored : JsValue) :
    RouteCorsPolicy :=
  match parseRouteCors cases (stored.entries.get "cors".toList), others.parse stored with
  | .ok cors, true => cors
  | _, _ => defaultRouteCors

def objectValue (label : List Char) : JsValue → Except (List Char) Entries
  | .object entries => .ok entries
  | _ => .error (label ++ " must be an object".toList)

/-- `value[key] === undefined ? {} : objectValue(value[key], label)` -/
def suppliedSection (value : Entries) (key label : List Char) : Except (List Char) Entries :=
  orDefault (objectValue label) [] (value.get key)

/-- `serializeSiteHttpPolicy(input, existing)` -/
def serializeSiteHttpPolicy (cases : CaseMapping) (others : OtherSections)
    (input existing : JsValue) : Except (List Char) JsValue := do
  let rest ← others.serialize input existing
  let current := storedSiteCors cases others existing
  match input with
  | .undefined => return .object (("cors".toList, .object current.entries) :: rest)
  | .null => return .object (("cors".toList, .object defaultSiteCors.entries) :: rest)
  | input =>
      let value ← objectValue "Site HTTP policy".toList input
      let supplied ← suppliedSection value "cors".toList "Site CORS policy".toList
      let cors ← parseSiteCors cases (.object (current.entries.spread supplied))
      return .object (("cors".toList, .object cors.entries) :: rest)

def serializeRouteHttpPolicy (cases : CaseMapping) (others : OtherSections)
    (input existing : JsValue) : Except (List Char) JsValue := do
  let rest ← others.serialize input existing
  let current := storedRouteCors cases others existing
  match input with
  | .undefined => return .object (("cors".toList, .object current.entries) :: rest)
  | .null => return .object (("cors".toList, .object defaultRouteCors.entries) :: rest)
  | input =>
      let value ← objectValue "Route HTTP policy".toList input
      let supplied ← suppliedSection value "cors".toList "Route CORS policy".toList
      let cors ← parseRouteCors cases (.object (current.entries.spread supplied))
      return .object (("cors".toList, .object cors.entries) :: rest)

/-! ## The merge -/

def RouteCorsMode.over (mode : RouteCorsMode) (site : SiteCorsMode) : SiteCorsMode :=
  match mode with
  | inherit => site
  | disabled => .disabled
  | enabled => .enabled

/-- `cors` of `resolveHttpPolicy`, field by field. -/
def mergeCors (site : SiteCorsPolicy) (route : RouteCorsPolicy) : SiteCorsPolicy :=
  { mode := route.mode.over site.mode
    allowedOrigins := route.allowedOrigins.getD site.allowedOrigins
    allowedMethods := route.allowedMethods.getD site.allowedMethods
    allowedHeaders := route.allowedHeaders.getD site.allowedHeaders
    exposedHeaders := route.exposedHeaders.getD site.exposedHeaders
    allowCredentials := route.allowCredentials.getD site.allowCredentials
    maxAgeSeconds := route.maxAgeSeconds.getD site.maxAgeSeconds }

/-- The route half: the defaults without a route policy. -/
def routeCors (cases : CaseMapping) (others : OtherSections) (policy : Option JsValue) :
    RouteCorsPolicy :=
  match policy with
  | some stored => storedRouteCors cases others stored
  | none => defaultRouteCors

/-- `resolveHttpPolicy(site, policy).cors` -/
def resolveCors (cases : CaseMapping) (siteOthers routeOthers : OtherSections) (site : JsValue)
    (policy : Option JsValue) : SiteCorsPolicy :=
  mergeCors (storedSiteCors cases siteOthers site) (routeCors cases routeOthers policy)

/-! ## Response headers -/

/-- The headers by their lower-case names. -/
abbrev Headers : Type := List Char → Option (List Char)

def Headers.set (headers : Headers) (name value : List Char) : Headers :=
  fun other => if other = name then some value else headers other

def ALLOW_ORIGIN : List Char := "access-control-allow-origin".toList

def ALLOW_CREDENTIALS : List Char := "access-control-allow-credentials".toList

def EXPOSE_HEADERS : List Char := "access-control-expose-headers".toList

def VARY : List Char := "vary".toList

def corsOriginAllowed (origin : List Char) (policy : SiteCorsPolicy) : Bool :=
  wildcard ∈ policy.allowedOrigins || origin ∈ policy.allowedOrigins

/-- `Origin` joins the `vary` header, unless it is there. -/
def varyByOrigin (headers : Headers) : Headers :=
  match headers VARY with
  | none | some [] => headers.set VARY "Origin".toList
  | some vary =>
      if "Origin".toList ∈ (vary.splitOn ',').map trim then headers
      else headers.set VARY (vary ++ ", Origin".toList)

/-- The headers behind `isWildcard`. -/
def allowOrigin (headers : Headers) (origin : List Char) (policy : SiteCorsPolicy) : Headers :=
  if wildcard ∈ policy.allowedOrigins ∧ policy.allowCredentials = false then
    headers.set ALLOW_ORIGIN wildcard
  else varyByOrigin (headers.set ALLOW_ORIGIN origin)

def exposeHeaders (headers : Headers) (policy : SiteCorsPolicy) : Headers :=
  if policy.exposedHeaders = [] then headers
  else headers.set EXPOSE_HEADERS (", ".toList.intercalate policy.exposedHeaders)

/-- `origin` is the `Origin` header of the request; an empty one is none. -/
def applyCorsResponseHeaders (headers : Headers) (origin : Option (List Char))
    (policy : SiteCorsPolicy) : Headers :=
  if policy.mode = .disabled then headers
  else
    match origin with
    | none | some [] => headers
    | some origin =>
        if corsOriginAllowed origin policy then
          let headers := allowOrigin headers origin policy
          let headers :=
            if policy.allowCredentials then headers.set ALLOW_CREDENTIALS "true".toList
            else headers
          exposeHeaders headers policy
        else headers

end BurrowGate.Http
