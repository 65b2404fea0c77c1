import Mathlib.Data.List.Basic

/-!
# `static-cache-service.ts`: `StaticAssetCache`

`entries` is the `Map` in insertion order. Reading a response body is suspended
between chunks, so a response that was observed and not yet stored is an element
of `pending`. What the header checks `requestBypassReason` and `responseTtlMs`
find is part of the request and the response here. Hit counters are left out.
-/

namespace BurrowGate.Cache

inductive RequestMethod
  | get
  | head
  | other
  deriving DecidableEq

/-- `bypassed`: `requestBypassReason` names a reason. -/
structure AssetRequest where
  method : RequestMethod
  pathname : List Char
  search : List Char
  encodingVariant : List Char
  bypassed : Bool

structure Site where
  id : List Char
  updatedAt : Nat

structure Route where
  id : List Char
  updatedAt : Nat

structure SiteStaticCachePolicy where
  enabled : Bool
  maxObjectBytes : Nat

/-- `ttlMs` is the answer of `responseTtlMs`, `headerBytes` what `cachedSizeBytes` adds to the
body's length. -/
structure OriginResponse where
  status : Nat
  headers : List (List Char × List Char)
  headerBytes : Nat
  ttlMs : Option Int
  contentLength : Option Nat

/-- The members of the JSON array that `cacheKey` writes. -/
structure CacheKey where
  siteId : List Char
  siteUpdatedAt : Nat
  routeId : Option (List Char)
  routeUpdatedAt : Nat
  pathname : List Char
  search : List Char
  encodingVariant : List Char
  deriving DecidableEq

def cacheKey (request : AssetRequest) (site : Site) (route : Option Route) : CacheKey :=
  { siteId := site.id
    siteUpdatedAt := site.updatedAt
    routeId := route.map (·.id)
    routeUpdatedAt := (route.map (·.updatedAt)).getD 0
    pathname := request.pathname
    search := request.search
    encodingVariant := request.encodingVariant }

/-- `observedAt` is history: how many purges had been made when the response was observed. -/
structure CacheEntry where
  key : CacheKey
  siteId : List Char
  routePolicyId : Option (List Char)
  pathname : List Char
  status : Nat
  headers : List (List Char × List Char)
  body : List UInt8
  sizeBytes : Nat
  storedAt : Int
  expiresAt : Int
  observedAt : Nat

structure CacheScope where
  siteId : Option (List Char) := none
  routePolicyId : Option (List Char) := none
  pathPrefix : Option (List Char) := none

/-- The filters of `purge`; an empty string filters nothing. -/
def CacheScope.covers (scope : CacheScope) (siteId : List Char)
    (routePolicyId : Option (List Char)) (pathname : List Char) : Bool :=
  scope.siteId.all (fun id => id = [] || siteId = id) &&
    scope.routePolicyId.all (fun id => id = [] || routePolicyId = some id) &&
      scope.pathPrefix.all (fun p => p.isPrefixOf pathname)

/-- A body that `readLimitedBody` is reading; `entry` has the part received so far. -/
structure PendingBody where
  entry : CacheEntry
  headerBytes : Nat
  maximumBytes : Nat

/-- `purged` is history: the scopes of all purges, the last one first. -/
structure StaticAssetCache where
  maxEntries : Nat
  maxBytes : Nat
  entries : List CacheEntry
  totalBytes : Int
  lastExpirySweepAt : Int
  pending : List PendingBody
  purged : List CacheScope

/-! ## The map -/

def getEntry (s : StaticAssetCache) (key : CacheKey) : Option CacheEntry :=
  s.entries.find? (·.key = key)

def deleteEntry (s : StaticAssetCache) (key : CacheKey) : StaticAssetCache :=
  match getEntry s key with
  | some entry =>
      { s with
        entries := s.entries.filter (·.key ≠ key)
        totalBytes := s.totalBytes - entry.sizeBytes }
  | none => s

def deleteEntries (s : StaticAssetCache) (keys : List CacheKey) : StaticAssetCache :=
  keys.foldl deleteEntry s

def sweepExpired (s : StaticAssetCache) (now : Int) : StaticAssetCache :=
  if now - s.lastExpirySweepAt < 60000 then s
  else
    deleteEntries { s with lastExpirySweepAt := now }
      ((s.entries.filter (·.expiresAt ≤ now)).map (·.key))

/-! ## Lookup -/

inductive StaticCacheLookup
  | disabled
  | bypass
  | miss (key : CacheKey)
  | hit (entry : CacheEntry) (body : Option (List UInt8))

def lookup (s : StaticAssetCache) (request : AssetRequest) (site : Site) (route : Option Route)
    (policy : SiteStaticCachePolicy) (now : Int) : StaticAssetCache × StaticCacheLookup :=
  if policy.enabled = false then (s, .disabled)
  else
    let s := sweepExpired s now
    if request.bypassed then (s, .bypass)
    else
      let key := cacheKey request site route
      let s := if (getEntry s key).any (·.expiresAt ≤ now) then deleteEntry s key else s
      match getEntry s key with
      | none => (s, .miss key)
      | some current =>
          ({ s with entries := s.entries.filter (·.key ≠ key) ++ [current] },
            .hit current (if request.method = .head then none else some current.body))

/-! ## Observing a response, and storing it -/

/-- `observeResponse`, as far as the cache goes: the response that is stored is teed. -/
def observeResponse (s : StaticAssetCache) (request : AssetRequest) (response : OriginResponse)
    (looked : StaticCacheLookup) (site : Site) (route : Option Route)
    (policy : SiteStaticCachePolicy) (now : Int) : StaticAssetCache :=
  match looked, response.ttlMs with
  | .miss key, some ttlMs =>
      if request.method ≠ .get ∨ ttlMs ≤ 0 ∨
          response.contentLength.any (policy.maxObjectBytes < ·) then s
      else
        { s with pending :=
            { entry :=
                { key := key
                  siteId := site.id
                  routePolicyId := route.map (·.id)
                  pathname := request.pathname
                  status := response.status
                  headers := response.headers
                  body := []
                  sizeBytes := response.headerBytes
                  storedAt := now
                  expiresAt := now + ttlMs
                  observedAt := s.purged.length }
              headerBytes := response.headerBytes
              maximumBytes := policy.maxObjectBytes } :: s.pending }
  | _, _ => s

/-- Evict the oldest entries until both limits hold. -/
def evict (maxEntries maxBytes : Nat) : List CacheEntry → Int → List CacheEntry × Int
  | [], total => ([], total)
  | oldest :: rest, total =>
      if maxEntries < rest.length + 1 ∨ (maxBytes : Int) < total then
        evict maxEntries maxBytes rest (total - oldest.sizeBytes)
      else (oldest :: rest, total)

def store (s : StaticAssetCache) (entry : CacheEntry) : StaticAssetCache :=
  let s := deleteEntry s entry.key
  let kept := evict s.maxEntries s.maxBytes (s.entries ++ [entry]) (s.totalBytes + entry.sizeBytes)
  { s with entries := kept.1, totalBytes := kept.2 }

/-- One more chunk for the body `i`; a body that is too large is not read on. -/
def receiveChunk (s : StaticAssetCache) (i : Nat) (chunk : List UInt8) : Option StaticAssetCache :=
  s.pending[i]?.map fun p =>
    let body := p.entry.body ++ chunk
    if p.maximumBytes < body.length then { s with pending := s.pending.eraseIdx i }
    else
      { s with pending :=
          { p with entry := { p.entry with body, sizeBytes := p.headerBytes + body.length } } ::
            s.pending.eraseIdx i }

/-- The body `i` has been read to its end. -/
def bodyRead (s : StaticAssetCache) (i : Nat) : Option StaticAssetCache :=
  s.pending[i]?.map fun p => store { s with pending := s.pending.eraseIdx i } p.entry

/-- Reading the body `i` fails. -/
def bodyFailed (s : StaticAssetCache) (i : Nat) : Option StaticAssetCache :=
  s.pending[i]?.map fun _ => { s with pending := s.pending.eraseIdx i }

def CacheScope.coversEntry (scope : CacheScope) (e : CacheEntry) : Bool :=
  scope.covers e.siteId e.routePolicyId e.pathname

def keysInScope (s : StaticAssetCache) (scope : CacheScope) : List CacheKey :=
  (s.entries.filter scope.coversEntry).map (·.key)

def purge (s : StaticAssetCache) (scope : CacheScope) : StaticAssetCache :=
  { deleteEntries s (keysInScope s scope) with purged := scope :: s.purged }

/-! ## Runs -/

inductive CacheAction
  | lookup (request : AssetRequest) (site : Site) (route : Option Route)
      (policy : SiteStaticCachePolicy) (now : Int)
  | observeResponse (request : AssetRequest) (response : OriginResponse)
      (looked : StaticCacheLookup) (site : Site) (route : Option Route)
      (policy : SiteStaticCachePolicy) (now : Int)
  | receiveChunk (i : Nat) (chunk : List UInt8)
  | bodyRead (i : Nat)
  | bodyFailed (i : Nat)
  | purge (scope : CacheScope)

def cacheStep (s : StaticAssetCache) : CacheAction → Option StaticAssetCache
  | .lookup request site route policy now => some (lookup s request site route policy now).1
  | .observeResponse request response looked site route policy now =>
      some (observeResponse s request response looked site route policy now)
  | .receiveChunk i chunk => receiveChunk s i chunk
  | .bodyRead i => bodyRead s i
  | .bodyFailed i => bodyFailed s i
  | .purge scope => some (purge s scope)

def emptyCache (maxEntries maxBytes : Nat) : StaticAssetCache :=
  { maxEntries, maxBytes
    entries := []
    totalBytes := 0
    lastExpirySweepAt := 0
    pending := []
    purged := [] }

def EmptyCache (s : StaticAssetCache) : Prop := ∃ maxEntries maxBytes, s = emptyCache maxEntries maxBytes

end BurrowGate.Cache
