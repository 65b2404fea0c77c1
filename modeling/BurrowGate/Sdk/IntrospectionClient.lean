import BurrowGate.Js.Text
import BurrowGate.Lib.OrderedMap
import BurrowGate.Lib.Run

/-!
# `BurrowGateClient`: introspection, its cache and the requests in flight

A call of `introspect` answers from the cache, joins the request that is in flight for its
token, or makes one. The promise of a request resolves in any order; the call that made it
and the calls that joined it go on one by one after that. Clock readings come with the
actions; nothing is assumed about them. Times are any linear order with an addition, so
that the infinities of JavaScript numbers are covered.
-/

namespace BurrowGate.Sdk

open Js
open Lib

structure BurrowGateUser where
  id : List Char
  username : List Char
  deriving DecidableEq

structure BurrowGateSession (T : Type) where
  siteId : List Char
  sessionId : List Char
  user : BurrowGateUser
  authenticatedAt : T
  expiresAt : T
  assertionExpiresAt : T
  deriving DecidableEq

/-- What `requestIntrospection` comes to. -/
inductive Outcome (T : Type)
  | active (session : BurrowGateSession T)
  | inactive
  | failed
  deriving DecidableEq

/-- The options that the cache depends on, as the constructor checks them. -/
structure ClientOptions (T : Type) [Zero T] [LE T] where
  cacheTtlMs : T
  cacheTtlMs_nonneg : 0 ≤ cacheTtlMs
  maxCacheEntries : Nat
  maxCacheEntries_pos : 0 < maxCacheEntries

/-- `request` and `receivedAt` are not in the source: the request whose result the entry
holds and the clock when it was stored. -/
structure CacheEntry (T : Type) where
  session : BurrowGateSession T
  expiresAt : T
  request : Nat
  receivedAt : T

/-- `settled` when the call that made the request has gone on. -/
structure Request (T : Type) where
  token : List Char
  issuedAt : Nat
  outcome : Option (Outcome T)
  settled : Bool

/-- A call that awaits the request of another call. -/
structure Follower where
  token : List Char
  startedAt : Nat
  request : Nat

/-- Where the answer of a call came from; the clock of a cached answer and of its entry. -/
inductive Source (T : Type)
  | cache (now receivedAt : T)
  | request

structure Answer (T : Type) where
  token : List Char
  startedAt : Nat
  request : Nat
  source : Source T
  outcome : Outcome T

/-- A call of `clearCache`; no token means all of them. -/
structure Clear where
  calledAt : Nat
  token : Option (List Char)

def Clear.covers (c : Clear) (token : List Char) : Bool := c.token.all (· = token)

/-- `steps`, `clears` and `answers` are the history, in which a step number is a time. -/
structure ClientState (T : Type) where
  cache : OrderedMap (List Char) (CacheEntry T)
  inFlight : OrderedMap (List Char) Nat
  lastCachePruneAt : T
  requests : List (Request T)
  followers : List Follower
  clears : List Clear
  answers : List (Answer T)
  steps : Nat

inductive ClientAction (T : Type)
  | introspect (sessionAssertion : List Char) (now : T)
  /-- The promise of a request is settled. -/
  | respond (request : Nat) (outcome : Outcome T)
  /-- The call that made the request goes on. -/
  | settle (request : Nat) (now : T)
  /-- A call that joined a request goes on. -/
  | follow (follower : Nat)
  | clearCache (sessionAssertion : Option (List Char))
  | pruneCache (now : T)

variable {T : Type} [LinearOrder T] [Add T] [Sub T] [Zero T] [OfNat T 1000]

def ClientState.start : ClientState T where
  cache := .empty
  inFlight := .empty
  lastCachePruneAt := 0
  requests := []
  followers := []
  clears := []
  answers := []
  steps := 0

def pruneCache (s : ClientState T) (now : T) : ClientState T :=
  { s with
    cache := s.cache.filter fun entry => now < entry.2.expiresAt
    lastCachePruneAt := now }

/-- The oldest keys leave while the cache is full. -/
def deleteOldest (maxCacheEntries : Nat) : Nat → OrderedMap (List Char) (CacheEntry T) →
    OrderedMap (List Char) (CacheEntry T)
  | 0, cache => cache
  | fuel + 1, cache =>
      if maxCacheEntries ≤ cache.size then deleteOldest maxCacheEntries fuel (cache.drop 1)
      else cache

def storeCachedSession (o : ClientOptions T) (s : ClientState T) (token : List Char)
    (session : BurrowGateSession T) (request : Nat) (now : T) : ClientState T :=
  if o.cacheTtlMs = 0 then s
  else
    let expiresAt := min (min (now + o.cacheTtlMs) session.assertionExpiresAt) session.expiresAt
    if expiresAt ≤ now then s
    else
      let s :=
        if 1000 ≤ now - s.lastCachePruneAt ∨ o.maxCacheEntries ≤ s.cache.size then pruneCache s now
        else s
      { s with
        cache := (deleteOldest o.maxCacheEntries s.cache.size s.cache).set token
          { session, expiresAt, request, receivedAt := now } }

/-- The part of `introspect` after a miss. -/
def joinOrRequest (s : ClientState T) (token : List Char) : ClientState T :=
  match s.inFlight.get? token with
  | some request =>
      { s with followers := s.followers ++ [{ token, startedAt := s.steps, request }] }
  | none =>
      { s with
        requests := s.requests ++
          [{ token, issuedAt := s.steps, outcome := none, settled := false }]
        inFlight := s.inFlight.set token s.requests.length }

/-- A blank assertion throws. -/
def introspect (s : ClientState T) (sessionAssertion : List Char) (now : T) : ClientState T :=
  let token := trim sessionAssertion
  if token = [] then s
  else
    match s.cache.get? token with
    | none => joinOrRequest s token
    | some cached =>
        if now < cached.expiresAt then
          { s with
            cache := (s.cache.erase token).set token cached
            answers := s.answers ++
              [{ token, startedAt := s.steps, request := cached.request
                 source := .cache now cached.receivedAt, outcome := .active cached.session }] }
        else joinOrRequest { s with cache := s.cache.erase token } token

/-- `if (session) this.storeCachedSession(token, session)` -/
def storeOutcome (o : ClientOptions T) (s : ClientState T) (token : List Char) (request : Nat)
    (outcome : Outcome T) (now : T) : ClientState T :=
  match outcome with
  | .active session => storeCachedSession o s token session request now
  | .inactive | .failed => s

/-- `introspect` after its `await request`, with the `finally` block. -/
def settle (o : ClientOptions T) (s : ClientState T) (request : Nat) (q : Request T)
    (outcome : Outcome T) (now : T) : ClientState T :=
  { storeOutcome o s q.token request outcome now with
    inFlight := if s.inFlight.get? q.token = some request then s.inFlight.erase q.token
      else s.inFlight
    requests := s.requests.set request { q with settled := true }
    answers := s.answers ++
      [{ token := q.token, startedAt := q.issuedAt, request, source := .request, outcome }] }

def clearCache (s : ClientState T) (sessionAssertion : Option (List Char)) : ClientState T :=
  { s with
    cache := match sessionAssertion with
      | none => .empty
      | some token => s.cache.erase (trim token)
    clears := s.clears ++ [{ calledAt := s.steps, token := sessionAssertion.map trim }] }

/-- One action without the step counter. -/
def act (o : ClientOptions T) (s : ClientState T) : ClientAction T → Option (ClientState T)
  | .introspect sessionAssertion now => some (introspect s sessionAssertion now)
  | .respond request outcome =>
      match s.requests[request]? with
      | none => none
      | some q =>
          if q.outcome = none then
            some { s with requests := s.requests.set request { q with outcome := some outcome } }
          else none
  | .settle request now =>
      match s.requests[request]? with
      | none => none
      | some q =>
          match q.outcome, q.settled with
          | some outcome, false => some (settle o s request q outcome now)
          | _, _ => none
  | .follow follower =>
      match s.followers[follower]? with
      | none => none
      | some f =>
          (s.requests[f.request]?.bind (·.outcome)).map fun outcome =>
            { s with
              followers := s.followers.eraseIdx follower
              answers := s.answers ++
                [{ token := f.token, startedAt := f.startedAt, request := f.request
                   source := .request, outcome }] }
  | .clearCache sessionAssertion => some (clearCache s sessionAssertion)
  | .pruneCache now => some (pruneCache s now)

def clientStep (o : ClientOptions T) (s : ClientState T) (a : ClientAction T) :
    Option (ClientState T) :=
  (act o s a).map fun s => { s with steps := s.steps + 1 }

end BurrowGate.Sdk
