import BurrowGate.Sdk.IntrospectionClient

/-!
# What invalidation of the introspection cache reaches

`clearCache` empties the cache and leaves the requests in flight. A call that starts after
it joins such a request, and its result is stored after it. `NothingInFlight` is the
condition under which an invalidation reaches every older result.
-/

namespace BurrowGate.Sdk

open Js
open Lib
open Lib.Run

variable {T : Type} [LinearOrder T] [Add T] [Sub T] [Zero T] [OfNat T 1000]
  {o : ClientOptions T} {s s' : ClientState T}

/-- When a request was made. -/
def ClientState.issuedAt (s : ClientState T) (request : Nat) : Option Nat :=
  s.requests[request]?.map (·.issuedAt)

/-- No answer is too old, the cache is not too large, and no call is answered with the
result of a request made before an invalidation that the call came after. -/
structure CacheHonoured (o : ClientOptions T) (s : ClientState T) : Prop where
  live : ∀ a ∈ s.answers, ∀ now receivedAt session, a.source = .cache now receivedAt →
    a.outcome = .active session → now < session.assertionExpiresAt ∧ now < session.expiresAt ∧
      now < receivedAt + o.cacheTtlMs
  bounded : s.cache.size ≤ o.maxCacheEntries
  cleared : ∀ a ∈ s.answers, ∀ c ∈ s.clears, c.covers a.token → ∀ issuedAt,
    s.issuedAt a.request = some issuedAt → ¬(issuedAt < c.calledAt ∧ c.calledAt < a.startedAt)

/-- The cache is cleared only when no request is in flight for what is cleared. -/
def NothingInFlight (s : ClientState T) : ClientAction T → Prop
  | .clearCache none => s.inFlight.size = 0
  | .clearCache (some token) => s.inFlight.get? (trim token) = none
  | _ => True

instance (s : ClientState T) : ∀ a, Decidable (NothingInFlight s a)
  | .clearCache none => inferInstanceAs (Decidable (_ = _))
  | .clearCache (some _) => inferInstanceAs (Decidable (_ = none))
  | .introspect .. | .respond .. | .settle .. | .follow _ | .pruneCache _ => isTrue trivial

/-! ## The operations on the cache -/

section Cache

variable {cache : OrderedMap (List Char) (CacheEntry T)} {token : List Char} {e : CacheEntry T}
  {session : BurrowGateSession T} {request : Nat} {now : T}

section

omit [LinearOrder T] [Add T] [Sub T] [Zero T] [OfNat T 1000]

theorem deleteOldest_get? {maxCacheEntries : Nat} : ∀ {fuel : Nat}
    {cache : OrderedMap (List Char) (CacheEntry T)},
    (deleteOldest maxCacheEntries fuel cache).get? token = some e → cache.get? token = some e
  | 0, _, h => h
  | fuel + 1, cache, h => by
      rw [deleteOldest] at h
      split at h
      · exact OrderedMap.get?_drop_eq_some (deleteOldest_get? h)
      · exact h

theorem deleteOldest_size {maxCacheEntries : Nat} (hmax : 0 < maxCacheEntries) : ∀ {fuel : Nat}
    {cache : OrderedMap (List Char) (CacheEntry T)}, cache.size ≤ fuel →
    (deleteOldest maxCacheEntries fuel cache).size < maxCacheEntries
  | 0, cache, h => by
      show cache.size < _
      omega
  | fuel + 1, cache, h => by
      rw [deleteOldest]
      split
      · apply deleteOldest_size hmax
        rw [OrderedMap.size_drop]
        omega
      · omega

end

omit [Add T] [Sub T] [Zero T] [OfNat T 1000] in
theorem pruneCache_get? (h : (pruneCache s now).cache.get? token = some e) :
    s.cache.get? token = some e := by
  rw [pruneCache, OrderedMap.get?_filter] at h
  exact (Option.filter_eq_some_iff.mp h).1

/-- What an entry promises. -/
def CacheEntry.Bounded (o : ClientOptions T) (e : CacheEntry T) : Prop :=
  e.expiresAt ≤ e.session.assertionExpiresAt ∧ e.expiresAt ≤ e.session.expiresAt ∧
    e.expiresAt ≤ e.receivedAt + o.cacheTtlMs

/-- A result is stored as one bounded entry; the other entries were there before. -/
theorem storeCachedSession_get? {t : List Char}
    (h : (storeCachedSession o s token session request now).cache.get? t = some e) :
    s.cache.get? t = some e ∨ t = token ∧ e.request = request ∧ e.Bounded o := by
  rw [storeCachedSession] at h
  split at h
  · exact .inl h
  dsimp only at h
  split at h
  · exact .inl h
  rw [OrderedMap.get?_set] at h
  split at h
  · rename_i htoken
    obtain rfl := Option.some.inj h
    exact .inr ⟨htoken, rfl, (min_le_left _ _).trans (min_le_right _ _), min_le_right _ _,
      (min_le_left _ _).trans (min_le_left _ _)⟩
  · have hold := deleteOldest_get? h
    split at hold
    · exact .inl (pruneCache_get? hold)
    · exact .inl hold

theorem storeCachedSession_size (h : s.cache.size ≤ o.maxCacheEntries) :
    (storeCachedSession o s token session request now).cache.size ≤ o.maxCacheEntries := by
  rw [storeCachedSession]
  split
  · exact h
  dsimp only
  split
  · exact h
  · exact (OrderedMap.size_set_le _ _ _).trans
      (deleteOldest_size o.maxCacheEntries_pos (le_refl _))

theorem storeOutcome_get? {t : List Char} {outcome : Outcome T}
    (h : (storeOutcome o s token request outcome now).cache.get? t = some e) :
    s.cache.get? t = some e ∨ t = token ∧ e.request = request ∧ e.Bounded o := by
  cases outcome with
  | active session => exact storeCachedSession_get? h
  | inactive => exact .inl h
  | failed => exact .inl h

theorem storeOutcome_size {outcome : Outcome T} (h : s.cache.size ≤ o.maxCacheEntries) :
    (storeOutcome o s token request outcome now).cache.size ≤ o.maxCacheEntries := by
  cases outcome with
  | active session => exact storeCachedSession_size h
  | inactive => exact h
  | failed => exact h

/-- Storing changes the cache and the clock of the last prune. -/
theorem storeOutcome_frame {outcome : Outcome T} : ∃ cache lastCachePruneAt,
    storeOutcome o s token request outcome now = { s with cache, lastCachePruneAt } := by
  cases outcome with
  | active session =>
      rw [storeOutcome, storeCachedSession]
      split
      · exact ⟨_, _, rfl⟩
      dsimp only
      split
      · exact ⟨_, _, rfl⟩
      · split <;> exact ⟨_, _, rfl⟩
  | inactive => exact ⟨_, _, rfl⟩
  | failed => exact ⟨_, _, rfl⟩

/-- When `settle` runs and what it does. -/
theorem act_settle (h : act o s (.settle request now) = some s') :
    ∃ q outcome, s.requests[request]? = some q ∧ q.outcome = some outcome ∧ q.settled = false ∧
      s' = settle o s request q outcome now := by
  simp only [act] at h
  split at h
  · cases h
  · rename_i q hq
    split at h
    · rename_i outcome houtcome hsettled
      exact ⟨q, outcome, hq, houtcome, hsettled, (Option.some.inj h).symm⟩
    · cases h

end Cache

/-! ## Expiry and size -/

/-- Entries are bounded by what they promise, and so were the cached answers. -/
structure Live (o : ClientOptions T) (s : ClientState T) : Prop where
  entries : ∀ token e, s.cache.get? token = some e → e.Bounded o
  bounded : s.cache.size ≤ o.maxCacheEntries
  answers : ∀ a ∈ s.answers, ∀ now receivedAt session, a.source = .cache now receivedAt →
    a.outcome = .active session → now < session.assertionExpiresAt ∧ now < session.expiresAt ∧
      now < receivedAt + o.cacheTtlMs

omit [Sub T] [OfNat T 1000] in
/-- Fewer entries and no new cached answers. -/
theorem Live.mono (h : Live o s)
    (hcache : ∀ token e, s'.cache.get? token = some e → s.cache.get? token = some e)
    (hsize : s'.cache.size ≤ s.cache.size)
    (hanswers : ∀ a ∈ s'.answers, a ∈ s.answers ∨ a.source = .request) : Live o s' where
  entries token e he := h.entries token e (hcache token e he)
  bounded := hsize.trans h.bounded
  answers a ha now receivedAt session hsource := by
    rcases hanswers a ha with hold | hrequest
    · exact h.answers a hold now receivedAt session hsource
    · rw [hrequest] at hsource
      cases hsource

/-- The cache after a hit: the entry moves to the end. -/
theorem get?_refresh {κ α : Type} [DecidableEq κ] {m : OrderedMap κ α} {k x : κ} {v w : α}
    (hk : m.get? k = some v) (h : ((m.erase k).set k v).get? x = some w) : m.get? x = some w := by
  rw [OrderedMap.get?_set] at h
  split at h
  · rename_i heq
    rw [heq, hk, h]
  · rename_i hne
    rwa [OrderedMap.get?_erase_ne m hne] at h

theorem size_refresh {κ α : Type} [DecidableEq κ] {m : OrderedMap κ α} {k : κ} {v : α}
    (hk : m.get? k = some v) : ((m.erase k).set k v).size ≤ m.size :=
  (OrderedMap.size_set_le _ _ _).trans (OrderedMap.size_erase_lt hk)

section

omit [LinearOrder T] [Add T] [Sub T] [Zero T] [OfNat T 1000]

theorem get?_erase_some {token x : List Char} {e : CacheEntry T}
    {cache : OrderedMap (List Char) (CacheEntry T)}
    (h : (cache.erase token).get? x = some e) : cache.get? x = some e := by
  by_cases hx : x = token
  · rw [hx, OrderedMap.get?_erase_self] at h
    cases h
  · rwa [OrderedMap.get?_erase_ne _ hx] at h

/-- `joinOrRequest` leaves the cache and the answers. -/
theorem joinOrRequest_frame (s : ClientState T) (token : List Char) :
    (joinOrRequest s token).cache = s.cache ∧ (joinOrRequest s token).answers = s.answers ∧
      (joinOrRequest s token).clears = s.clears ∧ (joinOrRequest s token).steps = s.steps := by
  rw [joinOrRequest]
  split <;> exact ⟨rfl, rfl, rfl, rfl⟩

end

omit [Sub T] [OfNat T 1000] in
theorem Live.joinOrRequest (h : Live o s) (token : List Char) :
    Live o (joinOrRequest s token) := by
  obtain ⟨hcache, hanswers, -, -⟩ := joinOrRequest_frame s token
  refine h.mono ?_ (by rw [hcache]) fun a ha => .inl (by rwa [hanswers] at ha)
  intro t e he
  rwa [hcache] at he

theorem Live.act {a : ClientAction T} (h : Live o s) (hact : act o s a = some s') : Live o s' := by
  cases a with
  | introspect sessionAssertion now =>
      obtain rfl := Option.some.inj hact
      rw [introspect]
      split
      · exact h
      split
      · exact h.joinOrRequest _
      · rename_i cached hcached
        split
        · rename_i hlive
          refine ⟨fun t e he => h.entries t e (get?_refresh hcached he),
            (size_refresh hcached).trans h.bounded, fun a ha now' receivedAt session hsource hout => ?_⟩
          rcases List.mem_snoc.mp ha with hold | rfl
          · exact h.answers a hold now' receivedAt session hsource hout
          · obtain ⟨rfl, rfl⟩ := Source.cache.inj hsource
            obtain rfl := Outcome.active.inj hout
            obtain ⟨hassertion, hsession, hreceived⟩ := h.entries _ cached hcached
            exact ⟨hlive.trans_le hassertion, hlive.trans_le hsession, hlive.trans_le hreceived⟩
        · refine Live.joinOrRequest ?_ _
          exact h.mono (fun t e he => get?_erase_some he) (OrderedMap.size_erase_le _ _)
            fun a ha => .inl ha
  | respond request outcome =>
      simp only [Sdk.act] at hact
      split at hact
      · cases hact
      · split at hact
        · obtain rfl := Option.some.inj hact
          exact h.mono (fun _ _ he => he) (le_refl _) fun a ha => .inl ha
        · cases hact
  | settle request now =>
      obtain ⟨q, outcome, -, -, -, rfl⟩ := act_settle hact
      refine ⟨fun token e he => ?_, storeOutcome_size h.bounded, ?_⟩
      · rcases storeOutcome_get? he with hold | ⟨-, -, hbounded⟩
        · exact h.entries token e hold
        · exact hbounded
      · intro a ha now' receivedAt session hsource
        rcases List.mem_snoc.mp ha with hold | rfl
        · exact h.answers a hold now' receivedAt session hsource
        · cases hsource
  | follow follower =>
      simp only [Sdk.act] at hact
      split at hact
      · cases hact
      · obtain ⟨outcome, -, rfl⟩ := Option.map_eq_some_iff.mp hact
        refine h.mono (fun _ _ he => he) (le_refl _) fun a ha => ?_
        rcases List.mem_snoc.mp ha with hold | rfl
        · exact .inl hold
        · exact .inr rfl
  | clearCache sessionAssertion =>
      obtain rfl := Option.some.inj hact
      cases sessionAssertion with
      | none => exact h.mono (fun _ _ he => by cases he) (Nat.zero_le _) fun a ha => .inl ha
      | some token =>
          exact h.mono (fun _ _ he => get?_erase_some he) (OrderedMap.size_erase_le _ _)
            fun a ha => .inl ha
  | pruneCache now =>
      obtain rfl := Option.some.inj hact
      exact h.mono (fun _ _ he => pruneCache_get? he) (OrderedMap.size_filter_le _ _)
        fun a ha => .inl ha

/-! ## Invalidation -/

/-- The request was made after every invalidation of the token. -/
def IssuedAfterClears (s : ClientState T) (token : List Char) (request : Nat) : Prop :=
  ∃ n, s.issuedAt request = some n ∧ ∀ c ∈ s.clears, c.covers token → c.calledAt < n

/-- The request was made after every invalidation of the token that the call came after. -/
def Excused (s : ClientState T) (token : List Char) (request startedAt : Nat) : Prop :=
  ∃ n, s.issuedAt request = some n ∧
    ∀ c ∈ s.clears, c.covers token → c.calledAt < startedAt → c.calledAt < n

/-- A request is in flight until the call that made it has gone on, and what is cached or in
flight for a token is younger than every invalidation of it. -/
structure Fresh (s : ClientState T) : Prop where
  clears : ∀ c ∈ s.clears, c.calledAt < s.steps
  issued : ∀ request n, s.issuedAt request = some n → n < s.steps
  pending : ∀ request q, s.requests[request]? = some q → q.settled = false →
    s.inFlight.get? q.token = some request
  cached : ∀ token e, s.cache.get? token = some e → IssuedAfterClears s token e.request
  inFlight : ∀ token request, s.inFlight.get? token = some request →
    IssuedAfterClears s token request
  followers : ∀ f ∈ s.followers, f.startedAt < s.steps ∧ Excused s f.token f.request f.startedAt
  answers : ∀ a ∈ s.answers, a.startedAt < s.steps ∧ Excused s a.token a.request a.startedAt

omit [LinearOrder T] [Add T] [Sub T] [Zero T] [OfNat T 1000] in
theorem IssuedAfterClears.excused {token : List Char} {request startedAt : Nat}
    (h : IssuedAfterClears s token request) : Excused s token request startedAt := by
  obtain ⟨n, hn, hclears⟩ := h
  exact ⟨n, hn, fun c hc hcovers _ => hclears c hc hcovers⟩

/-- Requests keep their time, and a new one is made now. -/
structure KeepsRequests (s s' : ClientState T) : Prop where
  kept : ∀ request n, s.issuedAt request = some n → s'.issuedAt request = some n
  fresh : ∀ request n, s'.issuedAt request = some n → s.issuedAt request = some n ∨ n = s.steps

omit [LinearOrder T] [Add T] [Sub T] [Zero T] [OfNat T 1000] in
theorem KeepsRequests.of_eq (h : s'.requests = s.requests) : KeepsRequests s s' where
  kept request n hn := by rwa [ClientState.issuedAt, h]
  fresh request n hn := by
    rw [ClientState.issuedAt, h] at hn
    exact .inl hn

section Frame

omit [LinearOrder T] [Add T] [Sub T] [Zero T] [OfNat T 1000]

variable {token : List Char} {request startedAt : Nat}

theorem IssuedAfterClears.mono (h : IssuedAfterClears s token request)
    (hrequests : KeepsRequests s s') (hclears : s'.clears = s.clears) :
    IssuedAfterClears s' token request := by
  obtain ⟨n, hn, hlt⟩ := h
  refine ⟨n, hrequests.kept request n hn, ?_⟩
  rwa [hclears]

theorem Excused.mono (h : Excused s token request startedAt) (hrequests : KeepsRequests s s')
    (hclears : s'.clears = s.clears) : Excused s' token request startedAt := by
  obtain ⟨n, hn, hlt⟩ := h
  refine ⟨n, hrequests.kept request n hn, ?_⟩
  rwa [hclears]

/-- Without an invalidation: what is new must be excused, the rest stays so. -/
theorem Fresh.frame (h : Fresh s) (hrequests : KeepsRequests s s')
    (hclears : s'.clears = s.clears) (hsteps : s'.steps = s.steps + 1)
    (hpending : ∀ request q, s'.requests[request]? = some q → q.settled = false →
      s'.inFlight.get? q.token = some request)
    (hcached : ∀ token e, s'.cache.get? token = some e →
      s.cache.get? token = some e ∨ IssuedAfterClears s token e.request)
    (hinFlight : ∀ token request, s'.inFlight.get? token = some request →
      s.inFlight.get? token = some request ∨ IssuedAfterClears s' token request)
    (hfollowers : ∀ f ∈ s'.followers, f ∈ s.followers ∨
      f.startedAt = s.steps ∧ IssuedAfterClears s f.token f.request)
    (hanswers : ∀ a ∈ s'.answers, a ∈ s.answers ∨
      a.startedAt ≤ s.steps ∧ Excused s a.token a.request a.startedAt) : Fresh s' where
  clears c hc := by
    rw [hclears] at hc
    have := h.clears c hc
    omega
  issued request n hn := by
    rcases hrequests.fresh request n hn with hold | rfl
    · have := h.issued request n hold
      omega
    · omega
  pending := hpending
  cached token e he := by
    rcases hcached token e he with hold | hnew
    · exact (h.cached token e hold).mono hrequests hclears
    · exact hnew.mono hrequests hclears
  inFlight token request hr := by
    rcases hinFlight token request hr with hold | hnew
    · exact (h.inFlight token request hold).mono hrequests hclears
    · exact hnew
  followers f hf := by
    rcases hfollowers f hf with hold | ⟨hstart, hnew⟩
    · obtain ⟨hlt, hexcused⟩ := h.followers f hold
      exact ⟨by omega, hexcused.mono hrequests hclears⟩
    · exact ⟨by omega, hnew.excused.mono hrequests hclears⟩
  answers a ha := by
    rcases hanswers a ha with hold | ⟨hstart, hnew⟩
    · obtain ⟨hlt, hexcused⟩ := h.answers a hold
      exact ⟨by omega, hexcused.mono hrequests hclears⟩
    · exact ⟨by omega, hnew.mono hrequests hclears⟩

end Frame

section

omit [LinearOrder T] [Add T] [Sub T] [Zero T] [OfNat T 1000]

/-- Overwriting a request without changing its time. -/
theorem keepsRequests_set {request : Nat} {q q' : Request T} (hq : s.requests[request]? = some q)
    (hs' : s'.requests = s.requests.set request q') (htime : q'.issuedAt = q.issuedAt) :
    KeepsRequests s s' := by
  have hsame : ∀ r, s'.issuedAt r = s.issuedAt r := by
    intro r
    rw [ClientState.issuedAt, hs', List.getElem?_set]
    split
    · rename_i heq
      subst heq
      rw [ClientState.issuedAt, hq, if_pos (List.getElem?_eq_some_iff.mp hq).1, Option.map_some,
        htime]
      rfl
    · rfl
  exact ⟨fun r n hn => (hsame r).trans hn, fun r n hn => .inl ((hsame r).symm.trans hn)⟩

theorem Fresh.erase (h : Fresh s) (token : List Char) :
    Fresh { s with cache := s.cache.erase token } where
  clears := h.clears
  issued := h.issued
  pending := h.pending
  cached t e he := h.cached t e (get?_erase_some he)
  inFlight := h.inFlight
  followers := h.followers
  answers := h.answers

theorem Fresh.joinOrRequest (h : Fresh s) (token : List Char) :
    Fresh { joinOrRequest s token with steps := (joinOrRequest s token).steps + 1 } := by
  rw [Sdk.joinOrRequest]
  split
  · rename_i request hrequest
    refine h.frame (.of_eq rfl) rfl rfl h.pending (fun _ _ he => .inl he)
      (fun _ _ hr => .inl hr) (fun f hf => ?_) fun a ha => .inl ha
    rcases List.mem_snoc.mp hf with hold | rfl
    · exact .inl hold
    · exact .inr ⟨rfl, h.inFlight token request hrequest⟩
  · rename_i hnone
    have hnew : ∀ q, (s.requests ++ [q])[s.requests.length]? = some q := by
      intro q
      simp
    refine h.frame ⟨fun r n hn => ?_, fun r n hn => ?_⟩ rfl rfl ?_ (fun _ _ he => .inl he) ?_
      (fun f hf => .inl hf) fun a ha => .inl ha
    · obtain ⟨q, hq, rfl⟩ := Option.map_eq_some_iff.mp hn
      have hlt := (List.getElem?_eq_some_iff.mp hq).1
      show (_ : List (Request T))[r]?.map _ = _
      rw [List.getElem?_append_left hlt, hq]
      rfl
    · obtain ⟨q, hq, rfl⟩ := Option.map_eq_some_iff.mp hn
      rcases Nat.lt_or_ge r s.requests.length with hlt | hge
      · have hold := (List.getElem?_append_left hlt).symm.trans hq
        refine .inl ?_
        rw [ClientState.issuedAt, hold]
        rfl
      · refine .inr ?_
        obtain hlast := List.mem_of_getElem? ((List.getElem?_append_right hge).symm.trans hq)
        rw [List.mem_singleton.mp hlast]
    · intro r q hq hsettled
      rcases Nat.lt_or_ge r s.requests.length with hlt | hge
      · have hold := (List.getElem?_append_left hlt).symm.trans hq
        have hflight := h.pending r q hold hsettled
        have hne : q.token ≠ token := by
          rintro rfl
          rw [hnone] at hflight
          cases hflight
        exact (OrderedMap.get?_set_ne _ _ hne).trans hflight
      · rw [List.getElem?_append_right hge] at hq
        obtain ⟨hzero, hlast⟩ := List.getElem?_eq_some_iff.mp hq
        rw [List.length_singleton] at hzero
        obtain rfl : r = s.requests.length := by omega
        rw [List.getElem_singleton] at hlast
        rw [← hlast]
        exact OrderedMap.get?_set_self _ _ _
    · intro t r hr
      rw [OrderedMap.get?_set] at hr
      split at hr
      · obtain rfl := Option.some.inj hr
        refine .inr ⟨s.steps, ?_, fun c hc _ => h.clears c hc⟩
        rw [ClientState.issuedAt, hnew]
        rfl
      · exact .inl hr

end

theorem Fresh.step {a : ClientAction T} (h : Fresh s) (hc : NothingInFlight s a)
    (hstep : clientStep o s a = some s') : Fresh s' := by
  obtain ⟨t, hact, rfl⟩ := Option.map_eq_some_iff.mp hstep
  cases a with
  | introspect sessionAssertion now =>
      obtain rfl := Option.some.inj hact
      rw [introspect]
      split
      · exact h.frame (.of_eq rfl) rfl rfl h.pending (fun _ _ he => .inl he)
          (fun _ _ hr => .inl hr) (fun f hf => .inl hf) fun a ha => .inl ha
      split
      · exact h.joinOrRequest _
      · rename_i cached hcached
        split
        · refine h.frame (.of_eq rfl) rfl rfl h.pending
            (fun _ _ he => .inl (get?_refresh hcached he)) (fun _ _ hr => .inl hr)
            (fun f hf => .inl hf) fun a ha => ?_
          rcases List.mem_snoc.mp ha with hold | rfl
          · exact .inl hold
          · exact .inr ⟨le_refl _, (h.cached _ cached hcached).excused⟩
        · exact (h.erase _).joinOrRequest _
  | respond request outcome =>
      simp only [act] at hact
      split at hact
      · cases hact
      · rename_i q hq
        split at hact
        · obtain rfl := Option.some.inj hact
          refine h.frame (keepsRequests_set hq rfl rfl) rfl rfl ?_ (fun _ _ he => .inl he)
            (fun _ _ hr => .inl hr) (fun f hf => .inl hf) fun a ha => .inl ha
          intro r p hp hsettled
          rw [List.getElem?_set] at hp
          split at hp
          · rename_i heq
            subst heq
            split at hp
            · obtain rfl := Option.some.inj hp
              exact h.pending _ q hq hsettled
            · cases hp
          · exact h.pending r p hp hsettled
        · cases hact
  | settle request now =>
      obtain ⟨q, outcome, hq, -, hsettled, rfl⟩ := act_settle hact
      have hflight := h.pending request q hq hsettled
      have hyoung := h.inFlight q.token request hflight
      obtain ⟨cache, lastCachePruneAt, hframe⟩ :=
        @storeOutcome_frame T _ _ _ _ _ o s q.token request now outcome
      have hcache : ∀ t e, cache.get? t = some e →
          s.cache.get? t = some e ∨ t = q.token ∧ e.request = request := by
        intro t e he
        have hstored : (storeOutcome o s q.token request outcome now).cache.get? t = some e := by
          rw [hframe]
          exact he
        rcases storeOutcome_get? hstored with hold | ⟨htoken, hrequest, -⟩
        · exact .inl hold
        · exact .inr ⟨htoken, hrequest⟩
      rw [settle, hframe, if_pos hflight]
      refine h.frame (keepsRequests_set hq rfl rfl) rfl rfl ?_ (fun t e he => ?_) (fun t r hr => ?_)
        (fun f hf => .inl hf) fun a ha => ?_
      · intro r p hp hopen
        rw [List.getElem?_set] at hp
        split at hp
        · split at hp
          · obtain rfl := Option.some.inj hp
            cases hopen
          · cases hp
        · rename_i hne
          have hother := h.pending r p hp hopen
          have htoken : p.token ≠ q.token := by
            intro heq
            rw [heq, hflight] at hother
            exact hne (Option.some.inj hother)
          exact (OrderedMap.get?_erase_ne _ htoken).trans hother
      · rcases hcache t e he with hold | ⟨rfl, rfl⟩
        · exact .inl hold
        · exact .inr hyoung
      · by_cases ht : t = q.token
        · rw [ht, OrderedMap.get?_erase_self] at hr
          cases hr
        · exact .inl ((OrderedMap.get?_erase_ne _ ht).symm.trans hr)
      · rcases List.mem_snoc.mp ha with hold | rfl
        · exact .inl hold
        · have hissued : s.issuedAt request = some q.issuedAt := by
            rw [ClientState.issuedAt, hq]
            rfl
          exact .inr ⟨(h.issued request _ hissued).le, hyoung.excused⟩
  | follow follower =>
      simp only [act] at hact
      split at hact
      · cases hact
      · rename_i f hf
        obtain ⟨outcome, -, rfl⟩ := Option.map_eq_some_iff.mp hact
        obtain ⟨hlt, hexcused⟩ := h.followers f (List.mem_of_getElem? hf)
        refine h.frame (.of_eq rfl) rfl rfl h.pending (fun _ _ he => .inl he)
          (fun _ _ hr => .inl hr) (fun g hg => .inl (List.mem_of_mem_eraseIdx hg)) fun a ha => ?_
        rcases List.mem_snoc.mp ha with hold | rfl
        · exact .inl hold
        · exact .inr ⟨hlt.le, hexcused⟩
  | clearCache sessionAssertion =>
      obtain rfl := Option.some.inj hact
      -- What the invalidation covers is neither cached nor in flight after it.
      have hnew : ∀ t, (Clear.mk s.steps (sessionAssertion.map trim)).covers t →
          (∀ e, (clearCache s sessionAssertion).cache.get? t ≠ some e) ∧
            ∀ r, s.inFlight.get? t ≠ some r := by
        intro t hcovers
        cases sessionAssertion with
        | none =>
            refine ⟨(fun _ he => by cases he), fun r hr => ?_⟩
            have hempty : s.inFlight.size = 0 := hc
            have hmem := OrderedMap.get?_eq_some.mp hr
            rw [List.eq_nil_of_length_eq_zero hempty] at hmem
            cases hmem
        | some token =>
            obtain rfl : trim token = t := of_decide_eq_true hcovers
            have hnone : s.inFlight.get? (trim token) = none := hc
            refine ⟨fun e he => ?_, fun r hr => ?_⟩
            · rw [clearCache, OrderedMap.get?_erase_self] at he
              cases he
            · rw [hnone] at hr
              cases hr
      have hcached : ∀ t e, (clearCache s sessionAssertion).cache.get? t = some e →
          s.cache.get? t = some e := by
        intro t e he
        cases sessionAssertion with
        | none => cases he
        | some token => exact get?_erase_some he
      have hcovered : ∀ t r, IssuedAfterClears s t r →
          ¬(Clear.mk s.steps (sessionAssertion.map trim)).covers t →
            IssuedAfterClears (clearCache s sessionAssertion) t r := by
        rintro t r ⟨n, hn, hlt⟩ hnot
        refine ⟨n, hn, fun c hc hcovers => ?_⟩
        rcases List.mem_snoc.mp hc with hold | rfl
        · exact hlt c hold hcovers
        · exact absurd hcovers hnot
      have hexcused : ∀ t r startedAt, startedAt < s.steps → Excused s t r startedAt →
          Excused (clearCache s sessionAssertion) t r startedAt := by
        rintro t r startedAt hstart ⟨n, hn, hlt⟩
        refine ⟨n, hn, fun c hc hcovers hbefore => ?_⟩
        rcases List.mem_snoc.mp hc with hold | rfl
        · exact hlt c hold hcovers hbefore
        · exact absurd hbefore (Nat.not_lt.mpr hstart.le)
      refine ⟨fun c hc => ?_, fun r n hn => ?_, h.pending, fun t e he => ?_, fun t r hr => ?_,
        fun f hf => ?_, fun a ha => ?_⟩
      · rcases List.mem_snoc.mp hc with hold | rfl
        · exact (h.clears c hold).trans (Nat.lt_succ_self _)
        · exact Nat.lt_succ_self _
      · exact (h.issued r n hn).trans (Nat.lt_succ_self _)
      · exact hcovered t _ (h.cached t e (hcached t e he)) fun hcovers => (hnew t hcovers).1 e he
      · exact hcovered t _ (h.inFlight t r hr) fun hcovers => (hnew t hcovers).2 r hr
      · obtain ⟨hstart, hold⟩ := h.followers f hf
        exact ⟨hstart.trans (Nat.lt_succ_self _), hexcused _ _ _ hstart hold⟩
      · obtain ⟨hstart, hold⟩ := h.answers a ha
        exact ⟨hstart.trans (Nat.lt_succ_self _), hexcused _ _ _ hstart hold⟩
  | pruneCache now =>
      obtain rfl := Option.some.inj hact
      exact h.frame (.of_eq rfl) rfl rfl h.pending (fun _ _ he => .inl (pruneCache_get? he))
        (fun _ _ hr => .inl hr) (fun f hf => .inl hf) fun a ha => .inl ha

/-! ## Runs -/

/-- With no request in flight at an invalidation, no answer comes from before it; answers
from the cache are never too old and the cache is never too large. -/
theorem introspection_cache_honoured (o : ClientOptions T)
    (h : Reach (clientStep o) NothingInFlight (· = ClientState.start) s) : CacheHonoured o s := by
  have hlive : Live o s := by
    refine h.invariant (I := fun s => Live o s) ?_ ?_
    · rintro s rfl
      exact ⟨(fun _ _ he => by cases he), Nat.zero_le _, (fun _ ha => by cases ha)⟩
    · intro s a s' _ hs _ hstep
      obtain ⟨t, hact, rfl⟩ := Option.map_eq_some_iff.mp hstep
      have ht := hs.act hact
      exact ⟨ht.entries, ht.bounded, ht.answers⟩
  have hfresh : Fresh s := by
    refine h.invariant (I := fun s => Fresh s) ?_ ?_
    · rintro s rfl
      exact ⟨(fun _ hc => by cases hc), (fun _ _ hn => by simp [ClientState.issuedAt,
        ClientState.start] at hn), (fun _ _ hq => by simp [ClientState.start] at hq),
        (fun _ _ he => by cases he), (fun _ _ hr => by cases hr), (fun _ hf => by cases hf),
        (fun _ ha => by cases ha)⟩
    · intro s a s' _ hs hc hstep
      exact hs.step hc hstep
  refine ⟨hlive.answers, hlive.bounded, fun a ha c hc hcovers issuedAt hissued => ?_⟩
  obtain ⟨-, n, hn, hlt⟩ := hfresh.answers a ha
  rintro ⟨hbefore, hafter⟩
  obtain rfl := Option.some.inj (hn.symm.trans hissued)
  exact absurd (hlt c hc hcovers hafter) (Nat.not_lt.mpr hbefore.le)

def plainOptions : ClientOptions Int := ⟨5000, by decide, 2, by decide⟩

def plainSession : BurrowGateSession Int :=
  ⟨"site_1".toList, "sess_1".toList, ⟨"user_1".toList, "alice".toList⟩, 0, 100000, 90000⟩

/-- A result is cached and given again; after an invalidation it is asked for again. -/
def clearedBetween : List (ClientAction Int) :=
  [.introspect "t".toList 10, .respond 0 (.active plainSession), .settle 0 20,
    .introspect "t".toList 30, .clearCache (some "t".toList), .introspect "t".toList 40,
    .respond 1 .inactive, .settle 1 50]

theorem introspection_cache_honoured_cleared :
    ∃ s, execIf (clientStep plainOptions) NothingInFlight ClientState.start clearedBetween = some s ∧
      s.answers.length = 3 ∧ CacheHonoured plainOptions s := by
  obtain ⟨s, hs, hlength⟩ := (Option.any_eq_true ..).mp
    (show (execIf (clientStep plainOptions) NothingInFlight ClientState.start clearedBetween).any
      (fun s => s.answers.length = 3) = true by decide +kernel)
  exact ⟨s, hs, of_decide_eq_true hlength,
    introspection_cache_honoured plainOptions (execIf_reach (.start rfl) hs)⟩

/-- The session is revoked and the cache cleared while a request is in flight; the call that
starts after it is answered with the result of that request. -/
def clearedInFlight : List (ClientAction Int) :=
  [.introspect "t".toList 10, .clearCache (some "t".toList), .introspect "t".toList 30,
    .respond 0 (.active plainSession), .settle 0 40, .follow 0]

theorem cleared_result_given :
    ¬ ∀ s, Reach (clientStep plainOptions) Any (· = ClientState.start) s →
      CacheHonoured plainOptions s := by
  intro h
  obtain ⟨s, hs, hstale⟩ := (Option.any_eq_true ..).mp
    (show (exec (clientStep plainOptions) ClientState.start clearedInFlight).any
      (fun s => s.answers.any fun a => s.clears.any fun c => c.covers a.token &&
        (s.issuedAt a.request).any fun n => n < c.calledAt && c.calledAt < a.startedAt)
        = true by decide +kernel)
  obtain ⟨a, ha, hstale⟩ := List.any_eq_true.mp hstale
  obtain ⟨c, hc, hstale⟩ := List.any_eq_true.mp hstale
  obtain ⟨hcovers, hissued⟩ := Bool.and_eq_true_iff.mp hstale
  cases hn : s.issuedAt a.request with
  | none =>
      rw [hn] at hissued
      cases hissued
  | some n =>
      rw [hn] at hissued
      obtain ⟨hbefore, hafter⟩ := Bool.and_eq_true_iff.mp hissued
      exact (h s (exec_reach (.start rfl) hs)).cleared a ha c hc hcovers n hn
        ⟨of_decide_eq_true hbefore, of_decide_eq_true hafter⟩

end BurrowGate.Sdk
