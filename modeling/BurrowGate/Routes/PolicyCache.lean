import BurrowGate.Lib.Run
import BurrowGate.Routes.RoutePolicy
import Mathlib.Logic.Function.Basic

/-!
# The route policy cache

`policiesForSite` answers from `routePolicyCache` or asks the database and fills
the cache when the answer is there; a mutation writes its row and then deletes
the site's entry. Where a query waits and when a mutation goes on after its
commit are actions of their own. History variables number the commits of each
site: which ones have returned, and which ones a list had seen when it was read.
-/

namespace BurrowGate.Routes

open Lib.Run

variable {I : Type*} [DecidableEq I]

def ROUTE_POLICY_CACHE_TTL_MS : Nat := 5000

/-- `SELECT * FROM route_policies WHERE site_id=.. ORDER BY priority DESC, created_at ASC`. -/
def routePolicies (table : List (RoutePolicyRecord I)) (siteId : I) : List (RoutePolicyRecord I) :=
  (table.filter (·.siteId = siteId)).mergeSort fun left right =>
    right.priority < left.priority ||
      (right.priority = left.priority && left.createdAt ≤ right.createdAt)

/-- The write of `createRoutePolicy`, `updateRoutePolicy` or `deleteRoutePolicy`. -/
inductive PolicyWrite (I : Type*)
  | insertRoutePolicy (policy : RoutePolicyRecord I)
  | updateRoutePolicy (policy : RoutePolicyRecord I)
  | deleteRoutePolicy (id siteId : I)

def PolicyWrite.siteId : PolicyWrite I → I
  | .insertRoutePolicy p | .updateRoutePolicy p => p.siteId
  | .deleteRoutePolicy _ site => site

/-- `UPDATE route_policies SET .. WHERE id=.. AND site_id=..`, on one row. -/
def updatedRow (p q : RoutePolicyRecord I) : RoutePolicyRecord I :=
  if q.id = p.id ∧ q.siteId = p.siteId then p else q

def PolicyWrite.apply (table : List (RoutePolicyRecord I)) : PolicyWrite I →
    List (RoutePolicyRecord I)
  | .insertRoutePolicy p => table ++ [p]
  | .updateRoutePolicy p => table.map (updatedRow p)
  | .deleteRoutePolicy id site => table.filter fun q => ¬ (q.id = id ∧ q.siteId = site)

/-- `readAt` is history: how many commits of the site the list had seen. -/
structure CachedPolicies (I : Type*) where
  expiresAt : Nat
  policies : List (RoutePolicyRecord I)
  readAt : Nat

/-- A `resolveRoutePolicy` that waits for the database; `rows` once the query has read. `required`
is history: the last commit of the site that had returned when it started. -/
structure PolicyQuery (I : Type*) where
  siteId : I
  method : List Char
  pathname : List Char
  required : Nat
  rows : Option (Nat × List (RoutePolicyRecord I))

/-- A resolution that has got its list. -/
structure Resolution (I : Type*) where
  siteId : I
  method : List Char
  pathname : List Char
  required : Nat
  readAt : Nat
  policies : List (RoutePolicyRecord I)
  policy : Option (RoutePolicyRecord I)

structure PolicyService (I : Type*) where
  now : Nat
  table : List (RoutePolicyRecord I)
  routePolicyCache : I → Option (CachedPolicies I)
  queries : List (PolicyQuery I)
  mutations : List (I × Nat)
  commits : I → Nat
  returned : I → Nat
  contents : I → Nat → List (RoutePolicyRecord I)
  resolutions : List (Resolution I)

inductive PolicyAction (I : Type*)
  | advance (ms : Nat)
  | resolveRoutePolicy (siteId : I) (method pathname : List Char)
  | queryReads (i : Nat)
  | queryAnswers (i : Nat)
  | queryFails (i : Nat)
  | commit (write : PolicyWrite I)
  | mutationReturns (i : Nat)
  | invalidateRoutePolicyCache (siteId : I)
  | invalidateAllRoutePolicyCache

def resolution (siteId : I) (method pathname : List Char) (required readAt : Nat)
    (policies : List (RoutePolicyRecord I)) : Resolution I :=
  { siteId, method, pathname, required, readAt, policies
    policy := matchingRoutePolicy policies method pathname }

/-- The synchronous head of `policiesForSite`. -/
def startResolution (s : PolicyService I) (siteId : I) (method pathname : List Char) :
    PolicyService I :=
  match (s.routePolicyCache siteId).filter fun c => s.now < c.expiresAt with
  | some cached =>
      { s with resolutions :=
          resolution siteId method pathname (s.returned siteId) cached.readAt cached.policies ::
            s.resolutions }
  | none =>
      { s with queries :=
          { siteId, method, pathname, required := s.returned siteId, rows := none } :: s.queries }

/-- `policiesForSite` after its query, up to the end of `resolveRoutePolicy`. -/
def fillCache (s : PolicyService I) (q : PolicyQuery I) (readAt : Nat)
    (policies : List (RoutePolicyRecord I)) : PolicyService I :=
  { s with
    routePolicyCache := Function.update s.routePolicyCache q.siteId
      (some { expiresAt := s.now + ROUTE_POLICY_CACHE_TTL_MS, policies, readAt })
    resolutions :=
      resolution q.siteId q.method q.pathname q.required readAt policies :: s.resolutions }

def commitWrite (s : PolicyService I) (w : PolicyWrite I) : PolicyService I :=
  let table := w.apply s.table
  let number := s.commits w.siteId + 1
  { s with
    table := table
    mutations := (w.siteId, number) :: s.mutations
    commits := Function.update s.commits w.siteId number
    contents := Function.update s.contents w.siteId
      (Function.update (s.contents w.siteId) number (routePolicies table w.siteId)) }

def policyStep (s : PolicyService I) : PolicyAction I → Option (PolicyService I)
  | .advance ms => some { s with now := s.now + ms }
  | .resolveRoutePolicy siteId method pathname => some (startResolution s siteId method pathname)
  | .queryReads i =>
      s.queries[i]?.map fun q =>
        { s with queries :=
            { q with rows := some (s.commits q.siteId, routePolicies s.table q.siteId) } ::
              s.queries.eraseIdx i }
  | .queryAnswers i =>
      match s.queries[i]? with
      | some q => q.rows.map fun rows =>
          fillCache { s with queries := s.queries.eraseIdx i } q rows.1 rows.2
      | none => none
  | .queryFails i => s.queries[i]?.map fun _ => { s with queries := s.queries.eraseIdx i }
  | .commit w => some (commitWrite s w)
  | .mutationReturns i =>
      s.mutations[i]?.map fun m =>
        { s with
          mutations := s.mutations.eraseIdx i
          routePolicyCache := Function.update s.routePolicyCache m.1 none
          returned := Function.update s.returned m.1 (max (s.returned m.1) m.2) }
  | .invalidateRoutePolicyCache siteId =>
      some { s with routePolicyCache := Function.update s.routePolicyCache siteId none }
  | .invalidateAllRoutePolicyCache => some { s with routePolicyCache := fun _ => none }

/-- A node that has just started. -/
def startedService (now : Nat) (table : List (RoutePolicyRecord I)) : PolicyService I :=
  { now := now
    table := table
    routePolicyCache := fun _ => none
    queries := []
    mutations := []
    commits := fun _ => 0
    returned := fun _ => 0
    contents := fun siteId _ => routePolicies table siteId
    resolutions := [] }

def StartedService (s : PolicyService I) : Prop := ∃ now table, s = startedService now table

/-! ## Commits -/

variable {s s' : PolicyService I}

theorem updatedRow_siteId (p q : RoutePolicyRecord I) : (updatedRow p q).siteId = q.siteId := by
  unfold updatedRow
  split
  · rename_i hq
    exact hq.2.symm
  · rfl

theorem updatedRow_of_ne {p q : RoutePolicyRecord I} (h : q.siteId ≠ p.siteId) :
    updatedRow p q = q := by
  rw [updatedRow, if_neg]
  exact fun hq => h hq.2

/-- A write leaves the lists of the other sites. -/
theorem routePolicies_apply_of_ne (table : List (RoutePolicyRecord I)) (w : PolicyWrite I)
    {siteId : I} (h : siteId ≠ w.siteId) :
    routePolicies (w.apply table) siteId = routePolicies table siteId := by
  have hfilter : (w.apply table).filter (·.siteId = siteId) =
      table.filter (·.siteId = siteId) := by
    cases w with
    | insertRoutePolicy p =>
        have hp : p.siteId ≠ siteId := fun heq => h heq.symm
        simp [PolicyWrite.apply, hp]
    | updateRoutePolicy p =>
        have hcomp : ((fun q : RoutePolicyRecord I => decide (q.siteId = siteId)) ∘ updatedRow p) =
            fun q => decide (q.siteId = siteId) := by
          funext q
          simp [updatedRow_siteId]
        rw [PolicyWrite.apply, List.filter_map, hcomp]
        refine (List.map_congr_left fun q hq => ?_).trans (List.map_id' _)
        have hq : q.siteId = siteId := by simpa using (List.mem_filter.mp hq).2
        exact updatedRow_of_ne fun heq => h (hq.symm.trans heq)
    | deleteRoutePolicy id site =>
        rw [PolicyWrite.apply, List.filter_filter]
        refine List.filter_congr fun q _ => ?_
        by_cases hq : q.siteId = siteId
        · have hne : q.siteId ≠ site := by rw [hq]; exact h
          simp [hne]
        · simp [hq]
  unfold routePolicies
  rw [hfilter]

/-! ## The invariant -/

/-- A query's list goes into the cache only while no later commit of the site has returned. -/
def FillsFresh (s : PolicyService I) : PolicyAction I → Prop
  | .queryAnswers i => ∀ q ∈ s.queries[i]?, ∀ rows ∈ q.rows, s.returned q.siteId ≤ rows.1
  | _ => True

instance (s : PolicyService I) : ∀ act, Decidable (FillsFresh s act)
  | .queryAnswers _ => inferInstanceAs (Decidable (∀ q ∈ _, ∀ rows ∈ _, _))
  | .advance _ | .resolveRoutePolicy _ _ _ | .queryReads _ | .queryFails _ | .commit _
  | .mutationReturns _ | .invalidateRoutePolicyCache _ | .invalidateAllRoutePolicyCache =>
      inferInstanceAs (Decidable True)

/-- A list read after `readAt` commits of its site is the site's list at that commit. -/
def ReadAs (s : PolicyService I) (siteId : I) (readAt : Nat)
    (policies : List (RoutePolicyRecord I)) : Prop :=
  readAt ≤ s.commits siteId ∧ policies = s.contents siteId readAt

/-- A resolution has a list its site had at or after every commit that had returned. -/
def Resolution.Current (s : PolicyService I) (r : Resolution I) : Prop :=
  r.required ≤ r.readAt ∧ ReadAs s r.siteId r.readAt r.policies ∧
    r.policy = matchingRoutePolicy r.policies r.method r.pathname

structure Cached (s : PolicyService I) : Prop where
  contents : ∀ siteId, s.contents siteId (s.commits siteId) = routePolicies s.table siteId
  returned : ∀ siteId, s.returned siteId ≤ s.commits siteId
  mutations : ∀ m ∈ s.mutations, m.2 ≤ s.commits m.1
  cache : ∀ siteId c, s.routePolicyCache siteId = some c →
    s.returned siteId ≤ c.readAt ∧ ReadAs s siteId c.readAt c.policies
  required : ∀ q ∈ s.queries, q.required ≤ s.returned q.siteId
  rows : ∀ q ∈ s.queries, ∀ rows ∈ q.rows,
    q.required ≤ rows.1 ∧ ReadAs s q.siteId rows.1 rows.2
  resolutions : ∀ r ∈ s.resolutions, r.Current s

theorem started_cached (h : StartedService s) : Cached s := by
  obtain ⟨now, table, rfl⟩ := h
  constructor <;> simp [startedService]

theorem ReadAs.commitWrite {siteId : I} {readAt : Nat} {policies : List (RoutePolicyRecord I)}
    (h : ReadAs s siteId readAt policies) (w : PolicyWrite I) :
    ReadAs (commitWrite s w) siteId readAt policies := by
  obtain ⟨hle, hlist⟩ := h
  by_cases hsite : siteId = w.siteId
  · subst hsite
    have hne : readAt ≠ s.commits w.siteId + 1 := by omega
    constructor
    · simp only [Routes.commitWrite, Function.update_self]
      omega
    · simp only [Routes.commitWrite, Function.update_self, Function.update_of_ne hne]
      exact hlist
  · constructor
    · simpa only [Routes.commitWrite, Function.update_of_ne hsite] using hle
    · simpa only [Routes.commitWrite, Function.update_of_ne hsite] using hlist

theorem startResolution_cached (h : Cached s) (siteId : I) (method pathname : List Char) :
    Cached (startResolution s siteId method pathname) := by
  unfold startResolution
  split
  · rename_i cached hc
    obtain ⟨hfresh, hread⟩ := h.cache siteId cached (Option.filter_eq_some_iff.mp hc).1
    refine { h with resolutions := ?_ }
    intro r hr
    rcases List.mem_cons.mp hr with rfl | hold
    · exact ⟨hfresh, hread, rfl⟩
    · exact h.resolutions r hold
  · refine { h with required := ?_, rows := ?_ }
    · intro q hq
      rcases List.mem_cons.mp hq with rfl | hold
      · exact le_rfl
      · exact h.required q hold
    · intro q hq rows hrows
      rcases List.mem_cons.mp hq with rfl | hold
      · cases hrows
      · exact h.rows q hold rows hrows

theorem commitWrite_cached (h : Cached s) (w : PolicyWrite I) : Cached (commitWrite s w) := by
  have hmono (siteId : I) : s.commits siteId ≤ (commitWrite s w).commits siteId := by
    by_cases hsite : siteId = w.siteId
    · subst hsite
      simp only [commitWrite, Function.update_self]
      omega
    · simp only [commitWrite, Function.update_of_ne hsite]
      exact le_rfl
  refine ⟨?_, ?_, ?_, ?_, h.required, ?_, ?_⟩
  · intro siteId
    by_cases hsite : siteId = w.siteId
    · subst hsite
      simp [commitWrite]
    · have hlist := routePolicies_apply_of_ne s.table w hsite
      simp only [commitWrite, Function.update_of_ne hsite]
      rw [hlist]
      exact h.contents siteId
  · exact fun siteId => (h.returned siteId).trans (hmono siteId)
  · intro m hm
    rcases List.mem_cons.mp hm with rfl | hold
    · simp [commitWrite]
    · exact (h.mutations m hold).trans (hmono m.1)
  · intro siteId c hc
    obtain ⟨hfresh, hread⟩ := h.cache siteId c hc
    exact ⟨hfresh, hread.commitWrite w⟩
  · intro q hq rows hrows
    obtain ⟨hfresh, hread⟩ := h.rows q hq rows hrows
    exact ⟨hfresh, hread.commitWrite w⟩
  · intro r hr
    obtain ⟨hfresh, hread, hpolicy⟩ := h.resolutions r hr
    exact ⟨hfresh, hread.commitWrite w, hpolicy⟩

/-- Deleting entries and dropping queries keeps the invariant. -/
theorem Cached.drop (h : Cached s) (cache : I → Option (CachedPolicies I))
    (hcache : ∀ siteId c, cache siteId = some c → s.routePolicyCache siteId = some c) (i : Nat) :
    Cached { s with routePolicyCache := cache, queries := s.queries.eraseIdx i } :=
  { h with
    cache := fun siteId c hc => h.cache siteId c (hcache siteId c hc)
    required := fun q hq => h.required q (List.mem_of_mem_eraseIdx hq)
    rows := fun q hq => h.rows q (List.mem_of_mem_eraseIdx hq) }

theorem policyStep_cached {act : PolicyAction I} (h : Cached s) (hc : FillsFresh s act)
    (hs : policyStep s act = some s') : Cached s' := by
  cases act with
  | advance ms => obtain rfl := Option.some.inj hs; exact { h with }
  | resolveRoutePolicy siteId method pathname =>
      obtain rfl := Option.some.inj hs
      exact startResolution_cached h siteId method pathname
  | queryReads i =>
      obtain ⟨q, hq, rfl⟩ := Option.map_eq_some_iff.mp hs
      have hmem := List.mem_of_getElem? hq
      refine { h with required := ?_, rows := ?_ }
      · intro q' hq'
        rcases List.mem_cons.mp hq' with rfl | hold
        · exact h.required q hmem
        · exact h.required q' (List.mem_of_mem_eraseIdx hold)
      · intro q' hq' rows hrows
        rcases List.mem_cons.mp hq' with rfl | hold
        · obtain rfl := Option.some.inj hrows
          refine ⟨(h.required q hmem).trans (h.returned q.siteId), le_rfl, ?_⟩
          exact (h.contents q.siteId).symm
        · exact h.rows q' (List.mem_of_mem_eraseIdx hold) rows hrows
  | queryAnswers i =>
      simp only [policyStep] at hs
      split at hs
      · rename_i q hq
        obtain ⟨rows, hrows, rfl⟩ := Option.map_eq_some_iff.mp hs
        obtain ⟨hrequired, hread⟩ := h.rows q (List.mem_of_getElem? hq) rows hrows
        have hdrop := h.drop s.routePolicyCache (fun _ _ hc => hc) i
        refine { hdrop with cache := ?_, resolutions := ?_ }
        · intro siteId c hcache
          by_cases hsite : siteId = q.siteId
          · subst hsite
            simp only [fillCache, Function.update_self] at hcache
            obtain rfl := Option.some.inj hcache
            exact ⟨hc q hq rows hrows, hread⟩
          · simp only [fillCache, Function.update_of_ne hsite] at hcache
            exact h.cache siteId c hcache
        · intro r hr
          rcases List.mem_cons.mp hr with rfl | hold
          · exact ⟨hrequired, hread, rfl⟩
          · exact h.resolutions r hold
      · cases hs
  | queryFails i =>
      obtain ⟨q, -, rfl⟩ := Option.map_eq_some_iff.mp hs
      exact h.drop s.routePolicyCache (fun _ _ hc => hc) i
  | commit w => obtain rfl := Option.some.inj hs; exact commitWrite_cached h w
  | mutationReturns i =>
      obtain ⟨m, hm, rfl⟩ := Option.map_eq_some_iff.mp hs
      have hle := h.mutations m (List.mem_of_getElem? hm)
      have hmono (siteId : I) : s.returned siteId ≤
          Function.update s.returned m.1 (max (s.returned m.1) m.2) siteId := by
        by_cases hsite : siteId = m.1
        · subst hsite
          rw [Function.update_self]
          exact le_max_left _ _
        · rw [Function.update_of_ne hsite]
      refine ⟨h.contents, ?_, ?_, ?_, ?_, h.rows, h.resolutions⟩
      · intro siteId
        by_cases hsite : siteId = m.1
        · subst hsite
          simp only [Function.update_self]
          exact max_le (h.returned m.1) hle
        · simp only [Function.update_of_ne hsite]
          exact h.returned siteId
      · exact fun m' hm' => h.mutations m' (List.mem_of_mem_eraseIdx hm')
      · intro siteId c hcache
        by_cases hsite : siteId = m.1
        · subst hsite
          simp at hcache
        · simp only [Function.update_of_ne hsite] at hcache ⊢
          exact h.cache siteId c hcache
      · exact fun q hq => (h.required q hq).trans (hmono q.siteId)
  | invalidateRoutePolicyCache siteId =>
      obtain rfl := Option.some.inj hs
      refine { h with cache := fun site c hcache => h.cache site c ?_ }
      by_cases hsite : site = siteId
      · subst hsite
        simp at hcache
      · simpa only [Function.update_of_ne hsite] using hcache
  | invalidateAllRoutePolicyCache =>
      obtain rfl := Option.some.inj hs
      exact { h with cache := fun _ _ hcache => by cases hcache }

/-- In a run whose late query answers are never older than a mutation that has returned, every
resolution uses the policies its site had at or after each mutation that returned before it
started. -/
theorem route_policies_current (h : Reach policyStep FillsFresh StartedService s) :
    ∀ r ∈ s.resolutions, r.Current s :=
  (h.invariant (fun _ hs => started_cached hs)
    fun _ _ _ _ hinv hc hs => policyStep_cached hinv hc hs).resolutions

/-! ## Runs -/

def routePolicy (enabled : Bool) : RoutePolicyRecord Nat :=
  { id := 1, siteId := 0, pathPattern := ['/'], methods := [], accessMode := .bypass
    priority := 0, enabled := enabled, createdAt := 0 }

theorem route_policies_current_updated : ∃ (s : PolicyService Nat) (r : Resolution Nat),
    Reach policyStep FillsFresh StartedService s ∧ r ∈ s.resolutions ∧ r.required = 1 ∧
      r.Current s := by
  have hrun : ((execIf policyStep FillsFresh (startedService 0 [routePolicy true])
      [.resolveRoutePolicy 0 [] ['/'], .queryReads 0, .queryAnswers 0,
        .commit (.updateRoutePolicy (routePolicy false)), .mutationReturns 0,
        .resolveRoutePolicy 0 [] ['/'], .queryReads 0, .queryAnswers 0]).bind fun s =>
          s.resolutions.head?.map (·.required)) = some 1 := by
    decide +kernel
  obtain ⟨s, hexec, hhead⟩ := Option.bind_eq_some_iff.mp hrun
  obtain ⟨r, hr, hrequired⟩ := Option.map_eq_some_iff.mp hhead
  have hstart : Reach policyStep FillsFresh StartedService
      (startedService 0 [routePolicy true]) := .start ⟨0, _, rfl⟩
  have hreach := execIf_reach hstart hexec
  have hmem := List.mem_of_head? hr
  exact ⟨s, r, hreach, hmem, hrequired, route_policies_current hreach r hmem⟩

/-- A query reads the site's policies, one of them is disabled, the update returns, and then the
query answers and fills the cache with the list it read. The next resolution uses it. -/
theorem route_policies_stale : ¬ ∀ (s : PolicyService Nat),
    Reach policyStep Any StartedService s → ∀ r ∈ s.resolutions, r.Current s := by
  intro hclaim
  have hrun : ((exec policyStep (startedService 0 [routePolicy true])
      [.resolveRoutePolicy 0 [] ['/'], .queryReads 0,
        .commit (.updateRoutePolicy (routePolicy false)), .mutationReturns 0, .queryAnswers 0,
        .resolveRoutePolicy 0 [] ['/']]).bind fun s =>
          s.resolutions.head?.map fun r => (r.required, r.readAt)) = some (1, 0) := by
    decide +kernel
  obtain ⟨s, hexec, hhead⟩ := Option.bind_eq_some_iff.mp hrun
  obtain ⟨r, hr, hval⟩ := Option.map_eq_some_iff.mp hhead
  obtain ⟨hrequired, hreadAt⟩ := Prod.mk.inj hval
  have hstart : Reach policyStep Any StartedService (startedService 0 [routePolicy true]) :=
    .start ⟨0, _, rfl⟩
  have hle := (hclaim s (exec_reach hstart hexec) r (List.mem_of_head? hr)).1
  rw [hrequired, hreadAt] at hle
  omega

end BurrowGate.Routes
