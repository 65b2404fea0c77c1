import BurrowGate.Cache.StaticAsset
import BurrowGate.Lib.Run

/-!
# When a purge is final

A purge removes every stored entry its scope covers. What it does not see are
the bodies still being read; where none of them is stored after a purge that
covers it, no lookup answers with a response observed before the purge.
-/

namespace BurrowGate.Cache

open Lib.Run

variable {s s' : StaticAssetCache}

/-! ## Deleting -/

theorem deleteEntry_entries (s : StaticAssetCache) (key : CacheKey) :
    (deleteEntry s key).entries = s.entries.filter (·.key ≠ key) := by
  unfold deleteEntry
  split
  · rfl
  · rename_i hnone
    refine (List.filter_eq_self.mpr fun e he => ?_).symm
    have := List.find?_eq_none.mp hnone e he
    simpa using this

theorem deleteEntry_pending (s : StaticAssetCache) (key : CacheKey) :
    (deleteEntry s key).pending = s.pending ∧ (deleteEntry s key).purged = s.purged := by
  unfold deleteEntry
  split <;> exact ⟨rfl, rfl⟩

theorem mem_deleteEntries {keys : List CacheKey} {e : CacheEntry} :
    e ∈ (deleteEntries s keys).entries ↔ e ∈ s.entries ∧ e.key ∉ keys := by
  induction keys generalizing s with
  | nil => simp [deleteEntries]
  | cons key keys ih =>
      have hrest := ih (s := deleteEntry s key)
      rw [deleteEntry_entries, List.mem_filter] at hrest
      rw [deleteEntries, List.foldl_cons, ← deleteEntries, hrest]
      simp only [decide_not, Bool.not_eq_true', decide_eq_false_iff_not, List.mem_cons, not_or]
      exact and_assoc

theorem deleteEntries_pending (s : StaticAssetCache) (keys : List CacheKey) :
    (deleteEntries s keys).pending = s.pending ∧ (deleteEntries s keys).purged = s.purged := by
  induction keys generalizing s with
  | nil => exact ⟨rfl, rfl⟩
  | cons key keys ih =>
      obtain ⟨hpending, hpurged⟩ := deleteEntry_pending s key
      obtain ⟨hp, hq⟩ := ih (deleteEntry s key)
      exact ⟨hp.trans hpending, hq.trans hpurged⟩

theorem evict_subset {maxEntries maxBytes : Nat} (entries : List CacheEntry) (total : Int) :
    (evict maxEntries maxBytes entries total).1 ⊆ entries := by
  induction entries generalizing total with
  | nil => exact List.Subset.refl _
  | cons oldest rest ih =>
      unfold evict
      split
      · exact List.Subset.trans (ih _) (List.subset_cons_self _ _)
      · exact List.Subset.refl _

/-! ## Lookup -/

theorem sweepExpired_subset (s : StaticAssetCache) (now : Int) :
    (sweepExpired s now).entries ⊆ s.entries ∧ (sweepExpired s now).pending = s.pending ∧
      (sweepExpired s now).purged = s.purged := by
  unfold sweepExpired
  split
  · exact ⟨List.Subset.refl _, rfl, rfl⟩
  · obtain ⟨hpending, hpurged⟩ := deleteEntries_pending { s with lastExpirySweepAt := now }
      ((s.entries.filter (·.expiresAt ≤ now)).map (·.key))
    exact ⟨fun e he => (mem_deleteEntries.mp he).1, hpending, hpurged⟩

variable {request : AssetRequest} {site : Site} {route : Option Route}
  {policy : SiteStaticCachePolicy} {now : Int}

/-- A lookup drops entries and moves one to the end; it stores nothing. -/
theorem lookup_subset (s : StaticAssetCache) (request : AssetRequest) (site : Site)
    (route : Option Route) (policy : SiteStaticCachePolicy) (now : Int) :
    (lookup s request site route policy now).1.entries ⊆ s.entries ∧
    (lookup s request site route policy now).1.pending = s.pending ∧
      (lookup s request site route policy now).1.purged = s.purged := by
  unfold lookup
  split
  · exact ⟨List.Subset.refl _, rfl, rfl⟩
  · obtain ⟨hsub, hpending, hpurged⟩ := sweepExpired_subset s now
    dsimp only
    split
    · exact ⟨hsub, hpending, hpurged⟩
    · generalize hlive : (if ((getEntry (sweepExpired s now) (cacheKey request site route)).any
        fun e => e.expiresAt ≤ now) = true then
          deleteEntry (sweepExpired s now) (cacheKey request site route)
        else sweepExpired s now) = live
      have hstep : live.entries ⊆ s.entries ∧ live.pending = s.pending ∧
          live.purged = s.purged := by
        rw [← hlive]
        split
        · obtain ⟨hp, hq⟩ := deleteEntry_pending (sweepExpired s now) (cacheKey request site route)
          refine ⟨fun e he => hsub ?_, hp.trans hpending, hq.trans hpurged⟩
          rw [deleteEntry_entries] at he
          exact (List.mem_filter.mp he).1
        · exact ⟨hsub, hpending, hpurged⟩
      split
      · exact hstep
      · rename_i current hget
        refine ⟨fun e he => hstep.1 ?_, hstep.2⟩
        rcases List.mem_snoc.mp he with hold | rfl
        · exact (List.mem_filter.mp hold).1
        · exact List.mem_of_find?_eq_some hget

theorem lookup_hit {e : CacheEntry} {body : Option (List UInt8)}
    (h : (lookup s request site route policy now).2 = .hit e body) :
    e ∈ (lookup s request site route policy now).1.entries := by
  unfold lookup at h ⊢
  split at h
  · cases h
  · rename_i henabled
    rw [if_neg henabled]
    dsimp only at h ⊢
    split at h
    · cases h
    · rename_i hbypass
      rw [if_neg hbypass]
      split at h
      · cases h
      · rename_i current hget
        simp only
        obtain ⟨rfl, -⟩ := StaticCacheLookup.hit.inj h
        exact List.mem_append_right _ (List.mem_singleton.mpr rfl)

/-! ## The invariant -/

/-- The scopes purged since `n` purges had been made. -/
def purgedSince (s : StaticAssetCache) (n : Nat) : List CacheScope :=
  s.purged.take (s.purged.length - n)

/-- No purge since the entry's response was observed covers it. -/
def Unpurged (s : StaticAssetCache) (e : CacheEntry) : Prop :=
  ∀ scope ∈ purgedSince s e.observedAt, scope.coversEntry e = false

instance (s : StaticAssetCache) (e : CacheEntry) : Decidable (Unpurged s e) :=
  inferInstanceAs (Decidable (∀ scope ∈ _, _))

/-- A body is stored only while no purge since its response was observed covers it. -/
def StoresUnpurged (s : StaticAssetCache) : CacheAction → Prop
  | .bodyRead i => ∀ p ∈ s.pending[i]?, Unpurged s p.entry
  | _ => True

instance (s : StaticAssetCache) : ∀ act, Decidable (StoresUnpurged s act)
  | .bodyRead _ => inferInstanceAs (Decidable (∀ p ∈ _, _))
  | .lookup .. | .observeResponse .. | .receiveChunk .. | .bodyFailed .. | .purge .. =>
      inferInstanceAs (Decidable True)

structure Purged (s : StaticAssetCache) : Prop where
  observed : ∀ e ∈ s.entries, e.observedAt ≤ s.purged.length
  pending : ∀ p ∈ s.pending, p.entry.observedAt ≤ s.purged.length
  unpurged : ∀ e ∈ s.entries, Unpurged s e

/-- Dropping entries and bodies keeps the invariant. -/
theorem Purged.mono (h : Purged s) (hentries : s'.entries ⊆ s.entries)
    (hpending : s'.pending ⊆ s.pending) (hpurged : s'.purged = s.purged) : Purged s' := by
  refine ⟨fun e he => ?_, fun p hp => ?_, fun e he => ?_⟩
  · rw [hpurged]
    exact h.observed e (hentries he)
  · rw [hpurged]
    exact h.pending p (hpending hp)
  · have := h.unpurged e (hentries he)
    unfold Unpurged purgedSince at this ⊢
    rwa [hpurged]

theorem store_purged {e : CacheEntry} (h : Purged s) (hobserved : e.observedAt ≤ s.purged.length)
    (hu : Unpurged s e) : Purged (store s e) := by
  obtain ⟨hpending, hpurged⟩ := deleteEntry_pending s e.key
  have hcases : ∀ e' ∈ (store s e).entries, e' ∈ s.entries ∨ e' = e := by
    intro e' he'
    rcases List.mem_snoc.mp (evict_subset _ _ he') with hold | hnew
    · rw [deleteEntry_entries] at hold
      exact .inl (List.mem_filter.mp hold).1
    · exact .inr hnew
  have hsame : (store s e).purged = s.purged := hpurged
  refine ⟨fun e' he' => ?_, fun p hp => ?_, fun e' he' => ?_⟩
  · rw [hsame]
    rcases hcases e' he' with hold | rfl
    · exact h.observed e' hold
    · exact hobserved
  · rw [hsame]
    have hp' : p ∈ (deleteEntry s e.key).pending := hp
    rw [hpending] at hp'
    exact h.pending p hp'
  · have hu' : Unpurged s e' := by
      rcases hcases e' he' with hold | rfl
      · exact h.unpurged e' hold
      · exact hu
    unfold Unpurged purgedSince at hu' ⊢
    rwa [hsame]

theorem observeResponse_purged {response : OriginResponse} {looked : StaticCacheLookup}
    (h : Purged s) : Purged (observeResponse s request response looked site route policy now) := by
  unfold observeResponse
  split
  · split
    · exact h
    · refine ⟨h.observed, fun p hp => ?_, h.unpurged⟩
      rcases List.mem_cons.mp hp with rfl | hold
      · exact Nat.le_refl _
      · exact h.pending p hold
  · exact h

theorem purge_purged (h : Purged s) (scope : CacheScope) : Purged (purge s scope) := by
  have hpending := (deleteEntries_pending s (keysInScope s scope)).1
  have hsame : (purge s scope).purged = scope :: s.purged := rfl
  have hmem : ∀ e ∈ (purge s scope).entries, e ∈ s.entries ∧ scope.coversEntry e = false := by
    intro e he
    obtain ⟨hold, hkey⟩ := mem_deleteEntries.mp he
    refine ⟨hold, ?_⟩
    by_contra hcovers
    refine hkey (List.mem_map.mpr ⟨e, List.mem_filter.mpr ⟨hold, ?_⟩, rfl⟩)
    simpa using hcovers
  refine ⟨fun e he => ?_, fun p hp => ?_, fun e he scope' hscope => ?_⟩
  · rw [hsame, List.length_cons]
    exact Nat.le_succ_of_le (h.observed e (hmem e he).1)
  · have hp' : p ∈ (deleteEntries s (keysInScope s scope)).pending := hp
    rw [hpending] at hp'
    rw [hsame, List.length_cons]
    exact Nat.le_succ_of_le (h.pending p hp')
  · have hle := h.observed e (hmem e he).1
    have htake : purgedSince (purge s scope) e.observedAt =
        scope :: purgedSince s e.observedAt := by
      unfold purgedSince
      rw [hsame, List.length_cons, Nat.succ_sub hle, List.take_succ_cons]
    rw [htake] at hscope
    rcases List.mem_cons.mp hscope with rfl | hold
    · exact (hmem e he).2
    · exact h.unpurged e (hmem e he).1 scope' hold

theorem cacheStep_purged {act : CacheAction} (h : Purged s) (hc : StoresUnpurged s act)
    (hs : cacheStep s act = some s') : Purged s' := by
  cases act with
  | lookup request site route policy now =>
      obtain rfl := Option.some.inj hs
      obtain ⟨hentries, hpending, hpurged⟩ := lookup_subset s request site route policy now
      exact h.mono hentries (hpending ▸ List.Subset.refl _) hpurged
  | observeResponse request response looked site route policy now =>
      obtain rfl := Option.some.inj hs
      exact observeResponse_purged h
  | receiveChunk i chunk =>
      obtain ⟨p, hp, rfl⟩ := Option.map_eq_some_iff.mp hs
      dsimp only
      split
      · exact h.mono (List.Subset.refl _) (List.eraseIdx_subset) rfl
      · refine ⟨h.observed, fun q hq => ?_, h.unpurged⟩
        rcases List.mem_cons.mp hq with rfl | hold
        · exact h.pending p (List.mem_of_getElem? hp)
        · exact h.pending q (List.mem_of_mem_eraseIdx hold)
  | bodyRead i =>
      obtain ⟨p, hp, rfl⟩ := Option.map_eq_some_iff.mp hs
      have hrest : Purged { s with pending := s.pending.eraseIdx i } :=
        h.mono (List.Subset.refl _) List.eraseIdx_subset rfl
      exact store_purged hrest (h.pending p (List.mem_of_getElem? hp)) (hc p hp)
  | bodyFailed i =>
      obtain ⟨p, -, rfl⟩ := Option.map_eq_some_iff.mp hs
      exact h.mono (List.Subset.refl _) List.eraseIdx_subset rfl
  | purge scope =>
      obtain rfl := Option.some.inj hs
      exact purge_purged h scope

theorem empty_purged (h : EmptyCache s) : Purged s := by
  obtain ⟨maxEntries, maxBytes, rfl⟩ := h
  constructor <;> simp [emptyCache]

/-- In a run that stores no body after a purge that covers it, a lookup never answers with a
response that was observed before a purge of its scope. -/
theorem purge_final (h : Reach cacheStep StoresUnpurged EmptyCache s) {request : AssetRequest}
    {site : Site} {route : Option Route} {policy : SiteStaticCachePolicy} {now : Int}
    {e : CacheEntry} {body : Option (List UInt8)}
    (hhit : (lookup s request site route policy now).2 = .hit e body) : Unpurged s e := by
  have hinv : Purged s := h.invariant (fun _ hs => empty_purged hs)
    fun _ _ _ _ hinv hc hs => cacheStep_purged hinv hc hs
  exact hinv.unpurged e ((lookup_subset _ _ _ _ _ _).1 (lookup_hit hhit))

/-! ## Runs -/

def stylesheet : AssetRequest :=
  { method := .get, pathname := ['/', 'a'], search := [], encodingVariant := [], bypassed := false }

def shop : Site := { id := ['s'], updatedAt := 1 }

def caching : SiteStaticCachePolicy := { enabled := true, maxObjectBytes := 10 }

def okResponse : OriginResponse :=
  { status := 200, headers := [], headerBytes := 0, ttlMs := some 60000, contentLength := none }

/-- A request for the stylesheet misses, and its response is observed. -/
def observesStylesheet (now : Int) : CacheAction :=
  .observeResponse stylesheet okResponse (.miss (cacheKey stylesheet shop none)) shop none caching now

theorem purge_final_stored : ∃ (s : StaticAssetCache) (e : CacheEntry) (body : Option (List UInt8)),
    Reach cacheStep StoresUnpurged EmptyCache s ∧
      (lookup s stylesheet shop none caching 5).2 = .hit e body ∧ e.observedAt = 1 ∧
      Unpurged s e := by
  have hrun : ((execIf cacheStep StoresUnpurged (emptyCache 4 100)
      [observesStylesheet 0, .bodyRead 0, .purge { siteId := some ['s'] }, observesStylesheet 1,
        .receiveChunk 0 [7], .bodyRead 0]).bind fun s =>
          match (lookup s stylesheet shop none caching 5).2 with
          | .hit e _ => some e.observedAt
          | _ => none) = some 1 := by
    decide +kernel
  obtain ⟨s, hexec, hlookup⟩ := Option.bind_eq_some_iff.mp hrun
  split at hlookup
  · rename_i e body hhit
    have hstart : Reach cacheStep StoresUnpurged EmptyCache (emptyCache 4 100) := .start ⟨4, 100, rfl⟩
    have hreach := execIf_reach hstart hexec
    exact ⟨s, e, body, hreach, hhit, Option.some.inj hlookup, purge_final hreach hhit⟩
  · cases hlookup

/-- A response is observed and its body is still being read when the site is purged. The body is
stored afterwards, and the next lookup answers with it. -/
theorem purge_overtaken : ¬ ∀ (s : StaticAssetCache) (request : AssetRequest) (site : Site)
    (route : Option Route) (policy : SiteStaticCachePolicy) (now : Int) (e : CacheEntry)
    (body : Option (List UInt8)), Reach cacheStep Any EmptyCache s →
      (lookup s request site route policy now).2 = .hit e body → Unpurged s e := by
  intro hclaim
  have hrun : ((exec cacheStep (emptyCache 4 100)
      [observesStylesheet 0, .receiveChunk 0 [7], .purge { siteId := some ['s'] },
        .bodyRead 0]).bind fun s =>
          match (lookup s stylesheet shop none caching 5).2 with
          | .hit e _ => some (decide (Unpurged s e))
          | _ => none) = some false := by
    decide +kernel
  obtain ⟨s, hexec, hlookup⟩ := Option.bind_eq_some_iff.mp hrun
  split at hlookup
  · rename_i e body hhit
    have hstart : Reach cacheStep Any EmptyCache (emptyCache 4 100) := .start ⟨4, 100, rfl⟩
    have hno := of_decide_eq_false (Option.some.inj hlookup)
    exact hno (hclaim s _ _ _ _ _ e body (exec_reach hstart hexec) hhit)
  · cases hlookup

end BurrowGate.Cache
