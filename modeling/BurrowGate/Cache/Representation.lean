import BurrowGate.Cache.PurgeFinal
import BurrowGate.Lib.KeyedHistory

/-!
# The representation of the cache

Every store, every hit and every removal with its reason is an event, as the code reports
them to its metrics. In every run the entries are what the events come to: the last entry
stored under each key that has not been removed since, the least recently stored or hit one
first, with the byte counter equal to their sizes and both limits kept.
-/

namespace BurrowGate.Cache

open Lib.Run Lib.KeyedHistory

/-- The `reason` of `deleteEntry`. -/
inductive Removal
  | capacity
  | expired
  | purge
  deriving DecidableEq

abbrev CacheEvent : Type := Event CacheKey CacheEntry Removal

/-! ## The events of the operations -/

/-- The keys that `sweepExpired` removes. -/
def sweptKeys (s : StaticAssetCache) (now : Int) : List CacheKey :=
  if now - s.lastExpirySweepAt < 60000 then []
  else (s.entries.filter (·.expiresAt ≤ now)).map (·.key)

def lookupEvents (s : StaticAssetCache) (request : AssetRequest) (site : Site)
    (route : Option Route) (policy : SiteStaticCachePolicy) (now : Int) : List CacheEvent :=
  if policy.enabled = false then []
  else
    let swept : List CacheEvent := (sweptKeys s now).map (.drop · .expired)
    if request.bypassed then swept
    else
      let key := cacheKey request site route
      match getEntry (sweepExpired s now) key with
      | none => swept
      | some entry => swept ++ [if entry.expiresAt ≤ now then .drop key .expired else .touch key]

/-- The entries after the replacement, the new one last, before any is evicted. -/
def storeQueue (s : StaticAssetCache) (entry : CacheEntry) : List CacheEntry :=
  s.entries.filter (·.key ≠ entry.key) ++ [entry]

/-- What `store` evicts stands before what it keeps. -/
def evictedEntries (s : StaticAssetCache) (entry : CacheEntry) : List CacheEntry :=
  (storeQueue s entry).take ((storeQueue s entry).length - (store s entry).entries.length)

def storeEvents (s : StaticAssetCache) (entry : CacheEntry) : List CacheEvent :=
  .put entry.key entry :: ((evictedEntries s entry).map (·.key)).map (.drop · .capacity)

def purgeEvents (s : StaticAssetCache) (scope : CacheScope) : List CacheEvent :=
  (keysInScope s scope).map (.drop · .purge)

def actionEvents (s : StaticAssetCache) : CacheAction → List CacheEvent
  | .lookup request site route policy now => lookupEvents s request site route policy now
  | .bodyRead i => (s.pending[i]?.map fun p => storeEvents s p.entry).getD []
  | .purge scope => purgeEvents s scope
  | .observeResponse .. | .receiveChunk .. | .bodyFailed .. => []

/-! ## Runs with their events -/

structure RecordedCache where
  cache : StaticAssetCache
  events : List CacheEvent

inductive CacheOperation
  | act (action : CacheAction)
  | removeSite (siteId : List Char)

/-- `removeSite` purges the site; the counters it deletes are left out. -/
def CacheOperation.action : CacheOperation → CacheAction
  | .act action => action
  | .removeSite siteId => .purge { siteId := some siteId }

def recordStep (r : RecordedCache) (op : CacheOperation) : Option RecordedCache :=
  (cacheStep r.cache op.action).map fun cache =>
    { cache, events := r.events ++ actionEvents r.cache op.action }

def EmptyRecord (r : RecordedCache) : Prop := EmptyCache r.cache ∧ r.events = []

/-! ## The invariant -/

def totalSize (entries : List CacheEntry) : Int := (entries.map fun e => (e.sizeBytes : Int)).sum

/-- Both limits hold. -/
def Within (maxEntries maxBytes : Nat) (entries : List CacheEntry) : Prop :=
  entries.length ≤ maxEntries ∧ totalSize entries ≤ maxBytes

/-- The shortest beginning of the queue whose removal brings it within the limits is gone. -/
def EvictsOldest (maxEntries maxBytes : Nat) (queue kept : List CacheEntry) : Prop :=
  ∃ n, kept = queue.drop n ∧ Within maxEntries maxBytes kept ∧
    ∀ m < n, ¬ Within maxEntries maxBytes (queue.drop m)

variable {s : StaticAssetCache} {r r' : RecordedCache}

/-! ## Deleting -/

@[simp] theorem deleteEntry_limits (s : StaticAssetCache) (key : CacheKey) :
    (deleteEntry s key).maxEntries = s.maxEntries ∧ (deleteEntry s key).maxBytes = s.maxBytes := by
  unfold deleteEntry
  split <;> exact ⟨rfl, rfl⟩

theorem deleteEntry_total (hnodup : (s.entries.map (·.key)).Nodup)
    (htotal : s.totalBytes = totalSize s.entries) (key : CacheKey) :
    (deleteEntry s key).totalBytes = totalSize (deleteEntry s key).entries := by
  rw [deleteEntry_entries]
  unfold deleteEntry
  cases hget : getEntry s key with
  | none =>
      have hall : s.entries.filter (·.key ≠ key) = s.entries := by
        apply List.filter_eq_self.mpr
        intro e he
        simpa using List.find?_eq_none.mp hget e he
      rw [hall]
      exact htotal
  | some entry =>
      dsimp only
      rw [totalSize, sum_filter_ne _ hnodup hget, htotal, totalSize]

theorem deleteEntries_spec (hnodup : (s.entries.map (·.key)).Nodup)
    (htotal : s.totalBytes = totalSize s.entries) (keys : List CacheKey) :
    (deleteEntries s keys).entries = s.entries.filter (fun e => !keys.contains e.key) ∧
      (deleteEntries s keys).totalBytes = totalSize (deleteEntries s keys).entries ∧
        (deleteEntries s keys).maxEntries = s.maxEntries ∧
          (deleteEntries s keys).maxBytes = s.maxBytes := by
  induction keys generalizing s with
  | nil => exact ⟨(List.filter_eq_self.mpr fun _ _ => rfl).symm, htotal, rfl, rfl⟩
  | cons key keys ih =>
      have hentries := deleteEntry_entries s key
      have hnodup' : ((deleteEntry s key).entries.map (·.key)).Nodup := by
        rw [hentries]
        exact hnodup.sublist (List.filter_sublist.map _)
      obtain ⟨hrest, hsum, hmax, hbytes⟩ := ih hnodup' (deleteEntry_total hnodup htotal key)
      obtain ⟨hmax', hbytes'⟩ := deleteEntry_limits s key
      refine ⟨?_, hsum, hmax.trans hmax', hbytes.trans hbytes'⟩
      rw [hentries, List.filter_filter] at hrest
      refine hrest.trans (List.filter_congr ?_)
      intro e _
      by_cases heq : e.key = key
      · simp [heq]
      · simp [heq]

theorem totalSize_sublist {entries fewer : List CacheEntry} (hsub : fewer.Sublist entries) :
    totalSize fewer ≤ totalSize entries := by
  induction hsub with
  | slnil => exact Int.le_refl _
  | cons head _ ih =>
      rw [totalSize, totalSize] at ih
      rw [totalSize, totalSize, List.map_cons, List.sum_cons]
      omega
  | cons_cons head _ ih =>
      rw [totalSize, totalSize] at ih
      rw [totalSize, totalSize, List.map_cons, List.map_cons, List.sum_cons, List.sum_cons]
      omega

variable {maxEntries maxBytes : Nat}

theorem Within.sublist {entries fewer : List CacheEntry} (h : Within maxEntries maxBytes entries)
    (hsub : fewer.Sublist entries) : Within maxEntries maxBytes fewer :=
  ⟨Nat.le_trans hsub.length_le h.1, Int.le_trans (totalSize_sublist hsub) h.2⟩

/-! ## Eviction -/

/-- By induction on the queue: each round takes the oldest entry while a limit is exceeded. -/
theorem evict_spec (queue : List CacheEntry) {total : Int} (htotal : total = totalSize queue) :
    EvictsOldest maxEntries maxBytes queue (evict maxEntries maxBytes queue total).1 ∧
      (evict maxEntries maxBytes queue total).2 =
        totalSize (evict maxEntries maxBytes queue total).1 := by
  induction queue generalizing total with
  | nil =>
      refine ⟨⟨0, rfl, ⟨Nat.zero_le _, Int.natCast_nonneg _⟩, ?_⟩, htotal⟩
      intro m hm
      exact absurd hm (Nat.not_lt_zero m)
  | cons oldest rest ih =>
      have hcons : totalSize (oldest :: rest) = oldest.sizeBytes + totalSize rest := by
        rw [totalSize, totalSize, List.map_cons, List.sum_cons]
      rw [evict]
      by_cases hover : maxEntries < rest.length + 1 ∨ (maxBytes : Int) < total
      · rw [if_pos hover]
        obtain ⟨⟨n, hkept, hwithin, hleast⟩, hsum⟩ :=
          @ih (total - oldest.sizeBytes) (by omega)
        refine ⟨⟨n + 1, hkept, hwithin, ?_⟩, hsum⟩
        intro m hm
        cases m with
        | zero =>
            intro hfits
            have hlength : rest.length + 1 ≤ maxEntries := hfits.1
            have hbytes : totalSize (oldest :: rest) ≤ maxBytes := hfits.2
            omega
        | succ m => exact hleast m (by omega)
      · rw [if_neg hover]
        obtain ⟨hcount, hsize⟩ := not_or.mp hover
        refine ⟨⟨0, rfl, ⟨Nat.not_lt.mp hcount, ?_⟩, ?_⟩, htotal⟩
        · rw [← htotal]
          exact Int.not_lt.mp hsize
        · intro m hm
          exact absurd hm (Nat.not_lt_zero m)

theorem store_spec (hnodup : (s.entries.map (·.key)).Nodup)
    (htotal : s.totalBytes = totalSize s.entries) (entry : CacheEntry) :
    EvictsOldest s.maxEntries s.maxBytes (storeQueue s entry) (store s entry).entries ∧
      (store s entry).totalBytes = totalSize (store s entry).entries ∧
        (store s entry).maxEntries = s.maxEntries ∧ (store s entry).maxBytes = s.maxBytes := by
  obtain ⟨hmax, hbytes⟩ := deleteEntry_limits s entry.key
  have hqueue : (deleteEntry s entry.key).entries ++ [entry] = storeQueue s entry := by
    rw [deleteEntry_entries, storeQueue]
  have hsum : (deleteEntry s entry.key).totalBytes + entry.sizeBytes =
      totalSize (storeQueue s entry) := by
    rw [deleteEntry_total hnodup htotal, ← hqueue, totalSize, totalSize, List.map_append,
      List.sum_append, List.map_cons, List.map_nil, List.sum_cons, List.sum_nil]
    omega
  obtain ⟨holdest, hkept⟩ := @evict_spec s.maxEntries s.maxBytes _ _ hsum
  have hstore : (store s entry).entries = (evict s.maxEntries s.maxBytes (storeQueue s entry)
      ((deleteEntry s entry.key).totalBytes + entry.sizeBytes)).1 := by
    rw [store, hqueue, hmax, hbytes]
  refine ⟨?_, ?_, hmax, hbytes⟩
  · rw [hstore]
    exact holdest
  · rw [hstore, ← hkept, store, hqueue, hmax, hbytes]

/-- What is kept and what was evicted make up the queue. -/
theorem evictedEntries_eq {entry : CacheEntry} {n : Nat}
    (hkept : (store s entry).entries = (storeQueue s entry).drop n) :
    (storeQueue s entry).drop n =
      (storeQueue s entry).drop (evictedEntries s entry).length := by
  rw [evictedEntries, List.length_take, hkept, List.length_drop]
  by_cases hn : n ≤ (storeQueue s entry).length
  · congr 1
    omega
  · rw [List.drop_eq_nil_of_le (by omega), List.drop_eq_nil_of_le (by omega)]

/-! ## Lookup -/

theorem sweepExpired_spec (hnodup : (s.entries.map (·.key)).Nodup)
    (htotal : s.totalBytes = totalSize s.entries) (now : Int) :
    (sweepExpired s now).entries = s.entries.filter (fun e => !(sweptKeys s now).contains e.key) ∧
      (sweepExpired s now).totalBytes = totalSize (sweepExpired s now).entries ∧
        (sweepExpired s now).maxEntries = s.maxEntries ∧
          (sweepExpired s now).maxBytes = s.maxBytes := by
  unfold sweepExpired sweptKeys
  split
  · exact ⟨(List.filter_eq_self.mpr fun _ _ => rfl).symm, htotal, rfl, rfl⟩
  · exact @deleteEntries_spec { s with lastExpirySweepAt := now } hnodup htotal _

/-- A sweep removes only what has expired. -/
theorem mem_sweptKeys {now : Int} {key : CacheKey} (h : key ∈ sweptKeys s now) :
    ∃ e ∈ s.entries, e.key = key ∧ e.expiresAt ≤ now := by
  unfold sweptKeys at h
  split at h
  · cases h
  · obtain ⟨e, he, rfl⟩ := List.mem_map.mp h
    obtain ⟨hmem, hexpired⟩ := List.mem_filter.mp he
    exact ⟨e, hmem, rfl, of_decide_eq_true hexpired⟩

/-- The accounts of a state and the book of its history. -/
structure Kept (book : Book CacheKey CacheEntry) (s : StaticAssetCache) : Prop where
  total : s.totalBytes = totalSize s.entries
  within : Within s.maxEntries s.maxBytes s.entries
  represents : Represents CacheEntry.key book s.entries

variable {book : Book CacheKey CacheEntry}

theorem Kept.sweep (h : Kept book s) (now : Int) :
    Kept (((sweptKeys s now).map fun key => (.drop key .expired : CacheEvent)).foldl Book.record
      book) (sweepExpired s now) := by
  obtain ⟨hentries, htotal, hmax, hbytes⟩ := sweepExpired_spec h.represents.nodup h.total now
  refine ⟨htotal, ?_, ?_⟩
  · rw [hmax, hbytes, hentries]
    exact h.within.sublist List.filter_sublist
  · rw [hentries]
    exact h.represents.drops _ _

theorem Kept.delete (h : Kept book s) (key : CacheKey) (reason : Removal) :
    Kept (book.record (.drop key reason : CacheEvent)) (deleteEntry s key) := by
  obtain ⟨hmax, hbytes⟩ := deleteEntry_limits s key
  refine ⟨deleteEntry_total h.represents.nodup h.total key, ?_, ?_⟩
  · rw [hmax, hbytes, deleteEntry_entries]
    exact h.within.sublist List.filter_sublist
  · rw [deleteEntry_entries]
    exact h.represents.drop key reason

/-- A hit moves the entry to the end. -/
theorem Kept.hit (h : Kept book s) {key : CacheKey} {entry : CacheEntry}
    (hget : getEntry s key = some entry) :
    Kept (book.record (.touch key : CacheEvent))
      { s with entries := s.entries.filter (·.key ≠ key) ++ [entry] } := by
  have hkey : entry.key = key := by simpa using List.find?_some hget
  have hsize : totalSize (s.entries.filter (·.key ≠ key) ++ [entry]) = totalSize s.entries := by
    rw [totalSize, List.map_append, List.sum_append, sum_filter_ne _ h.represents.nodup hget,
      List.map_cons, List.map_nil, List.sum_cons, List.sum_nil, totalSize]
    omega
  have hlength : (s.entries.filter (·.key ≠ key) ++ [entry]).length ≤ s.entries.length := by
    have hlt : (s.entries.filter (·.key ≠ key)).length < s.entries.length := by
      apply List.length_filter_lt_length_iff_exists.mpr
      exact ⟨entry, List.mem_of_find?_eq_some hget, by simp [hkey]⟩
    rw [List.length_append, List.length_singleton]
    omega
  refine ⟨h.total.trans hsize.symm, ⟨Nat.le_trans hlength h.within.1, ?_⟩, ?_⟩
  · rw [hsize]
    exact h.within.2
  · subst hkey
    apply h.represents.touch
    rw [← h.represents.find]
    exact hget

theorem lookup_kept (h : Kept book s) (request : AssetRequest) (site : Site) (route : Option Route)
    (policy : SiteStaticCachePolicy) (now : Int) :
    Kept ((lookupEvents s request site route policy now).foldl Book.record book)
      (lookup s request site route policy now).1 := by
  unfold lookupEvents lookup
  by_cases hdisabled : policy.enabled = false
  · rw [if_pos hdisabled, if_pos hdisabled]
    exact h
  rw [if_neg hdisabled, if_neg hdisabled]
  have hswept := h.sweep now
  dsimp only
  by_cases hbypassed : request.bypassed
  · rw [if_pos hbypassed, if_pos hbypassed]
    exact hswept
  rw [if_neg hbypassed, if_neg hbypassed]
  cases hget : getEntry (sweepExpired s now) (cacheKey request site route) with
  | none =>
      simp only [Option.any_none, Bool.false_eq_true, if_false, hget]
      exact hswept
  | some entry =>
      simp only [Option.any_some, List.foldl_append, List.foldl_cons, List.foldl_nil]
      by_cases hexpired : entry.expiresAt ≤ now
      · rw [if_pos hexpired, if_pos (decide_eq_true hexpired)]
        have hgone : getEntry (deleteEntry (sweepExpired s now) (cacheKey request site route))
            (cacheKey request site route) = none := by
          rw [getEntry, deleteEntry_entries, find?_filter_ne, if_pos rfl]
        rw [hgone]
        exact hswept.delete _ _
      · rw [if_neg hexpired, if_neg (by simpa using hexpired), hget]
        exact hswept.hit hget

/-- A sweep finds every entry that has not expired where it was. -/
theorem getEntry_sweepExpired (h : Kept book s) {now : Int} {key : CacheKey} {entry : CacheEntry}
    (hfresh : now < entry.expiresAt) :
    getEntry (sweepExpired s now) key = some entry ↔ getEntry s key = some entry := by
  have hnodup := h.represents.nodup
  have hentries := (sweepExpired_spec hnodup h.total now).1
  rw [getEntry, getEntry, find?_key_eq_some (h.sweep now).represents.nodup,
    find?_key_eq_some hnodup, hentries, List.mem_filter]
  constructor
  · rintro ⟨⟨hmem, -⟩, hkey⟩
    exact ⟨hmem, hkey⟩
  · rintro ⟨hmem, hkey⟩
    refine ⟨⟨hmem, ?_⟩, hkey⟩
    rw [Bool.not_eq_true', ← Bool.not_eq_true, List.contains_iff_mem]
    intro hswept
    obtain ⟨other, hother, hsame, hexpired⟩ := mem_sweptKeys hswept
    obtain rfl := List.inj_on_of_nodup_map hnodup hother hmem hsame
    omega

/-- The outcome of a lookup, in terms of what stands under its key. -/
theorem Kept.hit_iff (h : Kept book s) {request : AssetRequest} {site : Site}
    {route : Option Route} {policy : SiteStaticCachePolicy} {now : Int} {entry : CacheEntry} :
    (∃ body, (lookup s request site route policy now).2 = .hit entry body) ↔
      policy.enabled = true ∧ request.bypassed = false ∧
        book.standing (cacheKey request site route) = some entry ∧ now < entry.expiresAt := by
  have hstanding : book.standing (cacheKey request site route) =
      getEntry s (cacheKey request site route) := (h.represents.find _).symm
  rw [hstanding]
  unfold lookup
  by_cases hdisabled : policy.enabled = false
  · simp [hdisabled]
  rw [if_neg hdisabled, eq_true_of_ne_false hdisabled]
  dsimp only
  cases hbypassed : request.bypassed with
  | true => simp
  | false =>
      rw [if_neg Bool.false_ne_true]
      cases hget : getEntry (sweepExpired s now) (cacheKey request site route) with
      | none =>
          simp only [Option.any_none, Bool.false_eq_true, if_false, hget, reduceCtorEq,
            exists_false, true_and, false_iff, not_and]
          intro hsome hfresh
          rw [(getEntry_sweepExpired h hfresh).mpr hsome] at hget
          cases hget
      | some current =>
          simp only [Option.any_some]
          by_cases hexpired : current.expiresAt ≤ now
          · have hgone : getEntry (deleteEntry (sweepExpired s now) (cacheKey request site route))
                (cacheKey request site route) = none := by
              rw [getEntry, deleteEntry_entries, find?_filter_ne, if_pos rfl]
            rw [if_pos (decide_eq_true hexpired), hgone]
            simp only [reduceCtorEq, exists_false, true_and, false_iff, not_and]
            intro hsome hfresh
            rw [(getEntry_sweepExpired h hfresh).mpr hsome] at hget
            obtain rfl := Option.some.inj hget
            omega
          · rw [if_neg (by simpa using hexpired), hget]
            simp only [StaticCacheLookup.hit.injEq, true_and]
            constructor
            · rintro ⟨-, rfl, -⟩
              exact ⟨(getEntry_sweepExpired h (Int.not_le.mp hexpired)).mp hget,
                Int.not_le.mp hexpired⟩
            · rintro ⟨hsome, hfresh⟩
              rw [(getEntry_sweepExpired h hfresh).mpr hsome] at hget
              obtain rfl := Option.some.inj hget
              exact ⟨_, rfl, rfl⟩

/-! ## Store and purge -/

theorem store_kept (h : Kept book s) (entry : CacheEntry) :
    Kept ((storeEvents s entry).foldl Book.record book) (store s entry) := by
  obtain ⟨⟨n, hkept, hwithin, -⟩, htotal, hmax, hbytes⟩ :=
    store_spec h.represents.nodup h.total entry
  have hqueue : Represents CacheEntry.key (book.record (.put entry.key entry : CacheEvent))
      (storeQueue s entry) := h.represents.put entry
  refine ⟨htotal, ?_, ?_⟩
  · rw [hmax, hbytes]
    exact hwithin
  · have hdrops := hqueue.drops ((evictedEntries s entry).map (·.key)) Removal.capacity
    have hrest : (storeQueue s entry).filter
        (fun e => !((evictedEntries s entry).map (·.key)).contains e.key) =
          (store s entry).entries := by
      rw [hkept, evictedEntries_eq hkept, evictedEntries, List.length_take,
        Nat.min_eq_left (Nat.sub_le _ _), ← filter_keys_take hqueue.nodup]
    rw [hrest] at hdrops
    exact hdrops

theorem storeEvents_pending (s : StaticAssetCache) (pending : List PendingBody)
    (entry : CacheEntry) : storeEvents { s with pending } entry = storeEvents s entry := by
  have hentries : (store { s with pending } entry).entries = (store s entry).entries := by
    unfold store deleteEntry getEntry
    dsimp only
    cases s.entries.find? (·.key = entry.key) with
    | none => rfl
    | some replaced => rfl
  unfold storeEvents evictedEntries
  rw [hentries]
  rfl

/-- A purge removes what its scope covers. -/
theorem purge_entries (h : Kept book s) (scope : CacheScope) :
    (purge s scope).entries = s.entries.filter fun e => !scope.coversEntry e := by
  have hnodup := h.represents.nodup
  have hentries := (deleteEntries_spec hnodup h.total (keysInScope s scope)).1
  rw [purge, hentries]
  apply List.filter_congr
  intro e he
  congr 1
  rw [Bool.eq_iff_iff, List.contains_iff_mem, keysInScope, List.mem_map]
  constructor
  · rintro ⟨other, hother, hkey⟩
    obtain ⟨hmem, hcovers⟩ := List.mem_filter.mp hother
    obtain rfl := List.inj_on_of_nodup_map hnodup hmem he hkey
    exact hcovers
  · intro hcovers
    exact ⟨e, List.mem_filter.mpr ⟨he, hcovers⟩, rfl⟩

theorem purge_kept (h : Kept book s) (scope : CacheScope) :
    Kept ((purgeEvents s scope).foldl Book.record book) (purge s scope) := by
  obtain ⟨hentries, htotal, hmax, hbytes⟩ :=
    deleteEntries_spec h.represents.nodup h.total (keysInScope s scope)
  refine ⟨htotal, ?_, ?_⟩
  · change Within (deleteEntries s _).maxEntries (deleteEntries s _).maxBytes _
    rw [hmax, hbytes, purge_entries h]
    exact h.within.sublist List.filter_sublist
  · have hdrops := h.represents.drops (keysInScope s scope) Removal.purge
    rw [← hentries] at hdrops
    exact hdrops

/-- The events of one action lead from the book of the state before to that of the state after. -/
theorem cacheStep_kept {s' : StaticAssetCache} {action : CacheAction} (h : Kept book s)
    (hs : cacheStep s action = some s') :
    Kept ((actionEvents s action).foldl Book.record book) s' := by
  cases action with
  | lookup request site route policy now =>
      obtain rfl := Option.some.inj hs
      exact lookup_kept h request site route policy now
  | observeResponse request response looked site route policy now =>
      obtain rfl := Option.some.inj hs
      unfold observeResponse
      split
      · split
        · exact h
        · exact ⟨h.total, h.within, h.represents⟩
      · exact h
  | receiveChunk i chunk =>
      obtain ⟨p, -, rfl⟩ := Option.map_eq_some_iff.mp hs
      dsimp only
      split
      · exact ⟨h.total, h.within, h.represents⟩
      · exact ⟨h.total, h.within, h.represents⟩
  | bodyRead i =>
      obtain ⟨p, hp, rfl⟩ := Option.map_eq_some_iff.mp hs
      rw [actionEvents, hp]
      have hrest : Kept book { s with pending := s.pending.eraseIdx i } :=
        ⟨h.total, h.within, h.represents⟩
      rw [Option.map_some, Option.getD_some, ← storeEvents_pending s (s.pending.eraseIdx i)]
      exact store_kept hrest p.entry
  | bodyFailed i =>
      obtain ⟨p, -, rfl⟩ := Option.map_eq_some_iff.mp hs
      exact ⟨h.total, h.within, h.represents⟩
  | purge scope =>
      obtain rfl := Option.some.inj hs
      exact purge_kept h scope

/-- The invariant of the runs. -/
theorem kept_of_reach (h : Reach recordStep Any EmptyRecord r) :
    Kept (replay r.events) r.cache := by
  refine h.invariant (I := fun r => Kept (replay r.events) r.cache) (fun r hr => ?_)
    fun r op r' _ hinv _ hs => ?_
  · obtain ⟨⟨maxEntries, maxBytes, hcache⟩, hevents⟩ := hr
    rw [hcache, hevents]
    exact ⟨rfl, ⟨Nat.zero_le _, Int.natCast_nonneg _⟩, represents_empty⟩
  · obtain ⟨s', hs', rfl⟩ := Option.map_eq_some_iff.mp hs
    rw [replay_append]
    exact cacheStep_kept hinv hs'

/-- A lookup keeps every entry that has not expired. -/
theorem mem_lookup_of_fresh (h : Kept book s) {request : AssetRequest} {site : Site}
    {route : Option Route} {policy : SiteStaticCachePolicy} {now : Int} {e : CacheEntry}
    (he : e ∈ s.entries) (hfresh : now < e.expiresAt) :
    e ∈ (lookup s request site route policy now).1.entries := by
  have hget : getEntry s e.key = some e := (find?_key_eq_some h.represents.nodup).mpr ⟨he, rfl⟩
  have hswept := (getEntry_sweepExpired h hfresh).mpr hget
  have hmem : e ∈ (sweepExpired s now).entries := List.mem_of_find?_eq_some hswept
  unfold lookup
  split
  · exact he
  dsimp only
  split
  · exact hmem
  by_cases hkey : e.key = cacheKey request site route
  · rw [← hkey, hswept, Option.any_some, if_neg (by simpa using Int.not_le.mpr hfresh), hswept]
    exact List.mem_append_right _ (List.mem_singleton.mpr rfl)
  · have hother : e ∈ (sweepExpired s now).entries.filter (·.key ≠ cacheKey request site route) :=
      List.mem_filter.mpr ⟨hmem, decide_eq_true hkey⟩
    have hlive : e ∈ (if (getEntry (sweepExpired s now) (cacheKey request site route)).any
        (·.expiresAt ≤ now) then deleteEntry (sweepExpired s now) (cacheKey request site route)
          else sweepExpired s now).entries := by
      split
      · rw [deleteEntry_entries]
        exact hother
      · exact hmem
    split
    · exact hlive
    · exact List.mem_append_left _ (List.mem_filter.mpr ⟨hlive, decide_eq_true hkey⟩)

/-! ## Every run -/

/-- The bookkeeping of the cache, what each operation removes, and when a lookup hits. -/
structure Represented (r : RecordedCache) : Prop where
  total : r.cache.totalBytes = totalSize r.cache.entries
  entryLimit : r.cache.entries.length ≤ r.cache.maxEntries
  byteLimit : r.cache.totalBytes ≤ r.cache.maxBytes
  recency : r.cache.entries.Pairwise fun older newer =>
    (replay r.events).lastUse older.key < (replay r.events).lastUse newer.key
  stores : ∀ i p s', r.cache.pending[i]? = some p → bodyRead r.cache i = some s' →
    EvictsOldest r.cache.maxEntries r.cache.maxBytes (storeQueue r.cache p.entry) s'.entries
  purges : ∀ scope : CacheScope, (purge r.cache scope).entries =
    r.cache.entries.filter fun e => !scope.coversEntry e
  expires : ∀ request site route policy now, ∀ e ∈ r.cache.entries,
    e ∉ (lookup r.cache request site route policy now).1.entries → e.expiresAt ≤ now
  hits : ∀ request site route policy now entry,
    (∃ body, (lookup r.cache request site route policy now).2 = .hit entry body) ↔
      policy.enabled = true ∧ request.bypassed = false ∧
        (replay r.events).standing (cacheKey request site route) = some entry ∧
          now < entry.expiresAt

/-- In every run of lookups, observed responses, completed stores, purges and removed sites, at
whatever times they take place. -/
theorem static_cache_representation (h : Reach recordStep Any EmptyRecord r) : Represented r := by
  have hkept := kept_of_reach h
  constructor
  · exact hkept.total
  · exact hkept.within.1
  · rw [hkept.total]
    exact hkept.within.2
  · exact hkept.represents.recency
  · intro i p s' hp hs
    obtain ⟨q, hq, rfl⟩ := Option.map_eq_some_iff.mp hs
    obtain rfl := Option.some.inj (hp.symm.trans hq)
    exact (@store_spec { r.cache with pending := r.cache.pending.eraseIdx i }
      hkept.represents.nodup hkept.total p.entry).1
  · exact purge_entries hkept
  · intro request site route policy now e he hgone
    by_contra hfresh
    exact hgone (mem_lookup_of_fresh hkept he (Int.not_le.mp hfresh))
  · intro request site route policy now entry
    exact hkept.hit_iff

/-- The cache holds one entry. A second is stored, and the first is evicted. -/
theorem static_cache_representation_full : ∃ r : RecordedCache,
    Reach recordStep Any EmptyRecord r ∧ r.events.length = 3 ∧ r.cache.entries.length = 1 ∧
      Represented r := by
  have hrun : (exec recordStep ⟨emptyCache 1 100, []⟩
      [.act (observesStylesheet 0), .act (.bodyRead 0),
        .act (.observeResponse { stylesheet with pathname := ['/', 'b'] } okResponse
          (.miss (cacheKey { stylesheet with pathname := ['/', 'b'] } shop none)) shop none
            caching 1),
        .act (.bodyRead 0)]).any
          (fun r => r.events.length = 3 && r.cache.entries.length = 1) = true := by
    decide +kernel
  obtain ⟨r, hexec, hfacts⟩ := (Option.any_eq_true ..).mp hrun
  obtain ⟨hevents, hentries⟩ := (Bool.and_eq_true_iff ..).mp hfacts
  have hreach : Reach recordStep Any EmptyRecord r :=
    exec_reach (.start ⟨⟨1, 100, rfl⟩, rfl⟩) hexec
  exact ⟨r, hreach, of_decide_eq_true hevents, of_decide_eq_true hentries,
    static_cache_representation hreach⟩

/-- Two responses for the stylesheet are stored one after the other, and the second is fresh for a
second only. Afterwards nothing is served, though the first was never evicted or purged. -/
theorem replaced_entry_is_not_served : ¬ ∀ r : RecordedCache, Reach recordStep Any EmptyRecord r →
    ∀ (request : AssetRequest) (site : Site) (route : Option Route)
      (policy : SiteStaticCachePolicy) (now : Int), policy.enabled = true →
        request.bypassed = false →
          ((∃ entry body, (lookup r.cache request site route policy now).2 = .hit entry body) ↔
            ∃ entry older newer,
              r.events = older ++ .put (cacheKey request site route) entry :: newer ∧
                (∀ reason, .drop (cacheKey request site route) reason ∈ newer → reason = .expired) ∧
                  now < entry.expiresAt) := by
  intro hclaim
  have hreach : Reach recordStep Any EmptyRecord _ := exec_reach (.start ⟨⟨4, 100, rfl⟩, rfl⟩)
    (rfl : exec recordStep ⟨emptyCache 4 100, []⟩
      [.act (observesStylesheet 0), .act (.observeResponse stylesheet
          { okResponse with ttlMs := some 1000 } (.miss (cacheKey stylesheet shop none)) shop none
            caching 1), .act (.bodyRead 1), .act (.bodyRead 0)] = some _)
  have hserved := (hclaim _ hreach stylesheet shop none caching 2000 rfl rfl).mpr
    ⟨_, [], [.put _ _], rfl,
      fun reason hmem => (by cases List.mem_singleton.mp hmem), by decide⟩
  obtain ⟨entry, body, hhit⟩ := hserved
  cases hhit

end BurrowGate.Cache
