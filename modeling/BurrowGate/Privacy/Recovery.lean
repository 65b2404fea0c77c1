import BurrowGate.Lib.Run
import BurrowGate.Privacy.AsnLists

/-!
# Refreshed privacy lists are the published ones

The manifest is written before the lists of its categories, and a later refresh that finds
the stamp of the cached manifest downloads nothing. So a category that failed once stays
as it was until the next manifest. On runs where a refresh skips the downloads only if
every list of the cached manifest was downloaded, a refresh without a failed request ends
with the lists published with its manifest.
-/

namespace BurrowGate.Privacy

open Js Lib Lib.Run

/-- Every list of the cached manifest was downloaded since it was written. -/
def downloaded (s : PrivacyState) : Bool := s.lists.all fun e => s.fetched.contains e.1

/-- Downloads are skipped only when nothing is missing and the stamp stands for the same lists; a
manifest names each category once; a list file is fetched as it was published with the
manifest. -/
def steady (s : PrivacyState) : PrivacyAction → Bool
  | .refresh => !cacheIsFresh s || downloaded s
  | .manifestFetched =>
      (s.published.manifest.bind parseAsnListManifest).all fun remote => remote.ids.Nodup
  | .manifestWritten =>
      match s.stage with
      | .writingManifest remote lists =>
          !unchanged s remote || (downloaded s && s.lists = lists)
      | _ => true
  | .categoryFetched i =>
      match s.stage with
      | .downloading remote _ _ _ =>
          remote.categories[i]?.all fun c => s.lists.contains (c.id, s.published.files c.file)
      | _ => true
  | _ => true

def Steady (s : PrivacyState) (a : PrivacyAction) : Prop := steady s a = true

/-- `data` has the published list of a category. -/
def Shows (data : OrderedMap CategoryId AsnSet) (e : CategoryId × Option (List Char)) : Prop :=
  ∃ body, e.2 = some body ∧ held data e.1 = parseAsnList body

/-! ## The invariant -/

def InMemory (s : PrivacyState) : Prop := ∀ e ∈ s.lists, e.1 ∈ s.fetched → Shows s.asnData e

def ResultOk (s : PrivacyState) (id : CategoryId) : CategoryResult → Prop
  | .fetching => id ∉ s.fetched
  | .storing body => (id, some body) ∈ s.lists ∧ id ∉ s.fetched
  | .settled true _ => id ∉ s.fetched
  | .settled false asns => id ∈ s.fetched ∧ ∃ body, (id, some body) ∈ s.lists ∧ asns = parseAsnList body

def StageOk (s : PrivacyState) : RefreshStage → Prop
  | .idle | .fetchingManifest => InMemory s
  | .writingManifest remote lists => lists.map Prod.fst = remote.ids ∧ remote.ids.Nodup ∧ InMemory s
  | .downloading remote localOnly keep results =>
      s.lists.map Prod.fst = remote.ids ∧ results.map Prod.fst = remote.ids ∧
        (∀ id ∈ localOnly, id ∉ remote.ids) ∧ (∀ id ∈ remote.ids, id ∈ keep) ∧
          ∀ r ∈ results, ResultOk s r.1 r.2
  | .pruning _ stale failed =>
      (∀ e ∈ s.lists, e.1 ∉ stale) ∧ InMemory s ∧ (failed = false → downloaded s = true)

structure Consistent (s : PrivacyState) : Prop where
  cached : ∀ e ∈ s.lists, ∃ m, readCachedManifest s = some m ∧ e.1 ∈ m.ids
  distinct : (s.lists.map Prod.fst).Nodup
  onDisk : ∀ e ∈ s.lists, e.1 ∈ s.fetched →
    ∃ body, e.2 = some body ∧ s.asnFiles.get? e.1 = some body
  stage : StageOk s s.stage
  refreshed : ∀ r ∈ s.refreshed, ∀ e ∈ r.1, Shows r.2 e

theorem consistent_start {s : PrivacyState} (h : s.Initial) : Consistent s := by
  obtain ⟨hstage, hlists, hfetched, hrefreshed⟩ := h
  refine ⟨by simp [hlists], by simp [hlists], by simp [hlists], ?_, by simp [hrefreshed]⟩
  rw [hstage]
  intro e he
  rw [hlists] at he
  cases he

theorem mem_fetched_of_downloaded {s : PrivacyState} (h : downloaded s = true)
    {e : CategoryId × Option (List Char)} (he : e ∈ s.lists) : e.1 ∈ s.fetched :=
  List.contains_iff_mem.mp (List.all_eq_true.mp h e he)

theorem shows_of_downloaded {s : PrivacyState} (hm : InMemory s) (h : downloaded s = true) :
    ∀ e ∈ s.lists, Shows s.asnData e := fun e he => hm e he (mem_fetched_of_downloaded h he)

/-- A list is the only one published for its category. -/
theorem body_unique {s : PrivacyState} (hs : Consistent s) {e : CategoryId × Option (List Char)}
    {body : Option (List Char)} (he : e ∈ s.lists) (hb : (e.1, body) ∈ s.lists) : e.2 = body :=
  congrArg Prod.snd (List.inj_on_of_nodup_map hs.distinct he hb rfl)

/-! ## A new process -/

theorem held_loadCachedLists {s : PrivacyState} {m : AsnListManifest} {id : CategoryId}
    {body : List Char} (hm : readCachedManifest s = some m) (hid : id ∈ m.ids)
    (hfile : s.asnFiles.get? id = some body) : held (loadCachedLists s) id = parseAsnList body := by
  have hload : loadAsnCategoryFromDisk s.asnFiles id =
      (some (parseAsnList body)).filter fun asns => !asns.isEmpty := by
    rw [loadAsnCategoryFromDisk, hfile]
    rfl
  rw [held, loadCachedLists, hm]
  dsimp only
  cases hbody : parseAsnList body with
  | nil =>
      rw [hbody] at hload
      rw [OrderedMap.get?_setAll_of_notMem, OrderedMap.get?_empty]
      · rfl
      · intro hmem
        obtain ⟨⟨id', asns⟩, he, rfl⟩ := List.mem_map.mp hmem
        obtain ⟨x, -, hx⟩ := List.mem_filterMap.mp he
        obtain ⟨loaded, hloaded, heq⟩ := Option.map_eq_some_iff.mp hx
        cases heq
        rw [hload] at hloaded
        cases hloaded
  | cons asn asns =>
      rw [hbody] at hload
      rw [OrderedMap.get?_setAll_of_mem (v := asn :: asns)]
      · rfl
      · exact List.mem_filterMap.mpr ⟨id, hid, by rw [hload]; rfl⟩
      · intro e he hkey
        obtain ⟨x, -, hx⟩ := List.mem_filterMap.mp he
        obtain ⟨loaded, hloaded, rfl⟩ := Option.map_eq_some_iff.mp hx
        subst hkey
        rw [hload] at hloaded
        exact (Option.some.inj hloaded).symm

theorem inMemory_restart {s s' : PrivacyState} (hs : Consistent s) (hlists : s'.lists = s.lists)
    (hfetched : s'.fetched = s.fetched) (hdata : s'.asnData = loadCachedLists s) : InMemory s' := by
  intro e he hmem
  rw [hlists] at he
  rw [hfetched] at hmem
  obtain ⟨body, hbody, hfile⟩ := hs.onDisk e he hmem
  obtain ⟨m, hm, hid⟩ := hs.cached e he
  exact ⟨body, hbody, by rw [hdata]; exact held_loadCachedLists hm hid hfile⟩

/-! ## The steps -/

/-- A step that leaves the disk as it is. -/
theorem consistent_of_disk {s s' : PrivacyState} (hs : Consistent s)
    (hmanifest : s'.manifestFile = s.manifestFile) (hfiles : s'.asnFiles = s.asnFiles)
    (hlists : s'.lists = s.lists) (hfetched : s'.fetched = s.fetched)
    (hstage : StageOk s' s'.stage) (hrefreshed : ∀ r ∈ s'.refreshed, ∀ e ∈ r.1, Shows r.2 e) :
    Consistent s' := by
  refine ⟨?_, by rw [hlists]; exact hs.distinct, ?_, hstage, hrefreshed⟩
  · rw [hlists, show readCachedManifest s' = readCachedManifest s by
      rw [readCachedManifest, hmanifest, readCachedManifest]]
    exact hs.cached
  · rw [hlists, hfetched, hfiles]
    exact hs.onDisk

theorem consistent_log {s s' : PrivacyState} (hs : Consistent s) (hm : InMemory s)
    (hdown : downloaded s = true) (h : s'.refreshed = (s.lists, s.asnData) :: s.refreshed) :
    ∀ r ∈ s'.refreshed, ∀ e ∈ r.1, Shows r.2 e := by
  intro r hr
  rw [h] at hr
  rcases List.mem_cons.mp hr with rfl | hr
  · exact shows_of_downloaded hm hdown
  · exact hs.refreshed r hr

theorem lists_fst (p : Publication) (m : AsnListManifest) :
    (p.lists m).map Prod.fst = m.ids := by
  rw [Publication.lists, List.map_map]
  rfl

theorem manifestWritten_consistent {s : PrivacyState} {remote : AsnListManifest}
    {lists : List (CategoryId × Option (List Char))} (hs : Consistent s)
    (hstage : s.stage = .writingManifest remote lists)
    (hcond : unchanged s remote = true → downloaded s = true ∧ s.lists = lists) :
    Consistent (manifestWritten s remote lists) := by
  have hok := hs.stage
  rw [hstage] at hok
  obtain ⟨hfst, hnodup, hmemory⟩ := hok
  have hread : readCachedManifest (manifestWritten s remote lists) = some
      ⟨remote.generatedAt, mergeAsnListCategories remote.categories
        (((readCachedManifest s).map (·.categories)).getD []), merge_ne_nil remote _⟩ :=
    parseAsnListManifest_json _
  have hids : ∀ e ∈ lists, e.1 ∈ remote.ids := fun e he => hfst ▸ List.mem_map_of_mem he
  have hmerged : ∀ id ∈ remote.ids, id ∈ (mergeAsnListCategories remote.categories
      (((readCachedManifest s).map (·.categories)).getD [])).map (·.id) := by
    intro id hid
    rw [mergeAsnListCategories, List.map_append]
    exact List.mem_append_left _ hid
  refine ⟨fun e he => ⟨_, hread, hmerged _ (hids e he)⟩, ?_, ?_, ?_, hs.refreshed⟩
  · change (lists.map Prod.fst).Nodup
    rw [hfst]
    exact hnodup
  · intro e he hmem
    change e ∈ lists at he
    change e.1 ∈ (if unchanged s remote then s.fetched else []) at hmem
    by_cases hsame : unchanged s remote = true
    · rw [if_pos hsame] at hmem
      rw [← (hcond hsame).2] at he
      exact hs.onDisk e he hmem
    · rw [if_neg hsame] at hmem
      cases hmem
  · refine ⟨hfst, ?_, ?_, hmerged, ?_⟩
    · rw [List.map_map]
      exact List.map_id _
    · intro id hid
      simpa using (List.mem_filter.mp hid).2
    · intro r hr
      obtain ⟨id, hid, rfl⟩ := List.mem_map.mp hr
      by_cases hsame : unchanged s remote = true
      · obtain ⟨hdown, hlists⟩ := hcond hsame
        obtain ⟨e, he, rfl⟩ : ∃ e ∈ s.lists, e.1 = id := by
          rw [← hfst, ← hlists] at hid
          exact List.mem_map.mp hid
        have hfetched := mem_fetched_of_downloaded hdown he
        obtain ⟨body, hbody, hheld⟩ := hmemory e he hfetched
        simp only [hsame, if_true]
        refine ⟨?_, body, ?_, hheld⟩
        · simpa [manifestWritten, hsame] using hfetched
        · change (e.1, some body) ∈ lists
          rw [← hlists, ← hbody]
          exact he
      · simp [hsame, ResultOk, manifestWritten]

theorem result_unique {results : List (CategoryId × CategoryResult)} {ids : List CategoryId}
    (hfst : results.map Prod.fst = ids) (hnodup : ids.Nodup) {i : Nat}
    {id : CategoryId} {old new : CategoryResult} (hi : results[i]? = some (id, old))
    {r : CategoryId × CategoryResult} (hr : r ∈ results.set i (id, new)) :
    r = (id, new) ∨ r ∈ results ∧ r.1 ≠ id := by
  obtain ⟨j, hj⟩ := List.mem_iff_getElem?.mp hr
  by_cases hij : j = i
  · subst hij
    have hlt : j < results.length := (List.getElem?_eq_some_iff.mp hi).1
    rw [List.getElem?_set_self hlt] at hj
    exact .inl (Option.some.inj hj).symm
  · rw [List.getElem?_set_ne (Ne.symm hij)] at hj
    refine .inr ⟨List.mem_of_getElem? hj, fun hsame => hij ?_⟩
    have hfi : ids[i]? = some id := by rw [← hfst, List.getElem?_map, hi]; rfl
    have hfj : ids[j]? = some id := by rw [← hfst, List.getElem?_map, hj, ← hsame]; rfl
    obtain ⟨hj', -⟩ := List.getElem?_eq_some_iff.mp hfj
    exact (List.getElem?_inj hj' hnodup).mp (hfj.trans hfi.symm)

/-- A new result for one category; the others are not touched. -/
theorem downloading_set {s s' : PrivacyState} {remote : AsnListManifest}
    {localOnly keep : List CategoryId} {results : List (CategoryId × CategoryResult)} {i : Nat}
    {id : CategoryId} {old new : CategoryResult} (hs : Consistent s)
    (hstage : s.stage = .downloading remote localOnly keep results)
    (hi : results[i]? = some (id, old)) (hlists : s'.lists = s.lists) (hnew : ResultOk s' id new)
    (hothers : ∀ id' r, id' ≠ id → ResultOk s id' r → ResultOk s' id' r) :
    StageOk s' (.downloading remote localOnly keep (results.set i (id, new))) := by
  have hok := hs.stage
  rw [hstage] at hok
  obtain ⟨hfst, hresults, hlocal, hkeep, hall⟩ := hok
  have hnodup : remote.ids.Nodup := hfst ▸ hs.distinct
  refine ⟨hlists ▸ hfst, ?_, hlocal, hkeep, ?_⟩
  · obtain ⟨hlt, hget⟩ := List.getElem?_eq_some_iff.mp hi
    have hlt' : i < (results.map Prod.fst).length := by rw [List.length_map]; exact hlt
    have hid : (results.map Prod.fst)[i] = id := by rw [List.getElem_map, hget]
    rw [List.map_set, ← hresults]
    change (results.map Prod.fst).set i id = _
    rw [← hid]
    exact List.set_getElem_self hlt'
  · intro r hr
    rcases result_unique hresults hnodup hi hr with rfl | ⟨hmem, hne⟩
    · exact hnew
    · exact hothers _ _ hne (hall r hmem)

theorem resultOk_congr {s s' : PrivacyState} {id : CategoryId} {r : CategoryResult}
    (hlists : s'.lists = s.lists) (hfetched : id ∈ s'.fetched ↔ id ∈ s.fetched)
    (h : ResultOk s id r) : ResultOk s' id r := by
  cases r with
  | fetching => exact fun hmem => h (hfetched.mp hmem)
  | storing body => exact ⟨hlists ▸ h.1, fun hmem => h.2 (hfetched.mp hmem)⟩
  | settled failed asns =>
      cases failed with
      | true => exact fun hmem => h (hfetched.mp hmem)
      | false => exact ⟨hfetched.mpr h.1, hlists ▸ h.2⟩

theorem categoryStep_consistent {s s' : PrivacyState} {remote : AsnListManifest}
    {localOnly keep : List CategoryId} {results : List (CategoryId × CategoryResult)} {i : Nat}
    {a : PrivacyAction} {entry : CategoryId × CategoryResult} (hs : Consistent s)
    (hstage : s.stage = .downloading remote localOnly keep results)
    (hi : results[i]? = some entry)
    (hcond : ∀ j, a = .categoryFetched j → ∀ c, remote.categories[i]? = some c →
      (c.id, s.published.files c.file) ∈ s.lists)
    (h : categoryStep s remote localOnly keep results i a entry = some s') : Consistent s' := by
  have hok := hs.stage
  rw [hstage] at hok
  obtain ⟨hfst, hresults, -, -, hall⟩ := hok
  obtain ⟨id, result⟩ := entry
  have hold : ResultOk s id result := hall _ (List.mem_of_getElem? hi)
  cases result with
  | settled failed asns => cases a <;> cases h
  | fetching =>
      cases a <;> simp only [categoryStep, reduceCtorEq] at h
      case categoryFetched j =>
          obtain ⟨body, hbody, rfl⟩ := Option.map_eq_some_iff.mp h
          obtain ⟨c, hc, hserved⟩ := Option.bind_eq_some_iff.mp hbody
          have hid : c.id = id := by
            have hids : remote.ids[i]? = some c.id := by
              rw [AsnListManifest.ids, List.getElem?_map, hc]
              rfl
            rw [← hresults, List.getElem?_map, hi] at hids
            exact (Option.some.inj hids).symm
          have hpublished := hcond j rfl c hc
          rw [hid, hserved] at hpublished
          refine consistent_of_disk hs rfl rfl rfl rfl ?_ hs.refreshed
          exact downloading_set hs hstage hi rfl ⟨hpublished, hold⟩
            fun _ _ _ hr => resultOk_congr rfl Iff.rfl hr
      case categoryFails j =>
          obtain rfl := Option.some.inj h
          refine consistent_of_disk hs rfl rfl rfl rfl ?_ hs.refreshed
          exact downloading_set hs hstage hi rfl hold
            fun _ _ _ hr => resultOk_congr rfl Iff.rfl hr
  | storing body =>
      cases a <;> simp only [categoryStep, reduceCtorEq] at h
      obtain rfl := Option.some.inj h
      obtain ⟨hpublished, hnew⟩ := hold
      refine ⟨hs.cached, hs.distinct, ?_, ?_, hs.refreshed⟩
      · intro e he hmem
        by_cases hid : e.1 = id
        · subst hid
          exact ⟨body, body_unique hs he hpublished, OrderedMap.get?_set_self _ _ _⟩
        · obtain ⟨b, hb, hfile⟩ := hs.onDisk e he (List.mem_of_ne_of_mem hid hmem)
          exact ⟨b, hb, (OrderedMap.get?_set_ne _ _ hid).trans hfile⟩
      · refine downloading_set hs hstage hi rfl ⟨List.mem_cons_self, body, hpublished, rfl⟩ ?_
        intro id' r hne hr
        have hsame : id' ∈ id :: s.fetched ↔ id' ∈ s.fetched :=
          ⟨List.mem_of_ne_of_mem hne, List.mem_cons_of_mem _⟩
        exact resultOk_congr (s := s) rfl hsame hr

/-! ## The end of a refresh -/

theorem mem_settled {results : List (CategoryId × CategoryResult)} {x : Bool × CategoryId × AsnSet} :
    x ∈ results.filterMap settledEntry ↔ (x.2.1, .settled x.1 x.2.2) ∈ results := by
  rw [List.mem_filterMap]
  constructor
  · rintro ⟨⟨id, r⟩, hmem, hr⟩
    cases r with
    | settled failed asns => obtain rfl := Option.some.inj hr; exact hmem
    | fetching => cases hr
    | storing body => cases hr
  · intro hmem
    exact ⟨_, hmem, rfl⟩

theorem finish_consistent {s s' : PrivacyState} {remote : AsnListManifest}
    {localOnly keep : List CategoryId} {results : List (CategoryId × CategoryResult)}
    (hs : Consistent s) (hstage : s.stage = .downloading remote localOnly keep results)
    (h : refreshStep s .finish (.downloading remote localOnly keep results) = some s') :
    Consistent s' := by
  have hok := hs.stage
  rw [hstage] at hok
  obtain ⟨hfst, hresults, hlocal, hkeep, hall⟩ := hok
  have hnodup : (results.map Prod.fst).Nodup := by rw [hresults, ← hfst]; exact hs.distinct
  simp only [refreshStep] at h
  split at h
  case isFalse => cases h
  case isTrue hsettled =>
    obtain rfl := Option.some.inj h
    have hids : ∀ e ∈ s.lists, e.1 ∈ remote.ids := fun e he => hfst ▸ List.mem_map_of_mem he
    have hentry : ∀ e ∈ s.lists, ∃ failed asns, (e.1, .settled failed asns) ∈ results := by
      intro e he
      have hmem := hids e he
      rw [← hresults] at hmem
      obtain ⟨⟨id, r⟩, hr, rfl⟩ := List.mem_map.mp hmem
      have hsome := List.all_eq_true.mp hsettled _ hr
      cases r with
      | settled failed asns => exact ⟨failed, asns, hr⟩
      | fetching => cases hsome
      | storing body => cases hsome
    refine consistent_of_disk hs rfl rfl rfl rfl ⟨?_, ?_, ?_⟩ hs.refreshed
    · intro e he hmem
      have hkept := hkeep _ (hids e he)
      simpa [hkept] using (List.mem_filter.mp hmem).2
    · intro e he hmem
      obtain ⟨failed, asns, hr⟩ := hentry e he
      have hresult := hall _ hr
      cases failed with
      | true => exact absurd hmem hresult
      | false =>
          obtain ⟨-, body, hbody, rfl⟩ := hresult
          refine ⟨body, body_unique hs he hbody, ?_⟩
          have hget : (OrderedMap.empty.setAll ((results.filterMap settledEntry).map Prod.snd ++
              localResults s localOnly)).get? e.1 = some (parseAsnList body) := by
            refine OrderedMap.get?_setAll_of_mem _ ?_ ?_
            · exact List.mem_append_left _
                (List.mem_map.mpr ⟨(false, e.1, parseAsnList body), mem_settled.mpr hr, rfl⟩)
            · intro x hx hkey
              rcases List.mem_append.mp hx with hx | hx
              · obtain ⟨⟨failed, id, asns⟩, hy, rfl⟩ := List.mem_map.mp hx
                have hsame := List.inj_on_of_nodup_map hnodup (mem_settled.mp hy) hr hkey
                exact (CategoryResult.settled.inj (congrArg Prod.snd hsame)).2
              · obtain ⟨id, hid, rfl⟩ := List.mem_map.mp hx
                have hremote : id = e.1 := hkey
                exact absurd (hremote ▸ hids e he) (hlocal id hid)
          change ((OrderedMap.empty.setAll _).get? e.1).getD [] = _
          rw [hget]
          rfl
    · intro hok
      refine List.all_eq_true.mpr fun e he => List.contains_iff_mem.mpr ?_
      obtain ⟨failed, asns, hr⟩ := hentry e he
      cases failed with
      | true =>
          have hfailed := List.any_eq_false.mp hok (true, e.1, asns) (mem_settled.mpr hr)
          exact absurd rfl hfailed
      | false => exact (hall _ hr).1

theorem prune_consistent {s s' : PrivacyState} {keep stale : List CategoryId} {failed : Bool}
    (hs : Consistent s) (hstage : s.stage = .pruning keep stale failed)
    (h : refreshStep s .prune (.pruning keep stale failed) = some s') : Consistent s' := by
  have hok := hs.stage
  rw [hstage] at hok
  obtain ⟨hstale, hmemory, hdown⟩ := hok
  cases stale with
  | cons id stale =>
      obtain rfl := Option.some.inj h
      refine ⟨hs.cached, hs.distinct, fun e he hmem => ?_, ⟨fun e he => ?_, hmemory, hdown⟩,
        hs.refreshed⟩
      · obtain ⟨body, hbody, hfile⟩ := hs.onDisk e he hmem
        have hne : e.1 ≠ id := fun heq => hstale e he (heq ▸ List.mem_cons_self)
        exact ⟨body, hbody, (OrderedMap.get?_erase_ne _ hne).trans hfile⟩
      · exact fun hmem => hstale e he (List.mem_cons_of_mem _ hmem)
  | nil =>
      obtain rfl := Option.some.inj h
      refine consistent_of_disk hs rfl rfl rfl rfl hmemory ?_
      cases failed with
      | true => exact hs.refreshed
      | false => exact consistent_log hs hmemory (hdown rfl) rfl

/-! ## Every run -/

theorem refreshStep_consistent {s s' : PrivacyState} {a : PrivacyAction} (hs : Consistent s)
    (hcond : Steady s a) (h : refreshStep s a s.stage = some s') : Consistent s' := by
  have hok := hs.stage
  cases hstage : s.stage with
  | idle => rw [hstage] at h; cases a <;> cases h
  | fetchingManifest =>
      rw [hstage] at h hok
      cases a <;> simp only [refreshStep, reduceCtorEq] at h
      case manifestFails =>
          obtain rfl := Option.some.inj h
          exact consistent_of_disk hs rfl rfl rfl rfl hok hs.refreshed
      case manifestFetched =>
          split at h
          · next remote hremote =>
            obtain rfl := Option.some.inj h
            have hnodup : remote.ids.Nodup := by
              have hc : ((s.published.manifest.bind parseAsnListManifest).all
                fun remote => remote.ids.Nodup) = true := hcond
              rw [hremote] at hc
              exact of_decide_eq_true hc
            exact consistent_of_disk hs rfl rfl rfl rfl ⟨lists_fst _ _, hnodup, hok⟩ hs.refreshed
          · obtain rfl := Option.some.inj h
            exact consistent_of_disk hs rfl rfl rfl rfl hok hs.refreshed
  | writingManifest remote lists =>
      rw [hstage] at h
      cases a <;> simp only [refreshStep, reduceCtorEq] at h
      obtain rfl := Option.some.inj h
      refine manifestWritten_consistent hs hstage fun hsame => ?_
      simpa [Steady, steady, hstage, hsame] using hcond
  | downloading remote localOnly keep results =>
      rw [hstage] at h
      cases a
      case categoryFetched | categoryFails | categoryWritten =>
        obtain ⟨entry, hi, hstep⟩ := Option.bind_eq_some_iff.mp h
        refine categoryStep_consistent hs hstage hi (fun j hj c hc => ?_) hstep
        cases hj <;> simpa [Steady, steady, hstage, hc] using hcond
      case finish => exact finish_consistent hs hstage h
      all_goals cases h
  | pruning keep stale failed =>
      rw [hstage] at h
      cases a
      case prune => exact prune_consistent hs hstage h
      all_goals cases stale <;> cases h

theorem privacyStep_consistent {s s' : PrivacyState} {a : PrivacyAction} (hs : Consistent s)
    (hcond : Steady s a) (h : privacyStep s a = some s') : Consistent s' := by
  cases a
  case clock now =>
    obtain rfl := Option.some.inj h
    exact consistent_of_disk hs rfl rfl rfl rfl hs.stage hs.refreshed
  case publish p =>
    obtain rfl := Option.some.inj h
    exact consistent_of_disk hs rfl rfl rfl rfl hs.stage hs.refreshed
  case refresh =>
    have hok := hs.stage
    simp only [privacyStep] at h
    split at h
    case h_2 => cases h
    case h_1 hidle =>
      rw [hidle] at hok
      split at h
      · next hfresh =>
        obtain rfl := Option.some.inj h
        have hdown : downloaded s = true := by simpa [Steady, steady, hfresh] using hcond
        refine consistent_of_disk hs rfl rfl rfl rfl ?_ (consistent_log hs hok hdown rfl)
        change StageOk _ s.stage
        rw [hidle]
        exact hok
      · obtain rfl := Option.some.inj h
        exact consistent_of_disk hs rfl rfl rfl rfl hok hs.refreshed
  case restart =>
    obtain rfl := Option.some.inj h
    exact consistent_of_disk hs rfl rfl rfl rfl (inMemory_restart hs rfl rfl rfl) hs.refreshed
  all_goals exact refreshStep_consistent hs hcond h

/-- On a steady run a refresh that ends without a failed request leaves the list published with
its manifest for every category of it. -/
theorem privacy_lists_recover {s : PrivacyState}
    (h : Reach privacyStep Steady PrivacyState.Initial s) :
    ∀ r ∈ s.refreshed, ∀ e ∈ r.1, Shows r.2 e := by
  have hs : Consistent s := h.invariant (fun _ hinit => consistent_start hinit)
    fun _ _ _ _ hs hcond hstep => privacyStep_consistent hs hcond hstep
  exact hs.refreshed

section Unchanged

/-- A manifest with one category. -/
def vpnPublication (stamp list : String) : Publication :=
  { manifest := some (.object [("generatedAt".toList, .string stamp.toList),
      ("categories".toList, .array [.object [("id".toList, .string "vpn".toList),
        ("label".toList, .string "VPN".toList), ("file".toList, .string "vpn.txt".toList)]])])
    files := fun file => if file = "vpn.txt".toList then some list.toList else none }

def PrivacyState.firstStart : PrivacyState :=
  { clock := 0
    published := vpnPublication "g1" "64500 Example\n"
    manifestFile := none
    asnFiles := .empty
    asnData := .empty
    stage := .idle
    lists := []
    fetched := []
    refreshed := [] }

theorem firstStart_initial : PrivacyState.firstStart.Initial := ⟨rfl, rfl, rfl, rfl⟩

/-- The download of the only category fails. -/
def failedDownload : List PrivacyAction :=
  [.refresh, .manifestFetched, .manifestWritten, .categoryFails 0, .finish, .prune]

/-- The next day there is a new manifest; its list is loaded again after a restart. -/
def newManifestActions : List PrivacyAction :=
  failedDownload ++ [PrivacyAction.publish (vpnPublication "g2" "64501 Example\n"), .clock refreshInterval,
    .refresh, .manifestFetched, .manifestWritten, .categoryFetched 0, .categoryWritten 0, .restart,
    .clock (2 * refreshInterval), .refresh, .manifestFetched, .manifestWritten, .finish, .prune]

/-- The next day the manifest is the same. -/
def sameManifestActions : List PrivacyAction :=
  failedDownload ++ [PrivacyAction.clock refreshInterval, .refresh, .manifestFetched, .manifestWritten, .finish,
    .prune]

instance : ∀ s a, Decidable (Steady s a) := fun s a =>
  inferInstanceAs (Decidable (steady s a = true))

theorem privacy_lists_recover_newManifest :
    ∃ s, execIf privacyStep Steady .firstStart newManifestActions = some s ∧
      s.refreshed.length = 1 ∧ held s.asnData "vpn".toList = [64501] ∧
        ∀ r ∈ s.refreshed, ∀ e ∈ r.1, Shows r.2 e := by
  obtain ⟨s, hs, hdata⟩ := (Option.any_eq_true ..).mp
    (show (execIf privacyStep Steady .firstStart newManifestActions).any
      (fun s => s.refreshed.length = 1 && held s.asnData "vpn".toList = [64501])
        = true by decide +kernel)
  obtain ⟨hlength, hheld⟩ := Bool.and_eq_true_iff.mp hdata
  exact ⟨s, hs, of_decide_eq_true hlength, of_decide_eq_true hheld,
    privacy_lists_recover (execIf_reach (.start firstStart_initial) hs)⟩

/-- The second refresh has no failed request and leaves the empty list of the first one. -/
theorem failed_list_kept :
    ¬ ∀ s, Reach privacyStep Any PrivacyState.Initial s →
      ∀ r ∈ s.refreshed, ∀ e ∈ r.1, Shows r.2 e := by
  intro h
  obtain ⟨s, hs, hempty⟩ := (Option.any_eq_true ..).mp
    (show (exec privacyStep .firstStart sameManifestActions).any
      (fun s => s.refreshed.any fun r => r.1.contains ("vpn".toList, some "64500 Example\n".toList)
        && held r.2 "vpn".toList = []) = true by decide +kernel)
  obtain ⟨r, hr, hlost⟩ := List.any_eq_true.mp hempty
  obtain ⟨hlist, hheld⟩ := Bool.and_eq_true_iff.mp hlost
  obtain ⟨body, hbody, hshown⟩ :=
    h s (exec_reach (.start firstStart_initial) hs) r hr _ (List.contains_iff_mem.mp hlist)
  obtain rfl := Option.some.inj hbody
  rw [of_decide_eq_true hheld] at hshown
  exact absurd hshown (by decide +kernel)

end Unchanged

end BurrowGate.Privacy
