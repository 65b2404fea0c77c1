import BurrowGate.Balancer.LoadBalancer
import BurrowGate.Lib.Run
import Mathlib.Logic.Function.Basic

/-!
# The registry of origins follows the database

`refreshSite` reads the rows of a site, waits, and replaces what is in memory. Origin
mutations are committed to the database and each is followed by a refresh; a site that was
deleted is removed. `revision` counts the commits to the rows of a site, and `registeredAt`
is the revision of what is in memory.
-/

namespace BurrowGate.Balancer

open Lib
open Lib.Run

abbrev SiteId : Type := List Char

/-- The keys `${siteId}:…` leave. -/
def forgetWeights (weights : OrderedMap (List Char) Int) (siteId : SiteId) :
    OrderedMap (List Char) Int :=
  weights.filter fun entry => !(siteId ++ [':']).isPrefixOf entry.1

/-- `refreshSite` from the answer of the database on. -/
def registerOrigins (lb : LoadBalancer) (siteId : SiteId) (previous origins : List SiteOriginRecord) :
    LoadBalancer where
  originsBySite :=
    if 0 < origins.length then lb.originsBySite.set siteId origins
    else lb.originsBySite.erase siteId
  passiveQuarantine := lb.passiveQuarantine.filter fun entry =>
    !previous.any fun origin =>
      origin.id = entry.1 && !origins.any fun candidate => candidate.id = origin.id
  roundRobinCursor := lb.roundRobinCursor.erase siteId
  smoothWeights := forgetWeights lb.smoothWeights siteId

def removeSite (lb : LoadBalancer) (siteId : SiteId) : LoadBalancer where
  originsBySite := lb.originsBySite.erase siteId
  passiveQuarantine := lb.passiveQuarantine.filter fun entry =>
    !(origins lb siteId).any fun origin => origin.id = entry.1
  roundRobinCursor := lb.roundRobinCursor.erase siteId
  smoothWeights := forgetWeights lb.smoothWeights siteId

/-- A call of `refreshSite`; `read` is the answer of the database with its revision. -/
structure Refresh where
  siteId : SiteId
  previous : List SiteOriginRecord
  read : Option (List SiteOriginRecord × Nat)
  deriving DecidableEq

/-- `owed` has the site of each mutation whose refresh has not been called yet, `removalOwed`
the sites between their deletion and `removeSite`. -/
structure RegistryState where
  lb : LoadBalancer
  rows : SiteId → List SiteOriginRecord
  existing : SiteId → Bool
  revision : SiteId → Nat
  registeredAt : SiteId → Nat
  owed : List SiteId
  removalOwed : List SiteId
  refreshes : List Refresh

inductive RegistryAction
  /-- Rows of the site's origins are committed. -/
  | mutate (siteId : SiteId) (rows : List SiteOriginRecord)
  /-- The site is deleted with its origins. -/
  | deleteSite (siteId : SiteId)
  | refreshSite (siteId : SiteId)
  /-- The database answers. -/
  | read (refresh : Refresh)
  | register (refresh : Refresh)
  | removeSite (siteId : SiteId)

def RegistryState.commit (s : RegistryState) (siteId : SiteId) (rows : List SiteOriginRecord) :
    RegistryState :=
  { s with
    rows := Function.update s.rows siteId rows
    revision := Function.update s.revision siteId (s.revision siteId + 1) }

def registryStep (s : RegistryState) : RegistryAction → Option RegistryState
  | .mutate siteId rows =>
      if s.existing siteId then
        some { s.commit siteId rows with owed := s.owed ++ [siteId] }
      else none
  | .deleteSite siteId =>
      if s.existing siteId then
        some { s.commit siteId [] with
          existing := Function.update s.existing siteId false
          removalOwed := s.removalOwed ++ [siteId] }
      else none
  | .refreshSite siteId =>
      some { s with
        owed := s.owed.erase siteId
        refreshes := s.refreshes ++ [⟨siteId, origins s.lb siteId, none⟩] }
  | .read refresh =>
      if s.refreshes.contains refresh && refresh.read.isNone then
        some { s with
          refreshes := s.refreshes.erase refresh ++
            [{ refresh with read := some (s.rows refresh.siteId, s.revision refresh.siteId) }] }
      else none
  | .register refresh =>
      if s.refreshes.contains refresh then
        refresh.read.map fun (origins, revision) =>
          { s with
            lb := registerOrigins s.lb refresh.siteId refresh.previous origins
            registeredAt := Function.update s.registeredAt refresh.siteId revision
            refreshes := s.refreshes.erase refresh }
      else none
  | .removeSite siteId =>
      if s.removalOwed.contains siteId then
        some { s with
          lb := Balancer.removeSite s.lb siteId
          registeredAt := Function.update s.registeredAt siteId (s.revision siteId)
          removalOwed := s.removalOwed.filter (· ≠ siteId) }
      else none

/-- The registry after `initialize`. -/
structure StartsRegistry (s : RegistryState) : Prop where
  registered : ∀ siteId, s.lb.originsBySite.get? siteId =
    if s.rows siteId = [] then none else some (s.rows siteId)
  deleted : ∀ siteId, s.existing siteId = false → s.rows siteId = []
  current : ∀ siteId, s.registeredAt siteId = s.revision siteId
  idle : s.refreshes = [] ∧ s.owed = [] ∧ s.removalOwed = []

/-! ## The property -/

/-- Every refresh and removal has finished. -/
def RegistryState.Quiet (s : RegistryState) : Prop :=
  s.refreshes = [] ∧ s.owed = [] ∧ s.removalOwed = []

/-- Once all is quiet, memory is what the database says, and deleted sites have no entry. -/
def RegistryFollows (s : RegistryState) : Prop :=
  s.Quiet → ∀ siteId, (s.existing siteId = true → origins s.lb siteId = s.rows siteId) ∧
    (s.existing siteId = false → s.lb.originsBySite.get? siteId = none)

/-- What a refresh puts into memory was not read before what is there. -/
def NotOutrun (s : RegistryState) : RegistryAction → Prop
  | .register refresh =>
      refresh.read.all fun answer => s.registeredAt refresh.siteId ≤ answer.2
  | _ => True

instance (s : RegistryState) : ∀ a, Decidable (NotOutrun s a)
  | .register _ => inferInstanceAs (Decidable (_ = true))
  | .mutate .. | .deleteSite _ | .refreshSite _ | .read _ | .removeSite _ => isTrue trivial

variable {s s' : RegistryState} {a : RegistryAction} {siteId : SiteId}

/-! ## The invariant -/

/-- The refresh is yet to read the rows, or has read them as they are. -/
def Refresh.IsCurrent (s : RegistryState) (f : Refresh) : Prop :=
  ∀ answer, f.read = some answer → answer.2 = s.revision f.siteId

/-- Something is still to come that will bring the current rows of the site to memory. -/
def Awaited (s : RegistryState) (siteId : SiteId) : Prop :=
  s.registeredAt siteId = s.revision siteId ∨ siteId ∈ s.owed ∨ siteId ∈ s.removalOwed ∨
    ∃ f ∈ s.refreshes, f.siteId = siteId ∧ f.IsCurrent s

structure Follows (s : RegistryState) : Prop where
  registered : ∀ siteId, s.registeredAt siteId = s.revision siteId →
    s.lb.originsBySite.get? siteId = if s.rows siteId = [] then none else some (s.rows siteId)
  past : ∀ siteId, s.registeredAt siteId ≤ s.revision siteId
  deleted : ∀ siteId, s.existing siteId = false → s.rows siteId = []
  read : ∀ f ∈ s.refreshes, ∀ rows revision, f.read = some (rows, revision) →
    revision ≤ s.revision f.siteId ∧ (revision = s.revision f.siteId → rows = s.rows f.siteId)
  awaited : ∀ siteId, Awaited s siteId

theorem originsBySite_register (lb : LoadBalancer) (siteId : SiteId)
    (previous origins : List SiteOriginRecord) :
    (registerOrigins lb siteId previous origins).originsBySite.get? siteId =
      if origins = [] then none else some origins := by
  cases origins with
  | nil => exact OrderedMap.get?_erase_self _ _
  | cons origin rest =>
      rw [registerOrigins, if_pos (by simp), if_neg (List.cons_ne_nil _ _)]
      exact OrderedMap.get?_set_self _ _ _

theorem originsBySite_register_ne (lb : LoadBalancer) {siteId other : SiteId}
    (hne : other ≠ siteId) (previous origins : List SiteOriginRecord) :
    (registerOrigins lb siteId previous origins).originsBySite.get? other =
      lb.originsBySite.get? other := by
  rw [registerOrigins]
  dsimp only
  split
  · exact OrderedMap.get?_set_ne _ _ hne
  · exact OrderedMap.get?_erase_ne _ hne

/-- A commit leaves the other sites, and the site needs something to come. -/
theorem Follows.commit (h : Follows s) {rows : List SiteOriginRecord} {t : RegistryState}
    (hrows : t.rows = Function.update s.rows siteId rows)
    (hrevision : t.revision = Function.update s.revision siteId (s.revision siteId + 1))
    (hlb : t.lb = s.lb) (hregistered : t.registeredAt = s.registeredAt)
    (hrefreshes : t.refreshes = s.refreshes)
    (hdeleted : ∀ other, t.existing other = false → t.rows other = [])
    (howed : siteId ∈ t.owed ∨ siteId ∈ t.removalOwed)
    (hothers : ∀ other, (other ∈ s.owed → other ∈ t.owed) ∧
      (other ∈ s.removalOwed → other ∈ t.removalOwed)) : Follows t := by
  have hsame : ∀ other, other ≠ siteId →
      t.rows other = s.rows other ∧ t.revision other = s.revision other := by
    intro other hne
    rw [hrows, hrevision, Function.update_of_ne hne, Function.update_of_ne hne]
    exact ⟨rfl, rfl⟩
  have hnext : t.revision siteId = s.revision siteId + 1 := by
    rw [hrevision, Function.update_self]
  refine ⟨fun other hother => ?_, fun other => ?_, hdeleted, ?_, fun other => ?_⟩
  · by_cases hne : other = siteId
    · subst hne
      have hpast := h.past other
      rw [hregistered] at hother
      omega
    · rw [hlb, (hsame other hne).1]
      apply h.registered
      rw [hregistered, (hsame other hne).2] at hother
      exact hother
  · have hpast := h.past other
    rw [hregistered]
    by_cases hne : other = siteId
    · subst hne
      omega
    · rw [(hsame other hne).2]
      exact hpast
  · rw [hrefreshes]
    intro f hf rows' revision hread
    obtain ⟨hle, heq⟩ := h.read f hf rows' revision hread
    by_cases hne : f.siteId = siteId
    · rw [hne] at hle ⊢
      exact ⟨by omega, fun hlast => by omega⟩
    · rw [(hsame _ hne).1, (hsame _ hne).2]
      exact ⟨hle, heq⟩
  · by_cases hne : other = siteId
    · subst hne
      exact .inr (howed.elim .inl fun hremoval => .inr (.inl hremoval))
    · rw [Awaited, hregistered, (hsame other hne).2, hrefreshes]
      rcases h.awaited other with hcurrent | howes | hremoval | ⟨f, hf, hsite, hread⟩
      · exact .inl hcurrent
      · exact .inr (.inl ((hothers other).1 howes))
      · exact .inr (.inr (.inl ((hothers other).2 hremoval)))
      · refine .inr (.inr (.inr ⟨f, hf, hsite, fun answer hanswer => ?_⟩))
        rw [hsite, (hsame other hne).2, ← hsite]
        exact hread answer hanswer

theorem Follows.refreshSite (h : Follows s) (hstep : registryStep s (.refreshSite siteId) = some s') :
    Follows s' := by
  obtain rfl := Option.some.inj hstep
  refine ⟨h.registered, h.past, h.deleted, fun f hf rows revision hread => ?_, fun other => ?_⟩
  · rcases List.mem_snoc.mp hf with hold | rfl
    · exact h.read f hold rows revision hread
    · cases hread
  · by_cases hne : other = siteId
    · subst hne
      refine .inr (.inr (.inr ⟨_, List.mem_append_right _ (List.mem_singleton.mpr rfl), rfl, ?_⟩))
      intro answer hanswer
      cases hanswer
    · rcases h.awaited other with hcurrent | howes | hremoval | ⟨f, hf, hsite, hread⟩
      · exact .inl hcurrent
      · exact .inr (.inl ((List.mem_erase_of_ne hne).mpr howes))
      · exact .inr (.inr (.inl hremoval))
      · exact .inr (.inr (.inr ⟨f, List.mem_append_left _ hf, hsite, hread⟩))

theorem Follows.readRows {refresh : Refresh} (h : Follows s)
    (hstep : registryStep s (.read refresh) = some s') : Follows s' := by
  rw [registryStep] at hstep
  split at hstep
  case isFalse => cases hstep
  rename_i hmem
  obtain rfl := Option.some.inj hstep
  rw [Bool.and_eq_true, List.contains_iff_mem] at hmem
  have hread : Refresh.IsCurrent s
      { refresh with read := some (s.rows refresh.siteId, s.revision refresh.siteId) } := by
    intro answer hanswer
    obtain rfl := Option.some.inj hanswer
    rfl
  refine ⟨h.registered, h.past, h.deleted, fun f hf rows revision hanswer => ?_, fun other => ?_⟩
  · rcases List.mem_snoc.mp hf with hold | rfl
    · exact h.read f (List.mem_of_mem_erase hold) rows revision hanswer
    · obtain ⟨rfl, rfl⟩ := Prod.mk.inj (Option.some.inj hanswer)
      exact ⟨Nat.le_refl _, fun _ => rfl⟩
  · rcases h.awaited other with hcurrent | howes | hremoval | ⟨f, hf, hsite, hcurrent⟩
    · exact .inl hcurrent
    · exact .inr (.inl howes)
    · exact .inr (.inr (.inl hremoval))
    · by_cases heq : f = refresh
      · subst heq
        exact .inr (.inr (.inr ⟨_, List.mem_append_right _ (List.mem_singleton.mpr rfl), hsite,
          hread⟩))
      · exact .inr (.inr (.inr ⟨f, List.mem_append_left _ ((List.mem_erase_of_ne heq).mpr hf),
          hsite, hcurrent⟩))

/-- An answer that was not outrun is the current one, or something else will come. -/
theorem Follows.register {refresh : Refresh} (h : Follows s) (hc : NotOutrun s (.register refresh))
    (hstep : registryStep s (.register refresh) = some s') : Follows s' := by
  rw [registryStep] at hstep
  split at hstep
  case isFalse => cases hstep
  rename_i hmem
  rw [List.contains_iff_mem] at hmem
  obtain ⟨⟨rows, revision⟩, hread, hs'⟩ := Option.map_eq_some_iff.mp hstep
  dsimp only at hs'
  subst hs'
  rw [NotOutrun, hread, Option.all_some, decide_eq_true_iff] at hc
  obtain ⟨hle, hrows⟩ := h.read refresh hmem rows revision hread
  refine ⟨fun other hother => ?_, fun other => ?_, h.deleted,
    fun f hf => h.read f (List.mem_of_mem_erase hf), fun other => ?_⟩
  · by_cases hne : other = refresh.siteId
    · subst hne
      dsimp only at hother ⊢
      rw [Function.update_self] at hother
      rw [originsBySite_register, hrows hother]
    · dsimp only at hother ⊢
      rw [Function.update_of_ne hne] at hother
      rw [originsBySite_register_ne _ hne]
      exact h.registered other hother
  · by_cases hne : other = refresh.siteId
    · subst hne
      dsimp only
      rw [Function.update_self]
      exact hle
    · dsimp only
      rw [Function.update_of_ne hne]
      exact h.past other
  · by_cases hlast : revision = s.revision refresh.siteId
    · by_cases hne : other = refresh.siteId
      · subst hne
        refine .inl ?_
        dsimp only
        rw [Function.update_self, hlast]
      · rcases h.awaited other with hcurrent | howes | hremoval | ⟨f, hf, hsite, hf'⟩
        · refine .inl ?_
          dsimp only
          rw [Function.update_of_ne hne]
          exact hcurrent
        · exact .inr (.inl howes)
        · exact .inr (.inr (.inl hremoval))
        · have hother : f ≠ refresh := by
            rintro rfl
            exact hne hsite.symm
          exact .inr (.inr (.inr ⟨f, (List.mem_erase_of_ne hother).mpr hf, hsite, hf'⟩))
    · rcases h.awaited other with hcurrent | howes | hremoval | ⟨f, hf, hsite, hf'⟩
      · refine .inl ?_
        have hne : other ≠ refresh.siteId := by
          rintro rfl
          omega
        dsimp only
        rw [Function.update_of_ne hne]
        exact hcurrent
      · exact .inr (.inl howes)
      · exact .inr (.inr (.inl hremoval))
      · have hother : f ≠ refresh := by
          rintro rfl
          exact hlast (hf' _ hread)
        exact .inr (.inr (.inr ⟨f, (List.mem_erase_of_ne hother).mpr hf, hsite, hf'⟩))

theorem Follows.removeSite (h : Follows s)
    (hexists : siteId ∈ s.removalOwed → s.existing siteId = false)
    (hstep : registryStep s (.removeSite siteId) = some s') :
    Follows s' := by
  rw [registryStep] at hstep
  split at hstep
  case isFalse => cases hstep
  rename_i howed
  rw [List.contains_iff_mem] at howed
  obtain rfl := Option.some.inj hstep
  refine ⟨fun other hother => ?_, fun other => ?_, h.deleted, h.read, fun other => ?_⟩
  · by_cases hne : other = siteId
    · subst hne
      dsimp only
      rw [h.deleted other (hexists howed), if_pos rfl]
      exact OrderedMap.get?_erase_self _ _
    · dsimp only at hother
      rw [Function.update_of_ne hne] at hother
      exact (OrderedMap.get?_erase_ne _ hne).trans (h.registered other hother)
  · by_cases hne : other = siteId
    · subst hne
      dsimp only
      rw [Function.update_self]
    · dsimp only
      rw [Function.update_of_ne hne]
      exact h.past other
  · by_cases hne : other = siteId
    · subst hne
      refine .inl ?_
      dsimp only
      rw [Function.update_self]
    · rcases h.awaited other with hcurrent | howes | hremoval | hrefresh
      · refine .inl ?_
        dsimp only
        rw [Function.update_of_ne hne]
        exact hcurrent
      · exact .inr (.inl howes)
      · exact .inr (.inr (.inl (List.mem_filter.mpr ⟨hremoval, decide_eq_true hne⟩)))
      · exact .inr (.inr (.inr hrefresh))

/-- Only deleted sites are to be removed. -/
def RemovesDeleted (s : RegistryState) : Prop :=
  ∀ siteId ∈ s.removalOwed, s.existing siteId = false

theorem RemovesDeleted.step (h : RemovesDeleted s) (hstep : registryStep s a = some s') :
    RemovesDeleted s' := by
  cases a with
  | mutate siteId rows =>
      rw [registryStep] at hstep
      split at hstep
      · obtain rfl := Option.some.inj hstep
        exact h
      · cases hstep
  | deleteSite siteId =>
      rw [registryStep] at hstep
      split at hstep
      case isFalse => cases hstep
      obtain rfl := Option.some.inj hstep
      intro other howed
      by_cases hne : other = siteId
      · subst hne
        exact Function.update_self _ _ _
      · rcases List.mem_snoc.mp howed with hold | hnew
        · exact (Function.update_of_ne hne _ _).trans (h other hold)
        · exact absurd hnew hne
  | refreshSite siteId =>
      obtain rfl := Option.some.inj hstep
      exact h
  | read refresh =>
      rw [registryStep] at hstep
      split at hstep
      · obtain rfl := Option.some.inj hstep
        exact h
      · cases hstep
  | register refresh =>
      rw [registryStep] at hstep
      split at hstep
      · obtain ⟨_, -, rfl⟩ := Option.map_eq_some_iff.mp hstep
        exact h
      · cases hstep
  | removeSite siteId =>
      rw [registryStep] at hstep
      split at hstep
      case isFalse => cases hstep
      obtain rfl := Option.some.inj hstep
      intro other howed
      exact h other (List.mem_filter.mp howed).1

theorem Follows.step (h : Follows s) (hremoves : RemovesDeleted s) (hc : NotOutrun s a)
    (hstep : registryStep s a = some s') : Follows s' := by
  cases a with
  | mutate siteId rows =>
      rw [registryStep] at hstep
      split at hstep
      case isFalse => cases hstep
      rename_i hexists
      obtain rfl := Option.some.inj hstep
      refine h.commit rfl rfl rfl rfl rfl (fun other hother => ?_) (.inl ?_) fun other => ?_
      · have hne : other ≠ siteId := by
          rintro rfl
          exact Bool.false_ne_true (hother.symm.trans hexists)
        exact (Function.update_of_ne hne _ _).trans (h.deleted other hother)
      · exact List.mem_append_right _ (List.mem_singleton.mpr rfl)
      · exact ⟨fun howes => List.mem_append_left _ howes, id⟩
  | deleteSite siteId =>
      rw [registryStep] at hstep
      split at hstep
      case isFalse => cases hstep
      obtain rfl := Option.some.inj hstep
      refine h.commit rfl rfl rfl rfl rfl (fun other hother => ?_) (.inr ?_) fun other => ?_
      · by_cases hne : other = siteId
        · subst hne
          exact Function.update_self _ _ _
        · dsimp only at hother
          rw [Function.update_of_ne hne] at hother
          exact (Function.update_of_ne hne _ _).trans (h.deleted other hother)
      · exact List.mem_append_right _ (List.mem_singleton.mpr rfl)
      · exact ⟨id, fun hremoval => List.mem_append_left _ hremoval⟩
  | refreshSite siteId => exact h.refreshSite hstep
  | read refresh => exact h.readRows hstep
  | register refresh => exact h.register hc hstep
  | removeSite siteId => exact h.removeSite (hremoves siteId) hstep

/-- When no refresh is outrun by a later read or by a removal, memory is what the database
says once everything has finished. -/
theorem registry_follows_database (h : Reach registryStep NotOutrun StartsRegistry s) :
    RegistryFollows s := by
  have hinvariant : Follows s ∧ RemovesDeleted s := by
    refine h.invariant (I := fun s => Follows s ∧ RemovesDeleted s) ?_ ?_
    · intro s hs
      refine ⟨⟨fun siteId _ => hs.registered siteId, fun siteId => ?_, hs.deleted, ?_,
        fun siteId => .inl (hs.current siteId)⟩, fun siteId howed => ?_⟩
      · rw [hs.current]
      · rw [hs.idle.1]
        exact fun _ hf => (by cases hf)
      · rw [hs.idle.2.2] at howed
        cases howed
    · rintro s a s' _ ⟨hs, hremoves⟩ hc hstep
      exact ⟨hs.step hremoves hc hstep, hremoves.step hstep⟩
  obtain ⟨hs, -⟩ := hinvariant
  rintro ⟨hrefreshes, howed, hremovalOwed⟩ siteId
  have hcurrent : s.registeredAt siteId = s.revision siteId := by
    rcases hs.awaited siteId with hcurrent | howes | hremoval | ⟨f, hf, -, -⟩
    · exact hcurrent
    · rw [howed] at howes
      cases howes
    · rw [hremovalOwed] at hremoval
      cases hremoval
    · rw [hrefreshes] at hf
      cases hf
  have hregistered := hs.registered siteId hcurrent
  refine ⟨fun _ => ?_, fun hdeleted => ?_⟩
  · rw [origins, hregistered]
    split
    · rename_i hempty
      exact hempty.symm
    · rfl
  · rw [hregistered, if_pos (hs.deleted siteId hdeleted)]

/-! ## Runs -/

def exampleOrigin (id : OriginId) : SiteOriginRecord := ⟨id, 1, 0, 0, 1, 0, 0⟩

def exampleSiteId : SiteId := "site_1".toList

/-- One site without origins. -/
def exampleRegistry : RegistryState where
  lb := ⟨.empty, .empty, .empty, .empty⟩
  rows _ := []
  existing siteId := siteId = exampleSiteId
  revision _ := 0
  registeredAt _ := 0
  owed := []
  removalOwed := []
  refreshes := []

theorem exampleRegistry_starts : StartsRegistry exampleRegistry :=
  ⟨fun _ => rfl, fun _ _ => rfl, fun _ => rfl, rfl, rfl, rfl⟩

def unread : Refresh := ⟨exampleSiteId, [], none⟩

def answered (rows : List SiteOriginRecord) (revision : Nat) : Refresh :=
  { unread with read := some (rows, revision) }

/-- Two origins are added one after the other, the refreshes finish in their order. -/
def refreshedInOrder : List RegistryAction :=
  [.mutate exampleSiteId [exampleOrigin "a".toList], .refreshSite exampleSiteId, .read unread,
    .mutate exampleSiteId [exampleOrigin "a".toList, exampleOrigin "b".toList],
    .refreshSite exampleSiteId, .register (answered [exampleOrigin "a".toList] 1), .read unread,
    .register (answered [exampleOrigin "a".toList, exampleOrigin "b".toList] 2)]

theorem registry_follows_database_in_order :
    ∃ s, execIf registryStep NotOutrun exampleRegistry refreshedInOrder = some s ∧
      origins s.lb exampleSiteId = [exampleOrigin "a".toList, exampleOrigin "b".toList] ∧
      RegistryFollows s := by
  obtain ⟨s, hs, horigins⟩ := (Option.any_eq_true ..).mp
    (show (execIf registryStep NotOutrun exampleRegistry refreshedInOrder).any
      (fun s => origins s.lb exampleSiteId = [exampleOrigin "a".toList, exampleOrigin "b".toList])
        = true by decide +kernel)
  exact ⟨s, hs, of_decide_eq_true horigins,
    registry_follows_database (execIf_reach (.start exampleRegistry_starts) hs)⟩

/-- The refresh that read first finishes last. -/
def refreshedOutOfOrder : List RegistryAction :=
  [.mutate exampleSiteId [exampleOrigin "a".toList], .refreshSite exampleSiteId, .read unread,
    .mutate exampleSiteId [], .refreshSite exampleSiteId, .read unread,
    .register (answered [] 2), .register (answered [exampleOrigin "a".toList] 1)]

theorem deleted_origin_stays :
    ¬ ∀ s, Reach registryStep Any StartsRegistry s → RegistryFollows s := by
  intro h
  obtain ⟨s, hs, hstale⟩ := (Option.any_eq_true ..).mp
    (show (exec registryStep exampleRegistry refreshedOutOfOrder).any
      (fun s => s.refreshes = [] ∧ s.owed = [] ∧ s.removalOwed = [] ∧ s.existing exampleSiteId =
        true ∧ origins s.lb exampleSiteId ≠ s.rows exampleSiteId) = true by decide +kernel)
  obtain ⟨hrefreshes, howed, hremoval, hexists, hne⟩ := of_decide_eq_true hstale
  have hfollows := h s (exec_reach (.start exampleRegistry_starts) hs)
  exact hne ((hfollows ⟨hrefreshes, howed, hremoval⟩ exampleSiteId).1 hexists)

end BurrowGate.Balancer
