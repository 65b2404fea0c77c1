import BurrowGate.Balancer.LoadBalancer

/-!
# Selection and availability

What `selectOrigin` may return, stated over the origins of the site. The health of the
origins is looked at after the quarantined ones were left out, and the quarantine is
lifted only when nothing is left. So in failure mode `monitor` an unhealthy origin is
preferred to one that is only in quarantine: `MaskedByQuarantine` says when.
-/

namespace BurrowGate.Balancer

open Health (OriginHealthState)
open Lib

variable {env : BalancerEnv} {now : Nat} {lb : LoadBalancer} {site : SiteRecord}
  {session : Option AccessSessionRecord} {ip : List Char} {excluded : List OriginId}

/-! ## The specification -/

/-- Enabled, not excluded and not draining. -/
def selectable (excluded : List OriginId) (origin : SiteOriginRecord) : Bool :=
  origin.enabled = 1 && !excluded.contains origin.id && origin.draining ≠ 1

def Unhealthy (env : BalancerEnv) (origin : SiteOriginRecord) : Prop :=
  env.health origin.id = .unhealthy

instance : DecidablePred (Unhealthy env) := fun _ => inferInstanceAs (Decidable (_ = _))

def quarantined (now : Nat) (quarantine : OrderedMap OriginId Nat) (id : OriginId) : Bool :=
  now < (quarantine.get? id).getD 0

/-- The session has an origin, and it is enabled, not excluded, not unhealthy and not in
quarantine. It may be draining. -/
def AssignmentUsable (env : BalancerEnv) (now : Nat) (lb : LoadBalancer) (site : SiteRecord)
    (session : Option AccessSessionRecord) (excluded : List OriginId) : Prop :=
  affinityOf site = true ∧ ∃ id origin, sessionOrigin session = some id ∧
    (origins lb site.id).find? (·.id = id) = some origin ∧ origin.enabled = 1 ∧
      excluded.contains origin.id = false ∧ ¬Unhealthy env origin ∧
        quarantined now lb.passiveQuarantine origin.id = false

structure RespectsAvailability (env : BalancerEnv) (now : Nat) (lb : LoadBalancer)
    (site : SiteRecord) (session : Option AccessSessionRecord) (excluded : List OriginId)
    (selected : Option SiteOriginRecord) : Prop where
  enabled : ∀ origin, selected = some origin →
    origin ∈ origins lb site.id ∧ origin.enabled = 1 ∧ excluded.contains origin.id = false
  draining : ∀ origin, selected = some origin → origin.draining = 1 →
    affinityOf site = true ∧ sessionOrigin session = some origin.id
  none_iff : selected = none ↔ ¬AssignmentUsable env now lb site session excluded ∧
    ∀ origin ∈ origins lb site.id, selectable excluded origin = true →
      Unhealthy env origin ∧ site.healthCheckFailureMode ≠ some .monitor
  unhealthy : ∀ origin, selected = some origin → Unhealthy env origin →
    ∀ other ∈ origins lb site.id, selectable excluded other = true → Unhealthy env other

/-- The selectable origins that are not in quarantine are all unhealthy, there is one of them,
and one that is in quarantine is not unhealthy. -/
def MaskedByQuarantine (env : BalancerEnv) (now : Nat) (lb : LoadBalancer) (site : SiteRecord)
    (excluded : List OriginId) : Prop :=
  let free := (origins lb site.id).filter fun origin =>
    selectable excluded origin && !quarantined now lb.passiveQuarantine origin.id
  site.healthCheckFailureMode = some .monitor ∧ free ≠ [] ∧ (∀ origin ∈ free, Unhealthy env origin) ∧
    ∃ origin ∈ origins lb site.id, selectable excluded origin = true ∧ ¬Unhealthy env origin

/-! ## Availability -/

theorem quarantined_erase {quarantine : OrderedMap OriginId Nat} {id : OriginId}
    (h : quarantined now quarantine id = false) (x : OriginId) :
    quarantined now (quarantine.erase id) x = quarantined now quarantine x := by
  by_cases hx : x = id
  · subst hx
    rw [h, quarantined, OrderedMap.get?_erase_self]
    simp
  · rw [quarantined, OrderedMap.get?_erase_ne quarantine hx, quarantined]

/-- An entry that ran out may be removed; that changes nothing. -/
theorem originAvailable_snd (quarantine : OrderedMap OriginId Nat) (origin : SiteOriginRecord)
    (affinity allowUnhealthy allowQuarantine : Bool) (x : OriginId) :
    quarantined now (originAvailable env now quarantine origin affinity excluded allowUnhealthy
      allowQuarantine).2 x = quarantined now quarantine x := by
  rw [originAvailable]
  split
  · rfl
  · split
    · rfl
    · split
      · rfl
      · dsimp only
        split
        · rfl
        · next hfree =>
          split
          · exact quarantined_erase (decide_eq_false hfree) x
          · rfl

theorem originAvailable_fst (quarantine : OrderedMap OriginId Nat) (origin : SiteOriginRecord)
    (affinity allowUnhealthy allowQuarantine : Bool) :
    (originAvailable env now quarantine origin affinity excluded allowUnhealthy allowQuarantine).1 =
      (origin.enabled = 1 && !excluded.contains origin.id && (affinity || origin.draining ≠ 1) &&
        (allowUnhealthy || !decide (Unhealthy env origin)) &&
          (allowQuarantine || !quarantined now quarantine origin.id)) := by
  rw [originAvailable, quarantined]
  by_cases hclosed : origin.enabled ≠ 1 || excluded.contains origin.id
  · rw [if_pos hclosed]
    rcases Bool.or_eq_true_iff.mp hclosed with henabled | hexcluded
    · simp [of_decide_eq_true henabled]
    · rw [hexcluded]
      simp
  rw [if_neg hclosed]
  obtain ⟨henabled, hexcluded⟩ := Bool.or_eq_false_iff.mp (Bool.eq_false_iff.mpr hclosed)
  rw [hexcluded, show decide (origin.enabled = 1) = true by simpa using henabled]
  by_cases hdraining : !affinity && decide (origin.draining = 1)
  · rw [if_pos hdraining]
    obtain ⟨haffinity, hone⟩ := Bool.and_eq_true_iff.mp hdraining
    simp [(Bool.not_eq_true' affinity).mp haffinity, of_decide_eq_true hone]
  rw [if_neg hdraining]
  have hstays : (affinity || decide (origin.draining ≠ 1)) = true := by
    cases affinity with
    | true => rfl
    | false => simpa using hdraining
  by_cases hhealth : !allowUnhealthy && decide (env.health origin.id = .unhealthy)
  · rw [if_pos hhealth]
    obtain ⟨hallow, hbad⟩ := Bool.and_eq_true_iff.mp hhealth
    simp [(Bool.not_eq_true' allowUnhealthy).mp hallow, Unhealthy, of_decide_eq_true hbad]
  rw [if_neg hhealth]
  have hfit : (allowUnhealthy || !decide (Unhealthy env origin)) = true := by
    cases allowUnhealthy with
    | true => rfl
    | false =>
        have hwell : ¬Unhealthy env origin := fun hbad => hhealth (decide_eq_true hbad)
        rw [decide_eq_false hwell]
        rfl
  rw [hstays, hfit]
  dsimp only
  split
  · next hquarantine => simp [hquarantine]
  · next hfree => split <;> simp [hfree]

theorem filterAvailable_fst (allowQuarantine : Bool) (all : List SiteOriginRecord)
    (quarantine : OrderedMap OriginId Nat) :
    (filterAvailable env now excluded allowQuarantine all quarantine).1 =
      all.filter fun origin => selectable excluded origin &&
        (allowQuarantine || !quarantined now quarantine origin.id) := by
  induction all generalizing quarantine with
  | nil => rfl
  | cons origin rest ih =>
      have hhead := @originAvailable_fst env now excluded quarantine
        origin false true allowQuarantine
      have hrest := ih (originAvailable env now quarantine origin false excluded true
        allowQuarantine).2
      simp only [originAvailable_snd] at hrest
      have hopen : (originAvailable env now quarantine origin false excluded true allowQuarantine).1 =
          (selectable excluded origin && (allowQuarantine || !quarantined now quarantine origin.id)) := by
        rw [hhead, selectable, Bool.false_or, Bool.true_or, Bool.and_true]
      rw [List.filter_cons, ← hopen, ← hrest]
      rfl

/-! ## Choosing -/

theorem byPriority_subset {all : List SiteOriginRecord} {origin : SiteOriginRecord}
    (h : origin ∈ byPriority all) : origin ∈ all := by
  rw [byPriority] at h
  split at h
  · exact h
  · split at h
    · exact (List.mem_filter.mp h).1
    · cases h

theorem byPriority_ne_nil {all : List SiteOriginRecord} (h : all ≠ []) : byPriority all ≠ [] := by
  rw [byPriority]
  split
  · exact h
  · split
    · next priority hmin =>
      obtain ⟨origin, horigin, hpriority⟩ := List.mem_map.mp (List.min?_mem hmin)
      exact List.ne_nil_of_mem (List.mem_filter.mpr ⟨horigin, decide_eq_true hpriority⟩)
    · next hmin =>
      exact absurd (List.map_eq_nil_iff.mp (List.min?_eq_none_iff.mp hmin)) h

/-- A selection from a list: a member, and none only of the empty list. -/
structure SelectedFrom (all : List SiteOriginRecord) (selected : Option SiteOriginRecord) : Prop where
  mem : ∀ origin, selected = some origin → origin ∈ all
  none : selected = none → all = []

theorem SelectedFrom.of_getElem? {all : List SiteOriginRecord} {i : Nat} (h : i < all.length) :
    SelectedFrom all all[i]? :=
  ⟨fun _ horigin => List.mem_of_getElem? horigin,
    fun hnone => absurd h (Nat.not_lt.mpr (List.getElem?_eq_none_iff.mp hnone))⟩

theorem SelectedFrom.perm {all ordered : List SiteOriginRecord} {selected : Option SiteOriginRecord}
    (h : SelectedFrom ordered selected) (hperm : ordered.Perm all) : SelectedFrom all selected :=
  ⟨fun origin horigin => hperm.mem_iff.mp (h.mem origin horigin),
    fun hnone => (h.none hnone ▸ hperm).nil_eq.symm⟩

theorem SelectedFrom.empty {all : List SiteOriginRecord} (h : all = []) : SelectedFrom all .none :=
  ⟨fun _ horigin => (by cases horigin), fun _ => h⟩

theorem SelectedFrom.nil {selected : Option SiteOriginRecord} (h : SelectedFrom [] selected) :
    selected = .none := by
  cases selected with
  | none => rfl
  | some origin => cases h.mem origin rfl

theorem bucketOrigin_mem {bucket : Int} {all : List SiteOriginRecord} {origin : SiteOriginRecord}
    (h : bucketOrigin bucket all = some origin) : origin ∈ all := by
  induction all generalizing bucket with
  | nil => cases h
  | cons head rest ih =>
      simp only [bucketOrigin] at h
      split at h
      · obtain rfl := Option.some.inj h
        exact List.mem_cons_self
      · exact List.mem_cons_of_mem _ (ih h)

theorem ipAffinityOrigin_selected (all : List SiteOriginRecord) (weighted : Bool) :
    SelectedFrom all (ipAffinityOrigin env all ip weighted) := by
  rw [ipAffinityOrigin]
  split
  · next hempty => exact .empty (List.length_eq_zero_iff.mp hempty)
  · next hsome =>
    have hperm := List.mergeSort_perm all fun left right => env.localeCompare left.id right.id != .gt
    have hlength := hperm.length_eq
    have hpos : 0 < all.length := Nat.pos_of_ne_zero hsome
    refine SelectedFrom.perm ?_ hperm
    dsimp only
    split
    · exact .of_getElem? (Nat.mod_lt _ (hlength ▸ hpos))
    · split
      · next origin hbucket =>
        refine ⟨fun _ h => Option.some.inj h ▸ bucketOrigin_mem hbucket, fun h => by cases h⟩
      · exact .of_getElem? (by omega)

theorem smoothLoop_selected (all : List SiteOriginRecord)
    (selected : Option (SiteOriginRecord × Int)) (total : Int) (weights : OrderedMap (List Char) Int) :
    (∀ origin weight, (smoothLoop site all selected total weights).1 = some (origin, weight) →
      origin ∈ all ∨ ∃ w, selected = some (origin, w)) ∧
      ((smoothLoop site all selected total weights).1 = none → all = [] ∧ selected = none) := by
  induction all generalizing selected total weights with
  | nil => exact ⟨fun origin weight h => .inr ⟨weight, h⟩, fun h => ⟨rfl, h⟩⟩
  | cons head rest ih =>
      simp only [smoothLoop]
      refine ⟨fun origin weight h => ?_, fun h => ?_⟩
      · rcases (ih _ _ _).1 origin weight h with hrest | ⟨w, hw⟩
        · exact .inl (List.mem_cons_of_mem _ hrest)
        · cases selected with
          | none =>
              obtain ⟨rfl, -⟩ := Prod.mk.inj (Option.some.inj hw)
              exact .inl List.mem_cons_self
          | some best =>
              dsimp only at hw
              split at hw
              · obtain ⟨rfl, -⟩ := Prod.mk.inj (Option.some.inj hw)
                exact .inl List.mem_cons_self
              · obtain ⟨rfl, -⟩ := Prod.mk.inj (Option.some.inj hw)
                exact .inr ⟨best.2, rfl⟩
      · obtain ⟨-, hselected⟩ := (ih _ _ _).2 h
        cases selected with
        | none => cases hselected
        | some best =>
            dsimp only at hselected
            split at hselected <;> cases hselected

theorem nextByAlgorithm_selected (all : List SiteOriginRecord) :
    SelectedFrom all (nextByAlgorithm lb site all).1 := by
  rw [nextByAlgorithm]
  split
  · next hempty => exact .empty (List.length_eq_zero_iff.mp hempty)
  · next hsome =>
    have hpos : 0 < all.length := Nat.pos_of_ne_zero hsome
    split
    · have hperm := List.mergeSort_perm all failoverLe
      refine SelectedFrom.perm ?_ hperm
      rw [List.head?_eq_getElem?]
      exact .of_getElem? (hperm.length_eq ▸ hpos)
    · exact .of_getElem? (Nat.mod_lt _ hpos)
    · obtain ⟨hmem, hnone⟩ := @smoothLoop_selected site all none 0 lb.smoothWeights
      split
      · next selected weight total weights hloop =>
        refine ⟨fun origin h => ?_, fun h => by cases h⟩
        obtain rfl := Option.some.inj h
        rcases hmem selected weight (by rw [hloop]) with hall | ⟨w, hw⟩
        · exact hall
        · cases hw
      · next total weights hloop =>
        exact .empty (hnone (by rw [hloop])).1

/-! ## The two passes -/

/-- What both passes do with their eligible origins. -/
def ranked (env : BalancerEnv) (site : SiteRecord) (eligible : List SiteOriginRecord) :
    List SiteOriginRecord :=
  if algorithmOf site = .failover then byPriority (preferred env site eligible)
  else preferred env site eligible

theorem candidates_fst (lb : LoadBalancer) (allowQuarantine : Bool) :
    (candidates env now lb site excluded allowQuarantine).1 =
      ranked env site ((origins lb site.id).filter fun origin => selectable excluded origin &&
        (allowQuarantine || !quarantined now lb.passiveQuarantine origin.id)) := by
  exact congrArg (ranked env site)
    (@filterAvailable_fst env now excluded allowQuarantine _ lb.passiveQuarantine)

theorem candidates_origins (lb : LoadBalancer) (allowQuarantine : Bool) (siteId : List Char) :
    origins (candidates env now lb site excluded allowQuarantine).2 siteId = origins lb siteId := rfl

theorem preferred_subset {eligible : List SiteOriginRecord} {origin : SiteOriginRecord}
    (h : origin ∈ preferred env site eligible) : origin ∈ eligible := by
  simp only [preferred] at h
  split at h
  · exact (List.mem_filter.mp h).1
  · split at h
    · exact (List.mem_filter.mp h).1
    · split at h
      · exact h
      · cases h

/-- An unhealthy origin is preferred only when all eligible ones are unhealthy. -/
theorem preferred_unhealthy {eligible : List SiteOriginRecord} {origin other : SiteOriginRecord}
    (h : origin ∈ preferred env site eligible) (hbad : Unhealthy env origin)
    (hother : other ∈ eligible) : Unhealthy env other := by
  simp only [preferred] at h
  split at h
  · have hhealthy := of_decide_eq_true (List.mem_filter.mp h).2
    rw [show env.health origin.id = .unhealthy from hbad] at hhealthy
    cases hhealthy
  · split at h
    · exact absurd hbad (of_decide_eq_true (List.mem_filter.mp h).2)
    · next hnone =>
      by_contra hwell
      exact hnone (List.length_pos_of_mem (List.mem_filter.mpr ⟨hother, decide_eq_true hwell⟩))

theorem preferred_eq_nil (eligible : List SiteOriginRecord) :
    preferred env site eligible = [] ↔
      ∀ origin ∈ eligible, Unhealthy env origin ∧ site.healthCheckFailureMode ≠ some .monitor := by
  constructor
  · intro h origin horigin
    simp only [preferred] at h
    split at h
    · next hhealthy => exact absurd (h ▸ hhealthy) (lt_irrefl _)
    · split at h
      · next hwell => exact absurd (h ▸ hwell) (lt_irrefl _)
      · next hnone =>
        split at h
        · subst h
          cases horigin
        · next hmode =>
          refine ⟨by_contra fun hwell => hnone ?_, hmode⟩
          exact List.length_pos_of_mem (List.mem_filter.mpr ⟨horigin, decide_eq_true hwell⟩)
  · intro h
    refine List.eq_nil_iff_forall_not_mem.mpr fun origin horigin => ?_
    obtain ⟨hbad, hmode⟩ := h origin (preferred_subset horigin)
    simp only [preferred] at horigin
    split at horigin
    · have hhealthy := of_decide_eq_true (List.mem_filter.mp horigin).2
      rw [show env.health origin.id = .unhealthy from hbad] at hhealthy
      cases hhealthy
    · split at horigin
      · exact absurd hbad (of_decide_eq_true (List.mem_filter.mp horigin).2)
      · cases horigin

theorem mem_ranked {eligible : List SiteOriginRecord} {origin : SiteOriginRecord}
    (h : origin ∈ ranked env site eligible) : origin ∈ preferred env site eligible := by
  rw [ranked] at h
  split at h
  · exact byPriority_subset h
  · exact h

theorem ranked_eq_nil (eligible : List SiteOriginRecord) :
    ranked env site eligible = [] ↔ preferred env site eligible = [] := by
  rw [ranked]
  split
  · refine ⟨fun h => by_contra fun hsome => byPriority_ne_nil hsome h, fun h => ?_⟩
    rw [h]
    rfl
  · rfl

/-- The selectable origins, and those of them that are not in quarantine. -/
def allSelectable (lb : LoadBalancer) (site : SiteRecord) (excluded : List OriginId) :
    List SiteOriginRecord :=
  (origins lb site.id).filter (selectable excluded)

def freeSelectable (now : Nat) (lb : LoadBalancer) (site : SiteRecord) (excluded : List OriginId) :
    List SiteOriginRecord :=
  (origins lb site.id).filter fun origin =>
    selectable excluded origin && !quarantined now lb.passiveQuarantine origin.id

theorem freeSelectable_subset {origin : SiteOriginRecord}
    (h : origin ∈ freeSelectable now lb site excluded) : origin ∈ allSelectable lb site excluded := by
  obtain ⟨hmem, hopen⟩ := List.mem_filter.mp h
  exact List.mem_filter.mpr ⟨hmem, (Bool.and_eq_true_iff.mp hopen).1⟩

/-- The candidates selection falls to: those of the first pass if there are any. -/
def finalCandidates (env : BalancerEnv) (now : Nat) (lb : LoadBalancer) (site : SiteRecord)
    (excluded : List OriginId) : List SiteOriginRecord :=
  if ranked env site (freeSelectable now lb site excluded) = [] then
    ranked env site (allSelectable lb site excluded)
  else ranked env site (freeSelectable now lb site excluded)

theorem selectCandidate_selected :
    SelectedFrom (finalCandidates env now lb site excluded)
      (selectCandidate env now lb site session ip excluded).origin := by
  have hfirst : (candidates env now lb site excluded false).1 =
      ranked env site (freeSelectable now lb site excluded) := by
    rw [candidates_fst]
    simp only [Bool.false_or]
    rfl
  have hsecond : ∀ lb', origins lb' site.id = origins lb site.id →
      (candidates env now lb' site excluded true).1 =
        ranked env site (allSelectable lb site excluded) := by
    intro lb' hsame
    rw [candidates_fst, hsame]
    simp only [Bool.true_or, Bool.and_true]
    rfl
  have hchosen : (if (candidates env now lb site excluded false).1.length = 0 then
      candidates env now (candidates env now lb site excluded false).2 site excluded true
      else candidates env now lb site excluded false).1 = finalCandidates env now lb site excluded := by
    rw [finalCandidates, ← hfirst]
    by_cases hempty : (candidates env now lb site excluded false).1 = []
    · rw [if_pos (List.length_eq_zero_iff.mpr hempty), if_pos hempty]
      exact hsecond _ (candidates_origins lb false site.id)
    · rw [if_neg fun h => hempty (List.length_eq_zero_iff.mp h), if_neg hempty]
  rw [← hchosen]
  simp only [selectCandidate]
  split
  · split
    · exact ipAffinityOrigin_selected _ _
    · exact nextByAlgorithm_selected _
  · split
    · exact ipAffinityOrigin_selected _ _
    · exact nextByAlgorithm_selected _

theorem assignedOrigin_eq_some {origin : SiteOriginRecord} :
    affinityOf site = true ∧ (assignedOrigin env now lb site session excluded).1 = some origin ↔
      affinityOf site = true ∧ ∃ id, sessionOrigin session = some id ∧
        (origins lb site.id).find? (·.id = id) = some origin ∧ origin.enabled = 1 ∧
          excluded.contains origin.id = false ∧ ¬Unhealthy env origin ∧
            quarantined now lb.passiveQuarantine origin.id = false := by
  refine and_congr_right fun _ => ?_
  rw [assignedOrigin]
  cases hsession : sessionOrigin session with
  | none => simp
  | some id =>
      cases hfind : (origins lb site.id).find? (·.id = id) with
      | none => simp [hfind]
      | some assigned =>
          have havailable := @originAvailable_fst env now excluded
            lb.passiveQuarantine assigned true false false
          simp only [Option.some.injEq, hfind, exists_eq_left']
          rw [havailable]
          simp only [Bool.true_or, Bool.and_true, Bool.false_or, Bool.and_eq_true, decide_eq_true_eq,
            Bool.not_eq_true', decide_eq_false_iff_not]
          constructor
          · intro h
            split at h
            · next hall =>
              obtain rfl := Option.some.inj h
              obtain ⟨⟨⟨henabled, hexcluded⟩, hwell⟩, hfree⟩ := hall
              exact ⟨rfl, henabled, hexcluded, hwell, hfree⟩
            · cases h
          · rintro ⟨rfl, henabled, hexcluded, hwell, hfree⟩
            rw [if_pos ⟨⟨⟨henabled, hexcluded⟩, hwell⟩, hfree⟩]

/-! ## The candidates selection falls to -/

theorem mem_finalCandidates {origin : SiteOriginRecord}
    (h : origin ∈ finalCandidates env now lb site excluded) :
    origin ∈ allSelectable lb site excluded := by
  rw [finalCandidates] at h
  split at h
  · exact preferred_subset (mem_ranked h)
  · exact freeSelectable_subset (preferred_subset (mem_ranked h))

theorem finalCandidates_eq_nil :
    finalCandidates env now lb site excluded = [] ↔ ∀ origin ∈ allSelectable lb site excluded,
      Unhealthy env origin ∧ site.healthCheckFailureMode ≠ some .monitor := by
  rw [← preferred_eq_nil, ← ranked_eq_nil, finalCandidates]
  by_cases hfree : ranked env site (freeSelectable now lb site excluded) = []
  · rw [if_pos hfree]
  · rw [if_neg hfree]
    refine iff_of_false hfree fun hall => hfree ?_
    rw [ranked_eq_nil, preferred_eq_nil] at hall ⊢
    exact fun origin horigin => hall origin (freeSelectable_subset horigin)

theorem finalCandidates_masked (h : MaskedByQuarantine env now lb site excluded) :
    finalCandidates env now lb site excluded ≠ [] ∧
      ∀ origin ∈ finalCandidates env now lb site excluded, Unhealthy env origin := by
  obtain ⟨hmode, hsome, hbad, -⟩ := h
  have hfree : ranked env site (freeSelectable now lb site excluded) ≠ [] := by
    intro hnil
    rw [ranked_eq_nil, preferred_eq_nil] at hnil
    obtain ⟨origin, horigin⟩ := List.exists_mem_of_ne_nil _ hsome
    exact (hnil origin horigin).2 hmode
  rw [finalCandidates, if_neg hfree]
  exact ⟨hfree, fun origin horigin => hbad origin (preferred_subset (mem_ranked horigin))⟩

theorem finalCandidates_unhealthy (h : ¬MaskedByQuarantine env now lb site excluded)
    {origin : SiteOriginRecord} (horigin : origin ∈ finalCandidates env now lb site excluded)
    (hbad : Unhealthy env origin) :
    ∀ other ∈ allSelectable lb site excluded, Unhealthy env other := by
  rw [finalCandidates] at horigin
  split at horigin
  · exact fun other hother => preferred_unhealthy (mem_ranked horigin) hbad hother
  · have hfree := preferred_subset (mem_ranked horigin)
    have hmode : site.healthCheckFailureMode = some .monitor := by
      by_contra hmode
      have hnil := (@preferred_eq_nil env site
        (freeSelectable now lb site excluded)).mpr fun other hother =>
          ⟨preferred_unhealthy (mem_ranked horigin) hbad hother, hmode⟩
      have hmem := mem_ranked horigin
      rw [hnil] at hmem
      cases hmem
    intro other hother
    by_contra hwell
    obtain ⟨hmem, hopen⟩ := List.mem_filter.mp hother
    exact h ⟨hmode, List.ne_nil_of_mem hfree,
      fun free hmem => preferred_unhealthy (mem_ranked horigin) hbad hmem, other, hmem, hopen, hwell⟩

/-! ## `selectOrigin` -/

/-- Looking at the assignment changes no origin and no quarantine. -/
theorem assignedOrigin_snd :
    (∀ siteId, origins (assignedOrigin env now lb site session excluded).2 siteId =
      origins lb siteId) ∧
      ∀ id, quarantined now (assignedOrigin env now lb site session excluded).2.passiveQuarantine id =
        quarantined now lb.passiveQuarantine id := by
  rw [assignedOrigin]
  split
  · exact ⟨fun _ => rfl, fun _ => rfl⟩
  · split
    · exact ⟨fun _ => rfl, fun _ => rfl⟩
    · exact ⟨fun _ => rfl, originAvailable_snd _ _ _ _ _⟩

theorem finalCandidates_congr {lb' : LoadBalancer} (horigins : origins lb' site.id = origins lb site.id)
    (hquarantined : ∀ id, quarantined now lb'.passiveQuarantine id =
      quarantined now lb.passiveQuarantine id) :
    finalCandidates env now lb' site excluded = finalCandidates env now lb site excluded := by
  have hfree : freeSelectable now lb' site excluded = freeSelectable now lb site excluded := by
    simp only [freeSelectable, horigins, hquarantined]
  have hall : allSelectable lb' site excluded = allSelectable lb site excluded := by
    simp only [allSelectable, horigins]
  rw [finalCandidates, hfree, hall, finalCandidates]

theorem selectOrigin_cases :
    (∃ origin, AssignmentUsable env now lb site session excluded ∧
      affinityOf site = true ∧ sessionOrigin session = some origin.id ∧
        origin ∈ origins lb site.id ∧ origin.enabled = 1 ∧ excluded.contains origin.id = false ∧
          ¬Unhealthy env origin ∧
            (selectOrigin env now lb site session ip excluded).origin = some origin) ∨
      (¬AssignmentUsable env now lb site session excluded ∧
        SelectedFrom (finalCandidates env now lb site excluded)
          (selectOrigin env now lb site session ip excluded).origin) := by
  by_cases haffinity : affinityOf site = true
  · cases hassigned : (assignedOrigin env now lb site session excluded).1 with
    | some origin =>
        obtain ⟨-, id, hsession, hfind, henabled, hexcluded, hwell, hfree⟩ :=
          assignedOrigin_eq_some.mp ⟨haffinity, hassigned⟩
        have hid : origin.id = id := by simpa using List.find?_some hfind
        refine .inl ⟨origin, ⟨haffinity, id, origin, hsession, hfind, henabled, hexcluded, hwell,
          hfree⟩, haffinity, hid ▸ hsession, List.mem_of_find?_eq_some hfind, henabled, hexcluded,
          hwell, ?_⟩
        simp only [selectOrigin, haffinity, if_true, hassigned]
    | none =>
        refine .inr ⟨?_, ?_⟩
        · rintro ⟨-, id, origin, hrest⟩
          have hsome := (assignedOrigin_eq_some.mpr ⟨haffinity, id, hrest⟩).2
          rw [hassigned] at hsome
          cases hsome
        · obtain ⟨horigins, hquarantined⟩ := @assignedOrigin_snd env now lb site session excluded
          rw [← finalCandidates_congr (horigins site.id) hquarantined]
          simp only [selectOrigin, haffinity, if_true, hassigned]
          exact selectCandidate_selected
  · refine .inr ⟨fun h => haffinity h.1, ?_⟩
    rw [selectOrigin, if_neg haffinity]
    exact selectCandidate_selected

/-- Selection respects availability exactly when the session's assignment can be used or no
quarantine masks an origin that is not unhealthy. -/
theorem origin_selection_respects_availability :
    RespectsAvailability env now lb site session excluded
        (selectOrigin env now lb site session ip excluded).origin ↔
      AssignmentUsable env now lb site session excluded ∨
        ¬MaskedByQuarantine env now lb site excluded := by
  have hall : ∀ origin, origin ∈ allSelectable lb site excluded ↔
      origin ∈ origins lb site.id ∧ selectable excluded origin = true :=
    fun _ => List.mem_filter
  rcases @selectOrigin_cases env now lb site session ip excluded with
    ⟨origin, husable, haffinity, hsession, hmem, henabled, hexcluded, hwell, hselected⟩ |
    ⟨hunusable, hselected⟩
  · refine iff_of_true ⟨?_, ?_, ?_, ?_⟩ (.inl husable)
    · rintro other hother
      obtain rfl := Option.some.inj (hselected.symm.trans hother)
      exact ⟨hmem, henabled, hexcluded⟩
    · rintro other hother -
      obtain rfl := Option.some.inj (hselected.symm.trans hother)
      exact ⟨haffinity, hsession⟩
    · rw [hselected]
      exact ⟨fun h => (by cases h), fun h => absurd husable h.1⟩
    · rintro other hother hbad
      obtain rfl := Option.some.inj (hselected.symm.trans hother)
      exact absurd hbad hwell
  · rw [or_iff_right hunusable]
    constructor
    · intro h hmasked
      obtain ⟨hsome, hbad⟩ := finalCandidates_masked hmasked
      obtain ⟨-, -, -, other, hother, hopen, hwell⟩ := hmasked
      cases hresult : (selectOrigin env now lb site session ip excluded).origin with
      | none => exact hsome (hselected.none hresult)
      | some origin =>
          have horigin := hbad origin (hselected.mem origin hresult)
          exact hwell (h.unhealthy origin hresult horigin other hother hopen)
    · intro hunmasked
      have hopen : ∀ origin, (selectOrigin env now lb site session ip excluded).origin = some origin →
          origin ∈ origins lb site.id ∧ selectable excluded origin = true :=
        fun origin h => (hall origin).mp (mem_finalCandidates (hselected.mem origin h))
      refine ⟨fun origin h => ?_, fun origin h hdraining => ?_, ?_, fun origin h hbad => ?_⟩
      · obtain ⟨hmem, hselectable⟩ := hopen origin h
        simp only [selectable, Bool.and_eq_true, decide_eq_true_eq, Bool.not_eq_true'] at hselectable
        exact ⟨hmem, hselectable.1.1, hselectable.1.2⟩
      · obtain ⟨-, hselectable⟩ := hopen origin h
        simp [selectable, hdraining] at hselectable
      · constructor
        · intro hnone
          have hnil := finalCandidates_eq_nil.mp (hselected.none hnone)
          exact ⟨hunusable, fun origin hmem hopen => hnil origin ((hall origin).mpr ⟨hmem, hopen⟩)⟩
        · rintro ⟨-, hbad⟩
          have hnil : finalCandidates env now lb site excluded = [] :=
            finalCandidates_eq_nil.mpr fun origin horigin =>
              hbad origin ((hall origin).mp horigin).1 ((hall origin).mp horigin).2
          rw [hnil] at hselected
          exact hselected.nil
      · intro other hmem hother
        exact finalCandidates_unhealthy hunmasked (hselected.mem origin h) hbad other
          ((hall other).mpr ⟨hmem, hother⟩)

section Masked

/-- Origin `a` is unhealthy, `b` is healthy. -/
def twoOriginsEnv : BalancerEnv where
  health id := if id = ['a'] then .unhealthy else .healthy
  localeCompare left right := compareOfLessAndEq left right

def originRow (id : Char) : SiteOriginRecord :=
  { id := [id], enabled := 1, draining := 0, priority := 100, weight := 1, isPrimary := 0,
    createdAt := 0 }

/-- `b` is in quarantine until 15000. -/
def twoOrigins : LoadBalancer :=
  { originsBySite := OrderedMap.empty.set "s1".toList [originRow 'a', originRow 'b']
    roundRobinCursor := .empty
    smoothWeights := .empty
    passiveQuarantine := OrderedMap.empty.set ['b'] 15000 }

def monitoredSite : SiteRecord :=
  { id := "s1".toList, loadBalancingAlgorithm := none, loadBalancingAffinity := some 0,
    healthCheckFailureMode := some .monitor }

theorem unhealthy_origin_selected :
    ¬RespectsAvailability twoOriginsEnv 1000 twoOrigins monitoredSite none []
      (selectOrigin twoOriginsEnv 1000 twoOrigins monitoredSite none "203.0.113.9".toList []).origin := by
  intro h
  have hselected : (selectOrigin twoOriginsEnv 1000 twoOrigins monitoredSite none
      "203.0.113.9".toList []).origin = some (originRow 'a') := by decide +kernel
  have hbad := h.unhealthy (originRow 'a') hselected (by decide) (originRow 'b') (by decide) (by decide)
  exact absurd hbad (by decide)

end Masked

end BurrowGate.Balancer
