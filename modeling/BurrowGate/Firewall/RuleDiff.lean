import BurrowGate.Firewall.ProviderRules
import Mathlib.Data.List.Nodup
import Mathlib.Data.List.Perm.Basic
import Mathlib.Data.Option.Basic

/-!
# What a plan makes of the rules at a provider

The loop over the existing rules gives each of them a verdict. The rules that are kept and
those that are created carry the desired CIDRs. Two equal CIDRs in the list that are held by
no rule yet are created twice, since the list is not made distinct once an address and its
`/32` have become the same text.
-/

namespace BurrowGate.Firewall

/-! ## First appearances -/

section Distinct

variable {α : Type} [DecidableEq α] {seen xs ys : List α} {x : α}

/-- The first appearances of what is not in `seen`. -/
def distinctFrom (seen : List α) : List α → List α
  | [] => []
  | x :: xs => if seen.contains x then distinctFrom seen xs else x :: distinctFrom (x :: seen) xs

/-- The distinct elements in the order of their first appearance. -/
def distinct (xs : List α) : List α := distinctFrom [] xs

theorem mem_distinctFrom : x ∈ distinctFrom seen xs ↔ x ∈ xs ∧ x ∉ seen := by
  induction xs generalizing seen with
  | nil => simp [distinctFrom]
  | cons y ys ih =>
      rw [distinctFrom]
      by_cases hy : y ∈ seen
      · rw [if_pos (List.contains_iff_mem.mpr hy), ih, List.mem_cons]
        constructor
        · exact fun ⟨hmem, hseen⟩ => ⟨.inr hmem, hseen⟩
        · rintro ⟨rfl | hmem, hseen⟩
          · exact absurd hy hseen
          · exact ⟨hmem, hseen⟩
      · rw [if_neg (mt List.contains_iff_mem.mp hy), List.mem_cons, ih, List.mem_cons,
          List.mem_cons]
        by_cases hxy : x = y
        · simp [hxy, hy]
        · simp [hxy]

theorem nodup_distinctFrom (seen xs : List α) : (distinctFrom seen xs).Nodup := by
  induction xs generalizing seen with
  | nil => exact List.nodup_nil
  | cons y ys ih =>
      rw [distinctFrom]
      split
      · exact ih seen
      · rw [List.nodup_cons]
        refine ⟨?_, ih (y :: seen)⟩
        intro hmem
        exact (mem_distinctFrom.mp hmem).2 List.mem_cons_self

theorem length_distinctFrom_le (seen xs : List α) : (distinctFrom seen xs).length ≤ xs.length := by
  induction xs generalizing seen with
  | nil => exact Nat.le_refl 0
  | cons y ys ih =>
      rw [distinctFrom]
      split
      · exact (ih seen).trans (Nat.le_succ _)
      · exact Nat.succ_le_succ (ih (y :: seen))

theorem distinctFrom_prefix (seen xs ys : List α) :
    distinctFrom seen xs <+: distinctFrom seen (xs ++ ys) := by
  induction xs generalizing seen with
  | nil => exact List.nil_prefix
  | cons x xs ih =>
      rw [List.cons_append, distinctFrom, distinctFrom]
      split
      · exact ih seen
      · exact List.cons_prefix_cons.mpr ⟨rfl, ih (x :: seen)⟩

/-- What stands among the first `m` elements is one of the first `n` distinct ones. -/
theorem mem_take_distinct {m n : Nat} (h : m ≤ n) (hx : x ∈ xs.take m) :
    x ∈ (distinct xs).take n := by
  have hstart : distinct (xs.take m) <+: distinct xs := by
    have hall := distinctFrom_prefix [] (xs.take m) (xs.drop m)
    rwa [List.take_append_drop] at hall
  have hlength : (distinct (xs.take m)).length ≤ n := by
    have hle := length_distinctFrom_le [] (xs.take m)
    rw [List.length_take] at hle
    exact hle.trans ((Nat.min_le_left m _).trans h)
  have htake := List.prefix_take_iff.mpr ⟨hstart, hlength⟩
  apply htake.subset
  exact mem_distinctFrom.mpr ⟨hx, List.not_mem_nil⟩

theorem nodup_take_distinct (n : Nat) (xs : List α) : ((distinct xs).take n).Nodup :=
  (nodup_distinctFrom [] xs).sublist (List.take_sublist n _)

end Distinct

/-! ## Verdicts -/

inductive Verdict
  | foreign
  | kept (cidr : Cidr)
  | deleted
  deriving DecidableEq

def Verdict.cidr? : Verdict → Option Cidr
  | .kept cidr => some cidr
  | _ => none

section Plan

variable {ρ : Type} (kind : RuleKind ρ)

/-- What the loop decides about each rule; `kept` are the CIDRs kept before. -/
def classify (wanted : List Cidr) : List Cidr → List ρ → List (ρ × Verdict)
  | _, [] => []
  | kept, rule :: rules =>
      if !kind.managed rule then (rule, .foreign) :: classify wanted kept rules
      else
        match wantedCidr kind wanted kept rule with
        | some cidr => (rule, .kept cidr) :: classify wanted (kept ++ [cidr]) rules
        | none => (rule, .deleted) :: classify wanted kept rules

def keptCidrs (verdicts : List (ρ × Verdict)) : List Cidr := verdicts.filterMap (·.2.cidr?)

def slotsOf (p : Verdict → Bool) (verdicts : List (ρ × Verdict)) : List Int :=
  (verdicts.filter fun v => p v.2).map fun v => kind.slot v.1

variable {kind} {wanted kept : List Cidr} {rules : List ρ}

theorem map_fst_classify (kind : RuleKind ρ) (wanted kept : List Cidr) (rules : List ρ) :
    (classify kind wanted kept rules).map Prod.fst = rules := by
  induction rules generalizing kept with
  | nil => rfl
  | cons rule rules ih =>
      rw [classify]
      split
      · rw [List.map_cons, ih]
      · split <;> rw [List.map_cons, ih]

/-- The sets that the loop fills are read off the verdicts. -/
theorem foldl_scanRule (scan : Scan) :
    rules.foldl (scanRule kind wanted) scan =
      { keptCidrs := scan.keptCidrs ++ keptCidrs (classify kind wanted scan.keptCidrs rules)
        occupied := scan.occupied ++
          slotsOf kind (·.cidr?.isSome) (classify kind wanted scan.keptCidrs rules)
        toDelete := scan.toDelete ++
          slotsOf kind (· = .deleted) (classify kind wanted scan.keptCidrs rules) } := by
  induction rules generalizing scan with
  | nil => simp [classify, keptCidrs, slotsOf]
  | cons rule rules ih =>
      rw [List.foldl_cons, ih, scanRule, classify]
      by_cases hmanaged : (!kind.managed rule) = true
      · simp [hmanaged, keptCidrs, slotsOf, Verdict.cidr?]
      · rw [if_neg hmanaged, if_neg hmanaged]
        cases wantedCidr kind wanted scan.keptCidrs rule <;>
          simp [keptCidrs, slotsOf, Verdict.cidr?]

theorem wantedCidr_eq_some {rule : ρ} {cidr : Cidr} :
    wantedCidr kind wanted kept rule = some cidr ↔
      kind.cidr rule = some cidr ∧ cidr ≠ [] ∧ cidr ∈ wanted ∧ cidr ∉ kept := by
  rw [wantedCidr, Option.filter_eq_some_iff]
  simp [and_assoc]

theorem wantedCidr_eq_none {rule : ρ} :
    wantedCidr kind wanted kept rule = none ↔
      ∀ cidr, kind.cidr rule = some cidr → cidr ≠ [] → cidr ∈ wanted → cidr ∈ kept := by
  rw [Option.eq_none_iff_forall_ne_some]
  constructor
  · intro h cidr hcidr hne hwanted
    by_contra hkept
    exact h cidr (wantedCidr_eq_some.mpr ⟨hcidr, hne, hwanted, hkept⟩)
  · intro h cidr hsome
    obtain ⟨hcidr, hne, hwanted, hkept⟩ := wantedCidr_eq_some.mp hsome
    exact hkept (h cidr hcidr hne hwanted)

/-- A verdict says whether the rule is the adapter's own, and a kept rule has its CIDR. -/
theorem of_mem_classify {rule : ρ} {verdict : Verdict}
    (h : (rule, verdict) ∈ classify kind wanted kept rules) :
    (kind.managed rule = false ↔ verdict = .foreign) ∧
      ∀ cidr, verdict = .kept cidr → kind.cidr rule = some cidr ∧ cidr ∈ wanted := by
  induction rules generalizing kept with
  | nil => cases h
  | cons head rules ih =>
      rw [classify] at h
      by_cases hmanaged : kind.managed head = false
      · rw [hmanaged, Bool.not_false, if_pos rfl] at h
        rcases List.mem_cons.mp h with heq | h
        · cases heq
          exact ⟨iff_of_true hmanaged rfl, fun cidr hkept => (by cases hkept)⟩
        · exact ih h
      · rw [(Bool.not_eq_false _).mp hmanaged, Bool.not_true, if_neg Bool.false_ne_true] at h
        cases hcidr : wantedCidr kind wanted kept head with
        | none =>
            rw [hcidr] at h
            rcases List.mem_cons.mp h with heq | h
            · cases heq
              exact ⟨iff_of_false hmanaged (by decide), fun cidr hkept => (by cases hkept)⟩
            · exact ih h
        | some first =>
            rw [hcidr] at h
            rcases List.mem_cons.mp h with heq | h
            · cases heq
              refine ⟨iff_of_false hmanaged (by simp), ?_⟩
              intro cidr hkept
              obtain rfl := Verdict.kept.inj hkept
              obtain ⟨hhead, -, hwanted, -⟩ := wantedCidr_eq_some.mp hcidr
              exact ⟨hhead, hwanted⟩
            · exact ih h

/-- A kept CIDR is the one of a managed rule. -/
theorem exists_of_mem_keptCidrs {cidr : Cidr}
    (h : cidr ∈ keptCidrs (classify kind wanted kept rules)) :
    ∃ rule ∈ rules, kind.managed rule = true ∧ kind.cidr rule = some cidr := by
  obtain ⟨⟨rule, verdict⟩, hv, hcidr⟩ := List.mem_filterMap.mp h
  have hrule : rule ∈ rules := by
    rw [← map_fst_classify kind wanted kept rules]
    exact List.mem_map_of_mem hv
  obtain ⟨hmanaged, hkept⟩ := of_mem_classify hv
  cases verdict with
  | foreign => cases hcidr
  | deleted => cases hcidr
  | kept other =>
      obtain rfl := Option.some.inj hcidr
      refine ⟨rule, hrule, ?_, (hkept other rfl).1⟩
      exact (Bool.not_eq_false _).mp fun hfalse => (by cases hmanaged.mp hfalse)

/-- Every CIDR is kept once, and none that was kept before. -/
theorem nodup_keptCidrs (kind : RuleKind ρ) (wanted kept : List Cidr) (rules : List ρ) :
    (keptCidrs (classify kind wanted kept rules)).Nodup ∧
    ∀ cidr ∈ keptCidrs (classify kind wanted kept rules), cidr ∉ kept ∧ cidr ∈ wanted := by
  induction rules generalizing kept with
  | nil => exact ⟨List.nodup_nil, fun cidr h => (by cases h)⟩
  | cons rule rules ih =>
      rw [classify]
      split
      · exact ih kept
      cases hcidr : wantedCidr kind wanted kept rule with
      | none => exact ih kept
      | some first =>
          obtain ⟨-, -, hwanted, hkept⟩ := wantedCidr_eq_some.mp hcidr
          obtain ⟨hnodup, hfresh⟩ := ih (kept ++ [first])
          refine ⟨List.nodup_cons.mpr ⟨?_, hnodup⟩, ?_⟩
          · intro hmem
            exact (hfresh first hmem).1 (List.mem_append_right _ (List.mem_singleton_self _))
          · intro cidr hmem
            rcases List.mem_cons.mp hmem with rfl | hmem
            · exact ⟨hkept, hwanted⟩
            · obtain ⟨hnot, hin⟩ := hfresh cidr hmem
              exact ⟨fun h => hnot (List.mem_append_left _ h), hin⟩

/-- A desired CIDR that some managed rule has is kept. -/
theorem mem_keptCidrs {rule : ρ} {cidr : Cidr} (hmem : rule ∈ rules)
    (hmanaged : kind.managed rule = true) (hcidr : kind.cidr rule = some cidr) (hne : cidr ≠ [])
    (hwanted : cidr ∈ wanted) :
    cidr ∈ kept ∨ cidr ∈ keptCidrs (classify kind wanted kept rules) := by
  induction rules generalizing kept with
  | nil => cases hmem
  | cons head rules ih =>
      rw [classify]
      rcases List.mem_cons.mp hmem with rfl | hmem
      · rw [hmanaged, Bool.not_true, if_neg Bool.false_ne_true]
        cases hfirst : wantedCidr kind wanted kept rule with
        | none => exact .inl (wantedCidr_eq_none.mp hfirst cidr hcidr hne hwanted)
        | some first =>
            obtain ⟨heq, -, -, -⟩ := wantedCidr_eq_some.mp hfirst
            obtain rfl := Option.some.inj (hcidr.symm.trans heq)
            exact .inr List.mem_cons_self
      · split
        · exact ih hmem
        cases wantedCidr kind wanted kept head with
        | none => exact ih hmem
        | some first =>
            rcases @ih (kept ++ [first]) hmem with hkept | hkept
            · rcases List.mem_snoc.mp hkept with hkept | hkept
              · exact .inl hkept
              · rw [hkept]
                exact .inr List.mem_cons_self
            · exact .inr (List.mem_cons_of_mem _ hkept)

/-! ## The rules that stay -/

variable {existing : List ρ}

theorem mem_toDelete_iff (hslots : (existing.map kind.slot).Nodup) {v : ρ × Verdict}
    (hv : v ∈ classify kind wanted [] existing) :
    kind.slot v.1 ∈ slotsOf kind (· = .deleted) (classify kind wanted [] existing) ↔
      v.2 = .deleted := by
  have hnodup : ((classify kind wanted [] existing).map fun v => kind.slot v.1).Nodup := by
    have hslots' := hslots
    rw [← map_fst_classify kind wanted [] existing, List.map_map] at hslots'
    exact hslots'
  rw [slotsOf]
  constructor
  · intro hmem
    obtain ⟨u, hu, heq⟩ := List.mem_map.mp hmem
    obtain ⟨hu, hdeleted⟩ := List.mem_filter.mp hu
    obtain rfl := List.inj_on_of_nodup_map hnodup hu hv heq
    exact of_decide_eq_true hdeleted
  · intro hdeleted
    exact List.mem_map.mpr ⟨v, List.mem_filter.mpr ⟨hv, decide_eq_true hdeleted⟩, rfl⟩

theorem filter_remaining (hslots : (existing.map kind.slot).Nodup) :
    (existing.filter fun rule => !(slotsOf kind (· = .deleted)
        (classify kind wanted [] existing)).contains (kind.slot rule)) =
      ((classify kind wanted [] existing).filter fun v => v.2 ≠ .deleted).map Prod.fst := by
  conv_lhs => rw [← map_fst_classify kind wanted [] existing]
  rw [List.filter_map, map_fst_classify]
  congr 1
  apply List.filter_congr
  intro v hv
  have hiff := mem_toDelete_iff hslots hv
  by_cases hdeleted : v.2 = .deleted
  · simp [hdeleted, hiff.mpr hdeleted]
  · simp [hdeleted, mt hiff.mp hdeleted]

/-- The CIDRs of the adapter's own rules among those that stay. -/
theorem cidrs_of_verdicts {verdicts : List (ρ × Verdict)}
    (h : ∀ v ∈ verdicts, (kind.managed v.1 = false ↔ v.2 = .foreign) ∧
      ∀ cidr, v.2 = .kept cidr → kind.cidr v.1 = some cidr) :
    ((((verdicts.filter fun v => v.2 ≠ .deleted).map Prod.fst).filter kind.managed).map
      kind.cidr) = (keptCidrs verdicts).map some := by
  induction verdicts with
  | nil => rfl
  | cons v verdicts ih =>
      obtain ⟨rule, verdict⟩ := v
      obtain ⟨hmanaged, hkept⟩ := h _ List.mem_cons_self
      have hrest := ih fun v hv => h v (List.mem_cons_of_mem _ hv)
      cases verdict with
      | foreign =>
          have hfalse : kind.managed rule = false := hmanaged.mpr rfl
          simpa [keptCidrs, Verdict.cidr?, hfalse] using hrest
      | kept cidr =>
          have htrue : kind.managed rule = true :=
            (Bool.not_eq_false _).mp fun hfalse => (by cases hmanaged.mp hfalse)
          simpa [keptCidrs, Verdict.cidr?, htrue, hkept cidr rfl] using hrest
      | deleted => simpa [keptCidrs, Verdict.cidr?] using hrest

theorem foreign_of_verdicts {verdicts : List (ρ × Verdict)}
    (h : ∀ v ∈ verdicts, kind.managed v.1 = false ↔ v.2 = .foreign) :
    (((verdicts.filter fun v => v.2 ≠ .deleted).map Prod.fst).filter fun rule =>
      !kind.managed rule) = (verdicts.map Prod.fst).filter fun rule => !kind.managed rule := by
  induction verdicts with
  | nil => rfl
  | cons v verdicts ih =>
      obtain ⟨rule, verdict⟩ := v
      have hmanaged := h _ List.mem_cons_self
      have hrest := ih fun v hv => h v (List.mem_cons_of_mem _ hv)
      by_cases hfalse : kind.managed rule = false
      · obtain rfl : verdict = .foreign := hmanaged.mp hfalse
        simpa [hfalse] using hrest
      · have htrue : kind.managed rule = true := (Bool.not_eq_false _).mp hfalse
        by_cases hdeleted : verdict = .deleted <;> simpa [hdeleted, htrue] using hrest

/-! ## The rules that are created -/

theorem length_slotsOf_kept (kind : RuleKind ρ) (verdicts : List (ρ × Verdict)) :
    (slotsOf kind (·.cidr?.isSome) verdicts).length = (keptCidrs verdicts).length := by
  induction verdicts with
  | nil => rfl
  | cons v verdicts ih =>
      obtain ⟨rule, verdict⟩ := v
      cases verdict <;> simpa [slotsOf, keptCidrs, Verdict.cidr?] using ih

/-- The free slots that the plan draws from. -/
def freeSlots (kind : RuleKind ρ) (candidates : List Int) (wanted : List Cidr)
    (existing : List ρ) : List Int :=
  candidates.filter fun slot => !(reservedSlots kind existing ++
    slotsOf kind (·.cidr?.isSome) (classify kind wanted [] existing)).contains slot

/-- The capped CIDRs that no rule holds. -/
def missingCidrs (kind : RuleKind ρ) (wanted : List Cidr) (existing : List ρ) : List Cidr :=
  wanted.filter fun cidr => !(keptCidrs (classify kind wanted [] existing)).contains cidr

theorem length_missingCidrs_le {candidates : List Int} (hcandidates : candidates.Nodup)
    (hwanted : wanted.length ≤ candidates.length - (reservedSlots kind existing).length) :
    (missingCidrs kind wanted existing).length ≤
      (freeSlots kind candidates wanted existing).length := by
  have hkept : (keptCidrs (classify kind wanted [] existing)).length ≤
      (wanted.filter fun cidr =>
        (keptCidrs (classify kind wanted [] existing)).contains cidr).length := by
    obtain ⟨hnodup, hmem⟩ := nodup_keptCidrs kind wanted [] existing
    apply (List.subperm_of_subset hnodup _).length_le
    intro cidr hcidr
    exact List.mem_filter.mpr ⟨(hmem cidr hcidr).2, List.contains_iff_mem.mpr hcidr⟩
  have htaken : (candidates.filter fun slot => (reservedSlots kind existing ++
      slotsOf kind (·.cidr?.isSome) (classify kind wanted [] existing)).contains slot).length ≤
        (reservedSlots kind existing).length +
          (keptCidrs (classify kind wanted [] existing)).length := by
    rw [← length_slotsOf_kept kind, ← List.length_append]
    apply (List.subperm_of_subset (hcandidates.filter _) _).length_le
    intro slot hslot
    exact List.contains_iff_mem.mp (List.mem_filter.mp hslot).2
  have hsplit := wanted.length_eq_length_filter_add
    (fun cidr => (keptCidrs (classify kind wanted [] existing)).contains cidr)
  have hslots := candidates.length_eq_length_filter_add (fun slot =>
    (reservedSlots kind existing ++
      slotsOf kind (·.cidr?.isSome) (classify kind wanted [] existing)).contains slot)
  rw [missingCidrs, freeSlots]
  omega

theorem zipIdx_getElem?_eq_zip {α β : Type} {xs : List α} {ys : List β}
    (h : xs.length ≤ ys.length) :
    (xs.zipIdx.map fun (x, index) => (ys[index]?, x)) =
      (ys.zip xs).map fun (y, x) => (some y, x) := by
  apply List.ext_getElem
  · simp [h]
  · intro index hleft hright
    have hindex : index < xs.length := by simpa using hleft
    have hbound : index < ys.length := by omega
    simp [List.getElem?_eq_getElem hbound]

theorem map_fst_zip_sublist {α β : Type} (xs : List α) (ys : List β) :
    ((xs.zip ys).map Prod.fst).Sublist xs := by
  induction xs generalizing ys with
  | nil => exact List.Sublist.refl []
  | cons x xs ih =>
      cases ys with
      | nil => exact List.nil_sublist _
      | cons y ys => exact (ih ys).cons_cons x

variable {candidates : List Int} {desired : List Cidr}

/-- The plan in terms of the verdicts. -/
theorem computeRuleDiff_eq (hcandidates : candidates.Nodup) :
    computeRuleDiff kind candidates.length candidates desired existing =
      let wanted := cappedCidrs kind candidates.length desired existing
      { toDelete := slotsOf kind (· = .deleted) (classify kind wanted [] existing)
        toCreate := ((freeSlots kind candidates wanted existing).zip
          (missingCidrs kind wanted existing)).map fun (slot, cidr) => (some slot, cidr) } := by
  have hlength := @length_missingCidrs_le _ kind _ existing _ hcandidates
    (List.length_take_le (candidates.length - (reservedSlots kind existing).length) desired)
  rw [computeRuleDiff, scanRules, foldl_scanRule]
  simp only [List.nil_append, RuleDiff.mk.injEq, true_and]
  exact zipIdx_getElem?_eq_zip hlength

/-- What holds of the rules that an API makes of a call. -/
structure RuleKind.Creates (kind : RuleKind ρ) : Prop where
  slot : ∀ slot cidr, kind.slot (kind.create slot cidr) = slot
  cidr : ∀ slot cidr, kind.cidr (kind.create slot cidr) = some cidr
  managed : ∀ slot cidr, kind.managed (kind.create slot cidr) = true

/-- The rules that the calls of the plan create. -/
def createdRules (kind : RuleKind ρ) (candidates : List Int) (wanted : List Cidr)
    (existing : List ρ) : List ρ :=
  ((freeSlots kind candidates wanted existing).zip (missingCidrs kind wanted existing)).map
    fun (slot, cidr) => kind.create slot cidr

theorem applyDiff_eq (hcandidates : candidates.Nodup)
    (hslots : (existing.map kind.slot).Nodup) :
    applyDiff kind existing (computeRuleDiff kind candidates.length candidates desired existing) =
      let wanted := cappedCidrs kind candidates.length desired existing
      ((classify kind wanted [] existing).filter fun v => v.2 ≠ .deleted).map Prod.fst ++
        createdRules kind candidates wanted existing := by
  rw [computeRuleDiff_eq hcandidates, applyDiff, filter_remaining hslots, List.filterMap_map]
  dsimp only
  rw [createdRules]
  congr 1
  exact congrFun (List.filterMap_eq_map (f := fun p : Int × Cidr => kind.create p.1 p.2)) _

theorem length_zip_missing (hcandidates : candidates.Nodup) :
    let wanted := cappedCidrs kind candidates.length desired existing
    (missingCidrs kind wanted existing).length ≤
      (freeSlots kind candidates wanted existing).length :=
  length_missingCidrs_le hcandidates (List.length_take_le _ desired)

/-- The adapter's own rules after the calls have the kept CIDRs and the missing ones. -/
theorem cidrs_applyDiff (hcreates : kind.Creates) (hcandidates : candidates.Nodup)
    (hslots : (existing.map kind.slot).Nodup) :
    let wanted := cappedCidrs kind candidates.length desired existing
    ((applyDiff kind existing
        (computeRuleDiff kind candidates.length candidates desired existing)).filter
          kind.managed).map kind.cidr =
      (keptCidrs (classify kind wanted [] existing) ++ missingCidrs kind wanted existing).map
        some := by
  intro wanted
  have hcreated : (createdRules kind candidates wanted existing).filter kind.managed =
      createdRules kind candidates wanted existing := by
    rw [List.filter_eq_self]
    intro rule hrule
    obtain ⟨p, -, rfl⟩ := List.mem_map.mp hrule
    exact hcreates.managed p.1 p.2
  have hcidrs : (createdRules kind candidates wanted existing).map kind.cidr =
      (missingCidrs kind wanted existing).map some := by
    rw [createdRules, List.map_map]
    have hsnd : ((freeSlots kind candidates wanted existing).zip
        (missingCidrs kind wanted existing)).map Prod.snd = missingCidrs kind wanted existing :=
      List.map_snd_zip (length_zip_missing hcandidates)
    conv_rhs => rw [← hsnd, List.map_map]
    apply List.map_congr_left
    intro p _
    exact hcreates.cidr p.1 p.2
  rw [applyDiff_eq hcandidates hslots, List.filter_append, List.map_append, hcreated, hcidrs,
    List.map_append, cidrs_of_verdicts]
  intro v hv
  obtain ⟨hmanaged, hkept⟩ := @of_mem_classify _ _ _ _ _ v.1 v.2 hv
  exact ⟨hmanaged, fun cidr h => (hkept cidr h).1⟩

theorem foreign_applyDiff (hcreates : kind.Creates) (hcandidates : candidates.Nodup)
    (hslots : (existing.map kind.slot).Nodup) :
    (applyDiff kind existing
        (computeRuleDiff kind candidates.length candidates desired existing)).filter
          (fun rule => !kind.managed rule) = existing.filter fun rule => !kind.managed rule := by
  have hcreated : (createdRules kind candidates
      (cappedCidrs kind candidates.length desired existing) existing).filter
        (fun rule => !kind.managed rule) = [] := by
    rw [List.filter_eq_nil_iff]
    intro rule hrule
    obtain ⟨p, -, rfl⟩ := List.mem_map.mp hrule
    simp [hcreates.managed p.1 p.2]
  rw [applyDiff_eq hcandidates hslots, List.filter_append, hcreated, List.append_nil,
    foreign_of_verdicts, map_fst_classify]
  intro v hv
  exact (@of_mem_classify _ _ _ _ _ v.1 v.2 hv).1

/-! ## A second plan -/

theorem slotsOf_deleted_eq_nil {cidrs : List Cidr} (hnodup : cidrs.Nodup)
    (hheld : (rules.filter kind.managed).map kind.cidr = cidrs.map some)
    (hwanted : ∀ cidr ∈ cidrs, cidr ∈ wanted ∧ cidr ≠ [] ∧ cidr ∉ kept) :
    slotsOf kind (· = .deleted) (classify kind wanted kept rules) = [] := by
  induction rules generalizing kept cidrs with
  | nil => rfl
  | cons rule rules ih =>
      rw [classify]
      by_cases hmanaged : kind.managed rule = true
      · rw [List.filter_cons_of_pos hmanaged, List.map_cons] at hheld
        cases cidrs with
        | nil => cases hheld
        | cons cidr cidrs =>
            obtain ⟨hcidr, hrest⟩ := List.cons.inj hheld
            obtain ⟨hnot, hnodup⟩ := List.nodup_cons.mp hnodup
            obtain ⟨hfirst, hwanted⟩ := List.forall_mem_cons.mp hwanted
            have hkept := wantedCidr_eq_some.mpr ⟨hcidr, hfirst.2.1, hfirst.1, hfirst.2.2⟩
            rw [hmanaged, Bool.not_true, if_neg Bool.false_ne_true, hkept]
            have hlater := @ih (kept ++ [cidr]) cidrs hnodup hrest ?_
            · simpa [slotsOf] using hlater
            · intro next hnext
              obtain ⟨hin, hne, hfresh⟩ := hwanted next hnext
              refine ⟨hin, hne, ?_⟩
              intro hmem
              rcases List.mem_snoc.mp hmem with hmem | hmem
              · exact hfresh hmem
              · exact hnot (hmem ▸ hnext)
      · rw [List.filter_cons_of_neg hmanaged] at hheld
        rw [(Bool.not_eq_true _).mp hmanaged, Bool.not_false, if_pos rfl]
        have hlater := ih hnodup hheld hwanted
        simpa [slotsOf] using hlater

/-- A plan over rules that hold exactly the capped CIDRs, each once, is empty. -/
theorem computeRuleDiff_settled {cidrs : List Cidr} (hcandidates : candidates.Nodup)
    (hne : ∀ cidr ∈ desired, cidr ≠ []) (hnodup : cidrs.Nodup)
    (hheld : (existing.filter kind.managed).map kind.cidr = cidrs.map some)
    (hcapped : ∀ cidr, cidr ∈ cidrs ↔
      cidr ∈ cappedCidrs kind candidates.length desired existing) :
    computeRuleDiff kind candidates.length candidates desired existing = ⟨[], []⟩ := by
  have hnonempty : ∀ cidr ∈ cidrs, cidr ≠ [] := by
    intro cidr hcidr
    exact hne cidr (List.mem_of_mem_take ((hcapped cidr).mp hcidr))
  have hmissing : missingCidrs kind (cappedCidrs kind candidates.length desired existing)
      existing = [] := by
    rw [missingCidrs, List.filter_eq_nil_iff]
    intro cidr hcidr
    have hmem : some cidr ∈ (existing.filter kind.managed).map kind.cidr := by
      rw [hheld]
      exact List.mem_map_of_mem ((hcapped cidr).mpr hcidr)
    obtain ⟨rule, hrule, hsome⟩ := List.mem_map.mp hmem
    obtain ⟨hrule, hmanaged⟩ := List.mem_filter.mp hrule
    rcases @mem_keptCidrs _ _ _ [] _ _ _ hrule hmanaged hsome
      (hnonempty cidr ((hcapped cidr).mpr hcidr)) hcidr with hnil | hkept
    · cases hnil
    · simp [hkept]
  rw [computeRuleDiff_eq hcandidates]
  dsimp only
  rw [hmissing, List.zip_nil_right, slotsOf_deleted_eq_nil hnodup hheld]
  · rfl
  · intro cidr hcidr
    exact ⟨(hcapped cidr).mp hcidr, hnonempty cidr hcidr, List.not_mem_nil⟩

/-! ## One step -/

/-- The slots that no foreign rule holds. -/
def openSlots (kind : RuleKind ρ) (candidates : List Int) (existing : List ρ) : List Int :=
  candidates.filter fun slot =>
    !existing.any fun rule => !kind.managed rule && kind.slot rule = slot

/-- The adapter plans over the rules in its range, and its own rules are the managed ones there.
The plan touches nothing else, draws on free slots, and settles the rules. -/
structure Converges (kind : RuleKind ρ) (candidates : List Int) (range : ρ → Bool)
    (desired : List Cidr) (plan : List ρ → RuleDiff) (existing : List ρ) : Prop where
  deletes : ∀ slot ∈ (plan existing).toDelete,
    ∃ rule ∈ existing, range rule = true ∧ kind.managed rule = true ∧ kind.slot rule = slot
  creates : ∀ p ∈ (plan existing).toCreate, ∃ slot ∈ candidates, p.1 = some slot ∧
    ∀ rule ∈ existing, kind.slot rule = slot → slot ∈ (plan existing).toDelete
  nodup : ((plan existing).toCreate.map Prod.fst).Nodup
  untouched : ∀ rule ∈ existing, (range rule && kind.managed rule) = false →
    rule ∈ applyDiff kind existing (plan existing) ∧
      some (kind.slot rule) ∉ (plan existing).toCreate.map Prod.fst
  managed : (((applyDiff kind existing (plan existing)).filter fun rule =>
    range rule && kind.managed rule).map kind.cidr).Perm
      (((distinct desired).take (openSlots kind candidates existing).length).map some)
  settled : plan (applyDiff kind existing (plan existing)) = ⟨[], []⟩

/-- A CIDR that stands twice among the capped ones is held already, and the capped ones have the
first distinct CIDRs that there are slots for. -/
def SettlesAtOnce (kind : RuleKind ρ) (candidates : List Int) (range : ρ → Bool)
    (desired : List Cidr) (existing : List ρ) : Prop :=
  let capped := cappedCidrs kind candidates.length desired (existing.filter range)
  (∀ cidr, 2 ≤ capped.count cidr → ∃ rule ∈ existing, range rule = true ∧
    kind.managed rule = true ∧ kind.cidr rule = some cidr) ∧
    ∀ cidr ∈ (distinct desired).take (openSlots kind candidates existing).length, cidr ∈ capped

section Range

variable {range : ρ → Bool} (hrange : ∀ rule, kind.slot rule ∈ candidates → range rule = true)
include hrange

theorem length_capped_le (hcandidates : candidates.Nodup) :
    candidates.length - (reservedSlots kind (existing.filter range)).length ≤
      (openSlots kind candidates existing).length := by
  have htaken : (candidates.filter fun slot =>
      existing.any fun rule => !kind.managed rule && kind.slot rule = slot).length ≤
        (reservedSlots kind (existing.filter range)).length := by
    apply (List.subperm_of_subset (hcandidates.filter _) _).length_le
    intro slot hslot
    obtain ⟨hslot, hany⟩ := List.mem_filter.mp hslot
    obtain ⟨rule, hrule, hholds⟩ := List.any_eq_true.mp hany
    obtain ⟨hforeign, heq⟩ := Bool.and_eq_true_iff.mp hholds
    have hsame := of_decide_eq_true heq
    rw [reservedSlots, List.mem_dedup, ← hsame]
    refine List.mem_map_of_mem (List.mem_filter.mpr ⟨?_, hforeign⟩)
    exact List.mem_filter.mpr ⟨hrule, hrange rule (hsame ▸ hslot)⟩
  have hsplit := candidates.length_eq_length_filter_add (fun slot =>
    existing.any fun rule => !kind.managed rule && kind.slot rule = slot)
  rw [openSlots]
  omega

theorem filter_range_applyDiff (hcreates : kind.Creates) {diff : RuleDiff}
    (hcreated : ∀ p ∈ diff.toCreate, ∀ slot, p.1 = some slot → slot ∈ candidates) :
    (applyDiff kind existing diff).filter range =
      applyDiff kind (existing.filter range) diff := by
  rw [applyDiff, applyDiff, List.filter_append, List.filter_filter, List.filter_filter]
  congr 1
  · apply List.filter_congr
    intro rule _
    exact Bool.and_comm _ _
  · rw [List.filter_eq_self]
    intro rule hrule
    obtain ⟨p, hp, hsome⟩ := List.mem_filterMap.mp hrule
    obtain ⟨slot, hslot, rfl⟩ := Option.map_eq_some_iff.mp hsome
    apply hrange
    rw [hcreates.slot]
    exact hcreated p hp slot hslot

/-- The part of the plan that holds for every list: what it deletes, creates and leaves. -/
theorem plan_touches_own (hcandidates : candidates.Nodup) (plan : List ρ → RuleDiff)
    (hplan : ∀ rules, plan rules =
      computeRuleDiff kind candidates.length candidates desired (rules.filter range)) :
    (∀ slot ∈ (plan existing).toDelete,
        ∃ rule ∈ existing, range rule = true ∧ kind.managed rule = true ∧ kind.slot rule = slot) ∧
      (∀ p ∈ (plan existing).toCreate, ∃ slot ∈ candidates, p.1 = some slot ∧
        ∀ rule ∈ existing, kind.slot rule = slot → slot ∈ (plan existing).toDelete) ∧
        ((plan existing).toCreate.map Prod.fst).Nodup := by
  rw [hplan, computeRuleDiff_eq hcandidates]
  dsimp only
  generalize cappedCidrs kind candidates.length desired (existing.filter range) = wanted
  refine ⟨?_, ?_, ?_⟩
  · intro slot hslot
    obtain ⟨v, hv, rfl⟩ := List.mem_map.mp hslot
    obtain ⟨hv, hdeleted⟩ := List.mem_filter.mp hv
    have hmem : v.1 ∈ existing.filter range := by
      rw [← map_fst_classify kind wanted [] (existing.filter range)]
      exact List.mem_map_of_mem hv
    obtain ⟨hmem, hin⟩ := List.mem_filter.mp hmem
    refine ⟨v.1, hmem, hin, ?_, rfl⟩
    by_contra hnot
    have hforeign := (@of_mem_classify _ _ _ _ _ v.1 v.2 hv).1.mp
      ((Bool.not_eq_true _).mp hnot)
    rw [of_decide_eq_true hdeleted] at hforeign
    cases hforeign
  · intro p hp
    obtain ⟨⟨slot, cidr⟩, hpair, rfl⟩ := List.mem_map.mp hp
    obtain ⟨hcandidate, hfree⟩ := List.mem_filter.mp (List.of_mem_zip hpair).1
    refine ⟨slot, hcandidate, rfl, ?_⟩
    rintro rule hrule rfl
    have hmem : rule ∈ existing.filter range :=
      List.mem_filter.mpr ⟨hrule, hrange rule hcandidate⟩
    rw [← map_fst_classify kind wanted [] (existing.filter range)] at hmem
    obtain ⟨⟨rule, verdict⟩, hv, rfl⟩ := List.mem_map.mp hmem
    have hfree' :=
      List.contains_iff_mem.not.mp ((Bool.not_eq_true' _).mp hfree ▸ Bool.false_ne_true)
    rw [List.mem_append, not_or] at hfree'
    cases verdict with
    | foreign =>
        exfalso
        apply hfree'.1
        rw [reservedSlots, List.mem_dedup]
        refine List.mem_map_of_mem (List.mem_filter.mpr ⟨?_, ?_⟩)
        · exact List.mem_filter.mpr ⟨hrule, hrange rule hcandidate⟩
        · rw [(of_mem_classify hv).1.mpr rfl, Bool.not_false]
    | kept cidr =>
        exfalso
        exact hfree'.2 (List.mem_map.mpr ⟨_, List.mem_filter.mpr ⟨hv, rfl⟩, rfl⟩)
    | deleted => exact List.mem_map.mpr ⟨_, List.mem_filter.mpr ⟨hv, rfl⟩, rfl⟩
  · rw [List.map_map]
    have hfree : (freeSlots kind candidates wanted (existing.filter range)).Nodup :=
      hcandidates.filter _
    have hfirst := hfree.sublist (map_fst_zip_sublist _
      (missingCidrs kind wanted (existing.filter range)))
    rw [← List.nodup_map_iff (Option.some_injective Int), List.map_map] at hfirst
    exact hfirst

variable (hcreates : kind.Creates) (hcandidates : candidates.Nodup)
  (hslots : (existing.map kind.slot).Nodup)
include hcreates hcandidates hslots

/-- A plan settles the rules exactly where no missing CIDR is repeated among the capped ones and
the cap cuts off no distinct CIDR that there is a slot for. -/
theorem converges_iff (hne : ∀ cidr ∈ desired, cidr ≠ []) (plan : List ρ → RuleDiff)
    (hplan : ∀ rules, plan rules =
      computeRuleDiff kind candidates.length candidates desired (rules.filter range)) :
    Converges kind candidates range desired plan existing ↔
      SettlesAtOnce kind candidates range desired existing := by
  obtain ⟨hdeletes, hcreated, hnodup⟩ :=
    @plan_touches_own ρ kind existing candidates desired range hrange hcandidates plan hplan
  have hslots' : ((existing.filter range).map kind.slot).Nodup :=
    hslots.sublist (List.filter_sublist.map _)
  have hafter : (applyDiff kind existing (plan existing)).filter range =
      applyDiff kind (existing.filter range) (plan existing) := by
    apply filter_range_applyDiff hrange hcreates
    intro p hp slot hslot
    obtain ⟨free, hfree, hsome, -⟩ := hcreated p hp
    obtain rfl := Option.some.inj (hslot.symm.trans hsome)
    exact hfree
  have hheld := @cidrs_applyDiff ρ kind _ candidates desired hcreates hcandidates hslots'
  have hforeign := @foreign_applyDiff ρ kind _ candidates desired hcreates hcandidates hslots'
  rw [← hplan, ← hafter] at hheld hforeign
  have hmine : ((applyDiff kind existing (plan existing)).filter fun rule =>
      range rule && kind.managed rule) =
        ((applyDiff kind existing (plan existing)).filter range).filter kind.managed := by
    rw [List.filter_filter]
    apply List.filter_congr
    intro rule _
    exact Bool.and_comm _ _
  have hcap : candidates.length - (reservedSlots kind (existing.filter range)).length ≤
      (openSlots kind candidates existing).length := length_capped_le hrange hcandidates
  have hcappedEq : cappedCidrs kind candidates.length desired
      ((applyDiff kind existing (plan existing)).filter range) =
        cappedCidrs kind candidates.length desired (existing.filter range) := by
    rw [cappedCidrs, cappedCidrs, reservedSlots, reservedSlots, hforeign]
  dsimp only at hheld
  rw [SettlesAtOnce]
  have hdrawn : ∀ cidr ∈ cappedCidrs kind candidates.length desired (existing.filter range),
      cidr ∈ (distinct desired).take (openSlots kind candidates existing).length :=
    fun cidr hcidr => mem_take_distinct hcap hcidr
  generalize cappedCidrs kind candidates.length desired (existing.filter range) = capped at *
  obtain ⟨hkeptNodup, hkeptWanted⟩ := nodup_keptCidrs kind capped [] (existing.filter range)
  have hmissing : ∀ cidr, cidr ∈ missingCidrs kind capped (existing.filter range) ↔
      cidr ∈ capped ∧ cidr ∉ keptCidrs (classify kind capped [] (existing.filter range)) := by
    intro cidr
    rw [missingCidrs, List.mem_filter, Bool.not_eq_true', ← Bool.not_eq_true,
      List.contains_iff_mem]
  have hmem : ∀ cidr, cidr ∈ keptCidrs (classify kind capped [] (existing.filter range)) ++
      missingCidrs kind capped (existing.filter range) ↔ cidr ∈ capped := by
    intro cidr
    rw [List.mem_append, hmissing]
    constructor
    · rintro (hkept | ⟨hcapped, -⟩)
      · exact (hkeptWanted cidr hkept).2
      · exact hcapped
    · intro hcapped
      by_cases hkept : cidr ∈ keptCidrs (classify kind capped [] (existing.filter range))
      · exact .inl hkept
      · exact .inr ⟨hcapped, hkept⟩
  constructor
  · intro h
    have hperm := h.managed
    rw [hmine, hheld, List.map_perm_map_iff (Option.some_injective Cidr)] at hperm
    have hall := hperm.nodup_iff.mpr (nodup_take_distinct _ desired)
    constructor
    · intro cidr hcount
      by_contra hnone
      have hnot : cidr ∉ keptCidrs (classify kind capped [] (existing.filter range)) := by
        intro hkept
        obtain ⟨rule, hrule, hmanaged, hcidr⟩ := exists_of_mem_keptCidrs hkept
        obtain ⟨hrule, hin⟩ := List.mem_filter.mp hrule
        exact hnone ⟨rule, hrule, hin, hmanaged, hcidr⟩
      have hle := List.nodup_iff_count_le_one.mp (hall.sublist (List.sublist_append_right _ _)) cidr
      rw [missingCidrs, List.count_filter (by simpa using hnot)] at hle
      omega
    · intro cidr hcidr
      exact (hmem cidr).mp (hperm.mem_iff.mpr hcidr)
  · rintro ⟨hrepeated, hcut⟩
    have hmissingNodup : (missingCidrs kind capped (existing.filter range)).Nodup := by
      rw [List.nodup_iff_count_le_one]
      intro cidr
      by_contra hmany
      have hpos : 0 < (missingCidrs kind capped (existing.filter range)).count cidr := by omega
      obtain ⟨-, hnot⟩ := (hmissing cidr).mp (List.count_pos_iff.mp hpos)
      rw [missingCidrs, List.count_filter (by simpa using hnot)] at hmany
      obtain ⟨rule, hrule, hin, hmanaged, hcidr⟩ := hrepeated cidr (by omega)
      have hcapped : cidr ∈ capped := List.count_pos_iff.mp (by omega)
      have hdesired : cidr ≠ [] := by
        apply hne
        have htake := hdrawn cidr hcapped
        exact (mem_distinctFrom.mp (List.mem_of_mem_take htake)).1
      rcases @mem_keptCidrs _ _ _ [] _ _ _ (List.mem_filter.mpr ⟨hrule, hin⟩) hmanaged hcidr
        hdesired hcapped with hnil | hkept
      · cases hnil
      · exact hnot hkept
    have hall : (keptCidrs (classify kind capped [] (existing.filter range)) ++
        missingCidrs kind capped (existing.filter range)).Nodup := by
      apply hkeptNodup.append hmissingNodup
      intro cidr hkept hmiss
      exact ((hmissing cidr).mp hmiss).2 hkept
    constructor
    · exact hdeletes
    · exact hcreated
    · exact hnodup
    · intro rule hrule hother
      have hnotDeleted : kind.slot rule ∉ (plan existing).toDelete := by
        intro hslot
        obtain ⟨own, hown, hin, hmanaged, hsame⟩ := hdeletes _ hslot
        obtain rfl := List.inj_on_of_nodup_map hslots hown hrule hsame
        rw [hin, hmanaged] at hother
        cases hother
      constructor
      · rw [applyDiff]
        apply List.mem_append_left
        refine List.mem_filter.mpr ⟨hrule, ?_⟩
        simpa using hnotDeleted
      · intro hmemCreate
        obtain ⟨p, hp, hslot⟩ := List.mem_map.mp hmemCreate
        obtain ⟨slot, -, hsome, hfree⟩ := hcreated p hp
        obtain rfl := Option.some.inj (hslot.symm.trans hsome)
        exact hnotDeleted (hfree rule hrule rfl)
    · rw [hmine, hheld]
      apply List.Perm.map
      rw [List.perm_ext_iff_of_nodup hall (nodup_take_distinct _ desired)]
      intro cidr
      rw [hmem]
      exact ⟨hdrawn cidr, hcut cidr⟩
    · rw [hplan]
      apply computeRuleDiff_settled hcandidates hne hall hheld
      intro cidr
      rw [hcappedEq]
      exact hmem cidr

end Range

end Plan

/-! ## The two providers -/

theorem withPrefixLength_ne_nil (cidr : Cidr) : withPrefixLength cidr ≠ [] := by
  rw [withPrefixLength]
  split
  · rintro rfl
    rename_i hslash
    cases hslash
  · simp

theorem ne_nil_of_mem_normalized {bans : List Cidr} :
    ∀ cidr ∈ bans.map withPrefixLength, cidr ≠ [] := by
  intro cidr hcidr
  obtain ⟨ban, -, rfl⟩ := List.mem_map.mp hcidr
  exact withPrefixLength_ne_nil ban

theorem awsNaclKind_creates : awsNaclKind.Creates :=
  ⟨fun _ _ => rfl, fun _ _ => rfl, fun _ _ => rfl⟩

theorem ovhKind_creates : ovhKind.Creates := ⟨fun _ _ => rfl, fun _ _ => rfl, fun _ _ => rfl⟩

theorem nodup_reservedRuleNumbers (start : Int) : (reservedRuleNumbers start).Nodup := by
  apply List.nodup_range.map
  intro first second heq
  dsimp only at heq
  omega

theorem nodup_ovhSequences : ovhSequences.Nodup := by
  apply List.nodup_range.map
  intro first second heq
  dsimp only at heq
  omega

/-- For a list of bans in either notation, with the slots of the existing rules distinct. -/
theorem cloud_rules_converge (bans : List Cidr) :
    (∀ (entries : List AwsNaclExistingEntry) (start : Int), (entries.map (·.ruleNumber)).Nodup →
      (Converges awsNaclKind (reservedRuleNumbers start) (inRange start)
          (bans.map withPrefixLength)
          (fun existing => computeAwsNaclRuleDiff (bans.map withPrefixLength) existing start)
          entries ↔
        SettlesAtOnce awsNaclKind (reservedRuleNumbers start) (inRange start)
          (bans.map withPrefixLength) entries)) ∧
      ∀ rules : List OvhExistingRule, (rules.map (·.sequence)).Nodup →
        (Converges ovhKind ovhSequences (fun _ => true) (bans.map withPrefixLength)
            (computeOvhRuleDiff (bans.map withPrefixLength)) rules ↔
          SettlesAtOnce ovhKind ovhSequences (fun _ => true) (bans.map withPrefixLength)
            rules) := by
  constructor
  · intro entries start hslots
    apply converges_iff _ awsNaclKind_creates (nodup_reservedRuleNumbers start) hslots
      ne_nil_of_mem_normalized
    · intro existing
      rfl
    · intro entry hentry
      exact List.contains_iff_mem.mpr hentry
  · intro rules hslots
    apply converges_iff _ ovhKind_creates nodup_ovhSequences hslots ne_nil_of_mem_normalized
    · intro existing
      rw [List.filter_true]
      rfl
    · intro _ _
      rfl

/-- One ban that is held, one that is not, a rule to delete, and a rule of the administrator. -/
theorem cloud_rules_converge_example :
    Converges awsNaclKind (reservedRuleNumbers 1) (inRange 1)
      (["203.0.113.1", "203.0.113.0/28"].map fun ban => withPrefixLength ban.toList)
      (fun existing => computeAwsNaclRuleDiff
        (["203.0.113.1", "203.0.113.0/28"].map fun ban => withPrefixLength ban.toList) existing 1)
      [⟨1, .allow, "6".toList, some "0.0.0.0/0".toList, some 22, some 22⟩,
        awsNaclKind.create 2 "203.0.113.1/32".toList,
        awsNaclKind.create 3 "198.51.100.7/32".toList] := by
  apply ((cloud_rules_converge (["203.0.113.1", "203.0.113.0/28"].map String.toList)).1 _ 1
    (by decide)).mpr
  constructor
  · intro cidr hcount
    have hnodup : (cappedCidrs awsNaclKind (reservedRuleNumbers 1).length
        ((["203.0.113.1", "203.0.113.0/28"].map String.toList).map withPrefixLength)
        ([⟨1, .allow, "6".toList, some "0.0.0.0/0".toList, some 22, some 22⟩,
          awsNaclKind.create 2 "203.0.113.1/32".toList,
          awsNaclKind.create 3 "198.51.100.7/32".toList].filter (inRange 1))).Nodup := by
      decide
    have hone := List.nodup_iff_count_le_one.mp hnodup cidr
    omega
  · decide

/-- An address that is banned in both notations gets two rules, and the next plan deletes one. -/
theorem merged_bans_do_not_settle :
    ¬ Converges awsNaclKind (reservedRuleNumbers 1) (inRange 1)
      (["203.0.113.1", "203.0.113.1/32"].map fun ban => withPrefixLength ban.toList)
      (fun existing => computeAwsNaclRuleDiff
        (["203.0.113.1", "203.0.113.1/32"].map fun ban => withPrefixLength ban.toList) existing 1)
      [] := by
  intro h
  exact absurd h.settled (by decide)

end BurrowGate.Firewall
