import BurrowGate.CrowdSec.LookupRuns

/-!
# A stalled poll

Between two polls a decision leaves the store only after it has lapsed. One whose raw
form has neither a usable duration nor a usable date, or a duration that overflows, never
lapses.
-/

namespace BurrowGate.CrowdSec

open Js

section Current

variable (toUpperCase : List Char → List Char) (dateParse : List Char → Option ℚ)

/-- Of this place and id. -/
def isVersion (scope : Scope) (value : List Char) (id : Int) (d : CrowdSecDecision) : Bool :=
  locate toUpperCase d.scope d.value = locate toUpperCase scope value && d.id = id

/-- The decisions in force after `d` is loaded: it replaces its earlier version. -/
def supersede (current : List CrowdSecDecision) (d : CrowdSecDecision) : List CrowdSecDecision :=
  if located toUpperCase d then
    current.filter (!isVersion toUpperCase d.scope d.value d.id ·) ++ [d]
  else current

def withdraw (current : List CrowdSecDecision) (raw : RawCrowdSecDecision) :
    List CrowdSecDecision :=
  match normalizeScope raw.scope with
  | some scope =>
      if rawValue raw.value = [] then current
      else
        current.filter (!isVersion toUpperCase scope (rawValue raw.value) (decisionId raw.id) ·)
  | none => current

/-- Loaded, and neither replaced nor deleted since. -/
def currentAfter (current : List CrowdSecDecision) (a : StoreAction × ℚ) :
    List CrowdSecDecision :=
  match a.1 with
  | .applySnapshot raws fallback =>
      if raws.any (materializeThrows fallback) then current
      else (materializeAll dateParse raws a.2 fallback).foldl (supersede toUpperCase) []
  | .applyDelta added deleted fallback =>
      (materializeAll dateParse (addedOf added deleted fallback) a.2 fallback).foldl
        (supersede toUpperCase) ((deletedOf deleted).foldl (withdraw toUpperCase) current)
  | .sweepExpired => current
  | .lookup _ _ _ => current

def current (calls : List (StoreAction × ℚ)) : List CrowdSecDecision :=
  calls.foldl (currentAfter toUpperCase dateParse) []

def storeAfter (s : CrowdSecDecisionStore) (a : StoreAction × ℚ) : CrowdSecDecisionStore :=
  (called toUpperCase dateParse { store := s, now := a.2, held := [] } a).store

def storeOf (calls : List (StoreAction × ℚ)) : CrowdSecDecisionStore :=
  calls.foldl (storeAfter toUpperCase dateParse) .clear

def StoreAction.isPoll : StoreAction → Bool
  | .applySnapshot _ _ => true
  | .applyDelta _ _ _ => true
  | _ => false

/-- From some time on, whatever lookups and sweeps came before, no request gets a decision
and a sweep leaves nothing. -/
def AgesOut (s : CrowdSecDecisionStore) : Prop :=
  ∃ deadline : ℚ, ∀ calls : List (StoreAction × ℚ), (∀ a ∈ calls, a.1.isPoll = false) →
    ∀ now, deadline ≤ now →
      (∀ ip countryCode asn, (lookup toUpperCase
        (calls.foldl (storeAfter toUpperCase dateParse) s) ip countryCode asn now).2 = none) ∧
      (sweepExpired toUpperCase
        (calls.foldl (storeAfter toUpperCase dateParse) s) now).isEmpty = true ∧
      allDecisions (sweepExpired toUpperCase
        (calls.foldl (storeAfter toUpperCase dateParse) s) now) = []

end Current

/-- The duration or the date gave a finite time. -/
def Ends (d : CrowdSecDecision) : Prop := ∃ t : ℚ, d.expiresAt = some (finite t)

theorem lapsed_of_ends {d : CrowdSecDecision} {t now : ℚ} (h : d.expiresAt = some (finite t))
    (hle : t ≤ now) : lapsed now d = true := by
  unfold lapsed
  rw [h, Option.any_some, decide_eq_true_eq]
  exact WithBot.coe_le_coe.mpr (WithTop.coe_le_coe.mpr hle)

/-- What has no finite end and has not lapsed once never does. -/
theorem never_lapsed {d : CrowdSecDecision} (hends : ¬ Ends d) {accepted : ℚ}
    (hlive : lapsed accepted d = false) (now : ℚ) : lapsed now d = false := by
  unfold lapsed at hlive ⊢
  cases he : d.expiresAt with
  | none => rfl
  | some e =>
      rw [he, Option.any_some] at hlive
      rw [Option.any_some, decide_eq_false_iff_not]
      induction e using WithBot.recBotCoe with
      | bot =>
          have hle : (⊥ : Milliseconds) ≤ finite accepted := bot_le
          rw [decide_eq_true hle] at hlive
          cases hlive
      | coe e =>
          induction e using WithTop.recTopCoe with
          | top =>
              intro hle
              have htop := top_le_iff.mp (WithBot.coe_le_coe.mp hle)
              exact WithTop.coe_ne_top htop
          | coe t => exact absurd ⟨t, he⟩ hends

/-! ## The store and the current decisions -/

section Keeps

variable {toUpperCase : List Char → List Char} {dateParse : List Char → Option ℚ}
  {s : CrowdSecDecisionStore} {l : Location} {now : ℚ} {ds : List CrowdSecDecision}
  {d e : CrowdSecDecision} {scope : Scope} {value : List Char} {id : Int}

theorem isVersion_iff : isVersion toUpperCase scope value id e = true ↔
    locate toUpperCase e.scope e.value = locate toUpperCase scope value ∧ e.id = id := by
  simp [isVersion]

theorem mem_cell_insert (h : (cell s l).Tidy) :
    e ∈ (cell (insert toUpperCase s d) l).all ↔
      (e ∈ (cell s l).all ∧ ¬ (locate toUpperCase d.scope d.value = some l ∧ e.id = d.id)) ∨
        (locate toUpperCase d.scope d.value = some l ∧ e = d) := by
  cases hl : locate toUpperCase d.scope d.value with
  | none =>
      rw [insert_of_locate_none s hl]
      simp
  | some l' =>
      rw [cell_insert s hl l]
      by_cases heq : l = l'
      · subst heq
        rw [if_pos rfl, (h.insert_perm d).mem_iff, mem_accept]
        simp
      · rw [if_neg heq]
        simp [Ne.symm heq]

theorem tidy_insert (h : ∀ l, (cell s l).Tidy) (d : CrowdSecDecision) (l : Location) :
    (cell (insert toUpperCase s d) l).Tidy := by
  cases hl : locate toUpperCase d.scope d.value with
  | none =>
      rw [insert_of_locate_none s hl]
      exact h l
  | some l' =>
      rw [cell_insert s hl l]
      split
      · exact (h l').insert d
      · exact h l

theorem mem_cell_remove (h : (cell s l).Tidy) :
    e ∈ (cell (remove toUpperCase s scope value id) l).all ↔
      e ∈ (cell s l).all ∧ ¬ (locate toUpperCase scope value = some l ∧ e.id = id) := by
  cases hl : locate toUpperCase scope value with
  | none =>
      rw [remove_of_locate_none s hl]
      simp
  | some l' =>
      rw [cell_remove s hl l]
      by_cases heq : l = l'
      · subst heq
        rw [if_pos rfl, (h.remove_perm id).mem_iff, List.mem_filter]
        simp
      · rw [if_neg heq]
        simp [Ne.symm heq]

theorem tidy_remove (h : ∀ l, (cell s l).Tidy) (scope : Scope) (value : List Char) (id : Int)
    (l : Location) : (cell (remove toUpperCase s scope value id) l).Tidy := by
  cases hl : locate toUpperCase scope value with
  | none =>
      rw [remove_of_locate_none s hl]
      exact h l
  | some l' =>
      rw [cell_remove s hl l]
      split
      · exact (h l').remove id
      · exact h l

/-- The store holds current decisions only, and every one that never lapses. -/
structure Keeps (toUpperCase : List Char → List Char) (s : CrowdSecDecisionStore)
    (ds : List CrowdSecDecision) : Prop where
  tidy : ∀ l, (cell s l).Tidy
  placed : ∀ d ∈ ds, located toUpperCase d = true
  accepted : ∀ d ∈ ds, ∃ now, lapsed now d = false
  unique : ∀ d ∈ ds, ∀ e ∈ ds,
    locate toUpperCase e.scope e.value = locate toUpperCase d.scope d.value → e.id = d.id → e = d
  sub : ∀ l, ∀ d ∈ (cell s l).all, d ∈ ds ∧ locate toUpperCase d.scope d.value = some l
  keep : ∀ d ∈ ds, (∀ now, lapsed now d = false) →
    ∀ l, locate toUpperCase d.scope d.value = some l → d ∈ (cell s l).all

theorem Keeps.clear : Keeps toUpperCase .clear [] := by
  refine ⟨fun l => ⟨?_, fun _ => rfl⟩, ?_, ?_, ?_, ?_, ?_⟩ <;> simp [Cell.all]

theorem Keeps.insert (h : Keeps toUpperCase s ds) (hd : ∃ now, lapsed now d = false) :
    Keeps toUpperCase (insert toUpperCase s d) (supersede toUpperCase ds d) := by
  unfold supersede
  by_cases hplaced : located toUpperCase d = true
  · rw [if_pos hplaced]
    have hmem : ∀ e, e ∈ ds.filter (!isVersion toUpperCase d.scope d.value d.id ·) ++ [d] ↔
        (e ∈ ds ∧ ¬ (locate toUpperCase e.scope e.value = locate toUpperCase d.scope d.value ∧
          e.id = d.id)) ∨ e = d := by
      intro e
      rw [List.mem_append, List.mem_filter, List.mem_singleton, Bool.not_eq_true',
        ← Bool.not_eq_true, isVersion_iff]
    refine ⟨tidy_insert h.tidy d, fun e he => ?_, fun e he => ?_, fun e he e' he' => ?_,
      fun l e he => ?_, fun e he hnever l hl => ?_⟩
    · rcases (hmem e).mp he with ⟨hin, -⟩ | rfl
      · exact h.placed e hin
      · exact hplaced
    · rcases (hmem e).mp he with ⟨hin, -⟩ | rfl
      · exact h.accepted e hin
      · exact hd
    · intro hlocate hid
      rcases (hmem e).mp he with ⟨hin, hother⟩ | rfl
      · rcases (hmem e').mp he' with ⟨hin', -⟩ | rfl
        · exact h.unique e hin e' hin' hlocate hid
        · exact absurd ⟨hlocate.symm, hid.symm⟩ hother
      · rcases (hmem e').mp he' with ⟨-, hother⟩ | rfl
        · exact absurd ⟨hlocate, hid⟩ hother
        · rfl
    · rcases (mem_cell_insert (h.tidy l)).mp he with ⟨hin, hother⟩ | ⟨hl, rfl⟩
      · obtain ⟨hds, hl⟩ := h.sub l e hin
        refine ⟨(hmem e).mpr (.inl ⟨hds, fun hsame => hother ⟨?_, hsame.2⟩⟩), hl⟩
        rw [← hsame.1, hl]
      · exact ⟨(hmem e).mpr (.inr rfl), hl⟩
    · refine (mem_cell_insert (h.tidy l)).mpr ?_
      rcases (hmem e).mp he with ⟨hin, hother⟩ | rfl
      · refine .inl ⟨h.keep e hin hnever l hl, fun hsame => hother ⟨?_, hsame.2⟩⟩
        rw [hl, hsame.1]
      · exact .inr ⟨hl, rfl⟩
  · rw [if_neg hplaced]
    have hnone : locate toUpperCase d.scope d.value = none := by simpa [located] using hplaced
    rw [insert_of_locate_none s hnone]
    exact h

theorem Keeps.remove (h : Keeps toUpperCase s ds) (scope : Scope) (value : List Char) (id : Int) :
    Keeps toUpperCase (remove toUpperCase s scope value id)
      (ds.filter (!isVersion toUpperCase scope value id ·)) := by
  have hmem : ∀ e, e ∈ ds.filter (!isVersion toUpperCase scope value id ·) ↔
      e ∈ ds ∧ ¬ (locate toUpperCase e.scope e.value = locate toUpperCase scope value ∧
        e.id = id) := by
    intro e
    rw [List.mem_filter, Bool.not_eq_true', ← Bool.not_eq_true, isVersion_iff]
  refine ⟨tidy_remove h.tidy scope value id, fun e he => h.placed e ((hmem e).mp he).1,
    fun e he => h.accepted e ((hmem e).mp he).1,
    fun e he e' he' => h.unique e ((hmem e).mp he).1 e' ((hmem e').mp he').1,
    fun l e he => ?_, fun e he hnever l hl => ?_⟩
  · obtain ⟨hin, hother⟩ := (mem_cell_remove (h.tidy l)).mp he
    obtain ⟨hds, hl⟩ := h.sub l e hin
    refine ⟨(hmem e).mpr ⟨hds, fun hsame => hother ⟨?_, hsame.2⟩⟩, hl⟩
    rw [← hsame.1, hl]
  · obtain ⟨hin, hother⟩ := (hmem e).mp he
    refine (mem_cell_remove (h.tidy l)).mpr ⟨h.keep e hin hnever l hl, fun hsame => ?_⟩
    exact hother ⟨by rw [hl, hsame.1], hsame.2⟩

/-- Evicting a lapsed decision loses none that never lapses. -/
theorem Keeps.evict (h : Keeps toUpperCase s ds) (hd : d ∈ ds) (hlapsed : lapsed now d = true) :
    Keeps toUpperCase (CrowdSec.remove toUpperCase s d.scope d.value d.id) ds := by
  refine ⟨tidy_remove h.tidy _ _ _, h.placed, h.accepted, h.unique, fun l e he => ?_,
    fun e he hnever l hl => ?_⟩
  · exact h.sub l e ((mem_cell_remove (h.tidy l)).mp he).1
  · refine (mem_cell_remove (h.tidy l)).mpr ⟨h.keep e he hnever l hl, fun hsame => ?_⟩
    obtain rfl := h.unique d hd e he (by rw [hl, hsame.1]) hsame.2
    rw [hnever now] at hlapsed
    cases hlapsed

theorem Keeps.consultAt (h : Keeps toUpperCase s ds) (l : Location) :
    Keeps toUpperCase (consultAt toUpperCase s l now).1 ds := by
  unfold CrowdSec.consultAt
  cases hread : read s l with
  | none => exact h
  | some hit =>
      dsimp only
      unfold live
      have hcell : hit ∈ (cell s l).all := Cell.mem_all.mpr (.inl hread)
      by_cases hlapsed : lapsed now hit = true
      · rw [if_pos hlapsed]
        exact h.evict (h.sub l hit hcell).1 hlapsed
      · rw [if_neg hlapsed]
        exact h

theorem Keeps.consult (h : Keeps toUpperCase s ds) (ls : List Location) :
    Keeps toUpperCase (consult toUpperCase now s ls).1 ds := by
  induction ls generalizing s with
  | nil => exact h
  | cons l rest ih =>
      have hafter : Keeps toUpperCase (CrowdSec.consultAt toUpperCase s l now).1 ds :=
        h.consultAt l
      unfold CrowdSec.consult
      cases hr : (CrowdSec.consultAt toUpperCase s l now).2 with
      | none => simpa only [hr] using ih hafter
      | some hit => simpa only [hr] using hafter

theorem Keeps.lookup (h : Keeps toUpperCase s ds) (ip : List Char)
    (countryCode : Option (List Char)) (asn : Option Nat) :
    Keeps toUpperCase (lookup toUpperCase s ip countryCode asn now).1 ds := by
  unfold CrowdSec.lookup
  split
  · exact h
  · exact h.consult _

theorem Keeps.sweepExpired (h : Keeps toUpperCase s ds) :
    Keeps toUpperCase (sweepExpired toUpperCase s now) ds := by
  have hexpired : ∀ d ∈ (allDecisions s).filter (lapsed now), d ∈ ds ∧ lapsed now d = true := by
    intro d hd
    obtain ⟨hin, hlapsed⟩ := List.mem_filter.mp hd
    obtain ⟨l, hcell⟩ := mem_cell_of_mem_allDecisions hin
    exact ⟨(h.sub l d hcell).1, hlapsed⟩
  unfold CrowdSec.sweepExpired
  generalize (allDecisions s).filter (lapsed now) = expired at hexpired
  induction expired generalizing s with
  | nil => exact h
  | cons d expired ih =>
      obtain ⟨hin, hlapsed⟩ := hexpired d List.mem_cons_self
      exact ih (h.evict hin hlapsed) fun e he => hexpired e (List.mem_cons_of_mem _ he)

theorem Keeps.insertAll {added : List CrowdSecDecision} (h : Keeps toUpperCase s ds)
    (hadded : ∀ d ∈ added, ∃ now, lapsed now d = false) :
    Keeps toUpperCase (insertAll toUpperCase s added) (added.foldl (supersede toUpperCase) ds) := by
  induction added generalizing s ds with
  | nil => exact h
  | cons d added ih =>
      exact ih (h.insert (hadded d List.mem_cons_self))
        fun e he => hadded e (List.mem_cons_of_mem _ he)

theorem Keeps.removeRaws (h : Keeps toUpperCase s ds) (deleted : List RawCrowdSecDecision) :
    Keeps toUpperCase (deleted.foldl (removeRaw toUpperCase) s)
      (deleted.foldl (withdraw toUpperCase) ds) := by
  induction deleted generalizing s ds with
  | nil => exact h
  | cons raw deleted ih =>
      refine ih ?_
      unfold removeRaw withdraw
      cases normalizeScope raw.scope with
      | none => exact h
      | some scope =>
          dsimp only
          split
          · exact h
          · exact h.remove _ _ _

theorem materializeAll_live {raws : List RawCrowdSecDecision} {fallback : Option Remediation} :
    ∀ d ∈ materializeAll dateParse raws now fallback, ∃ now, lapsed now d = false := by
  intro d hd
  obtain ⟨raw, -, hmat⟩ := List.mem_filterMap.mp hd
  exact ⟨now, (materialize_spec hmat).2.2.2⟩

theorem Keeps.storeAfter (h : Keeps toUpperCase s ds) (a : StoreAction × ℚ) :
    Keeps toUpperCase (storeAfter toUpperCase dateParse s a)
      (currentAfter toUpperCase dateParse ds a) := by
  obtain ⟨action, now⟩ := a
  cases action with
  | applySnapshot raws fallback =>
      dsimp only [CrowdSec.storeAfter, called, applySnapshot, currentAfter]
      by_cases hthrows : raws.any (materializeThrows fallback) = true
      · rw [if_pos hthrows, if_pos hthrows]
        exact h
      · rw [if_neg hthrows, if_neg hthrows]
        exact Keeps.clear.insertAll materializeAll_live
  | applyDelta added deleted fallback => exact (h.removeRaws _).insertAll materializeAll_live
  | sweepExpired => exact h.sweepExpired
  | lookup ip countryCode asn => exact h.lookup ip countryCode asn

theorem Keeps.run (h : Keeps toUpperCase s ds) (calls : List (StoreAction × ℚ)) :
    Keeps toUpperCase (calls.foldl (CrowdSec.storeAfter toUpperCase dateParse) s)
      (calls.foldl (currentAfter toUpperCase dateParse) ds) := by
  induction calls generalizing s ds with
  | nil => exact h
  | cons a calls ih => exact ih (h.storeAfter a)

theorem keeps_current (calls : List (StoreAction × ℚ)) :
    Keeps toUpperCase (storeOf toUpperCase dateParse calls)
      (current toUpperCase dateParse calls) :=
  Keeps.clear.run calls

theorem currentAfter_idle {calls : List (StoreAction × ℚ)}
    (hidle : ∀ a ∈ calls, a.1.isPoll = false) (ds : List CrowdSecDecision) :
    calls.foldl (currentAfter toUpperCase dateParse) ds = ds := by
  induction calls with
  | nil => rfl
  | cons a calls ih =>
      have hstay : currentAfter toUpperCase dateParse ds a = ds := by
        have hpoll := hidle a List.mem_cons_self
        obtain ⟨action, now⟩ := a
        cases action with
        | applySnapshot raws fallback => cases hpoll
        | applyDelta added deleted fallback => cases hpoll
        | sweepExpired => rfl
        | lookup ip countryCode asn => rfl
      rw [List.foldl_cons, hstay]
      exact ih fun b hb => hidle b (List.mem_cons_of_mem _ hb)

/-! ## When everything has lapsed -/

def AllLapsed (s : CrowdSecDecisionStore) (now : ℚ) : Prop :=
  ∀ l, ∀ d ∈ (cell s l).all, lapsed now d = true

theorem mem_allDecisions (hd : d ∈ (cell s l).all) : d ∈ allDecisions s := by
  rcases Cell.mem_all.mp hd with hvisible | hparked
  · refine List.mem_append_left _ (List.mem_map.mpr ⟨⟨l, d⟩, ?_, rfl⟩)
    exact AList.mem_lookup_iff.mp hvisible
  · refine List.mem_append_right _ (List.mem_flatten.mpr ?_)
    replace hparked : d ∈ (s.shadowed.lookup l).getD [] := hparked
    cases hlookup : s.shadowed.lookup l with
    | none =>
        rw [hlookup] at hparked
        cases hparked
    | some ps =>
        rw [hlookup] at hparked
        exact ⟨ps, List.mem_map.mpr ⟨⟨l, ps⟩, AList.mem_lookup_iff.mp hlookup, rfl⟩, hparked⟩

theorem AllLapsed.remove (htidy : ∀ l, (cell s l).Tidy) (h : AllLapsed s now) :
    AllLapsed (remove toUpperCase s scope value id) now :=
  fun l e he => h l e ((mem_cell_remove (htidy l)).mp he).1

/-- The lapsed decision is evicted, and the one promoted in its place has lapsed too. -/
theorem consultAt_of_allLapsed (htidy : ∀ l, (cell s l).Tidy) (h : AllLapsed s now)
    (l : Location) : (consultAt toUpperCase s l now).2 = none ∧
      (∀ l', (cell (consultAt toUpperCase s l now).1 l').Tidy) ∧
        AllLapsed (consultAt toUpperCase s l now).1 now := by
  unfold consultAt
  cases hread : read s l with
  | none => exact ⟨rfl, htidy, h⟩
  | some hit =>
      have hlapsed := h l hit (Cell.mem_all.mpr (.inl hread))
      dsimp only
      unfold live
      rw [if_pos hlapsed]
      have hrest : AllLapsed (CrowdSec.remove toUpperCase s hit.scope hit.value hit.id) now :=
        h.remove htidy
      refine ⟨?_, tidy_remove htidy _ _ _, hrest⟩
      dsimp only
      rw [Option.filter_eq_none_iff]
      intro promoted hpromoted
      have hagain := hrest l promoted (Cell.mem_all.mpr (.inl hpromoted))
      rw [hagain]
      decide

theorem consult_of_allLapsed (htidy : ∀ l, (cell s l).Tidy) (h : AllLapsed s now)
    (ls : List Location) : (consult toUpperCase now s ls).2 = none := by
  induction ls generalizing s with
  | nil => rfl
  | cons l rest ih =>
      obtain ⟨hnone, htidy', h'⟩ := @consultAt_of_allLapsed toUpperCase s now htidy h l
      have hrest := ih htidy' h'
      rw [consult, hnone]
      exact hrest

theorem lookup_of_allLapsed (htidy : ∀ l, (cell s l).Tidy) (h : AllLapsed s now) (ip : List Char)
    (countryCode : Option (List Char)) (asn : Option Nat) :
    (lookup toUpperCase s ip countryCode asn now).2 = none := by
  unfold lookup
  split
  · rfl
  · exact consult_of_allLapsed htidy h _

/-- After a removal of each of these no version of them is left. -/
theorem mem_cell_foldl_remove {gone : List CrowdSecDecision} (htidy : ∀ l, (cell s l).Tidy)
    (he : e ∈ (cell (gone.foldl
      (fun s d => remove toUpperCase s d.scope d.value d.id) s) l).all) :
    e ∈ (cell s l).all ∧
      ∀ d ∈ gone, ¬ (locate toUpperCase d.scope d.value = some l ∧ e.id = d.id) := by
  induction gone generalizing s with
  | nil => exact ⟨he, fun d hd => (by cases hd)⟩
  | cons d gone ih =>
      obtain ⟨hin, hrest⟩ := ih (tidy_remove htidy d.scope d.value d.id) he
      obtain ⟨hin, hfirst⟩ := (mem_cell_remove (htidy l)).mp hin
      exact ⟨hin, List.forall_mem_cons.mpr ⟨hfirst, hrest⟩⟩

theorem sweepExpired_of_allLapsed (h : Keeps toUpperCase s ds) (hall : AllLapsed s now) :
    allDecisions (sweepExpired toUpperCase s now) = [] := by
  refine List.eq_nil_iff_forall_not_mem.mpr fun e he => ?_
  obtain ⟨l, hcell⟩ := mem_cell_of_mem_allDecisions he
  obtain ⟨hin, hgone⟩ := mem_cell_foldl_remove h.tidy hcell
  have hexpired : e ∈ (allDecisions s).filter (lapsed now) :=
    List.mem_filter.mpr ⟨mem_allDecisions hin, hall l e hin⟩
  exact hgone e hexpired ⟨(h.sub l e hin).2, rfl⟩

/-- A time by which all of them have lapsed. -/
theorem exists_deadline (h : ∀ d ∈ ds, Ends d) :
    ∃ deadline : ℚ, ∀ now, deadline ≤ now → ∀ d ∈ ds, lapsed now d = true := by
  induction ds with
  | nil => exact ⟨0, fun now _ d hd => (by cases hd)⟩
  | cons d ds ih =>
      obtain ⟨rest, hrest⟩ := ih fun e he => h e (List.mem_cons_of_mem _ he)
      obtain ⟨t, ht⟩ := h d List.mem_cons_self
      refine ⟨max t rest, fun now hnow => List.forall_mem_cons.mpr ⟨?_, ?_⟩⟩
      · exact lapsed_of_ends ht ((le_max_left t rest).trans hnow)
      · exact hrest now ((le_max_right t rest).trans hnow)

theorem Keeps.agesOut (h : Keeps toUpperCase s ds) (hends : ∀ d ∈ ds, Ends d) :
    AgesOut toUpperCase dateParse s := by
  obtain ⟨deadline, hlapsed⟩ := exists_deadline hends
  refine ⟨deadline, fun calls hidle now hnow => ?_⟩
  have hkeeps : Keeps toUpperCase (calls.foldl (CrowdSec.storeAfter toUpperCase dateParse) s)
      (calls.foldl (currentAfter toUpperCase dateParse) ds) := h.run calls
  rw [currentAfter_idle hidle] at hkeeps
  have hall : AllLapsed (calls.foldl (CrowdSec.storeAfter toUpperCase dateParse) s) now :=
    fun l d hd => hlapsed now hnow d (hkeeps.sub l d hd).1
  have hempty := sweepExpired_of_allLapsed hkeeps hall
  refine ⟨lookup_of_allLapsed hkeeps.tidy hall, ?_, hempty⟩
  have hentries := (List.append_eq_nil_iff.mp hempty).1
  unfold CrowdSecDecisionStore.isEmpty AList.keys List.keys
  rw [List.map_eq_nil_iff.mp hentries]
  rfl

/-- A decision that never lapses stays through every sweep. -/
theorem Keeps.not_agesOut (h : Keeps toUpperCase s ds) (hd : d ∈ ds) (hends : ¬ Ends d) :
    ¬ AgesOut toUpperCase dateParse s := by
  rintro ⟨deadline, hages⟩
  obtain ⟨-, -, hempty⟩ := hages [] (fun a ha => (by cases ha)) deadline le_rfl
  obtain ⟨accepted, hlive⟩ := h.accepted d hd
  obtain ⟨l, hl⟩ := Option.isSome_iff_exists.mp (h.placed d hd)
  have hkept : Keeps toUpperCase (CrowdSec.sweepExpired toUpperCase s deadline) ds := h.sweepExpired
  have hin := mem_allDecisions (hkept.keep d hd (never_lapsed hends hlive) l hl)
  replace hempty : allDecisions (CrowdSec.sweepExpired toUpperCase s deadline) = [] := hempty
  rw [hempty] at hin
  cases hin

end Keeps

/-- A stalled poll ages out exactly when every decision in force has a finite end. -/
theorem ages_out (toUpperCase : List Char → List Char) (dateParse : List Char → Option ℚ)
    (calls : List (StoreAction × ℚ)) :
    AgesOut toUpperCase dateParse (storeOf toUpperCase dateParse calls) ↔
      ∀ d ∈ current toUpperCase dateParse calls, Ends d := by
  have hkeeps : Keeps toUpperCase (storeOf toUpperCase dateParse calls)
      (current toUpperCase dateParse calls) := keeps_current calls
  constructor
  · intro hages d hd
    by_contra hends
    exact hkeeps.not_agesOut hd hends hages
  · exact hkeeps.agesOut

/-! ## A duration that no parser reads -/

/-- The decision of one snapshot, loaded at time 0. -/
def malformedSnapshot : List (StoreAction × ℚ) :=
  [(.applySnapshot [addressDecision "1" "ban" "???"] (some .ban), 0)]

theorem malformed_never_ages_out :
    ¬ AgesOut asciiUpper noDate (storeOf asciiUpper noDate malformedSnapshot) := by
  have hmalformed : (current asciiUpper noDate malformedSnapshot).any
      (fun d => d.expiresAt.isNone) = true := by
    decide +kernel
  obtain ⟨d, hd, hnone⟩ := List.any_eq_true.mp hmalformed
  refine (keeps_current malformedSnapshot).not_agesOut hd ?_
  rintro ⟨t, ht⟩
  rw [ht] at hnone
  cases hnone

end BurrowGate.CrowdSec
