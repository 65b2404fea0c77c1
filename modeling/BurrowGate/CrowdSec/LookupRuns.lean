import BurrowGate.CrowdSec.Lookup
import Mathlib.Tactic.NormNum

/-!
# Runs of the decision store

The state carries, beside the store, the time and the decisions held so far. An
id comes with one scope and value throughout.
-/

namespace BurrowGate.CrowdSec

open Js
open Lib.Run

structure StoreState where
  store : CrowdSecDecisionStore
  now : ℚ
  held : List CrowdSecDecision

inductive StoreAction
  | applySnapshot (raws : List RawCrowdSecDecision) (unknownFallback : Option Remediation)
  | applyDelta (added deleted : List RawCrowdSecDecision) (unknownFallback : Option Remediation)
  | sweepExpired
  | lookup (ip : List Char) (countryCode : Option (List Char)) (asn : Option Nat)

/-- Deleted by id, whatever scope and value the deletion names. -/
def deleteIds (held : List CrowdSecDecision) (deleted : List RawCrowdSecDecision) :
    List CrowdSecDecision :=
  deleted.foldl (fun held raw => held.filter (·.id ≠ decisionId raw.id)) held

section Runs

variable (toUpperCase : List Char → List Char) (dateParse : List Char → Option ℚ)

/-- The state after a call at `a.2`. -/
def called (s : StoreState) (a : StoreAction × ℚ) : StoreState :=
  let now := a.2
  match a.1 with
  | .applySnapshot raws fallback =>
      match applySnapshot toUpperCase dateParse raws now fallback with
      | none => { s with now }
      | some store =>
          { now, store
            held := acceptAll toUpperCase [] (materializeAll dateParse raws now fallback) }
  | .applyDelta added deleted fallback =>
      { now
        store := applyDelta toUpperCase dateParse s.store added deleted now fallback
        held := acceptAll toUpperCase (deleteIds s.held (deletedOf deleted))
          (materializeAll dateParse (addedOf added deleted fallback) now fallback) }
  | .sweepExpired => { now, store := sweepExpired toUpperCase s.store now, held := s.held }
  | .lookup ip countryCode asn =>
      { now, store := (lookup toUpperCase s.store ip countryCode asn now).1, held := s.held }

/-- Time does not go back. -/
def storeStep (s : StoreState) (a : StoreAction × ℚ) : Option StoreState :=
  if a.2 < s.now then none else some (called toUpperCase dateParse s a)

def storeStart (s : StoreState) : Prop := s.store = .clear ∧ s.held = []

def fromHome (home : Int → Option Scope × List Char) (raw : RawCrowdSecDecision) : Bool :=
  (normalizeScope raw.scope, rawValue raw.value) = home (decisionId raw.id)

/-- A given id always comes with the same scope and value. -/
def StoreAction.fromHome (home : Int → Option Scope × List Char) : StoreAction → Bool
  | .applySnapshot raws _ => raws.all (CrowdSec.fromHome home)
  | .applyDelta added deleted _ =>
      added.all (CrowdSec.fromHome home) && deleted.all (CrowdSec.fromHome home)
  | _ => true

/-- New versions are shown by rank, and a lookup meets settled locations only. -/
def ordered (s : StoreState) (a : StoreAction × ℚ) : Bool :=
  match a.1 with
  | .applySnapshot raws fallback =>
      updatesRanked toUpperCase a.2 .clear (materializeAll dateParse raws a.2 fallback)
  | .applyDelta added deleted fallback =>
      updatesRanked toUpperCase a.2 ((deletedOf deleted).foldl (removeRaw toUpperCase) s.store)
        (materializeAll dateParse (addedOf added deleted fallback) a.2 fallback)
  | .sweepExpired => true
  | .lookup ip countryCode asn =>
      lookupSettled s.store a.2 (consulted toUpperCase s.store (requestAddress ip) countryCode asn)

end Runs

variable {toUpperCase : List Char → List Char} {dateParse : List Char → Option ℚ}
  {home : Int → Option Scope × List Char} {s s' : StoreState} {now : ℚ}
  {store : CrowdSecDecisionStore} {held : List CrowdSecDecision}

/-- What is accepted is unexpired and comes as its raw decision does. -/
theorem materialize_spec {raw : RawCrowdSecDecision} {fallback : Option Remediation}
    {d : CrowdSecDecision} (h : materialize dateParse raw now fallback = some d) :
    (some d.scope, d.value) = (normalizeScope raw.scope, rawValue raw.value) ∧
      d.id = decisionId raw.id ∧ d.value ≠ [] ∧ lapsed now d = false := by
  unfold materialize at h
  split at h
  · rename_i scope remediation hscope hremediation
    dsimp only at h
    split at h
    · cases h
    · rename_i hvalid
      obtain rfl := Option.some.inj h
      obtain ⟨hvalue, hexpiry⟩ := not_or.mp hvalid
      exact ⟨by rw [hscope], rfl, hvalue, Bool.eq_false_iff.mpr hexpiry⟩
  · cases h

theorem materializeAll_home {raws : List RawCrowdSecDecision} {fallback : Option Remediation}
    (h : raws.all (fromHome home) = true) :
    ∀ d ∈ materializeAll dateParse raws now fallback,
      (some d.scope, d.value) = home d.id ∧ d.value ≠ [] := by
  intro d hd
  obtain ⟨raw, hraw, hmat⟩ := List.mem_filterMap.mp hd
  obtain ⟨hcome, hid, hvalue, -⟩ := materialize_spec hmat
  have hhome := of_decide_eq_true (List.all_eq_true.mp h raw hraw)
  exact ⟨by rw [hcome, hhome, hid], hvalue⟩

theorem Sound.removeRaw {raw : RawCrowdSecDecision} (h : Sound toUpperCase home store now held)
    (hr : fromHome home raw = true) :
    Sound toUpperCase home (removeRaw toUpperCase store raw) now
      (held.filter (·.id ≠ decisionId raw.id)) := by
  have hhome : (normalizeScope raw.scope, rawValue raw.value) = home (decisionId raw.id) :=
    of_decide_eq_true hr
  -- a deletion without scope or value names no held decision
  have hnone : (∀ d ∈ held, d.id ≠ decisionId raw.id) →
      Sound toUpperCase home store now (held.filter (·.id ≠ decisionId raw.id)) := by
    intro hne
    rw [List.filter_eq_self.mpr fun d hd => decide_eq_true (hne d hd)]
    exact h
  have hsame : ∀ d ∈ held, d.id = decisionId raw.id →
      some d.scope = normalizeScope raw.scope ∧ d.value = rawValue raw.value := by
    intro d hd hid
    have heq := h.home d hd
    rw [hid, ← hhome] at heq
    exact Prod.mk.inj heq
  unfold CrowdSec.removeRaw
  cases hscope : normalizeScope raw.scope with
  | none =>
      refine hnone fun d hd hid => ?_
      have := (hsame d hd hid).1
      rw [hscope] at this
      cases this
  | some scope =>
      dsimp only
      by_cases hvalue : rawValue raw.value = []
      · rw [if_pos hvalue]
        refine hnone fun d hd hid => h.valued d hd ?_
        rw [(hsame d hd hid).2, hvalue]
      · rw [if_neg hvalue]
        exact h.remove (by rw [← hscope, hhome])

theorem Sound.deleteIds {deleted : List RawCrowdSecDecision}
    (h : Sound toUpperCase home store now held) (hd : deleted.all (fromHome home) = true) :
    Sound toUpperCase home (deleted.foldl (CrowdSec.removeRaw toUpperCase) store) now
      (deleteIds held deleted) := by
  induction deleted generalizing store held with
  | nil => exact h
  | cons raw deleted ih =>
      rw [List.all_cons, Bool.and_eq_true] at hd
      exact ih (h.removeRaw hd.1) hd.2

theorem all_deletedOf {p : RawCrowdSecDecision → Bool} {deleted : List RawCrowdSecDecision}
    (h : deleted.all p = true) : (deletedOf deleted).all p = true :=
  List.all_eq_true.mpr fun raw hraw =>
    List.all_eq_true.mp h raw ((List.takeWhile_prefix _).subset hraw)

theorem all_addedOf {p : RawCrowdSecDecision → Bool} {added deleted : List RawCrowdSecDecision}
    {fallback : Option Remediation} (h : added.all p = true) :
    (addedOf added deleted fallback).all p = true := by
  unfold addedOf
  split
  · rfl
  · exact List.all_eq_true.mpr fun raw hraw =>
      List.all_eq_true.mp h raw ((List.takeWhile_prefix _).subset hraw)

/-- Every call keeps the cells in order. -/
theorem storeStep_sound {a : StoreAction × ℚ} (h : Sound toUpperCase home s.store s.now s.held)
    (hhome : a.1.fromHome home = true) (hord : ordered toUpperCase dateParse s a = true)
    (hs : storeStep toUpperCase dateParse s a = some s') :
    Sound toUpperCase home s'.store s'.now s'.held := by
  obtain ⟨action, now⟩ := a
  unfold storeStep at hs
  split at hs
  · cases hs
  · rename_i htime
    have hnow := h.mono (le_of_not_gt htime)
    obtain rfl := Option.some.inj hs
    cases action with
    | applySnapshot raws fallback =>
        dsimp only [called]
        unfold applySnapshot
        split
        · exact hnow
        · rename_i store hstore
          obtain ⟨-, hstore⟩ := Option.ite_none_left_eq_some.mp hstore
          obtain rfl := Option.some.inj hstore
          exact Sound.clear.insertAll (materializeAll_home hhome) hord
    | applyDelta added deleted fallback =>
        obtain ⟨hadded, hdeleted⟩ := (Bool.and_eq_true _ _).mp hhome
        exact (hnow.deleteIds (all_deletedOf hdeleted)).insertAll
          (materializeAll_home (all_addedOf hadded)) hord
    | sweepExpired => exact hnow.sweepExpired
    | lookup ip countryCode asn => exact lookup_sound hnow ip countryCode asn

/-- The condition of an orderly run. -/
def Orderly (toUpperCase : List Char → List Char) (dateParse : List Char → Option ℚ)
    (home : Int → Option Scope × List Char) (s : StoreState) (a : StoreAction × ℚ) : Prop :=
  a.1.fromHome home = true ∧ ordered toUpperCase dateParse s a = true

instance (s : StoreState) (a : StoreAction × ℚ) :
    Decidable (Orderly toUpperCase dateParse home s a) :=
  inferInstanceAs (Decidable (_ ∧ _))

theorem orderly_sound
    (h : Reach (storeStep toUpperCase dateParse) (Orderly toUpperCase dateParse home) storeStart s) :
    Sound toUpperCase home s.store s.now s.held := by
  refine h.invariant (I := fun s => Sound toUpperCase home s.store s.now s.held) ?_ ?_
  · rintro s ⟨hstore, hheld⟩
    rw [hstore, hheld]
    exact Sound.clear
  · intro s a s' _ hsound hc hs
    exact storeStep_sound hsound hc.1 hc.2 hs

/-- In an orderly run every lookup answers as specified. -/
theorem crowdsec_lookup_spec (toUpperCase : List Char → List Char)
    (dateParse : List Char → Option ℚ) (home : Int → Option Scope × List Char) {s : StoreState}
    (h : Reach (storeStep toUpperCase dateParse) (Orderly toUpperCase dateParse home) storeStart s)
    (ip : List Char) (countryCode : Option (List Char)) (asn : Option Nat) {now : ℚ}
    (hnow : s.now ≤ now)
    (hord : ordered toUpperCase dateParse s (.lookup ip countryCode asn, now) = true)
    (hmapped : NoMappedRange toUpperCase s.held now ⟨requestAddress ip, countryCode, asn⟩) :
    LookupSpec toUpperCase s.held now ⟨requestAddress ip, countryCode, asn⟩
      (lookup toUpperCase s.store ip countryCode asn now).2 :=
  lookup_spec ((orderly_sound h).mono hnow) hord hmapped

/-! ## Three decisions on one address -/

def addressDecision (id type duration : String) : RawCrowdSecDecision :=
  { id := .string id.toList
    type := .string type.toList
    scope := .string "Ip".toList
    value := .string "192.0.2.7".toList
    duration := .string duration.toList }

def addressHome (_ : Int) : Option Scope × List Char := (some .ip, "192.0.2.7".toList)

def threeDecisions : List RawCrowdSecDecision :=
  [addressDecision "1" "ban" "10ms", addressDecision "2" "ban" "20ms",
    addressDecision "3" "captcha" "100ms"]

def asciiUpper (text : List Char) : List Char := text.map Char.toUpper

def noDate (_ : List Char) : Option ℚ := none

def storeStartState : StoreState := { store := .clear, now := 0, held := [] }

/-- The three are the first snapshot. -/
@[irreducible] def threeHeld : StoreState :=
  called asciiUpper noDate storeStartState (.applySnapshot threeDecisions (some .ban), 0)

theorem threeHeld_reach :
    Reach (storeStep asciiUpper noDate) (Orderly asciiUpper noDate addressHome) storeStart
      threeHeld := by
  unfold threeHeld
  refine .next (.start (s := storeStartState) ⟨rfl, rfl⟩)
    (a := (.applySnapshot threeDecisions (some .ban), 0)) ?_ ?_
  · decide +kernel
  · exact if_neg (lt_irrefl _)

theorem threeHeld_now : threeHeld.now = 0 := by
  unfold threeHeld
  rfl

/-- While the longer ban lasts the store answers with it. -/
theorem crowdsec_lookup_spec_ban :
    LookupSpec asciiUpper threeHeld.held 15 ⟨requestAddress "192.0.2.7".toList, none, none⟩
      (lookup asciiUpper threeHeld.store "192.0.2.7".toList none none 15).2 := by
  have hnow : threeHeld.now ≤ 15 := by
    rw [threeHeld_now]
    norm_num
  have hord : ordered asciiUpper noDate threeHeld
      (.lookup "192.0.2.7".toList none none, 15) = true := by
    decide +kernel
  refine crowdsec_lookup_spec asciiUpper noDate addressHome threeHeld_reach
    "192.0.2.7".toList none none hnow hord ?_
  intro d hd _ l hl _
  have hplain : threeHeld.held.all
      (fun d => (stored asciiUpper d).all fun l => l.folded = l) = true := by
    decide +kernel
  have hall := List.all_eq_true.mp hplain d hd
  rw [hl] at hall
  exact of_decide_eq_true hall

/-- At 30 both bans have expired, the captcha has not, and the lookup answers null. -/
theorem crowdsec_lookup_null :
    ∃ s : StoreState,
      Reach (storeStep asciiUpper noDate) (fun _ a => a.1.fromHome addressHome = true)
        storeStart s ∧
      s.now ≤ 30 ∧
      ¬ LookupSpec asciiUpper s.held 30 ⟨requestAddress "192.0.2.7".toList, none, none⟩
        (lookup asciiUpper s.store "192.0.2.7".toList none none 30).2 := by
  refine ⟨threeHeld, threeHeld_reach.mono fun _ _ hc => hc.1, ?_, ?_⟩
  · rw [threeHeld_now]
    norm_num
  · have hnull : (lookup asciiUpper threeHeld.store "192.0.2.7".toList none none 30).2 = none := by
      decide +kernel
    rw [hnull]
    intro hspec
    have hcovers : covers asciiUpper ⟨requestAddress "192.0.2.7".toList, none, none⟩
        (.ipv4 0xc0000207) := by
      show requestAddress "192.0.2.7".toList = some (.v4 0xc0000207)
      decide +kernel
    have hlive : ¬ ∀ e ∈ placedAt (named asciiUpper) threeHeld.held (.ipv4 0xc0000207),
        lapsed 30 e = true := by
      decide +kernel
    exact hlive (hspec _ hcovers)

end BurrowGate.CrowdSec
