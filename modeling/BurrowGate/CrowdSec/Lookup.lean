import BurrowGate.CrowdSec.Held
import BurrowGate.Lib.Run
import Mathlib.Data.List.Dedup

/-!
# The lookup and its specification

`LookupSpec` says what a request gets from the held decisions alone. The store
answers so unless an expired decision is visible whose strongest runner-up has
expired too while a weaker one has not, the new version of a visible decision is
weaker than one that waits behind it, or a range is written in IPv4-mapped form.
-/

namespace BurrowGate.CrowdSec

open Lib.PrefixBlock
open Lib.Run

/-! ## Specification -/

section Spec

variable (toUpperCase : List Char → List Char)

/-- What a request is looked up by; the address has IPv4-mapped IPv6 folded to IPv4. -/
structure LookupRequest where
  address : Option NumericAddress
  countryCode : Option (List Char)
  asn : Option Nat

def covers (request : LookupRequest) : Location → Prop
  | .ipv4 a => request.address = some (.v4 a)
  | .ipv6 a => request.address = some (.v6 a)
  | .rangeV4 length network =>
      ∃ a, request.address = some (.v4 a) ∧ maskIpv4 a length = network
  | .rangeV6 length network =>
      ∃ a, request.address = some (.v6 a) ∧ maskIpv6 a length = network
  | .asn k => request.asn = some k
  | .country code => ∃ c, request.countryCode = some c ∧ c ≠ [] ∧ toUpperCase c = code

def Location.class : Location → Nat
  | .ipv4 _ | .ipv6 _ => 3
  | .rangeV4 _ _ | .rangeV6 _ _ => 2
  | .asn _ => 1
  | .country _ => 0

def Location.prefixLength : Location → Nat
  | .rangeV4 length _ | .rangeV6 length _ => length
  | _ => 0

/-- Exact address, then the longer range, then ASN, then country. -/
def Location.moreSpecific (a b : Location) : Prop :=
  b.class < a.class ∨ (a.class = b.class ∧ b.prefixLength < a.prefixLength)

/-- IPv4-mapped IPv6 folded to IPv4, in a range as in an address. -/
def Location.folded : Location → Location
  | .ipv6 a => if a >>> 32 = 0xffff then .ipv4 (a % 2 ^ 32) else .ipv6 a
  | .rangeV6 length network =>
      if 96 ≤ length ∧ network >>> 32 = 0xffff then .rangeV4 (length - 96) (network % 2 ^ 32)
      else .rangeV6 length network
  | l => l

/-- Where the store keeps a decision. -/
def stored (d : CrowdSecDecision) : Option Location := locate toUpperCase d.scope d.value

/-- What a decision is about. -/
def named (d : CrowdSecDecision) : Option Location := (stored toUpperCase d).map Location.folded

section Places

variable (place : CrowdSecDecision → Option Location) (held : List CrowdSecDecision) (now : ℚ)

def placedAt (l : Location) : List CrowdSecDecision := held.filter fun d => place d = some l

/-- `d` is one of the unexpired decisions held at `l` and none of them is stronger. -/
structure BestAt (l : Location) (d : CrowdSecDecision) : Prop where
  mem : d ∈ placedAt place held l
  live : lapsed now d = false
  best : ∀ e ∈ placedAt place held l, lapsed now e = false → stronger e d = false

def Uncovered (l : Location) : Prop := ∀ e ∈ placedAt place held l, lapsed now e = true

/-- The most specific covering location that has an unexpired decision answers. -/
def AnswersBy (request : LookupRequest) : Option CrowdSecDecision → Prop
  | some d => ∃ l, covers toUpperCase request l ∧ BestAt place held now l d ∧
      ∀ l', covers toUpperCase request l' →
        Uncovered place held now l' ∨ l' = l ∨ l.moreSpecific l'
  | none => ∀ l, covers toUpperCase request l → Uncovered place held now l

end Places

def LookupSpec (held : List CrowdSecDecision) (now : ℚ) (request : LookupRequest) :
    Option CrowdSecDecision → Prop :=
  AnswersBy toUpperCase (named toUpperCase) held now request

/-- No unexpired decision that covers the request is a range in IPv4-mapped form. -/
def NoMappedRange (held : List CrowdSecDecision) (now : ℚ) (request : LookupRequest) : Prop :=
  ∀ d ∈ held, lapsed now d = false → ∀ l, stored toUpperCase d = some l →
    covers toUpperCase request l.folded → l.folded = l

end Spec

/-! ## One location -/

/-- An expired visible decision has nothing behind it, or an unexpired strongest one. -/
def Cell.settled (now : ℚ) (c : Cell) : Bool :=
  !c.visible.any (lapsed now) || c.parked.all (lapsed now) ||
    (strongest c.parked).any fun p => !lapsed now p

section Consult

variable {toUpperCase : List Char → List Char} {home : Int → Option Scope × List Char}
  {s : CrowdSecDecisionStore} {l l' : Location} {now : ℚ} {held : List CrowdSecDecision}
  {d : CrowdSecDecision}

theorem consultAt_sound (h : Sound toUpperCase home s now held) (l : Location) :
    Sound toUpperCase home (consultAt toUpperCase s l now).1 now held := by
  unfold consultAt
  cases hread : read s l with
  | none => exact h
  | some hit =>
      dsimp only
      unfold live
      by_cases hl : lapsed now hit = true
      · rw [if_pos hl]
        have hin := h.mem_held (Cell.mem_all.mpr (.inl (show (cell s l).visible = _ from hread)))
        exact h.remove_lapsed hin.1 hl
      · rw [if_neg hl]
        exact h

/-- Reading a location leaves the others as they are. -/
theorem cell_consultAt (h : Sound toUpperCase home s now held) (hne : l' ≠ l) :
    cell (consultAt toUpperCase s l now).1 l' = cell s l' := by
  unfold consultAt
  cases hread : read s l with
  | none => rfl
  | some hit =>
      dsimp only
      unfold live
      by_cases hl : lapsed now hit = true
      · rw [if_pos hl]
        have hin := h.mem_held (Cell.mem_all.mpr (.inl (show (cell s l).visible = _ from hread)))
        rw [cell_remove s hin.2 l', if_neg hne]
      · rw [if_neg hl]

/-- A settled location answers with the best of its unexpired decisions. -/
theorem consultAt_spec (h : Sound toUpperCase home s now held)
    (hs : (cell s l).settled now = true) :
    match (consultAt toUpperCase s l now).2 with
    | some d => BestAt (stored toUpperCase) held now l d
    | none => Uncovered (stored toUpperCase) held now l := by
  have hcell := h.cells l
  have hkeep : ∀ e ∈ heldAt toUpperCase held l, lapsed now e = false →
      read s l = some e ∨ e ∈ parkedAt s l := fun e he hl =>
    Cell.mem_all.mp (hcell.keep e he hl)
  unfold consultAt
  cases hread : read s l with
  | none =>
      have hparked : parkedAt s l = [] := hcell.hidden hread
      intro e he
      by_contra hl
      rcases hkeep e he (Bool.eq_false_iff.mpr hl) with hvis | hp
      · rw [hread] at hvis
        cases hvis
      · rw [hparked] at hp
        cases hp
  | some hit =>
      have hvis : (cell s l).visible = some hit := hread
      have hheld := hcell.sub hit (Cell.mem_all.mpr (.inl hvis))
      dsimp only
      unfold live
      by_cases hl : lapsed now hit = true
      · rw [if_pos hl]
        dsimp only
        have hremoved : cell (remove toUpperCase s hit.scope hit.value hit.id) l =
            (cell s l).remove hit.id := by
          rw [cell_remove s (mem_heldAt.mp hheld).2 l, if_pos rfl]
        have hread' : read (remove toUpperCase s hit.scope hit.value hit.id) l =
            strongest (parkedAt s l) := by
          show (cell (remove toUpperCase s hit.scope hit.value hit.id) l).visible = _
          rw [hremoved]
          unfold Cell.remove
          rw [hvis, Option.any_some, decide_eq_true rfl, if_pos rfl]
          show _ = strongest (cell s l).parked
          cases strongest (cell s l).parked <;> rfl
        rw [hread']
        have hrest : ∀ e ∈ heldAt toUpperCase held l, lapsed now e = false →
            e ∈ parkedAt s l := by
          intro e he hle
          rcases hkeep e he hle with heq | hp
          · obtain rfl := Option.some.inj (hread.symm.trans heq)
            rw [hl] at hle
            cases hle
          · exact hp
        have hnone : (parkedAt s l).all (lapsed now) = true →
            Uncovered (stored toUpperCase) held now l := by
          intro hall e he
          by_contra hle
          have hle' := Bool.eq_false_iff.mpr hle
          exact hle (List.all_eq_true.mp hall e (hrest e he hle'))
        cases hstrong : strongest (parkedAt s l) with
        | none =>
            rw [Option.filter_none]
            refine hnone ?_
            rw [strongest_eq_none hstrong]
            rfl
        | some p =>
            obtain ⟨hp, hbest⟩ := strongest_spec hstrong
            by_cases hlp : lapsed now p = true
            · rw [Option.filter_some_neg (by simp [hlp])]
              refine hnone ?_
              unfold Cell.settled at hs
              rw [hvis, Option.any_some, hl] at hs
              have hpark : strongest (cell s l).parked = some p := hstrong
              rw [hpark, Option.any_some, hlp] at hs
              simpa [cell] using hs
            · rw [Option.filter_some_pos (by simpa using hlp)]
              refine ⟨hcell.sub p (Cell.mem_all.mpr (.inr hp)), Bool.eq_false_iff.mpr hlp, ?_⟩
              intro e he hle
              exact hbest e (hrest e he hle)
      · rw [if_neg hl]
        refine ⟨hheld, Bool.eq_false_iff.mpr hl, fun e he hle => ?_⟩
        rcases hkeep e he hle with heq | hp
        · obtain rfl := Option.some.inj (hread.symm.trans heq)
          exact stronger_self _
        · exact hcell.top hit hvis e hp hle

/-! ## Several locations -/

/-- The locations are settled up to the first that has an unexpired decision. -/
def lookupSettled (s : CrowdSecDecisionStore) (now : ℚ) : List Location → Bool
  | [] => true
  | l :: rest =>
      (cell s l).settled now &&
        ((cell s l).all.any (fun d => !lapsed now d) || lookupSettled s now rest)

theorem lookupSettled_congr {s t : CrowdSecDecisionStore} {ls : List Location}
    (h : ∀ l ∈ ls, cell s l = cell t l) : lookupSettled s now ls = lookupSettled t now ls := by
  induction ls with
  | nil => rfl
  | cons l rest ih =>
      rw [lookupSettled, lookupSettled, h l List.mem_cons_self,
        ih fun l' hl' => h l' (List.mem_cons_of_mem _ hl')]

theorem consult_sound (h : Sound toUpperCase home s now held) (ls : List Location) :
    Sound toUpperCase home (consult toUpperCase now s ls).1 now held := by
  induction ls generalizing s with
  | nil => exact h
  | cons l rest ih =>
      unfold consult
      have hafter := consultAt_sound h l
      cases hr : (consultAt toUpperCase s l now).2 with
      | none => simpa only [hr] using ih hafter
      | some d => simpa only [hr] using hafter

/-- The first location with an unexpired decision answers with its best. -/
theorem consult_spec {ls : List Location} (h : Sound toUpperCase home s now held)
    (hnodup : ls.Nodup) (hs : lookupSettled s now ls = true) :
    match (consult toUpperCase now s ls).2 with
    | some d => ∃ before l after, ls = before ++ l :: after ∧
        BestAt (stored toUpperCase) held now l d ∧
          ∀ l' ∈ before, Uncovered (stored toUpperCase) held now l'
    | none => ∀ l ∈ ls, Uncovered (stored toUpperCase) held now l := by
  induction ls generalizing s with
  | nil =>
      intro l hl
      cases hl
  | cons l rest ih =>
      rw [lookupSettled, Bool.and_eq_true, Bool.or_eq_true] at hs
      obtain ⟨hsettled, hrest⟩ := hs
      obtain ⟨hnotin, hnodup⟩ := List.nodup_cons.mp hnodup
      have hat := consultAt_spec h hsettled
      unfold consult
      dsimp only
      cases hr : (consultAt toUpperCase s l now).2 with
      | some d =>
          rw [hr] at hat
          refine ⟨[], l, rest, rfl, hat, fun l' hl' => ?_⟩
          cases hl'
      | none =>
          rw [hr] at hat
          -- no decision answers here, so the condition speaks of the rest
          have hquiet : ¬ (cell s l).all.any (fun d => !lapsed now d) = true := by
            intro hany
            obtain ⟨e, he, hl⟩ := List.any_eq_true.mp hany
            have hlapsed := hat e ((h.cells l).sub e he)
            rw [hlapsed] at hl
            cases hl
          have hcells : ∀ l' ∈ rest, cell s l' = cell (consultAt toUpperCase s l now).1 l' := by
            intro l' hl'
            refine (cell_consultAt h ?_).symm
            rintro rfl
            exact hnotin hl'
          have hsettled' := hrest.resolve_left hquiet
          rw [lookupSettled_congr hcells] at hsettled'
          have hind := ih (consultAt_sound h l) hnodup hsettled'
          dsimp only
          cases hc : (consult toUpperCase now (consultAt toUpperCase s l now).1 rest).2 with
          | some d =>
              rw [hc] at hind
              obtain ⟨before, l', after, heq, hbest, hbefore⟩ := hind
              refine ⟨l :: before, l', after, by rw [heq]; rfl, hbest, fun l'' hl'' => ?_⟩
              rcases List.mem_cons.mp hl'' with rfl | hin
              · exact hat
              · exact hbefore l'' hin
          | none =>
              rw [hc] at hind
              intro l' hl'
              rcases List.mem_cons.mp hl' with rfl | hin
              · exact hat
              · exact hind l' hin

/-! ## The locations of a request -/

theorem moreSpecific_ne (h : l.moreSpecific l') : l ≠ l' := by
  rintro rfl
  unfold Location.moreSpecific at h
  omega

theorem prefixes_sorted (lengths : List Nat) :
    (lengths.dedup.insertionSort (· ≥ ·)).Pairwise (· > ·) := by
  have hle := List.pairwise_insertionSort (α := Nat) (· ≥ ·) lengths.dedup
  have hnodup : (lengths.dedup.insertionSort (· ≥ ·)).Nodup :=
    (List.perm_insertionSort (· ≥ ·) lengths.dedup).nodup_iff.mpr (List.nodup_dedup _)
  refine (hle.and hnodup).imp fun hab => ?_
  omega

variable {request : LookupRequest}

theorem addressLocations_class {address : Option NumericAddress}
    (hl : l ∈ addressLocations s address) : 2 ≤ l.class := by
  unfold addressLocations at hl
  split at hl
  · rcases List.mem_cons.mp hl with rfl | hl
    · exact Nat.le_succ 2
    · obtain ⟨length, -, rfl⟩ := List.mem_map.mp hl
      exact Nat.le_refl 2
  · rcases List.mem_cons.mp hl with rfl | hl
    · exact Nat.le_succ 2
    · obtain ⟨length, -, rfl⟩ := List.mem_map.mp hl
      exact Nat.le_refl 2
  · cases hl

theorem addressLocations_sorted (s : CrowdSecDecisionStore) (address : Option NumericAddress) :
    (addressLocations s address).Pairwise Location.moreSpecific := by
  unfold addressLocations
  split
  · refine List.pairwise_cons.mpr ⟨fun l hl => ?_, ?_⟩
    · obtain ⟨length, -, rfl⟩ := List.mem_map.mp hl
      exact .inl (Nat.lt_succ_self 2)
    · exact List.pairwise_map.mpr ((prefixes_sorted _).imp fun hlt => .inr ⟨rfl, hlt⟩)
  · refine List.pairwise_cons.mpr ⟨fun l hl => ?_, ?_⟩
    · obtain ⟨length, -, rfl⟩ := List.mem_map.mp hl
      exact .inl (Nat.lt_succ_self 2)
    · exact List.pairwise_map.mpr ((prefixes_sorted _).imp fun hlt => .inr ⟨rfl, hlt⟩)
  · exact List.Pairwise.nil

/-- The locations read are ordered from the most specific one. -/
theorem consulted_sorted (s : CrowdSecDecisionStore) (request : LookupRequest) :
    (consulted toUpperCase s request.address request.countryCode request.asn).Pairwise
      Location.moreSpecific := by
  unfold consulted
  rw [List.pairwise_append, List.pairwise_append]
  refine ⟨addressLocations_sorted s _, ⟨?_, ?_, ?_⟩, ?_⟩
  · cases request.asn <;> simp
  · cases request.countryCode.filter (· ≠ []) <;> simp
  · intro a ha b hb
    obtain ⟨k, -, rfl⟩ := List.mem_map.mp ha
    obtain ⟨code, -, rfl⟩ := List.mem_map.mp hb
    exact .inl Nat.zero_lt_one
  · intro a ha b hb
    have hclass := addressLocations_class ha
    have hlow : b.class ≤ 1 := by
      rcases List.mem_append.mp hb with hb | hb
      · obtain ⟨k, -, rfl⟩ := List.mem_map.mp hb
        exact Nat.le_refl 1
      · obtain ⟨code, -, rfl⟩ := List.mem_map.mp hb
        exact Nat.zero_le 1
    exact .inl (by omega)

theorem covers_of_mem_consulted
    (hl : l ∈ consulted toUpperCase s request.address request.countryCode request.asn) :
    covers toUpperCase request l := by
  rcases List.mem_append.mp hl with hl | hl
  · unfold addressLocations at hl
    split at hl
    · rename_i a haddress
      rcases List.mem_cons.mp hl with rfl | hl
      · exact haddress
      · obtain ⟨length, -, rfl⟩ := List.mem_map.mp hl
        exact ⟨a, haddress, rfl⟩
    · rename_i a haddress
      rcases List.mem_cons.mp hl with rfl | hl
      · exact haddress
      · obtain ⟨length, -, rfl⟩ := List.mem_map.mp hl
        exact ⟨a, haddress, rfl⟩
    · cases hl
  · rcases List.mem_append.mp hl with hl | hl
    · obtain ⟨k, hk, rfl⟩ := List.mem_map.mp hl
      exact Option.mem_toList.mp hk
    · obtain ⟨code, hcode, rfl⟩ := List.mem_map.mp hl
      obtain ⟨hsome, hne⟩ := Option.filter_eq_some_iff.mp (Option.mem_toList.mp hcode)
      exact ⟨code, hsome, by simpa using hne, rfl⟩

theorem mem_keys_of_read (hread : (read s l).isSome = true) : l ∈ s.visible.keys := by
  have hmem : l ∈ s.visible := AList.lookup_isSome.mp hread
  exact AList.mem_keys.mp hmem

/-- Every covering location that has a visible decision is read. -/
theorem mem_consulted (hl : covers toUpperCase request l) (hread : (read s l).isSome = true) :
    l ∈ consulted toUpperCase s request.address request.countryCode request.asn := by
  have hkey := mem_keys_of_read hread
  have hlength : ∀ {f : Location → Option Nat} {n : Nat}, f l = some n →
      n ∈ ((s.visible.keys.filterMap f).dedup).insertionSort (· ≥ ·) := by
    intro f n hf
    rw [List.mem_insertionSort, List.mem_dedup]
    exact List.mem_filterMap.mpr ⟨l, hkey, hf⟩
  unfold consulted
  cases l with
  | ipv4 a =>
      rw [show request.address = some (.v4 a) from hl]
      exact List.mem_append_left _ List.mem_cons_self
  | ipv6 a =>
      rw [show request.address = some (.v6 a) from hl]
      exact List.mem_append_left _ List.mem_cons_self
  | rangeV4 length network =>
      obtain ⟨a, haddress, rfl⟩ := hl
      rw [haddress]
      refine List.mem_append_left _ (List.mem_cons_of_mem _ ?_)
      exact List.mem_map.mpr ⟨length, hlength rfl, rfl⟩
  | rangeV6 length network =>
      obtain ⟨a, haddress, rfl⟩ := hl
      rw [haddress]
      refine List.mem_append_left _ (List.mem_cons_of_mem _ ?_)
      exact List.mem_map.mpr ⟨length, hlength rfl, rfl⟩
  | asn k =>
      rw [show request.asn = some k from hl]
      exact List.mem_append_right _ (List.mem_append_left _ List.mem_cons_self)
  | country code =>
      obtain ⟨c, hc, hne, rfl⟩ := hl
      rw [hc, Option.filter_some_pos (by simpa using hne)]
      exact List.mem_append_right _ (List.mem_append_right _ List.mem_cons_self)

/-- Where the locations it reads are settled, a lookup answers by what the store keeps there. -/
theorem lookup_answersBy {ip : List Char} {countryCode : Option (List Char)} {asn : Option Nat}
    (h : Sound toUpperCase home s now held)
    (hs : lookupSettled s now (consulted toUpperCase s (requestAddress ip) countryCode asn)
      = true) :
    AnswersBy toUpperCase (stored toUpperCase) held now ⟨requestAddress ip, countryCode, asn⟩
      (lookup toUpperCase s ip countryCode asn now).2 := by
  -- a location nobody reads holds no unexpired decision
  have hunread : ∀ l, (read s l).isSome = false →
      Uncovered (stored toUpperCase) held now l := by
    intro l hread e he
    by_contra hl
    have hvis : (cell s l).visible = none :=
      Option.isNone_iff_eq_none.mp (Option.isSome_eq_false_iff.mp hread)
    have hcell := (h.cells l).keep e he (Bool.eq_false_iff.mpr hl)
    rcases Cell.mem_all.mp hcell with heq | hp
    · rw [hvis] at heq
      cases heq
    · rw [(h.cells l).hidden hvis] at hp
      cases hp
  have hread : ∀ l, covers toUpperCase ⟨requestAddress ip, countryCode, asn⟩ l →
      Uncovered (stored toUpperCase) held now l ∨
        l ∈ consulted toUpperCase s (requestAddress ip) countryCode asn := by
    intro l hl
    by_cases hsome : (read s l).isSome = true
    · exact .inr (mem_consulted hl hsome)
    · exact .inl (hunread l (Bool.eq_false_iff.mpr hsome))
  unfold lookup
  by_cases hempty : s.isEmpty = true
  · rw [if_pos hempty]
    intro l _
    refine hunread l ?_
    have hkeys : s.visible.keys = [] := by simpa [CrowdSecDecisionStore.isEmpty] using hempty
    rw [Bool.eq_false_iff]
    intro hsome
    have hmem := mem_keys_of_read hsome
    rw [hkeys] at hmem
    cases hmem
  · rw [if_neg hempty]
    have hsorted : (consulted toUpperCase s (requestAddress ip) countryCode asn).Pairwise
        Location.moreSpecific := consulted_sorted s ⟨requestAddress ip, countryCode, asn⟩
    have hspec := consult_spec h (hsorted.imp moreSpecific_ne) hs
    cases hc : (consult toUpperCase now s
        (consulted toUpperCase s (requestAddress ip) countryCode asn)).2 with
    | none =>
        rw [hc] at hspec
        intro l hl
        rcases hread l hl with hun | hin
        · exact hun
        · exact hspec l hin
    | some d =>
        rw [hc] at hspec
        obtain ⟨before, l, after, heq, hbest, hbefore⟩ := hspec
        have hin : l ∈ before ++ l :: after := by simp
        refine ⟨l, covers_of_mem_consulted (heq ▸ hin), hbest, fun l' hl' => ?_⟩
        rcases hread l' hl' with hun | hmem
        · exact .inl hun
        · rw [heq] at hmem hsorted
          rcases List.mem_append.mp hmem with hb | ha
          · exact .inl (hbefore l' hb)
          · rcases List.mem_cons.mp ha with rfl | ha
            · exact .inr (.inl rfl)
            · have htail := (List.pairwise_append.mp hsorted).2.1
              exact .inr (.inr ((List.pairwise_cons.mp htail).1 l' ha))

/-- A request is never at a mapped address. -/
theorem folded_of_covers {ip : List Char} {countryCode : Option (List Char)} {asn : Option Nat}
    (h : covers toUpperCase ⟨requestAddress ip, countryCode, asn⟩ l) : l.folded = l := by
  have hplain : ∀ {a}, requestAddress ip = some (.v6 a) → ¬ a >>> 32 = 0xffff := by
    intro a ha
    unfold requestAddress numericAddress at ha
    split at ha
    · cases ha
    · obtain ⟨parsed, -, hparsed⟩ := Option.map_eq_some_iff.mp ha
      split at hparsed
      · cases hparsed
      · split at hparsed
        · cases hparsed
        · obtain rfl := NumericAddress.v6.inj hparsed
          assumption
  cases l with
  | ipv6 a => exact if_neg (hplain h)
  | rangeV6 length network =>
      obtain ⟨a, ha, rfl⟩ := h
      refine if_neg fun hmapped => hplain ha ?_
      have hmask := congrArg (· >>> 32) (mask_mask (show 128 - length ≤ 32 by omega) a)
      simp only [mask, Nat.shiftLeft_shiftRight] at hmask
      exact hmask.symm.trans hmapped.2
  | _ => rfl

/-- Besides, if no mapped range is about the request, it answers as specified. -/
theorem lookup_spec {ip : List Char} {countryCode : Option (List Char)} {asn : Option Nat}
    (h : Sound toUpperCase home s now held)
    (hs : lookupSettled s now (consulted toUpperCase s (requestAddress ip) countryCode asn)
      = true)
    (hmapped : NoMappedRange toUpperCase held now ⟨requestAddress ip, countryCode, asn⟩) :
    LookupSpec toUpperCase held now ⟨requestAddress ip, countryCode, asn⟩
      (lookup toUpperCase s ip countryCode asn now).2 := by
  have hplace : ∀ e ∈ held, lapsed now e = false → ∀ l,
      covers toUpperCase ⟨requestAddress ip, countryCode, asn⟩ l →
        (named toUpperCase e = some l ↔ stored toUpperCase e = some l) := by
    intro e he hlive l hl
    constructor
    · intro hnamed
      obtain ⟨l', hstored, rfl⟩ := Option.map_eq_some_iff.mp hnamed
      rw [hmapped e he hlive l' hstored hl]
      exact hstored
    · intro hstored
      rw [named, hstored, Option.map_some, folded_of_covers hl]
  have hmem : ∀ {place : CrowdSecDecision → Option Location} {l e},
      e ∈ placedAt place held l ↔ e ∈ held ∧ place e = some l := by
    intro place l e
    rw [placedAt, List.mem_filter, decide_eq_true_eq]
  have hun : ∀ l, covers toUpperCase ⟨requestAddress ip, countryCode, asn⟩ l →
      Uncovered (stored toUpperCase) held now l → Uncovered (named toUpperCase) held now l := by
    intro l hl hstored e he
    by_contra hlive
    obtain ⟨hin, hnamed⟩ := hmem.mp he
    have hat := (hplace e hin (Bool.eq_false_iff.mpr hlive) l hl).mp hnamed
    exact hlive (hstored e (hmem.mpr ⟨hin, hat⟩))
  have hanswer := lookup_answersBy h hs
  unfold LookupSpec
  cases hc : (lookup toUpperCase s ip countryCode asn now).2 with
  | none =>
      rw [hc] at hanswer
      exact fun l hl => hun l hl (hanswer l hl)
  | some d =>
      rw [hc] at hanswer
      obtain ⟨l, hl, hbest, hrest⟩ := hanswer
      refine ⟨l, hl, ⟨?_, hbest.live, fun e he hlive => ?_⟩,
        fun l' hl' => (hrest l' hl').imp_left (hun l' hl')⟩
      · obtain ⟨hin, hat⟩ := hmem.mp hbest.mem
        exact hmem.mpr ⟨hin, (hplace d hin hbest.live l hl).mpr hat⟩
      · obtain ⟨hin, hat⟩ := hmem.mp he
        exact hbest.best e (hmem.mpr ⟨hin, (hplace e hin hlive l hl).mp hat⟩) hlive

theorem lookup_sound (h : Sound toUpperCase home s now held) (ip : List Char)
    (countryCode : Option (List Char)) (asn : Option Nat) :
    Sound toUpperCase home (lookup toUpperCase s ip countryCode asn now).1 now held := by
  unfold lookup
  split
  · exact h
  · exact consult_sound h _

end Consult

end BurrowGate.CrowdSec
