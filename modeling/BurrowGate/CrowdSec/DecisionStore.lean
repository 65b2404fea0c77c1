import BurrowGate.CrowdSec.Decision
import Mathlib.Data.List.AList
import Mathlib.Data.List.Sort

/-!
# `crowdsec-decision-store.ts`: the store

The six maps are one association list keyed by location. `shadowed` holds the
decisions outranked by the visible one of their location. The interning pool and
the statistics are left out.
-/

namespace BurrowGate.CrowdSec

open Js

structure CrowdSecDecisionStore where
  visible : AList fun _ : Location => CrowdSecDecision
  shadowed : AList fun _ : Location => List CrowdSecDecision

def CrowdSecDecisionStore.clear : CrowdSecDecisionStore := { visible := ∅, shadowed := ∅ }

def CrowdSecDecisionStore.isEmpty (s : CrowdSecDecisionStore) : Bool := s.visible.keys = []

section Operations

variable (toUpperCase : List Char → List Char)

def read (s : CrowdSecDecisionStore) (location : Location) : Option CrowdSecDecision :=
  s.visible.lookup location

def parkedAt (s : CrowdSecDecisionStore) (location : Location) : List CrowdSecDecision :=
  (s.shadowed.lookup location).getD []

/-- `if (remaining.length) shadowed.set(key, remaining); else shadowed.delete(key);` -/
def park (s : CrowdSecDecisionStore) (location : Location) (remaining : List CrowdSecDecision) :
    CrowdSecDecisionStore :=
  { s with shadowed :=
      if remaining = [] then s.shadowed.erase location else s.shadowed.insert location remaining }

def write (s : CrowdSecDecisionStore) (location : Location) (d : CrowdSecDecision) :
    CrowdSecDecisionStore :=
  { s with visible := s.visible.insert location d }

def insert (s : CrowdSecDecisionStore) (d : CrowdSecDecision) : CrowdSecDecisionStore :=
  match locate toUpperCase d.scope d.value with
  | none => s
  | some location =>
      match read s location with
      | none => write s location d
      | some existing =>
          if existing.id = d.id then write s location d
          else
            let parked := (parkedAt s location).filter (·.id ≠ d.id)
            if outranks d existing then
              park (write s location d) location (parked ++ [existing])
            else park s location (parked ++ [d])

/-- `for (const candidate of parked) if (outranks(candidate, best)) best = candidate;` -/
def strongest : List CrowdSecDecision → Option CrowdSecDecision
  | [] => none
  | first :: rest =>
      some ((first :: rest).foldl (fun best candidate =>
        if outranks candidate best then candidate else best) first)

def remove (s : CrowdSecDecisionStore) (scope : Scope) (value : List Char) (id : Int) :
    CrowdSecDecisionStore :=
  match locate toUpperCase scope value with
  | none => s
  | some location =>
      if (read s location).any (·.id = id) then
        match strongest (parkedAt s location) with
        | some best =>
            park (write s location best) location
              ((parkedAt s location).filter (·.id ≠ best.id))
        | none => { s with visible := s.visible.erase location }
      else park s location ((parkedAt s location).filter (·.id ≠ id))

def insertAll (s : CrowdSecDecisionStore) (ds : List CrowdSecDecision) : CrowdSecDecisionStore :=
  ds.foldl (insert toUpperCase) s

variable (dateParse : List Char → Option ℚ)

def materializeAll (raws : List RawCrowdSecDecision) (now : ℚ)
    (unknownFallback : Option Remediation) : List CrowdSecDecision :=
  raws.filterMap fun raw => materialize dateParse raw now unknownFallback

/-- The store `applySnapshot` builds and adopts; none when it throws and adopts none. -/
def applySnapshot (raws : List RawCrowdSecDecision) (now : ℚ)
    (unknownFallback : Option Remediation) : Option CrowdSecDecisionStore :=
  if raws.any (materializeThrows unknownFallback) then none
  else some (insertAll toUpperCase .clear (materializeAll dateParse raws now unknownFallback))

/-- One element of the delta's `deleted` list. -/
def removeRaw (s : CrowdSecDecisionStore) (raw : RawCrowdSecDecision) : CrowdSecDecisionStore :=
  match normalizeScope raw.scope with
  | some scope =>
      if rawValue raw.value = [] then s
      else remove toUpperCase s scope (rawValue raw.value) (decisionId raw.id)
  | none => s

/-- What `applyDelta` deletes: all of it, or what comes before a throw. -/
def deletedOf (deleted : List RawCrowdSecDecision) : List RawCrowdSecDecision :=
  deleted.takeWhile (!removalThrows ·)

/-- What `applyDelta` comes to add. -/
def addedOf (added deleted : List RawCrowdSecDecision) (unknownFallback : Option Remediation) :
    List RawCrowdSecDecision :=
  if deleted.any removalThrows then []
  else added.takeWhile (!materializeThrows unknownFallback ·)

/-- The store `applyDelta` leaves, also when it throws. -/
def applyDelta (s : CrowdSecDecisionStore) (added deleted : List RawCrowdSecDecision) (now : ℚ)
    (unknownFallback : Option Remediation) : CrowdSecDecisionStore :=
  insertAll toUpperCase ((deletedOf deleted).foldl (removeRaw toUpperCase) s)
    (materializeAll dateParse (addedOf added deleted unknownFallback) now unknownFallback)

def deltaThrows (added deleted : List RawCrowdSecDecision)
    (unknownFallback : Option Remediation) : Bool :=
  deleted.any removalThrows || added.any (materializeThrows unknownFallback)

/-! ## Lookup -/

/-- The prefix lengths present among the visible ranges, longest first. -/
def prefixesV4 (s : CrowdSecDecisionStore) : List Nat :=
  ((s.visible.keys.filterMap fun
    | .rangeV4 length _ => some length
    | _ => none).dedup).insertionSort (· ≥ ·)

def prefixesV6 (s : CrowdSecDecisionStore) : List Nat :=
  ((s.visible.keys.filterMap fun
    | .rangeV6 length _ => some length
    | _ => none).dedup).insertionSort (· ≥ ·)

def live (s : CrowdSecDecisionStore) (d : CrowdSecDecision) (location : Location) (now : ℚ) :
    CrowdSecDecisionStore × Option CrowdSecDecision :=
  if lapsed now d then
    let s := remove toUpperCase s d.scope d.value d.id
    (s, (read s location).filter fun promoted => !lapsed now promoted)
  else (s, some d)

def consultAt (s : CrowdSecDecisionStore) (location : Location) (now : ℚ) :
    CrowdSecDecisionStore × Option CrowdSecDecision :=
  match read s location with
  | none => (s, none)
  | some hit => live toUpperCase s hit location now

/-- The locations are read one after another until one has a live decision. -/
def consult (now : ℚ) : CrowdSecDecisionStore → List Location →
    CrowdSecDecisionStore × Option CrowdSecDecision
  | s, [] => (s, none)
  | s, location :: rest =>
      let r := consultAt toUpperCase s location now
      match r.2 with
      | some d => (r.1, some d)
      | none => consult now r.1 rest

/-- The exact address, then the ranges that cover it. -/
def addressLocations (s : CrowdSecDecisionStore) : Option NumericAddress → List Location
  | some (.v4 a) =>
      .ipv4 a :: (prefixesV4 s).map fun length => .rangeV4 length (maskIpv4 a length)
  | some (.v6 a) =>
      .ipv6 a :: (prefixesV6 s).map fun length => .rangeV6 length (maskIpv6 a length)
  | none => []

/-- The locations `lookup` reads, in its order. -/
def consulted (s : CrowdSecDecisionStore) (address : Option NumericAddress)
    (countryCode : Option (List Char)) (asn : Option Nat) : List Location :=
  addressLocations s address ++ (asn.toList.map .asn ++
    (countryCode.filter (· ≠ [])).toList.map fun code => .country (toUpperCase code))

def requestAddress (ip : List Char) : Option NumericAddress :=
  if ip = "unknown".toList then none else numericAddress ip

def lookup (s : CrowdSecDecisionStore) (ip : List Char) (countryCode : Option (List Char))
    (asn : Option Nat) (now : ℚ) : CrowdSecDecisionStore × Option CrowdSecDecision :=
  if s.isEmpty then (s, none)
  else consult toUpperCase now s (consulted toUpperCase s (requestAddress ip) countryCode asn)

/-! ## Sweep -/

def allDecisions (s : CrowdSecDecisionStore) : List CrowdSecDecision :=
  s.visible.entries.map (·.2) ++ (s.shadowed.entries.map (·.2)).flatten

def sweepExpired (s : CrowdSecDecisionStore) (now : ℚ) : CrowdSecDecisionStore :=
  ((allDecisions s).filter (lapsed now)).foldl
    (fun s d => remove toUpperCase s d.scope d.value d.id) s

end Operations

/-! ## What a location holds -/

/-- The visible decision of a location and the parked ones. -/
structure Cell where
  visible : Option CrowdSecDecision
  parked : List CrowdSecDecision

def Cell.all (c : Cell) : List CrowdSecDecision := c.visible.toList ++ c.parked

def cell (s : CrowdSecDecisionStore) (location : Location) : Cell :=
  { visible := read s location, parked := parkedAt s location }

def Cell.insert (c : Cell) (d : CrowdSecDecision) : Cell :=
  match c.visible with
  | none => { c with visible := some d }
  | some existing =>
      if existing.id = d.id then { c with visible := some d }
      else
        let parked := c.parked.filter (·.id ≠ d.id)
        if outranks d existing then { visible := some d, parked := parked ++ [existing] }
        else { c with parked := parked ++ [d] }

def Cell.remove (c : Cell) (id : Int) : Cell :=
  if c.visible.any (·.id = id) then
    match strongest c.parked with
    | some best => { visible := some best, parked := c.parked.filter (·.id ≠ best.id) }
    | none => { c with visible := none }
  else { c with parked := c.parked.filter (·.id ≠ id) }

section Cells

variable {toUpperCase : List Char → List Char} (s : CrowdSecDecisionStore) {l l' : Location}

@[simp] theorem cell_clear : cell .clear l = { visible := none, parked := [] } := (rfl)

theorem read_write (d : CrowdSecDecision) (l l' : Location) :
    read (write s l d) l' = if l' = l then some d else read s l' := by
  by_cases h : l' = l
  · subst h
    simp [read, write]
  · simp [read, write, h, AList.lookup_insert_ne h]

theorem parkedAt_park (ps : List CrowdSecDecision) (l l' : Location) :
    parkedAt (park s l ps) l' = if l' = l then ps else parkedAt s l' := by
  by_cases h : l' = l
  · subst h
    by_cases hps : ps = []
    · simp [parkedAt, park, hps]
    · simp [parkedAt, park, hps]
  · by_cases hps : ps = []
    · simp [parkedAt, park, hps, h, AList.lookup_erase_ne h]
    · simp [parkedAt, park, hps, h, AList.lookup_insert_ne h]

/-- `this.erase(location)` leaves the parked decisions alone. -/
theorem cell_erase (l l' : Location) :
    cell { s with visible := s.visible.erase l } l' =
      if l' = l then { visible := none, parked := parkedAt s l } else cell s l' := by
  by_cases h : l' = l
  · subst h
    simp [cell, read, parkedAt]
  · simp [cell, read, parkedAt, h, AList.lookup_erase_ne h]

@[simp] theorem read_park (ps : List CrowdSecDecision) (l l' : Location) :
    read (park s l ps) l' = read s l' := (rfl)

@[simp] theorem parkedAt_write (d : CrowdSecDecision) (l l' : Location) :
    parkedAt (write s l d) l' = parkedAt s l' := (rfl)

/-- An accepted decision changes its own location only. -/
theorem cell_insert {d : CrowdSecDecision} (hl : locate toUpperCase d.scope d.value = some l)
    (l' : Location) :
    cell (insert toUpperCase s d) l' = if l' = l then (cell s l).insert d else cell s l' := by
  unfold insert
  rw [hl]
  dsimp only
  have hcell : (cell s l).visible = read s l := rfl
  by_cases h : l' = l
  · subst h
    rw [if_pos rfl]
    cases hread : read s l' with
    | none => simp [cell, Cell.insert, hread, read_write]
    | some existing =>
        dsimp only
        by_cases hid : existing.id = d.id
        · simp [cell, Cell.insert, hread, hid, read_write]
        · by_cases ho : outranks d existing = true
          · simp [cell, Cell.insert, hread, hid, ho, read_write, parkedAt_park]
          · simp [cell, Cell.insert, hread, hid, ho, parkedAt_park]
  · rw [if_neg h]
    cases hread : read s l with
    | none => simp [cell, read_write, h]
    | some existing =>
        dsimp only
        split
        · simp [cell, read_write, h]
        · split
          · simp [cell, read_write, h, parkedAt_park]
          · simp [cell, h, parkedAt_park]

theorem insert_of_locate_none {d : CrowdSecDecision}
    (hl : locate toUpperCase d.scope d.value = none) : insert toUpperCase s d = s := by
  unfold insert
  rw [hl]

theorem cell_remove {scope : Scope} {value : List Char} {id : Int}
    (hl : locate toUpperCase scope value = some l) (l' : Location) :
    cell (remove toUpperCase s scope value id) l' =
      if l' = l then (cell s l).remove id else cell s l' := by
  unfold remove
  rw [hl]
  dsimp only
  by_cases h : l' = l
  · subst h
    rw [if_pos rfl]
    by_cases hid : (read s l').any (·.id = id) = true
    · rw [if_pos hid]
      cases hs : strongest (parkedAt s l') with
      | none =>
          rw [cell_erase, if_pos rfl]
          simp [cell, Cell.remove, hid, hs]
      | some best =>
          simp [cell, Cell.remove, hid, hs, read_write, parkedAt_park]
    · rw [if_neg hid]
      simp [cell, Cell.remove, hid, parkedAt_park]
  · rw [if_neg h]
    split
    · split
      · simp [cell, read_write, h, parkedAt_park]
      · rw [cell_erase, if_neg h]
    · simp [cell, h, parkedAt_park]

theorem remove_of_locate_none {scope : Scope} {value : List Char} {id : Int}
    (hl : locate toUpperCase scope value = none) : remove toUpperCase s scope value id = s := by
  unfold remove
  rw [hl]

end Cells

end BurrowGate.CrowdSec
