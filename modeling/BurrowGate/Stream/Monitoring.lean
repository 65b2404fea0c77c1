import BurrowGate.Js.CaseTable
import BurrowGate.Lib.OrderedMap
import BurrowGate.Network.NetworkDecision
import Mathlib.Data.Rat.Floor

/-!
# `StreamMonitoringAccumulator` of `stream-monitoring-service.ts`

A flush waits at its two persist steps; each is atomic, and what it did is committed before the
flush resumes. The system around the accumulator holds what no step reads: what has been recorded,
persisted, and taken from the count of drops. Byte counters are exact, as doubles are below 2^53.
-/

namespace BurrowGate.StreamMonitoring

open Js Lib
open Network (UNKNOWN_COUNTRY_CODE)

abbrev Text : Type := List Char

inductive StreamProtocol
  | tcp
  | udp
  deriving DecidableEq

structure StreamTrafficContext where
  streamId : Text
  incomingPort : Nat
  ip : Text
  countryCode : Option Text
  protocol : StreamProtocol

/-- A member is none when it is missing or not finite. -/
structure StreamTrafficDelta where
  clientToUpstreamBytes : Option ℚ
  upstreamToClientBytes : Option ℚ

/-- What the bytes are counted by: a row of a minute without its address. -/
structure Bucket where
  streamId : Text
  incomingPort : Nat
  bucketStart : Int
  countryCode : Text
  protocol : StreamProtocol
  deriving DecidableEq

/-- The members of the JSON array that `bandwidthKey` writes. -/
structure BandwidthKey where
  bucket : Bucket
  ip : Text
  deriving DecidableEq

structure Traffic where
  clientToUpstreamBytes : Nat
  upstreamToClientBytes : Nat
  deriving DecidableEq

def Traffic.add (a b : Traffic) : Traffic :=
  { clientToUpstreamBytes := a.clientToUpstreamBytes + b.clientToUpstreamBytes
    upstreamToClientBytes := a.upstreamToClientBytes + b.upstreamToClientBytes }

abbrev Bandwidth : Type := OrderedMap BandwidthKey Traffic

def bytes (value : Option ℚ) : Nat :=
  match value with
  | some q => if 0 < q then ⌊q⌋.toNat else 0
  | none => 0

def StreamTrafficDelta.traffic (delta : StreamTrafficDelta) : Traffic :=
  ⟨bytes delta.clientToUpstreamBytes, bytes delta.upstreamToClientBytes⟩

/-- `/^[A-Z]{2}$/u` -/
def isCountryCode (code : Text) : Bool :=
  code.length = 2 && code.all fun c => 'A' ≤ c && c ≤ 'Z'

def country (cases : CaseTable) (value : Option Text) : Text :=
  match value.map fun value => cases.toUpperCase (trim value) with
  | some code => if isCountryCode code then code else UNKNOWN_COUNTRY_CODE
  | none => UNKNOWN_COUNTRY_CODE

def StreamTrafficContext.bucket (cases : CaseTable) (context : StreamTrafficContext) (now : Int) :
    Bucket :=
  { streamId := context.streamId
    incomingPort := context.incomingPort
    bucketStart := now / 60000 * 60000
    countryCode := country cases context.countryCode
    protocol := context.protocol }

/-! ## The accumulator -/

/-- Where the function of `flushing` is. Behind each persist step it has either been committed or
refused when the function resumes; at the end only `finally` is left. -/
inductive Flushing (ε : Type)
  | storingEvents (events : List ε) (bandwidth : Bandwidth)
  | eventsStored (events : List ε) (bandwidth : Bandwidth)
  | eventsRefused (events : List ε) (bandwidth : Bandwidth)
  | storingBandwidth (bandwidth : Bandwidth)
  | bandwidthStored
  | bandwidthRefused (bandwidth : Bandwidth)
  | settled

structure StreamMonitoringAccumulator (ε : Type) where
  events : List ε
  bandwidth : Bandwidth
  flushing : Option (Flushing ε)
  droppedEvents : Nat
  inFlightEventCount : Nat

structure Limits where
  maxPendingKeys : Nat
  maxPendingEvents : Nat

variable {ε : Type}

namespace StreamMonitoringAccumulator

def recordEvent (limits : Limits) (event : ε) (s : StreamMonitoringAccumulator ε) :
    StreamMonitoringAccumulator ε :=
  if s.events.length + s.inFlightEventCount ≥ limits.maxPendingEvents then
    { s with droppedEvents := s.droppedEvents + 1 }
  else { s with events := s.events ++ [event] }

def takeDroppedEventCount (s : StreamMonitoringAccumulator ε) :
    Nat × StreamMonitoringAccumulator ε :=
  (s.droppedEvents, { s with droppedEvents := 0 })

def recordTraffic (limits : Limits) (cases : CaseTable) (context : StreamTrafficContext)
    (delta : StreamTrafficDelta) (now : Int) (s : StreamMonitoringAccumulator ε) :
    StreamMonitoringAccumulator ε :=
  let traffic := delta.traffic
  if traffic.clientToUpstreamBytes + traffic.upstreamToClientBytes = 0 then s
  else
    let ip := if context.ip = [] then "unknown".toList else context.ip
    let key : BandwidthKey := ⟨context.bucket cases now, ip⟩
    let key :=
      if (s.bandwidth.get? key).isNone && s.bandwidth.size ≥ limits.maxPendingKeys then
        { key with ip := "__other__".toList }
      else key
    let current := (s.bandwidth.get? key).getD ⟨0, 0⟩
    { s with bandwidth := s.bandwidth.set key (current.add traffic) }

/-- A call while a flush is in flight waits for that one. -/
def flush (s : StreamMonitoringAccumulator ε) : StreamMonitoringAccumulator ε :=
  if s.flushing.isSome then s
  else if s.events.length = 0 ∧ s.bandwidth.size = 0 then s
  else
    { s with
      events := []
      bandwidth := .empty
      inFlightEventCount := s.events.length
      flushing := some (.storingEvents s.events s.bandwidth) }

/-- What the `catch` does with a record of the batch. -/
def restore (bandwidth : Bandwidth) (record : BandwidthKey × Traffic) : Bandwidth :=
  match bandwidth.get? record.1 with
  | some current => bandwidth.set record.1 (current.add record.2)
  | none => bandwidth.set record.1 record.2

/-- The `catch` for events that were not persisted. -/
def restoreEvents (limits : Limits) (events : List ε) (s : StreamMonitoringAccumulator ε) :
    StreamMonitoringAccumulator ε :=
  let combined := events ++ s.events
  { s with
    inFlightEventCount := 0
    droppedEvents :=
      if combined.length > limits.maxPendingEvents then
        s.droppedEvents + (combined.length - limits.maxPendingEvents)
      else s.droppedEvents
    events := combined.take limits.maxPendingEvents }

/-- The flush runs on to where it waits next. -/
def resume (limits : Limits) (s : StreamMonitoringAccumulator ε) : StreamMonitoringAccumulator ε :=
  match s.flushing with
  | some (.eventsStored _ bandwidth) =>
      { s with inFlightEventCount := 0, flushing := some (.storingBandwidth bandwidth) }
  | some (.eventsRefused events bandwidth) =>
      let s := s.restoreEvents limits events
      { s with
        bandwidth := bandwidth.entries.foldl restore s.bandwidth
        flushing := some .settled }
  | some .bandwidthStored => { s with flushing := some .settled }
  | some (.bandwidthRefused bandwidth) =>
      { s with
        bandwidth := bandwidth.entries.foldl restore s.bandwidth
        flushing := some .settled }
  | some .settled => { s with inFlightEventCount := 0, flushing := none }
  | some (.storingEvents _ _) | some (.storingBandwidth _) | none => s

end StreamMonitoringAccumulator

/-! ## Runs -/

structure MonitoringSystem (ε : Type) where
  accumulator : StreamMonitoringAccumulator ε
  recordedEvents : List ε
  persistedEvents : List ε
  takenDrops : Nat
  recordedTraffic : List (Bucket × Traffic)
  persistedTraffic : List (BandwidthKey × Traffic)

def MonitoringSystem.start : MonitoringSystem ε :=
  { accumulator := ⟨[], .empty, none, 0, 0⟩
    recordedEvents := []
    persistedEvents := []
    takenDrops := 0
    recordedTraffic := []
    persistedTraffic := [] }

/-- `commit` and `refuse` are what the database does with the step that is waited for. -/
inductive MonitoringAction (ε : Type)
  | recordEvent (event : ε)
  | recordTraffic (context : StreamTrafficContext) (delta : StreamTrafficDelta) (now : Int)
  | takeDroppedEventCount
  | flush
  | commit
  | refuse
  | resume

def MonitoringSystem.withFlushing (flushing : Flushing ε) (s : MonitoringSystem ε) :
    MonitoringSystem ε :=
  { s with accumulator := { s.accumulator with flushing := some flushing } }

def commit (s : MonitoringSystem ε) : MonitoringSystem ε :=
  match s.accumulator.flushing with
  | some (.storingEvents events bandwidth) =>
      { s with persistedEvents := s.persistedEvents ++ events }.withFlushing
        (.eventsStored events bandwidth)
  | some (.storingBandwidth bandwidth) =>
      { s with persistedTraffic := s.persistedTraffic ++ bandwidth.entries }.withFlushing
        .bandwidthStored
  | _ => s

def refuse (s : MonitoringSystem ε) : MonitoringSystem ε :=
  match s.accumulator.flushing with
  | some (.storingEvents events bandwidth) => s.withFlushing (.eventsRefused events bandwidth)
  | some (.storingBandwidth bandwidth) => s.withFlushing (.bandwidthRefused bandwidth)
  | _ => s

def step (limits : Limits) (cases : CaseTable) (s : MonitoringSystem ε) :
    MonitoringAction ε → MonitoringSystem ε
  | .recordEvent event =>
      { s with
        accumulator := s.accumulator.recordEvent limits event
        recordedEvents := s.recordedEvents ++ [event] }
  | .recordTraffic context delta now =>
      { s with
        accumulator := s.accumulator.recordTraffic limits cases context delta now
        recordedTraffic := s.recordedTraffic ++ [(context.bucket cases now, delta.traffic)] }
  | .takeDroppedEventCount =>
      { s with
        accumulator := s.accumulator.takeDroppedEventCount.2
        takenDrops := s.takenDrops + s.accumulator.takeDroppedEventCount.1 }
  | .flush => { s with accumulator := s.accumulator.flush }
  | .commit => commit s
  | .refuse => refuse s
  | .resume => { s with accumulator := s.accumulator.resume limits }

def run (limits : Limits) (cases : CaseTable) (actions : List (MonitoringAction ε)) :
    MonitoringSystem ε :=
  actions.foldl (step limits cases) .start

/-! ## The accounts -/

inductive Direction
  | clientToUpstream
  | upstreamToClient

def Direction.of : Direction → Traffic → Nat
  | .clientToUpstream, traffic => traffic.clientToUpstreamBytes
  | .upstreamToClient, traffic => traffic.upstreamToClientBytes

/-- The bytes that a record has of a bucket. -/
def weight (bucket : Bucket) (direction : Direction) (record : BandwidthKey × Traffic) : Nat :=
  if record.1.bucket = bucket then direction.of record.2 else 0

/-- The events of a batch that have not been persisted and are not pending again. -/
def Flushing.events : Flushing ε → List ε
  | .storingEvents events _ | .eventsRefused events _ => events
  | .eventsStored _ _ | .storingBandwidth _ | .bandwidthStored | .bandwidthRefused _
  | .settled => []

def Flushing.bandwidth : Flushing ε → Bandwidth
  | .storingEvents _ bandwidth | .eventsStored _ bandwidth | .eventsRefused _ bandwidth
  | .storingBandwidth bandwidth | .bandwidthRefused bandwidth => bandwidth
  | .bandwidthStored | .settled => .empty

namespace MonitoringSystem

def inFlightEvents (s : MonitoringSystem ε) : List ε :=
  (s.accumulator.flushing.map Flushing.events).getD []

def recordedBytes (s : MonitoringSystem ε) (bucket : Bucket) (direction : Direction) : Nat :=
  (s.recordedTraffic.map fun r => if r.1 = bucket then direction.of r.2 else 0).sum

def persistedBytes (s : MonitoringSystem ε) (bucket : Bucket) (direction : Direction) : Nat :=
  (s.persistedTraffic.map (weight bucket direction)).sum

def pendingBytes (s : MonitoringSystem ε) (bucket : Bucket) (direction : Direction) : Nat :=
  s.accumulator.bandwidth.total (weight bucket direction)

def inFlightBytes (s : MonitoringSystem ε) (bucket : Bucket) (direction : Direction) : Nat :=
  ((s.accumulator.flushing.map Flushing.bandwidth).getD .empty).total (weight bucket direction)

end MonitoringSystem

/-- Every event and byte is accounted for. A sublist has each recorded event at most once, and in
the order of recording. -/
structure Accounts (limits : Limits) (s : MonitoringSystem ε) : Prop where
  inOrder : (s.persistedEvents ++ s.inFlightEvents ++ s.accumulator.events).Sublist
    s.recordedEvents
  counted : s.recordedEvents.length = s.persistedEvents.length + s.accumulator.events.length +
    s.inFlightEvents.length + s.takenDrops + s.accumulator.droppedEvents
  bounded : s.accumulator.events.length + s.inFlightEvents.length ≤ limits.maxPendingEvents
  conserved : ∀ bucket direction, s.persistedBytes bucket direction +
    s.pendingBytes bucket direction + s.inFlightBytes bucket direction =
      s.recordedBytes bucket direction

variable {limits : Limits} {cases : CaseTable} {s : MonitoringSystem ε}

/-! ## Events -/

/-- What `inFlightEventCount` counts: the events of the batch, until the flush resumes. -/
def Flushing.heldEvents : Flushing ε → Nat
  | .storingEvents events _ | .eventsStored events _ | .eventsRefused events _ => events.length
  | .storingBandwidth _ | .bandwidthStored | .bandwidthRefused _ | .settled => 0

theorem Flushing.length_events_le (flushing : Flushing ε) :
    flushing.events.length ≤ flushing.heldEvents := by
  cases flushing with
  | storingEvents events bandwidth => exact Nat.le_refl _
  | eventsStored events bandwidth => exact Nat.zero_le _
  | eventsRefused events bandwidth => exact Nat.le_refl _
  | storingBandwidth bandwidth => exact Nat.le_refl _
  | bandwidthStored => exact Nat.le_refl _
  | bandwidthRefused bandwidth => exact Nat.le_refl _
  | settled => exact Nat.le_refl _

/-- The events that are held never exceed the limit, so that nothing is cut off when a batch comes
back. -/
structure EventsHeld (limits : Limits) (s : MonitoringSystem ε) : Prop where
  inOrder : (s.persistedEvents ++ s.inFlightEvents ++ s.accumulator.events).Sublist
    s.recordedEvents
  counted : s.recordedEvents.length = s.persistedEvents.length + s.accumulator.events.length +
    s.inFlightEvents.length + s.takenDrops + s.accumulator.droppedEvents
  held : s.accumulator.inFlightEventCount =
    (s.accumulator.flushing.map Flushing.heldEvents).getD 0
  room : s.accumulator.events.length + s.accumulator.inFlightEventCount ≤ limits.maxPendingEvents

theorem EventsHeld.bounded (h : EventsHeld limits s) :
    s.accumulator.events.length + s.inFlightEvents.length ≤ limits.maxPendingEvents := by
  have hroom := h.room
  have hheld := h.held
  rw [MonitoringSystem.inFlightEvents]
  cases hflushing : s.accumulator.flushing with
  | none =>
      rw [Option.map_none, Option.getD_none, List.length_nil]
      omega
  | some flushing =>
      have hle := flushing.length_events_le
      rw [hflushing, Option.map_some, Option.getD_some] at hheld
      rw [Option.map_some, Option.getD_some]
      omega

theorem eventsHeld_start : EventsHeld limits (.start : MonitoringSystem ε) :=
  ⟨List.Sublist.refl _, rfl, rfl, Nat.zero_le _⟩

theorem EventsHeld.recordEvent (h : EventsHeld limits s) (event : ε) :
    EventsHeld limits (step limits cases s (.recordEvent event)) := by
  have hcounted := h.counted
  rw [step, StreamMonitoringAccumulator.recordEvent]
  split
  · refine ⟨h.inOrder.trans (List.sublist_append_left _ _), ?_, h.held, h.room⟩
    change (s.recordedEvents ++ [event]).length = s.persistedEvents.length +
      s.accumulator.events.length + s.inFlightEvents.length + s.takenDrops +
        (s.accumulator.droppedEvents + 1)
    rw [List.length_append, List.length_singleton]
    omega
  · rename_i hroom
    refine ⟨?_, ?_, h.held, ?_⟩
    · change (s.persistedEvents ++ s.inFlightEvents ++ (s.accumulator.events ++ [event])).Sublist
        (s.recordedEvents ++ [event])
      rw [← List.append_assoc]
      exact h.inOrder.append (List.Sublist.refl _)
    · change (s.recordedEvents ++ [event]).length = s.persistedEvents.length +
        (s.accumulator.events ++ [event]).length + s.inFlightEvents.length + s.takenDrops +
          s.accumulator.droppedEvents
      rw [List.length_append, List.length_append, List.length_singleton]
      omega
    · change (s.accumulator.events ++ [event]).length + s.accumulator.inFlightEventCount ≤ _
      rw [List.length_append, List.length_singleton]
      omega

theorem EventsHeld.takeDroppedEventCount (h : EventsHeld limits s) :
    EventsHeld limits (step limits cases s .takeDroppedEventCount) := by
  have hcounted := h.counted
  refine ⟨h.inOrder, ?_, h.held, h.room⟩
  change s.recordedEvents.length = s.persistedEvents.length + s.accumulator.events.length +
    s.inFlightEvents.length + (s.takenDrops + s.accumulator.droppedEvents) + 0
  omega

/-- The traffic is no part of the accounts of events. -/
theorem EventsHeld.recordTraffic (h : EventsHeld limits s) (context : StreamTrafficContext)
    (delta : StreamTrafficDelta) (now : Int) :
    EventsHeld limits (step limits cases s (.recordTraffic context delta now)) := by
  rw [step, StreamMonitoringAccumulator.recordTraffic]
  dsimp only
  split
  · exact ⟨h.inOrder, h.counted, h.held, h.room⟩
  · exact ⟨h.inOrder, h.counted, h.held, h.room⟩

theorem EventsHeld.flush (h : EventsHeld limits s) :
    EventsHeld limits (step limits cases s .flush) := by
  rw [step, StreamMonitoringAccumulator.flush]
  split
  · exact h
  · rename_i hidle
    have hnone : s.accumulator.flushing = none := Option.not_isSome_iff_eq_none.mp hidle
    have hinFlight : s.inFlightEvents = [] := by
      rw [MonitoringSystem.inFlightEvents, hnone]
      rfl
    have horder := h.inOrder
    have hcounted := h.counted
    have hroom := h.room
    rw [hinFlight, List.append_nil] at horder
    rw [hinFlight, List.length_nil] at hcounted
    split
    · exact h
    · refine ⟨?_, ?_, rfl, ?_⟩
      · change (s.persistedEvents ++ s.accumulator.events ++ []).Sublist s.recordedEvents
        rw [List.append_nil]
        exact horder
      · change s.recordedEvents.length = s.persistedEvents.length + 0 +
          s.accumulator.events.length + s.takenDrops + s.accumulator.droppedEvents
        omega
      · change 0 + s.accumulator.events.length ≤ limits.maxPendingEvents
        omega

theorem EventsHeld.commit (h : EventsHeld limits s) : EventsHeld limits (commit s) := by
  have horder := h.inOrder
  have hcounted := h.counted
  have hheld := h.held
  rw [StreamMonitoring.commit]
  rw [MonitoringSystem.inFlightEvents] at horder hcounted
  cases hflushing : s.accumulator.flushing with
  | none => exact h
  | some flushing =>
      rw [hflushing] at horder hcounted hheld
      cases flushing with
      | storingEvents events bandwidth =>
          refine ⟨?_, ?_, hheld, h.room⟩
          · change (s.persistedEvents ++ events ++ [] ++ s.accumulator.events).Sublist _
            rw [List.append_nil]
            exact horder
          · change s.recordedEvents.length = (s.persistedEvents ++ events).length +
              s.accumulator.events.length + 0 + s.takenDrops + s.accumulator.droppedEvents
            change s.recordedEvents.length = s.persistedEvents.length +
              s.accumulator.events.length + events.length + s.takenDrops +
                s.accumulator.droppedEvents at hcounted
            rw [List.length_append]
            omega
      | storingBandwidth bandwidth => exact ⟨horder, hcounted, hheld, h.room⟩
      | eventsStored events bandwidth => exact h
      | eventsRefused events bandwidth => exact h
      | bandwidthStored => exact h
      | bandwidthRefused bandwidth => exact h
      | settled => exact h

theorem EventsHeld.refuse (h : EventsHeld limits s) : EventsHeld limits (refuse s) := by
  have horder := h.inOrder
  have hcounted := h.counted
  have hheld := h.held
  rw [StreamMonitoring.refuse]
  rw [MonitoringSystem.inFlightEvents] at horder hcounted
  cases hflushing : s.accumulator.flushing with
  | none => exact h
  | some flushing =>
      rw [hflushing] at horder hcounted hheld
      cases flushing with
      | storingEvents events bandwidth => exact ⟨horder, hcounted, hheld, h.room⟩
      | storingBandwidth bandwidth => exact ⟨horder, hcounted, hheld, h.room⟩
      | eventsStored events bandwidth => exact h
      | eventsRefused events bandwidth => exact h
      | bandwidthStored => exact h
      | bandwidthRefused bandwidth => exact h
      | settled => exact h

theorem EventsHeld.resume (h : EventsHeld limits s) :
    EventsHeld limits (step limits cases s .resume) := by
  have horder := h.inOrder
  have hcounted := h.counted
  have hheld := h.held
  have hroom := h.room
  rw [step, StreamMonitoringAccumulator.resume]
  rw [MonitoringSystem.inFlightEvents] at horder hcounted
  cases hflushing : s.accumulator.flushing with
  | none => exact ⟨h.inOrder, h.counted, h.held, h.room⟩
  | some flushing =>
      rw [hflushing] at horder hcounted hheld
      cases flushing with
      | storingEvents events bandwidth => exact ⟨h.inOrder, h.counted, h.held, h.room⟩
      | storingBandwidth bandwidth => exact ⟨h.inOrder, h.counted, h.held, h.room⟩
      | eventsStored events bandwidth =>
          refine ⟨horder, hcounted, rfl, ?_⟩
          change s.accumulator.events.length + 0 ≤ limits.maxPendingEvents
          omega
      | eventsRefused events bandwidth =>
          change (s.persistedEvents ++ events ++ s.accumulator.events).Sublist _ at horder
          change s.recordedEvents.length = s.persistedEvents.length +
            s.accumulator.events.length + events.length + s.takenDrops +
              s.accumulator.droppedEvents at hcounted
          change s.accumulator.inFlightEventCount = events.length at hheld
          have hlength : (events ++ s.accumulator.events).length =
              events.length + s.accumulator.events.length := List.length_append
          have htake : ((events ++ s.accumulator.events).take limits.maxPendingEvents).length =
              events.length + s.accumulator.events.length := by
            rw [List.length_take, hlength]
            omega
          have hdropped : ¬(events ++ s.accumulator.events).length > limits.maxPendingEvents := by
            rw [hlength]
            omega
          refine ⟨?_, ?_, rfl, ?_⟩
          · change (s.persistedEvents ++ [] ++
              (events ++ s.accumulator.events).take limits.maxPendingEvents).Sublist _
            rw [List.append_nil]
            rw [List.append_assoc] at horder
            exact ((List.Sublist.refl _).append (List.take_sublist _ _)).trans horder
          · change s.recordedEvents.length = s.persistedEvents.length +
              ((events ++ s.accumulator.events).take limits.maxPendingEvents).length + 0 +
                s.takenDrops + if (events ++ s.accumulator.events).length > limits.maxPendingEvents
                  then _ else s.accumulator.droppedEvents
            rw [if_neg hdropped, htake]
            omega
          · change ((events ++ s.accumulator.events).take limits.maxPendingEvents).length + 0 ≤ _
            rw [htake]
            omega
      | bandwidthStored => exact ⟨horder, hcounted, hheld, hroom⟩
      | bandwidthRefused bandwidth => exact ⟨horder, hcounted, hheld, hroom⟩
      | settled =>
          refine ⟨horder, hcounted, rfl, ?_⟩
          change s.accumulator.events.length + 0 ≤ limits.maxPendingEvents
          omega

/-! ## Bytes -/

section Bytes

variable {bucket : Bucket} {direction : Direction}

theorem weight_add (key : BandwidthKey) (a b : Traffic) :
    weight bucket direction (key, a.add b) =
      weight bucket direction (key, a) + weight bucket direction (key, b) := by
  rw [weight, weight, weight]
  split
  · cases direction with
    | clientToUpstream => rfl
    | upstreamToClient => rfl
  · rfl

theorem weight_zero (key : BandwidthKey) : weight bucket direction (key, ⟨0, 0⟩) = 0 := by
  rw [weight]
  split
  · cases direction with
    | clientToUpstream => rfl
    | upstreamToClient => rfl
  · rfl

theorem restore_total (bandwidth : Bandwidth) (record : BandwidthKey × Traffic) :
    (StreamMonitoringAccumulator.restore bandwidth record).total (weight bucket direction) =
      bandwidth.total (weight bucket direction) + weight bucket direction record := by
  rw [StreamMonitoringAccumulator.restore]
  cases hget : bandwidth.get? record.1 with
  | some current =>
      have h := bandwidth.total_set_add (weight bucket direction) Traffic.add ⟨0, 0⟩ weight_add
        weight_zero record.1 record.2
      rw [hget, Option.getD_some] at h
      exact h
  | none =>
      have h := bandwidth.total_set (weight bucket direction) record.1 record.2
      rw [hget, Option.elim_none, Nat.add_zero] at h
      exact h

theorem foldl_restore_total (records : List (BandwidthKey × Traffic)) (bandwidth : Bandwidth) :
    (records.foldl StreamMonitoringAccumulator.restore bandwidth).total
        (weight bucket direction) =
      bandwidth.total (weight bucket direction) +
        (records.map (weight bucket direction)).sum := by
  induction records generalizing bandwidth with
  | nil => rfl
  | cons record records ih =>
      rw [List.foldl_cons, ih, restore_total, List.map_cons, List.sum_cons]
      omega

/-- The row that collects other addresses is of the same bucket. -/
theorem recordTraffic_total (a : StreamMonitoringAccumulator ε) (context : StreamTrafficContext)
    (delta : StreamTrafficDelta) (now : Int) :
    (a.recordTraffic limits cases context delta now).bandwidth.total (weight bucket direction) =
      a.bandwidth.total (weight bucket direction) +
        if context.bucket cases now = bucket then direction.of delta.traffic else 0 := by
  rw [StreamMonitoringAccumulator.recordTraffic]
  dsimp only
  split
  · rename_i hzero
    have hnone : direction.of delta.traffic = 0 := by
      cases direction with
      | clientToUpstream => exact Nat.eq_zero_of_add_eq_zero_right hzero
      | upstreamToClient => exact Nat.eq_zero_of_add_eq_zero_left hzero
    rw [hnone, ite_self, Nat.add_zero]
  · have hset := fun key => a.bandwidth.total_set_add (weight bucket direction) Traffic.add ⟨0, 0⟩
      weight_add weight_zero key delta.traffic
    refine (hset _).trans (congrArg (_ + ·) ?_)
    rw [weight]
    dsimp only
    rw [apply_ite BandwidthKey.bucket, ite_self]

end Bytes

def Conserved (s : MonitoringSystem ε) : Prop :=
  ∀ bucket direction, s.persistedBytes bucket direction + s.pendingBytes bucket direction +
    s.inFlightBytes bucket direction = s.recordedBytes bucket direction

theorem conserved_start : Conserved (.start : MonitoringSystem ε) := fun _ _ => rfl

theorem Conserved.recordEvent (h : Conserved s) (event : ε) :
    Conserved (step limits cases s (.recordEvent event)) := by
  rw [step, StreamMonitoringAccumulator.recordEvent]
  split
  · exact h
  · exact h

theorem Conserved.recordTraffic (h : Conserved s) (context : StreamTrafficContext)
    (delta : StreamTrafficDelta) (now : Int) :
    Conserved (step limits cases s (.recordTraffic context delta now)) := by
  intro bucket direction
  have hs := h bucket direction
  have htotal : (s.accumulator.recordTraffic limits cases context delta now).bandwidth.total
      (weight bucket direction) = s.accumulator.bandwidth.total (weight bucket direction) +
        if context.bucket cases now = bucket then direction.of delta.traffic else 0 :=
    recordTraffic_total s.accumulator context delta now
  have hflushing : (s.accumulator.recordTraffic limits cases context delta now).flushing =
      s.accumulator.flushing := by
    rw [StreamMonitoringAccumulator.recordTraffic]
    dsimp only
    split
    · rfl
    · rfl
  rw [MonitoringSystem.pendingBytes, MonitoringSystem.inFlightBytes,
    MonitoringSystem.recordedBytes] at hs ⊢
  rw [step]
  dsimp only
  rw [htotal, hflushing, List.map_append, List.sum_append, ← hs, List.map_cons, List.map_nil,
    List.sum_cons, List.sum_nil]
  change s.persistedBytes bucket direction + _ + _ = _
  dsimp only
  omega

theorem Conserved.flush (h : Conserved s) : Conserved (step limits cases s .flush) := by
  intro bucket direction
  have hs := h bucket direction
  rw [step, StreamMonitoringAccumulator.flush]
  split
  · exact hs
  · rename_i hidle
    have hnone : s.accumulator.flushing = none := Option.not_isSome_iff_eq_none.mp hidle
    split
    · exact hs
    · rw [MonitoringSystem.inFlightBytes, hnone] at hs
      change s.persistedBytes bucket direction + 0 +
        s.accumulator.bandwidth.total (weight bucket direction) = s.recordedBytes bucket direction
      change s.persistedBytes bucket direction +
        s.accumulator.bandwidth.total (weight bucket direction) + 0 = _ at hs
      omega

theorem Conserved.commit (h : Conserved s) : Conserved (commit s) := by
  intro bucket direction
  have hs := h bucket direction
  rw [StreamMonitoring.commit]
  cases hflushing : s.accumulator.flushing with
  | none => exact hs
  | some flushing =>
      rw [MonitoringSystem.inFlightBytes, hflushing] at hs
      cases flushing with
      | storingEvents events bandwidth => exact hs
      | storingBandwidth bandwidth =>
          change s.persistedBytes bucket direction + s.pendingBytes bucket direction +
            bandwidth.total (weight bucket direction) = s.recordedBytes bucket direction at hs
          change ((s.persistedTraffic ++ bandwidth.entries).map (weight bucket direction)).sum +
            s.pendingBytes bucket direction + 0 = s.recordedBytes bucket direction
          rw [List.map_append, List.sum_append]
          change s.persistedBytes bucket direction + bandwidth.total (weight bucket direction) +
            s.pendingBytes bucket direction + 0 = s.recordedBytes bucket direction
          omega
      | eventsStored events bandwidth => exact h bucket direction
      | eventsRefused events bandwidth => exact h bucket direction
      | bandwidthStored => exact h bucket direction
      | bandwidthRefused bandwidth => exact h bucket direction
      | settled => exact h bucket direction

theorem Conserved.refuse (h : Conserved s) : Conserved (refuse s) := by
  intro bucket direction
  have hs := h bucket direction
  rw [StreamMonitoring.refuse]
  cases hflushing : s.accumulator.flushing with
  | none => exact hs
  | some flushing =>
      rw [MonitoringSystem.inFlightBytes, hflushing] at hs
      cases flushing with
      | storingEvents events bandwidth => exact hs
      | storingBandwidth bandwidth => exact hs
      | eventsStored events bandwidth => exact h bucket direction
      | eventsRefused events bandwidth => exact h bucket direction
      | bandwidthStored => exact h bucket direction
      | bandwidthRefused bandwidth => exact h bucket direction
      | settled => exact h bucket direction

/-- A batch that comes back moves from the bytes in flight to those that are pending. -/
theorem conserved_restored {bucket : Bucket} {direction : Direction} {bandwidth : Bandwidth}
    {persisted pending recorded : Nat}
    (h : persisted + pending + bandwidth.total (weight bucket direction) = recorded)
    {held : Bandwidth} (hheld : held.total (weight bucket direction) = pending) :
    persisted + (bandwidth.entries.foldl StreamMonitoringAccumulator.restore held).total
      (weight bucket direction) + 0 = recorded := by
  rw [foldl_restore_total, hheld]
  change persisted + (pending + bandwidth.total (weight bucket direction)) + 0 = recorded
  omega

theorem Conserved.resume (h : Conserved s) : Conserved (step limits cases s .resume) := by
  intro bucket direction
  have hs := h bucket direction
  rw [step, StreamMonitoringAccumulator.resume]
  cases hflushing : s.accumulator.flushing with
  | none => exact hs
  | some flushing =>
      rw [MonitoringSystem.inFlightBytes, hflushing] at hs
      cases flushing with
      | storingEvents events bandwidth => exact h bucket direction
      | storingBandwidth bandwidth => exact h bucket direction
      | eventsStored events bandwidth => exact hs
      | eventsRefused events bandwidth => exact conserved_restored hs rfl
      | bandwidthStored => exact hs
      | bandwidthRefused bandwidth => exact conserved_restored hs rfl
      | settled => exact hs

/-! ## All runs -/

theorem accounts_of_held (hevents : EventsHeld limits s) (hbytes : Conserved s) :
    Accounts limits s :=
  ⟨hevents.inOrder, hevents.counted, hevents.bounded, hbytes⟩

theorem held_step (hevents : EventsHeld limits s) (hbytes : Conserved s)
    (action : MonitoringAction ε) :
    EventsHeld limits (step limits cases s action) ∧ Conserved (step limits cases s action) := by
  cases action with
  | recordEvent event => exact ⟨hevents.recordEvent event, hbytes.recordEvent event⟩
  | recordTraffic context delta now =>
      exact ⟨hevents.recordTraffic context delta now, hbytes.recordTraffic context delta now⟩
  | takeDroppedEventCount => exact ⟨hevents.takeDroppedEventCount, hbytes⟩
  | flush => exact ⟨hevents.flush, hbytes.flush⟩
  | commit => exact ⟨hevents.commit, hbytes.commit⟩
  | refuse => exact ⟨hevents.refuse, hbytes.refuse⟩
  | resume => exact ⟨hevents.resume, hbytes.resume⟩

theorem monitoring_accounts (limits : Limits) (cases : CaseTable)
    (actions : List (MonitoringAction ε)) : Accounts limits (run limits cases actions) := by
  -- by induction on the actions still to come
  have hrun : ∀ (actions : List (MonitoringAction ε)) (s : MonitoringSystem ε),
      EventsHeld limits s → Conserved s →
        Accounts limits (actions.foldl (step limits cases) s) := by
    intro actions
    induction actions with
    | nil => exact fun s hevents hbytes => accounts_of_held hevents hbytes
    | cons action actions ih =>
        intro s hevents hbytes
        obtain ⟨hevents', hbytes'⟩ := held_step hevents hbytes action
        exact ih _ hevents' hbytes'
  exact hrun actions .start eventsHeld_start conserved_start

end BurrowGate.StreamMonitoring
