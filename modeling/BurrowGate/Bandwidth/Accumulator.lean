import BurrowGate.Js.Text
import BurrowGate.Lib.OrderedMap
import BurrowGate.Lib.Run
import Mathlib.Data.Rat.Floor

/-!
# `bandwidth-service.ts`: `BandwidthAccumulator`

A record of a minute is an entry of the map: `recordKey` names its row, the counters
are its bytes. `persist` is atomic; while it runs the batch is part of `flushPromise`.
A promise that has an outcome is still there until `finally` runs, which is the state
`settled`. Byte counters are exact, as doubles are below 2^53.

`BandwidthSystem` adds what no step reads: the bytes of every call of `record`, the
batches persisted, and which sites were blocked.
-/

namespace BurrowGate.Bandwidth

open Js
open Lib

abbrev SiteId : Type := List Char

inductive BandwidthProtocol
  | http
  | websocket
  deriving DecidableEq

structure BandwidthContext where
  siteId : SiteId
  ip : List Char
  countryCode : Option (List Char)
  protocol : BandwidthProtocol

/-- A member is none when it is missing or not finite. -/
structure BandwidthDelta where
  clientReceivedBytes : Option ℚ := none
  clientSentBytes : Option ℚ := none
  upstreamSentBytes : Option ℚ := none
  upstreamReceivedBytes : Option ℚ := none

/-- The members of the JSON array that `recordKey` writes. -/
structure RecordKey where
  siteId : SiteId
  bucketStart : Nat
  ip : List Char
  countryCode : List Char
  protocol : BandwidthProtocol
  deriving DecidableEq

structure ByteCounters where
  clientReceivedBytes : Nat
  clientSentBytes : Nat
  upstreamSentBytes : Nat
  upstreamReceivedBytes : Nat
  deriving DecidableEq

instance : Add ByteCounters where
  add a b :=
    { clientReceivedBytes := a.clientReceivedBytes + b.clientReceivedBytes
      clientSentBytes := a.clientSentBytes + b.clientSentBytes
      upstreamSentBytes := a.upstreamSentBytes + b.upstreamSentBytes
      upstreamReceivedBytes := a.upstreamReceivedBytes + b.upstreamReceivedBytes }

def ByteCounters.zero : ByteCounters := ⟨0, 0, 0, 0⟩

def positiveBytes : Option ℚ → Nat
  | some value => if 0 < value then value.floor.toNat else 0
  | none => 0

/-- The bytes `addDelta` adds. -/
def BandwidthDelta.bytes (delta : BandwidthDelta) : ByteCounters :=
  { clientReceivedBytes := positiveBytes delta.clientReceivedBytes
    clientSentBytes := positiveBytes delta.clientSentBytes
    upstreamSentBytes := positiveBytes delta.upstreamSentBytes
    upstreamReceivedBytes := positiveBytes delta.upstreamReceivedBytes }

def addDelta (record : ByteCounters) (delta : BandwidthDelta) : ByteCounters := record + delta.bytes

def hasBytes (delta : BandwidthDelta) : Bool :=
  0 < delta.bytes.clientReceivedBytes + delta.bytes.clientSentBytes +
    delta.bytes.upstreamSentBytes + delta.bytes.upstreamReceivedBytes

/-- `UNKNOWN_COUNTRY_CODE` -/
def unknownCountryCode : List Char := ['Z', 'Z']

def isUpperLetter (c : Char) : Bool := 'A' ≤ c && c ≤ 'Z'

/-- `toUpperCase` is `String.prototype.toUpperCase`. -/
def storedCountryCode (toUpperCase : List Char → List Char) (value : Option (List Char)) :
    List Char :=
  match value.map fun v => toUpperCase (trim v) with
  | some [a, b] => if isUpperLetter a && isUpperLetter b then [a, b] else unknownCountryCode
  | _ => unknownCountryCode

/-! ## The accumulator -/

inductive FlushPromise
  | idle
  | persisting (batch : OrderedMap RecordKey ByteCounters)
  | settled

structure BandwidthAccumulator where
  pending : OrderedMap RecordKey ByteCounters
  flushPromise : FlushPromise
  blockedSiteIds : List SiteId

structure BandwidthEnv where
  maxPendingKeys : Nat
  toUpperCase : List Char → List Char

def bucketStart (now : Nat) : Nat := now / 60000 * 60000

/-- The row of a call, before the ceiling on the number of rows is looked at. -/
def contextKey (env : BandwidthEnv) (context : BandwidthContext) (now : Nat) : RecordKey :=
  { siteId := context.siteId
    bucketStart := bucketStart now
    ip := if context.ip = [] then "unknown".toList else context.ip
    countryCode := storedCountryCode env.toUpperCase context.countryCode
    protocol := context.protocol }

def record (env : BandwidthEnv) (b : BandwidthAccumulator) (context : BandwidthContext)
    (delta : BandwidthDelta) (now : Nat) : BandwidthAccumulator :=
  if b.blockedSiteIds.contains context.siteId || !hasBytes delta then b
  else
    let key := contextKey env context now
    let key :=
      if (b.pending.get? key).isNone && env.maxPendingKeys ≤ b.pending.size then
        { key with ip := "__other__".toList }
      else key
    let current := (b.pending.get? key).getD .zero
    { b with pending := b.pending.set key (addDelta current delta) }

def blockSite (b : BandwidthAccumulator) (siteId : SiteId) : BandwidthAccumulator :=
  { b with
    blockedSiteIds :=
      if b.blockedSiteIds.contains siteId then b.blockedSiteIds else b.blockedSiteIds ++ [siteId]
    pending := b.pending.filter fun e => e.1.siteId ≠ siteId }

def resumeSite (b : BandwidthAccumulator) (siteId : SiteId) : BandwidthAccumulator :=
  { b with blockedSiteIds := b.blockedSiteIds.filter (· ≠ siteId) }

/-- A call while a flush is in flight, or without a record, starts nothing. -/
def flush (b : BandwidthAccumulator) : BandwidthAccumulator :=
  match b.flushPromise with
  | .idle =>
      if b.pending.size = 0 then b
      else { b with pending := .empty, flushPromise := .persisting b.pending }
  | .persisting _ | .settled => b

/-- What the `catch` does with one record of the batch. -/
def restoreRecord (pending : OrderedMap RecordKey ByteCounters) (e : RecordKey × ByteCounters) :
    OrderedMap RecordKey ByteCounters :=
  match pending.get? e.1 with
  | some current => pending.set e.1 (current + e.2)
  | none => pending.set e.1 e.2

/-! ## Runs -/

/-- What the bytes are counted by: the row without its address. -/
structure RecordClass where
  siteId : SiteId
  bucketStart : Nat
  countryCode : List Char
  protocol : BandwidthProtocol
  deriving DecidableEq

def RecordKey.recordClass (key : RecordKey) : RecordClass :=
  ⟨key.siteId, key.bucketStart, key.countryCode, key.protocol⟩

/-- `silenced` as in `BandwidthSystem`, at the time the batch was persisted. -/
structure PersistedBatch where
  records : OrderedMap RecordKey ByteCounters
  silenced : List SiteId

/-- `silenced` has the blocked sites for which there was a moment without a flush in flight
since they were blocked. -/
structure BandwidthSystem where
  accumulator : BandwidthAccumulator
  recorded : List (RecordClass × ByteCounters)
  persisted : List PersistedBatch
  everBlocked : List SiteId
  silenced : List SiteId

inductive BandwidthAction
  | record (context : BandwidthContext) (delta : BandwidthDelta) (now : Nat)
  | blockSite (siteId : SiteId)
  | resumeSite (siteId : SiteId)
  | flush
  | persisted
  | persistFailed
  | settled

def BandwidthSystem.Initial (s : BandwidthSystem) : Prop :=
  s.accumulator = ⟨.empty, .idle, []⟩ ∧ s.recorded = [] ∧ s.persisted = [] ∧ s.everBlocked = [] ∧
    s.silenced = []

def bandwidthStep (env : BandwidthEnv) (s : BandwidthSystem) :
    BandwidthAction → Option BandwidthSystem
  | .record context delta now =>
      some { s with
        accumulator := record env s.accumulator context delta now
        recorded := s.recorded ++ [((contextKey env context now).recordClass, delta.bytes)] }
  | .blockSite siteId =>
      let accumulator := blockSite s.accumulator siteId
      some { s with
        accumulator
        everBlocked := siteId :: s.everBlocked
        silenced := match s.accumulator.flushPromise with
          | .idle => accumulator.blockedSiteIds
          | .persisting _ | .settled => s.silenced }
  | .resumeSite siteId =>
      some { s with
        accumulator := resumeSite s.accumulator siteId
        silenced := s.silenced.filter (· ≠ siteId) }
  | .flush => some { s with accumulator := flush s.accumulator }
  | .persisted =>
      match s.accumulator.flushPromise with
      | .persisting batch =>
          some { s with
            accumulator := { s.accumulator with flushPromise := .settled }
            persisted := s.persisted ++ [⟨batch, s.silenced⟩] }
      | .idle | .settled => none
  | .persistFailed =>
      match s.accumulator.flushPromise with
      | .persisting batch =>
          some { s with
            accumulator :=
              { s.accumulator with
                flushPromise := .settled
                pending := batch.entries.foldl restoreRecord s.accumulator.pending } }
      | .idle | .settled => none
  | .settled =>
      match s.accumulator.flushPromise with
      | .settled =>
          some { s with
            accumulator := { s.accumulator with flushPromise := .idle }
            silenced := s.accumulator.blockedSiteIds }
      | .idle | .persisting _ => none

end BurrowGate.Bandwidth
