import BurrowGate.Bandwidth.Accumulator

/-!
# Bytes are conserved, and a blocked site is silent

The bytes of a class are counted in four places: recorded, pending, in the batch in
flight, persisted. A failed batch goes back into the pending map, whatever sites were
blocked while it was in flight; `RestoresUnblocked` is the condition that none was.
-/

namespace BurrowGate.Bandwidth

open Lib
open Lib.Run

variable {env : BandwidthEnv}

/-! ## Counting -/

/-- The four counters. -/
inductive Counter
  | clientReceived
  | clientSent
  | upstreamSent
  | upstreamReceived

def Counter.of : Counter → ByteCounters → Nat
  | .clientReceived, b => b.clientReceivedBytes
  | .clientSent, b => b.clientSentBytes
  | .upstreamSent, b => b.upstreamSentBytes
  | .upstreamReceived, b => b.upstreamReceivedBytes

@[simp] theorem Counter.of_add (f : Counter) (a b : ByteCounters) : f.of (a + b) = f.of a + f.of b := by
  cases f <;> rfl

@[simp] theorem Counter.of_zero (f : Counter) : f.of .zero = 0 := by
  cases f <;> rfl

/-- The bytes an entry has in a class. -/
def bytesOf (c : RecordClass) (f : Counter) (e : RecordKey × ByteCounters) : Nat :=
  if e.1.recordClass = c then f.of e.2 else 0

def recordedBytes (s : BandwidthSystem) (c : RecordClass) (f : Counter) : Nat :=
  (s.recorded.map fun r => if r.1 = c then f.of r.2 else 0).sum

def pendingBytes (s : BandwidthSystem) (c : RecordClass) (f : Counter) : Nat :=
  s.accumulator.pending.total (bytesOf c f)

def FlushPromise.bytes (c : RecordClass) (f : Counter) : FlushPromise → Nat
  | .persisting batch => batch.total (bytesOf c f)
  | .idle | .settled => 0

def inFlightBytes (s : BandwidthSystem) (c : RecordClass) (f : Counter) : Nat :=
  s.accumulator.flushPromise.bytes c f

def persistedBytes (s : BandwidthSystem) (c : RecordClass) (f : Counter) : Nat :=
  (s.persisted.map fun p => p.records.total (bytesOf c f)).sum

/-! ## The two properties -/

/-- No byte is counted twice, and none is lost of a site that was never blocked. -/
def Conserved (s : BandwidthSystem) : Prop :=
  ∀ c f,
    persistedBytes s c f + pendingBytes s c f + inFlightBytes s c f ≤ recordedBytes s c f ∧
      (c.siteId ∉ s.everBlocked →
        persistedBytes s c f + pendingBytes s c f + inFlightBytes s c f = recordedBytes s c f)

/-- While no flush is in flight a blocked site has no pending record, and from such a moment
on no record of it is persisted until it is resumed. -/
def BlockedSilent (s : BandwidthSystem) : Prop :=
  (s.accumulator.flushPromise = .idle →
    ∀ siteId ∈ s.accumulator.blockedSiteIds, ∀ e ∈ s.accumulator.pending.entries,
      e.1.siteId ≠ siteId) ∧
    ∀ p ∈ s.persisted, ∀ e ∈ p.records.entries, e.1.siteId ∉ p.silenced

def FlushPromise.records : FlushPromise → List (RecordKey × ByteCounters)
  | .persisting batch => batch.entries
  | .idle | .settled => []

/-- A batch that fails has no record of a site that is blocked at that time. -/
def RestoresUnblocked (s : BandwidthSystem) : BandwidthAction → Prop
  | .persistFailed =>
      ∀ e ∈ s.accumulator.flushPromise.records,
        s.accumulator.blockedSiteIds.contains e.1.siteId = false
  | _ => True

/-! ## Conservation -/

section Conservation

variable {c : RecordClass} {f : Counter}

theorem bytesOf_add (k : RecordKey) (a b : ByteCounters) :
    bytesOf c f (k, a + b) = bytesOf c f (k, a) + bytesOf c f (k, b) := by
  simp only [bytesOf]
  split
  · exact f.of_add a b
  · rfl

/-- Adding to the counters of a key, present or not, adds to its class. -/
theorem total_set_add (m : OrderedMap RecordKey ByteCounters) (k : RecordKey) (b : ByteCounters) :
    (m.set k ((m.get? k).getD .zero + b)).total (bytesOf c f) =
      m.total (bytesOf c f) + bytesOf c f (k, b) := by
  have hzero : ∀ k, bytesOf c f (k, ByteCounters.zero) = 0 := by
    intro k
    simp [bytesOf]
  exact m.total_set_add (bytesOf c f) (· + ·) .zero bytesOf_add hzero k b

theorem restoreRecord_total (m : OrderedMap RecordKey ByteCounters) (e : RecordKey × ByteCounters) :
    (restoreRecord m e).total (bytesOf c f) = m.total (bytesOf c f) + bytesOf c f e := by
  rw [restoreRecord]
  cases he : m.get? e.1 with
  | some current =>
      have h := total_set_add (c := c) (f := f) m e.1 e.2
      rw [he] at h
      exact h
  | none =>
      have h := m.total_set (bytesOf c f) e.1 e.2
      rw [he] at h
      exact h

theorem foldl_restoreRecord_total (m : OrderedMap RecordKey ByteCounters)
    (es : List (RecordKey × ByteCounters)) :
    (es.foldl restoreRecord m).total (bytesOf c f) =
      m.total (bytesOf c f) + (es.map (bytesOf c f)).sum := by
  induction es generalizing m with
  | nil => rfl
  | cons e es ih =>
      rw [List.foldl_cons, ih, restoreRecord_total, List.map_cons, List.sum_cons]
      omega

theorem bytes_of_not_hasBytes {delta : BandwidthDelta} (h : hasBytes delta = false) :
    f.of delta.bytes = 0 := by
  have hsum := of_decide_eq_false h
  cases f <;> simp only [Counter.of] <;> omega

theorem record_pendingBytes {b : BandwidthAccumulator} {context : BandwidthContext}
    {delta : BandwidthDelta} {now : Nat} :
    (record env b context delta now).pending.total (bytesOf c f) =
      b.pending.total (bytesOf c f) +
        if b.blockedSiteIds.contains context.siteId then 0
        else bytesOf c f (contextKey env context now, delta.bytes) := by
  rw [record]
  cases hblocked : b.blockedSiteIds.contains context.siteId with
  | true => simp
  | false =>
      cases hbytes : hasBytes delta with
      | false => simp [bytesOf, bytes_of_not_hasBytes hbytes]
      | true =>
          simp only [Bool.not_true, Bool.or_false, Bool.false_eq_true, if_false, addDelta]
          rw [total_set_add]
          -- the overflow row has another address and the same class
          split <;> rfl

theorem record_flushPromise {b : BandwidthAccumulator} {context : BandwidthContext}
    {delta : BandwidthDelta} {now : Nat} :
    (record env b context delta now).flushPromise = b.flushPromise ∧
      (record env b context delta now).blockedSiteIds = b.blockedSiteIds := by
  rw [record]
  split <;> exact ⟨rfl, rfl⟩

end Conservation

/-- Conservation, and that a blocked site is one that was blocked. -/
structure Accounted (s : BandwidthSystem) : Prop where
  blocked : ∀ siteId ∈ s.accumulator.blockedSiteIds, siteId ∈ s.everBlocked
  conserved : Conserved s

theorem accounted_initial {s : BandwidthSystem} (h : s.Initial) : Accounted s := by
  obtain ⟨haccumulator, hrecorded, hpersisted, -, -⟩ := h
  refine ⟨by simp [haccumulator], fun c f => ?_⟩
  have hzero : persistedBytes s c f + pendingBytes s c f + inFlightBytes s c f = 0 := by
    simp only [persistedBytes, hpersisted, pendingBytes, haccumulator, inFlightBytes,
      FlushPromise.bytes]
    rfl
  have hnone : recordedBytes s c f = 0 := by simp [recordedBytes, hrecorded]
  omega

theorem accounted_record {s : BandwidthSystem} (hs : Accounted s) (context : BandwidthContext)
    (delta : BandwidthDelta) (now : Nat) {s' : BandwidthSystem}
    (h : bandwidthStep env s (.record context delta now) = some s') : Accounted s' := by
  obtain rfl := Option.some.inj h
  obtain ⟨hflush, hblocked⟩ := @record_flushPromise env s.accumulator context delta now
  refine ⟨fun siteId hsite => hs.blocked siteId (hblocked ▸ hsite), fun c f => ?_⟩
  have hbytes := @record_pendingBytes env c f s.accumulator context delta now
  obtain ⟨hle, heq⟩ := hs.conserved c f
  simp only [persistedBytes, pendingBytes, inFlightBytes, recordedBytes] at hle heq ⊢
  simp only [hflush, List.map_append, List.map_cons, List.map_nil, List.sum_append, List.sum_cons,
    List.sum_nil, Nat.add_zero, hbytes]
  have hcall : bytesOf c f (contextKey env context now, delta.bytes) =
      if (contextKey env context now).recordClass = c then f.of delta.bytes else 0 := rfl
  rw [← hcall]
  by_cases hin : s.accumulator.blockedSiteIds.contains context.siteId
  · simp only [hin, if_true]
    refine ⟨by omega, fun hnever => ?_⟩
    have hother : (contextKey env context now).recordClass ≠ c := by
      rintro rfl
      exact hnever (hs.blocked _ (List.contains_iff_mem.mp hin))
    have := heq hnever
    rw [hcall, if_neg hother]
    omega
  · simp only [hin, if_false, Bool.false_eq_true]
    refine ⟨by omega, fun hnever => ?_⟩
    have := heq hnever
    omega

theorem accounted_blockSite {s : BandwidthSystem} (hs : Accounted s) (siteId : SiteId)
    {s' : BandwidthSystem} (h : bandwidthStep env s (.blockSite siteId) = some s') :
    Accounted s' := by
  obtain rfl := Option.some.inj h
  refine ⟨fun x hx => ?_, fun c f => ?_⟩
  · simp only [blockSite] at hx
    split at hx
    · exact List.mem_cons_of_mem _ (hs.blocked x hx)
    · rcases List.mem_snoc.mp hx with hx | hx
      · exact List.mem_cons_of_mem _ (hs.blocked x hx)
      · exact hx ▸ List.mem_cons_self
  · have hfewer := s.accumulator.pending.total_filter_le (fun e => e.1.siteId ≠ siteId)
      (bytesOf c f)
    obtain ⟨hle, heq⟩ := hs.conserved c f
    simp only [persistedBytes, pendingBytes, inFlightBytes, recordedBytes, blockSite] at hle heq ⊢
    refine ⟨by omega, fun hnever => ?_⟩
    obtain ⟨hother, hbefore⟩ := List.ne_and_not_mem_of_not_mem_cons hnever
    have hsame : (s.accumulator.pending.filter fun e => e.1.siteId ≠ siteId).total (bytesOf c f) =
        s.accumulator.pending.total (bytesOf c f) := by
      refine s.accumulator.pending.total_filter_eq fun e he => ?_
      have hsite : e.1.siteId = siteId := by simpa using he
      have hclass : e.1.recordClass ≠ c := by
        rintro rfl
        exact hother hsite
      exact if_neg hclass
    have := heq hbefore
    omega

theorem accounted_step {s s' : BandwidthSystem} {a : BandwidthAction} (hs : Accounted s)
    (h : bandwidthStep env s a = some s') : Accounted s' := by
  cases a with
  | record context delta now => exact accounted_record hs context delta now h
  | blockSite siteId => exact @accounted_blockSite env s hs siteId s' h
  | resumeSite siteId =>
      obtain rfl := Option.some.inj h
      exact ⟨fun x hx => hs.blocked x (List.mem_filter.mp hx).1, hs.conserved⟩
  | flush =>
      obtain rfl := Option.some.inj h
      refine ⟨fun x hx => hs.blocked x ?_, fun c f => ?_⟩
      · simp only [flush] at hx
        split at hx
        · split at hx <;> exact hx
        · exact hx
        · exact hx
      · have hc := hs.conserved c f
        simp only [persistedBytes, pendingBytes, inFlightBytes, recordedBytes, flush] at hc ⊢
        split
        · next hidle =>
          split
          · exact hc
          · have hempty : (OrderedMap.empty : OrderedMap RecordKey ByteCounters).total
              (bytesOf c f) = 0 := rfl
            simp only [hidle, FlushPromise.bytes, hempty] at hc ⊢
            omega
        · exact hc
        · exact hc
  | persisted =>
      simp only [bandwidthStep] at h
      split at h
      · next batch hbatch =>
        obtain rfl := Option.some.inj h
        refine ⟨hs.blocked, fun c f => ?_⟩
        obtain ⟨hle, heq⟩ := hs.conserved c f
        simp only [persistedBytes, pendingBytes, inFlightBytes, recordedBytes, hbatch,
          FlushPromise.bytes, List.map_append, List.map_cons, List.map_nil, List.sum_append,
          List.sum_cons, List.sum_nil] at hle heq ⊢
        refine ⟨by omega, fun hnever => ?_⟩
        have := heq hnever
        omega
      · cases h
      · cases h
  | persistFailed =>
      simp only [bandwidthStep] at h
      split at h
      · next batch hbatch =>
        obtain rfl := Option.some.inj h
        refine ⟨hs.blocked, fun c f => ?_⟩
        obtain ⟨hle, heq⟩ := hs.conserved c f
        have hback := foldl_restoreRecord_total (c := c) (f := f) s.accumulator.pending
          batch.entries
        have hbytes : (batch.entries.map (bytesOf c f)).sum = batch.total (bytesOf c f) := rfl
        simp only [persistedBytes, pendingBytes, inFlightBytes, recordedBytes, hbatch,
          FlushPromise.bytes, hback, hbytes] at hle heq ⊢
        refine ⟨by omega, fun hnever => ?_⟩
        have := heq hnever
        omega
      · cases h
      · cases h
  | settled =>
      simp only [bandwidthStep] at h
      split at h
      · next hsettled =>
        obtain rfl := Option.some.inj h
        refine ⟨hs.blocked, fun c f => ?_⟩
        have hc := hs.conserved c f
        simp only [persistedBytes, pendingBytes, inFlightBytes, recordedBytes, hsettled,
          FlushPromise.bytes] at hc ⊢
        exact hc
      · cases h
      · cases h

/-! ## Silence -/

/-- Pending records are of sites that are not blocked; the batch in flight has none of a site
that was blocked before a moment without a flush. -/
structure Silent (s : BandwidthSystem) : Prop where
  pending : ∀ e ∈ s.accumulator.pending.entries, e.1.siteId ∉ s.accumulator.blockedSiteIds
  silenced : ∀ siteId ∈ s.silenced, siteId ∈ s.accumulator.blockedSiteIds
  batch : ∀ batch, s.accumulator.flushPromise = .persisting batch →
    ∀ e ∈ batch.entries, e.1.siteId ∉ s.silenced
  persisted : ∀ p ∈ s.persisted, ∀ e ∈ p.records.entries, e.1.siteId ∉ p.silenced

theorem silent_initial {s : BandwidthSystem} (h : s.Initial) : Silent s := by
  obtain ⟨haccumulator, -, hpersisted, -, hsilenced⟩ := h
  constructor
  · simp [haccumulator, OrderedMap.empty]
  · simp [hsilenced]
  · simp [hsilenced]
  · simp [hpersisted]

theorem mem_set {m : OrderedMap RecordKey ByteCounters} {k : RecordKey} {v : ByteCounters}
    {e : RecordKey × ByteCounters} (h : e ∈ (m.set k v).entries) :
    e.1 = k ∨ e ∈ m.entries := by
  have hget : (m.set k v).get? e.1 = some e.2 := OrderedMap.get?_eq_some.mpr h
  by_cases hk : e.1 = k
  · exact .inl hk
  · rw [OrderedMap.get?_set_ne m v hk] at hget
    exact .inr (OrderedMap.get?_eq_some.mp hget)

theorem mem_restoreRecord {m : OrderedMap RecordKey ByteCounters}
    {e x : RecordKey × ByteCounters} (h : x ∈ (restoreRecord m e).entries) :
    x.1 = e.1 ∨ x ∈ m.entries := by
  rw [restoreRecord] at h
  split at h
  · exact mem_set h
  · exact mem_set h

theorem mem_foldl_restoreRecord {m : OrderedMap RecordKey ByteCounters}
    {es : List (RecordKey × ByteCounters)} {x : RecordKey × ByteCounters}
    (h : x ∈ (es.foldl restoreRecord m).entries) : (∃ e ∈ es, x.1 = e.1) ∨ x ∈ m.entries := by
  induction es generalizing m with
  | nil => exact .inr h
  | cons e es ih =>
      rcases ih h with ⟨e', he', hx⟩ | hx
      · exact .inl ⟨e', List.mem_cons_of_mem _ he', hx⟩
      · rcases mem_restoreRecord hx with hx | hx
        · exact .inl ⟨e, List.mem_cons_self, hx⟩
        · exact .inr hx

/-- `record` adds records of sites that are not blocked. -/
theorem mem_record {b : BandwidthAccumulator} {context : BandwidthContext} {delta : BandwidthDelta}
    {now : Nat} {e : RecordKey × ByteCounters}
    (h : e ∈ (record env b context delta now).pending.entries) :
    e.1.siteId ∉ b.blockedSiteIds ∨ e ∈ b.pending.entries := by
  rw [record] at h
  split at h
  · exact .inr h
  · next hrefused =>
    have hfree : context.siteId ∉ b.blockedSiteIds := by
      intro hmem
      exact hrefused (by rw [List.contains_iff_mem.mpr hmem]; rfl)
    rcases mem_set h with hkey | hold
    · left
      rw [hkey]
      split <;> exact hfree
    · exact .inr hold

theorem silent_blockSite {s : BandwidthSystem} (hs : Silent s) (siteId : SiteId)
    {s' : BandwidthSystem} (h : bandwidthStep env s (.blockSite siteId) = some s') : Silent s' := by
  obtain rfl := Option.some.inj h
  have hmono : ∀ x ∈ s.accumulator.blockedSiteIds,
      x ∈ (blockSite s.accumulator siteId).blockedSiteIds := by
    intro x hx
    simp only [blockSite]
    split
    · exact hx
    · exact List.mem_append_left _ hx
  refine ⟨fun e he hblocked => ?_, fun x hx => ?_, fun batch hbatch e he => ?_, hs.persisted⟩
  · obtain ⟨hmem, hsite⟩ := List.mem_filter.mp he
    have hne : e.1.siteId ≠ siteId := by simpa using hsite
    simp only [blockSite] at hblocked
    split at hblocked
    · exact hs.pending e hmem hblocked
    · rcases List.mem_snoc.mp hblocked with hblocked | hblocked
      · exact hs.pending e hmem hblocked
      · exact hne hblocked
  · split at hx
    · exact hx
    · exact hmono x (hs.silenced x hx)
    · exact hmono x (hs.silenced x hx)
  · have hbatch' : s.accumulator.flushPromise = .persisting batch := hbatch
    simp only [hbatch']
    exact hs.batch batch hbatch e he

theorem silent_step {s s' : BandwidthSystem} {a : BandwidthAction} (hs : Silent s)
    (hcond : RestoresUnblocked s a) (h : bandwidthStep env s a = some s') : Silent s' := by
  cases a with
  | record context delta now =>
      obtain rfl := Option.some.inj h
      obtain ⟨hflush, hblocked⟩ := @record_flushPromise env s.accumulator context delta now
      refine ⟨fun e he => ?_, fun x hx => ?_, fun batch hbatch => ?_, hs.persisted⟩
      · rw [hblocked]
        exact (mem_record he).elim id (hs.pending e)
      · rw [hblocked]
        exact hs.silenced x hx
      · exact hs.batch batch (hflush ▸ hbatch)
  | blockSite siteId => exact @silent_blockSite env s hs siteId s' h
  | resumeSite siteId =>
      obtain rfl := Option.some.inj h
      refine ⟨fun e he hmem => hs.pending e he (List.mem_filter.mp hmem).1, fun x hx => ?_,
        fun batch hbatch e he hmem => hs.batch batch hbatch e he (List.mem_filter.mp hmem).1,
        hs.persisted⟩
      obtain ⟨hsilenced, hne⟩ := List.mem_filter.mp hx
      exact List.mem_filter.mpr ⟨hs.silenced x hsilenced, hne⟩
  | flush =>
      obtain rfl := Option.some.inj h
      by_cases hstarts : s.accumulator.flushPromise = .idle ∧ s.accumulator.pending.size ≠ 0
      · obtain ⟨hidle, hsize⟩ := hstarts
        have hflush : flush s.accumulator =
            { s.accumulator with pending := .empty, flushPromise := .persisting s.accumulator.pending } := by
          rw [flush, hidle]
          exact if_neg hsize
        rw [hflush]
        refine ⟨by simp [OrderedMap.empty], hs.silenced, fun batch hbatch e he hmem => ?_,
          hs.persisted⟩
        obtain rfl := FlushPromise.persisting.inj hbatch
        exact hs.pending e he (hs.silenced _ hmem)
      · have hsame : flush s.accumulator = s.accumulator := by
          rw [flush]
          split
          · next hidle => exact if_pos (by_contra fun hsize => hstarts ⟨hidle, hsize⟩)
          · rfl
          · rfl
        rw [hsame]
        exact hs
  | persisted =>
      simp only [bandwidthStep] at h
      split at h
      · next batch hbatch =>
        obtain rfl := Option.some.inj h
        refine ⟨hs.pending, hs.silenced, (fun _ hother => by cases hother), fun p hp => ?_⟩
        rcases List.mem_snoc.mp hp with hp | rfl
        · exact hs.persisted p hp
        · exact hs.batch batch hbatch
      · cases h
      · cases h
  | persistFailed =>
      simp only [bandwidthStep] at h
      split at h
      · next batch hbatch =>
        obtain rfl := Option.some.inj h
        refine ⟨fun e he => ?_, hs.silenced, (fun _ hother => by cases hother), hs.persisted⟩
        simp only [RestoresUnblocked, hbatch, FlushPromise.records] at hcond
        rcases mem_foldl_restoreRecord he with ⟨x, hx, hkey⟩ | hold
        · rw [hkey]
          simpa using hcond x hx
        · exact hs.pending e hold
      · cases h
      · cases h
  | settled =>
      simp only [bandwidthStep] at h
      split at h
      · obtain rfl := Option.some.inj h
        exact ⟨hs.pending, fun x hx => hx, (fun _ hother => by cases hother), hs.persisted⟩
      · cases h
      · cases h

/-! ## Every run -/

/-- Bytes are conserved on every run. A blocked site is silent on the runs in which no batch
fails that has records of a site blocked at that time. -/
theorem bandwidth_conserved :
    (∀ s, Reach (bandwidthStep env) Any BandwidthSystem.Initial s → Conserved s) ∧
      ∀ s, Reach (bandwidthStep env) RestoresUnblocked BandwidthSystem.Initial s →
        BlockedSilent s := by
  constructor
  · intro s h
    have hs : Accounted s := h.invariant (fun _ => accounted_initial)
      fun _ _ _ _ hs _ hstep => accounted_step hs hstep
    exact hs.conserved
  · intro s h
    have hs : Silent s := h.invariant (fun _ => silent_initial)
      fun _ _ _ _ hs hcond hstep => silent_step hs hcond hstep
    refine ⟨fun _ siteId hsite e he heq => hs.pending e he (heq ▸ hsite), hs.persisted⟩

section BlockedWhileInFlight

def plainEnv : BandwidthEnv := { maxPendingKeys := 100, toUpperCase := fun cs => cs.map Char.toUpper }

def BandwidthSystem.start : BandwidthSystem := ⟨⟨.empty, .idle, []⟩, [], [], [], []⟩

theorem start_initial : BandwidthSystem.start.Initial := ⟨rfl, rfl, rfl, rfl, rfl⟩

def received (siteId : String) (bytes : ℚ) : BandwidthAction :=
  .record ⟨siteId.toList, "203.0.113.9".toList, some "be".toList, .http⟩
    { clientReceivedBytes := some bytes } 0

/-- A flush fails, its record goes back and meets a later one of the same row. Another site is
blocked meanwhile. -/
def retriedFlush : List BandwidthAction :=
  [received "s1" 100, .flush, received "s1" 20, received "s2" 7, .blockSite "s2".toList,
    .persistFailed, .settled, .flush, .persisted, .settled]

/-- The site is blocked while its record is in flight. -/
def blockedFlush : List BandwidthAction :=
  [received "s1" 100, .flush, .blockSite "s1".toList, .persistFailed, .settled]

instance : ∀ s a, Decidable (RestoresUnblocked s a)
  | s, .persistFailed =>
      inferInstanceAs (Decidable (∀ e ∈ s.accumulator.flushPromise.records, _))
  | _, .record .. | _, .blockSite _ | _, .resumeSite _ | _, .flush | _, .persisted | _, .settled =>
      isTrue trivial

theorem bandwidth_conserved_retried :
    ∃ s, execIf (bandwidthStep plainEnv) RestoresUnblocked BandwidthSystem.start retriedFlush =
        some s ∧ (s.persisted.length = 1 ∧ "s2".toList ∈ s.accumulator.blockedSiteIds) ∧
      Conserved s ∧ BlockedSilent s := by
  obtain ⟨s, hs, hend⟩ := (Option.any_eq_true ..).mp
    (show (execIf (bandwidthStep plainEnv) RestoresUnblocked BandwidthSystem.start retriedFlush).any
      (fun s => s.persisted.length = 1 ∧ "s2".toList ∈ s.accumulator.blockedSiteIds)
        = true by decide +kernel)
  have hreach := execIf_reach (.start start_initial) hs
  obtain ⟨hconserved, hsilent⟩ := @bandwidth_conserved plainEnv
  exact ⟨s, hs, of_decide_eq_true hend, hconserved s hreach.any, hsilent s hreach⟩

/-- Blocked, no flush in flight, and a record of the site is pending. -/
def BandwidthSystem.pendingBlocked (s : BandwidthSystem) (siteId : SiteId) : Bool :=
  (match s.accumulator.flushPromise with
    | .idle => true
    | .persisting _ | .settled => false) &&
    s.accumulator.blockedSiteIds.contains siteId &&
      s.accumulator.pending.entries.any fun e => e.1.siteId = siteId

theorem not_pendingBlocked {s : BandwidthSystem} (h : BlockedSilent s) (siteId : SiteId) :
    s.pendingBlocked siteId = false := by
  refine Bool.eq_false_iff.mpr fun hpending => ?_
  simp only [BandwidthSystem.pendingBlocked, Bool.and_eq_true, List.any_eq_true,
    decide_eq_true_eq] at hpending
  obtain ⟨⟨hidle, hblocked⟩, e, he, hsite⟩ := hpending
  split at hidle
  · next hflush => exact h.1 hflush siteId (List.contains_iff_mem.mp hblocked) e he hsite
  · cases hidle
  · cases hidle

theorem blocked_site_pending :
    ¬ ∀ s, Reach (bandwidthStep plainEnv) Any BandwidthSystem.Initial s →
      Conserved s ∧ BlockedSilent s := by
  intro h
  obtain ⟨s, hs, hpending⟩ := (Option.any_eq_true ..).mp
    (show (exec (bandwidthStep plainEnv) BandwidthSystem.start blockedFlush).any
      (fun s => s.pendingBlocked "s1".toList) = true by decide +kernel)
  have hnone := not_pendingBlocked (h s (exec_reach (.start start_initial) hs)).2 "s1".toList
  rw [show s.pendingBlocked "s1".toList = true from hpending] at hnone
  cases hnone

end BlockedWhileInFlight

end BurrowGate.Bandwidth
