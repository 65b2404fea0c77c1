import Mathlib.Logic.Function.Basic
import Mathlib.Order.Basic

/-!
# `bandwidth-limit-service.ts` and the bandwidth limits of `stream-connection-tracker.ts`

Two maps of fixed windows, one for sites and one for streams, kept by the same code under
different keys. `windowsAfter` runs a log of calls and prunings, the latest one first.
-/

namespace BurrowGate.Bandwidth

/-- `STALE_ENTRY_MS` and `BANDWIDTH_LIMIT_STALE_MS` -/
def staleEntryMs : Nat := 2 * 60 * 60 * 1000

/-- A policy as the parsers leave it, `MAX_BANDWIDTH_LIMIT_WINDOW_SECONDS` included. -/
structure BandwidthLimitPolicy where
  enabled : Bool
  maxBytes : Nat
  windowSeconds : Nat
  windowSeconds_pos : 1 ≤ windowSeconds
  windowSeconds_le : windowSeconds ≤ 3600

structure WindowEntry where
  windowStart : Nat
  bytes : Nat
  banned : Bool
  deriving DecidableEq

abbrev Windows : Type := List Char → Option WindowEntry

structure LimitCall where
  mapKey : List Char
  policy : BandwidthLimitPolicy
  ip : List Char
  bytes : Nat
  now : Nat

def LimitCall.windowStart (call : LimitCall) : Nat :=
  call.now / (call.policy.windowSeconds * 1000) * (call.policy.windowSeconds * 1000)

def LimitCall.counted (call : LimitCall) : Bool :=
  call.policy.enabled && call.bytes ≠ 0 && call.ip ≠ "unknown".toList

/-- The entry of the window that begins at `start`, a new one unless the map holds it. -/
def windowEntry (start : Nat) : Option WindowEntry → WindowEntry
  | some entry => if entry.windowStart = start then entry else ⟨start, 0, false⟩
  | none => ⟨start, 0, false⟩

/-- The answer is whether the call bans the address. -/
def recordLimitBytes (windows : Windows) (call : LimitCall) : Bool × Windows :=
  if call.counted then
    let entry := windowEntry call.windowStart (windows call.mapKey)
    let bytes := entry.bytes + call.bytes
    let exceeds := !entry.banned && call.policy.maxBytes < bytes
    (exceeds, Function.update windows call.mapKey
      (some { entry with bytes, banned := entry.banned || exceeds }))
  else (false, windows)

def pruneStaleEntries (now : Nat) (windows : Windows) : Windows := fun mapKey =>
  (windows mapKey).filter fun entry => !(entry.windowStart + staleEntryMs < now)

def key (scopeId ip : List Char) : List Char := scopeId ++ '-' :: ip

def recordBandwidthLimitBytes (windows : Windows) (policy : BandwidthLimitPolicy)
    (scopeId ip : List Char) (bytes now : Nat) : Bool × Windows :=
  recordLimitBytes windows ⟨key scopeId ip, policy, ip, bytes, now⟩

/-- `protocol` is `tcp` or `udp`. -/
def bandwidthLimitKey (streamId protocol ip : List Char) : List Char :=
  streamId ++ ' ' :: protocol ++ ' ' :: ip

def recordStreamBandwidthLimitBytes (windows : Windows) (streamId protocol ip : List Char)
    (bytes : Nat) (policy : BandwidthLimitPolicy) (now : Nat) : Bool × Windows :=
  recordLimitBytes windows ⟨bandwidthLimitKey streamId protocol ip, policy, ip, bytes, now⟩

inductive LimitEvent
  | record (call : LimitCall)
  | prune (now : Nat)

def LimitEvent.now : LimitEvent → Nat
  | .record call => call.now
  | .prune now => now

def windowsAfter : List LimitEvent → Windows
  | [] => fun _ => none
  | .record call :: earlier => (recordLimitBytes (windowsAfter earlier) call).2
  | .prune now :: earlier => pruneStaleEntries now (windowsAfter earlier)

/-! ## The windows of a log -/

def LimitCall.inWindow (mapKey : List Char) (start : Nat) (call : LimitCall) : Bool :=
  call.counted && call.mapKey = mapKey && call.windowStart = start

/-- The bytes counted in a window. -/
def windowBytes (mapKey : List Char) (start : Nat) : List LimitEvent → Nat
  | [] => 0
  | .record call :: earlier =>
      windowBytes mapKey start earlier + if call.inWindow mapKey start then call.bytes else 0
  | .prune _ :: earlier => windowBytes mapKey start earlier

/-- Some call of the window went over its maximum. -/
def overLimit (mapKey : List Char) (start : Nat) : List LimitEvent → Bool
  | [] => false
  | .record call :: earlier => overLimit mapKey start earlier ||
      call.inWindow mapKey start &&
        call.policy.maxBytes < windowBytes mapKey start earlier + call.bytes
  | .prune _ :: earlier => overLimit mapKey start earlier

variable {mapKey : List Char} {start : Nat} {call : LimitCall} {events : List LimitEvent}
  {seconds : List Char → Nat}

theorem LimitCall.inWindow_iff : call.inWindow mapKey start = true ↔
    call.counted = true ∧ call.mapKey = mapKey ∧ call.windowStart = start := by
  simp [LimitCall.inWindow, and_assoc]

theorem LimitCall.now_lt (call : LimitCall) : call.now < call.windowStart + staleEntryMs := by
  have hpos := call.policy.windowSeconds_pos
  have hle := call.policy.windowSeconds_le
  have hnow := Nat.lt_div_mul_add (a := call.now)
    (b := call.policy.windowSeconds * 1000) (by omega)
  have hstale : staleEntryMs = 7200000 := rfl
  unfold LimitCall.windowStart
  omega

theorem empty_window (h : ∀ call, .record call ∈ events → call.mapKey = mapKey →
      call.windowStart ≠ start) :
    windowBytes mapKey start events = 0 ∧ overLimit mapKey start events = false := by
  induction events with
  | nil => exact ⟨rfl, rfl⟩
  | cons event earlier ih =>
      obtain ⟨hbytes, hover⟩ := ih fun call hcall => h call (List.mem_cons_of_mem _ hcall)
      cases event with
      | record call =>
          have hout : call.inWindow mapKey start = false := by
            apply Bool.eq_false_iff.mpr
            intro hin
            obtain ⟨-, hkey, hstart⟩ := LimitCall.inWindow_iff.mp hin
            exact h call List.mem_cons_self hkey hstart
          simp [windowBytes, overLimit, hout, hbytes, hover]
      | prune now => exact ⟨hbytes, hover⟩

/-! ## The entries -/

/-- The clock of the log never goes back, and the calls of a key share the length of
their windows. -/
structure LimitLog (seconds : List Char → Nat) (events : List LimitEvent) : Prop where
  clock : events.Pairwise fun later earlier => earlier.now ≤ later.now
  seconds : ∀ call, .record call ∈ events → call.policy.windowSeconds = seconds call.mapKey

theorem LimitLog.tail {event : LimitEvent} (hlog : LimitLog seconds (event :: events)) :
    LimitLog seconds events :=
  ⟨(List.pairwise_cons.mp hlog.clock).2,
    fun call hcall => hlog.seconds call (List.mem_cons_of_mem _ hcall)⟩

theorem LimitLog.now_le (hlog : LimitLog seconds (.record call :: events)) {event : LimitEvent}
    (hevent : event ∈ events) : event.now ≤ call.windowStart + staleEntryMs :=
  Nat.le_of_lt (Nat.lt_of_le_of_lt ((List.pairwise_cons.mp hlog.clock).1 event hevent) call.now_lt)

theorem LimitLog.windowStart_le (hlog : LimitLog seconds (.record call :: events))
    {earlier : LimitCall} (hearlier : .record earlier ∈ events)
    (hkey : earlier.mapKey = call.mapKey) : earlier.windowStart ≤ call.windowStart := by
  have hseconds : earlier.policy.windowSeconds = call.policy.windowSeconds := by
    rw [hlog.seconds call List.mem_cons_self,
      hlog.seconds earlier (List.mem_cons_of_mem _ hearlier), hkey]
  have hnow := (List.pairwise_cons.mp hlog.clock).1 _ hearlier
  unfold LimitCall.windowStart
  rw [hseconds]
  exact Nat.mul_le_mul_right _ (Nat.div_le_div_right hnow)

theorem windowEntry_filter {keep : WindowEntry → Bool} (entry : Option WindowEntry)
    (h : ∀ entry, keep entry = false → entry.windowStart ≠ start) :
    windowEntry start (entry.filter keep) = windowEntry start entry := by
  cases entry with
  | none => rfl
  | some entry =>
      cases hkeep : keep entry with
      | true => simp [Option.filter_some, hkeep]
      | false => simp [Option.filter_some, hkeep, windowEntry, h entry hkeep]

theorem windowEntry_prune {now : Nat} (hnow : now ≤ start + staleEntryMs) :
    windowEntry start (windowsAfter (.prune now :: events) mapKey) =
      windowEntry start (windowsAfter events mapKey) := by
  apply windowEntry_filter
  intro entry hstale hstart
  have hlate : entry.windowStart + staleEntryMs < now := by simpa using hstale
  omega

/-- A call that does not count for the key changes nothing of it. -/
theorem windowEntry_other (hother : ¬(call.counted = true ∧ call.mapKey = mapKey))
    (hentry : windowEntry start (windowsAfter events mapKey) =
      ⟨start, windowBytes mapKey start events, overLimit mapKey start events⟩) :
    windowEntry start (windowsAfter (.record call :: events) mapKey) =
      ⟨start, windowBytes mapKey start (.record call :: events),
        overLimit mapKey start (.record call :: events)⟩ := by
  have hout : call.inWindow mapKey start = false := by
    apply Bool.eq_false_iff.mpr
    intro hin
    obtain ⟨hcounted, hkey, -⟩ := LimitCall.inWindow_iff.mp hin
    exact hother ⟨hcounted, hkey⟩
  have hkept : windowsAfter (.record call :: events) mapKey = windowsAfter events mapKey := by
    rw [windowsAfter, recordLimitBytes]
    by_cases hcounted : call.counted = true
    · rw [if_pos hcounted]
      exact Function.update_of_ne (fun hkey => hother ⟨hcounted, hkey.symm⟩) _ _
    · rw [if_neg hcounted]
  rw [hkept, hentry]
  simp [windowBytes, overLimit, hout]

theorem windowEntry_counted (hlog : LimitLog seconds (.record call :: events))
    (hcounted : call.counted = true) (hle : call.windowStart ≤ start)
    (hentry : windowEntry call.windowStart (windowsAfter events call.mapKey) =
      ⟨call.windowStart, windowBytes call.mapKey call.windowStart events,
        overLimit call.mapKey call.windowStart events⟩) :
    windowEntry start (windowsAfter (.record call :: events) call.mapKey) =
      ⟨start, windowBytes call.mapKey start (.record call :: events),
        overLimit call.mapKey start (.record call :: events)⟩ := by
  simp only [windowsAfter, recordLimitBytes, hcounted, if_true, Function.update_self, hentry]
  by_cases hsame : call.windowStart = start
  · subst hsame
    have hin := LimitCall.inWindow_iff.mpr
      (⟨hcounted, rfl, rfl⟩ : _ ∧ _ = call.mapKey ∧ _ = call.windowStart)
    simp only [windowEntry, windowBytes, overLimit, hin, if_true, Bool.true_and]
    cases overLimit call.mapKey call.windowStart events <;> simp
  · -- The window is one that no call has reached yet.
    have hempty : ∀ earlier, .record earlier ∈ LimitEvent.record call :: events →
        earlier.mapKey = call.mapKey → earlier.windowStart ≠ start := by
      intro earlier hearlier hkey hstart
      rcases List.mem_cons.mp hearlier with hhead | htail
      · cases hhead
        exact hsame hstart
      · have hbefore := hlog.windowStart_le htail hkey
        omega
    obtain ⟨hbytes, hover⟩ := empty_window hempty
    rw [hbytes, hover, windowEntry, if_neg hsame]

/-- The entry of a window that no call is past and no pruning is too late for holds the
window in full. -/
theorem windowEntry_eq (hlog : LimitLog seconds events)
    (hlatest : ∀ call, .record call ∈ events → call.mapKey = mapKey → call.windowStart ≤ start)
    (hrecent : ∀ event ∈ events, event.now ≤ start + staleEntryMs) :
    windowEntry start (windowsAfter events mapKey) =
      ⟨start, windowBytes mapKey start events, overLimit mapKey start events⟩ := by
  induction events generalizing start with
  | nil => rfl
  | cons event events ih =>
      have hentry := ih hlog.tail (fun call hcall => hlatest call (List.mem_cons_of_mem _ hcall))
        fun event hevent => hrecent event (List.mem_cons_of_mem _ hevent)
      cases event with
      | prune now => exact (windowEntry_prune (hrecent _ List.mem_cons_self)).trans hentry
      | record call =>
          by_cases hhit : call.counted = true ∧ call.mapKey = mapKey
          · obtain ⟨hcounted, rfl⟩ := hhit
            apply windowEntry_counted hlog hcounted (hlatest call List.mem_cons_self rfl)
            exact ih hlog.tail (fun _ => hlog.windowStart_le) fun _ => hlog.now_le
          · exact windowEntry_other hhit hentry

/-- A call bans exactly when its bytes take the window over the maximum and no call of the
window was over before, whatever was pruned in between. -/
theorem bans_once_per_window (hlog : LimitLog seconds (.record call :: events)) :
    (recordLimitBytes (windowsAfter events) call).1 = true ↔
      call.counted = true ∧
        call.policy.maxBytes <
          windowBytes call.mapKey call.windowStart events + call.bytes ∧
        overLimit call.mapKey call.windowStart events = false := by
  have hentry := windowEntry_eq hlog.tail (fun _ => hlog.windowStart_le) fun _ => hlog.now_le
  unfold recordLimitBytes
  by_cases hcounted : call.counted = true
  · rw [if_pos hcounted, hentry]
    simp only [Bool.and_eq_true, Bool.not_eq_true', decide_eq_true_eq, hcounted, true_and]
    exact and_comm
  · rw [if_neg hcounted]
    simp [hcounted]

/-- A route allows 100 bytes a second: a later window bans again, with the calls of the
first one pruned. -/
theorem bans_once_per_window_again :
    let policy : BandwidthLimitPolicy := ⟨true, 100, 1, by decide, by decide⟩
    let call (bytes now : Nat) : LimitCall :=
      ⟨key "route-7".toList "10.0.0.9".toList, policy, "10.0.0.9".toList, bytes, now⟩
    (recordBandwidthLimitBytes
      (windowsAfter [.record (call 70 8000000), .prune 7500000, .record (call 101 5000)])
      policy "route-7".toList "10.0.0.9".toList 31 8000500).1 = true := by
  intro policy call
  have hlog : LimitLog (fun _ => 1) [.record (call 31 8000500), .record (call 70 8000000),
      .prune 7500000, .record (call 101 5000)] := by
    constructor
    · simp [LimitEvent.now, call]
    · intro other hother
      simp only [List.mem_cons, LimitEvent.record.injEq, reduceCtorEq, List.not_mem_nil, or_false,
        false_or] at hother
      rcases hother with rfl | rfl | rfl <;> rfl
  exact (bans_once_per_window hlog).mpr ⟨rfl, by decide +kernel, by decide +kernel⟩

end BurrowGate.Bandwidth
