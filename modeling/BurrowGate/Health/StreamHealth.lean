import BurrowGate.Lib.Run
import Mathlib.Data.List.Infix

/-!
# `StreamHealthManager` of `stream-health-service.ts`

Streams share nothing but the map of the manager, so that the system has the entry of one stream:
the objects it has had, and which of them the map holds. A check works on its object to the end,
whether the map still holds it or not. It waits at the connection, at the write of the result and
at the notification. When the next check is due does not matter: a tick may start one at any time.
-/

namespace BurrowGate.StreamHealth

open Lib.Run

abbrev Text : Type := List Char

/-- The columns that the manager reads. -/
structure StreamRecord where
  name : Text
  incomingPort : Nat
  tcpEnabled : Nat
  originHealthCheckEnabled : Nat
  forwardHost : Text
  forwardPort : Nat
  originHealthCheckIntervalSeconds : Nat
  originHealthCheckTimeoutMs : Nat
  originHealthCheckFailureThreshold : Option Nat
  originHealthCheckRecoveryThreshold : Option Nat
  deriving DecidableEq

def numberText (n : Nat) : Text := (toString n).toList

def settingsKey (stream : StreamRecord) : Text :=
  ['\n'].intercalate
    [numberText stream.tcpEnabled, numberText stream.originHealthCheckEnabled, stream.forwardHost,
      numberText stream.forwardPort, numberText stream.originHealthCheckIntervalSeconds,
      numberText stream.originHealthCheckTimeoutMs]

inductive StreamHealthState
  | unknown
  | up
  | down
  deriving DecidableEq

inductive Transition
  | down
  | up
  deriving DecidableEq

/-- The arguments of `recordStreamEvent`. -/
structure StreamNotification where
  type : String
  severity : String
  summary : Text
  incomingPort : Nat
  forwardHost : Text
  forwardPort : Nat
  deriving DecidableEq

def notificationFor (stream : StreamRecord) (transition : Transition) : StreamNotification :=
  { type := if transition = .down then "stream_origin_unhealthy" else "stream_origin_recovered"
    severity := if transition = .down then "critical" else "info"
    summary :=
      if transition = .down then
        "BurrowGate: origin for ".toList ++ stream.name ++ " is unreachable (".toList ++
          stream.forwardHost ++ ":".toList ++ numberText stream.forwardPort ++ ").".toList
      else "BurrowGate: origin for ".toList ++ stream.name ++ " recovered.".toList
    incomingPort := stream.incomingPort
    forwardHost := stream.forwardHost
    forwardPort := stream.forwardPort }

/-- A recorded notification, with what no step reads: whether the map still held the object, the
threshold that was applied, and the results of the checks of the object up to the one that came to
the transition, true for a failure. -/
structure Recorded where
  notification : StreamNotification
  transition : Transition
  replaced : Bool
  failureThreshold : Nat
  results : List Bool
  deriving DecidableEq

/-- Where the check of an object is. `running` is that it is not idle. -/
inductive Check
  | idle
  | connecting
  | storing (timedOut : Bool)
  | notifying (notification : StreamNotification) (transition : Transition)
      (failureThreshold : Nat)
  deriving DecidableEq

/-- No step reads `results`, which has the result of every check, true for a failure. -/
structure RuntimeStreamHealth where
  stream : StreamRecord
  settingsKey : Text
  consecutiveFailures : Nat
  consecutiveSuccesses : Nat
  state : StreamHealthState
  check : Check
  results : List Bool
  deriving DecidableEq

namespace RuntimeStreamHealth

def new (stream : StreamRecord) : RuntimeStreamHealth :=
  { stream
    settingsKey := StreamHealth.settingsKey stream
    consecutiveFailures := 0
    consecutiveSuccesses := 0
    state := .unknown
    check := .idle
    results := [] }

def failureThreshold (runtime : RuntimeStreamHealth) : Nat :=
  runtime.stream.originHealthCheckFailureThreshold.getD 3

def recoveryThreshold (runtime : RuntimeStreamHealth) : Nat :=
  runtime.stream.originHealthCheckRecoveryThreshold.getD 2

/-- The counters and the state that they call for. -/
def count (runtime : RuntimeStreamHealth) (timedOut : Bool) :
    StreamHealthState × RuntimeStreamHealth :=
  if timedOut then
    let failures := runtime.consecutiveFailures + 1
    (if failures ≥ runtime.failureThreshold then .down else runtime.state,
      { runtime with consecutiveSuccesses := 0, consecutiveFailures := failures })
  else
    let successes := runtime.consecutiveSuccesses + 1
    (if successes ≥ runtime.recoveryThreshold then .up else runtime.state,
      { runtime with consecutiveFailures := 0, consecutiveSuccesses := successes })

/-- Down on any transition into it; up only after down. -/
def advanceState (runtime : RuntimeStreamHealth) (timedOut : Bool) :
    Option Transition × RuntimeStreamHealth :=
  let (next, counted) := runtime.count timedOut
  if next = runtime.state then (none, counted)
  else
    (if next = .down then some .down
      else if next = .up ∧ runtime.state = .down then some .up
      else none, { counted with state := next })

/-- `tick` for an object of the map. -/
def tick (runtime : RuntimeStreamHealth) : RuntimeStreamHealth :=
  if runtime.check ≠ .idle then runtime
  else if runtime.stream.tcpEnabled ≠ 1 ∨ runtime.stream.originHealthCheckEnabled ≠ 1 then runtime
  else { runtime with check := .connecting }

def connected (timedOut : Bool) (runtime : RuntimeStreamHealth) : RuntimeStreamHealth :=
  match runtime.check with
  | .connecting =>
      { runtime with check := .storing timedOut, results := runtime.results ++ [timedOut] }
  | _ => runtime

/-- The check goes on behind the write of its result. -/
def stored (ok : Bool) (runtime : RuntimeStreamHealth) : RuntimeStreamHealth :=
  match runtime.check with
  | .storing timedOut =>
      if ok then
        let (transition, next) := runtime.advanceState timedOut
        match transition with
        | some transition =>
            { next with
              check :=
                .notifying (notificationFor next.stream transition) transition
                  next.failureThreshold }
        | none => { next with check := .idle }
      else { runtime with check := .idle }
  | _ => runtime

end RuntimeStreamHealth

structure Manager where
  objects : List RuntimeStreamHealth
  current : Option Nat
  recorded : List Recorded
  deriving DecidableEq

def Manager.start : Manager := ⟨[], none, []⟩

def Manager.currentRuntime (s : Manager) : Option RuntimeStreamHealth :=
  s.current.bind fun i => s.objects[i]?

def setRuntimeStream (stream : StreamRecord) (s : Manager) : Manager :=
  let create : Manager :=
    { s with objects := s.objects ++ [RuntimeStreamHealth.new stream], current := some s.objects.length }
  match s.current with
  | none => create
  | some i =>
      if (s.objects[i]?.map (·.settingsKey)) = some (settingsKey stream) then
        { s with objects := s.objects.modify i fun existing => { existing with stream } }
      else create

/-- `row` is what `streamById` finds; a check is known by its object. -/
inductive Event
  | refresh (row : Option StreamRecord)
  | remove
  | tick
  | connected (i : Nat) (timedOut : Bool)
  | stored (i : Nat) (ok : Bool)
  | notified (i : Nat) (recorded : Bool)

def Manager.onObject (i : Nat) (f : RuntimeStreamHealth → RuntimeStreamHealth) (s : Manager) :
    Manager :=
  { s with objects := s.objects.modify i f }

/-- The notification has been recorded or not; either way the check is over. -/
def notified (i : Nat) (recorded : Bool) (s : Manager) : Manager :=
  match s.objects[i]? with
  | none => s
  | some runtime =>
      match runtime.check with
      | .notifying notification transition failureThreshold =>
          let entry : Recorded :=
            { notification
              transition
              replaced := s.current ≠ some i
              failureThreshold
              results := runtime.results }
          { s.onObject i (fun runtime => { runtime with check := .idle }) with
            recorded := if recorded then s.recorded ++ [entry] else s.recorded }
      | _ => s

def step (s : Manager) : Event → Manager
  | .refresh none => { s with current := none }
  | .refresh (some stream) => setRuntimeStream stream s
  | .remove => { s with current := none }
  | .tick =>
      match s.current with
      | none => s
      | some i => s.onObject i RuntimeStreamHealth.tick
  | .connected i timedOut => s.onObject i (RuntimeStreamHealth.connected timedOut)
  | .stored i ok => s.onObject i (RuntimeStreamHealth.stored ok)
  | .notified i recorded => notified i recorded s

/-! ## The law -/

def Transition.other : Transition → Transition
  | .down => .up
  | .up => .down

/-- The list alternates, and begins with the given transition. -/
def Alternates : Transition → List Transition → Prop
  | _, [] => True
  | expected, transition :: rest => transition = expected ∧ Alternates expected.other rest

structure Lawful (s : Manager) : Prop where
  alternates : Alternates .down (s.recorded.map (·.transition))
  sustained : ∀ r ∈ s.recorded, r.transition = .down →
    List.replicate r.failureThreshold true <:+ r.results
  current : ∀ r ∈ s.recorded, r.replaced = false

def Manager.outage (s : Manager) : Bool :=
  (s.recorded.getLast?.map (·.transition)) = some .down

/-- No check of the stream is running on the object of the map. -/
def Manager.quiet (s : Manager) : Bool :=
  s.currentRuntime.all fun runtime => runtime.check = .idle

def Manager.replaces (s : Manager) (stream : StreamRecord) : Bool :=
  (s.currentRuntime.map (·.settingsKey)) ≠ some (settingsKey stream)

/-- The entry is replaced or removed only while no check of it is running, and replaced or created
only while no outage is reported; the result of a successful check is written while failures are
counted; and a notification is recorded. -/
def Orderly (s : Manager) : Event → Bool
  | .refresh none | .remove => s.quiet
  | .refresh (some stream) => !s.replaces stream || (s.quiet && !s.outage)
  | .tick | .connected _ _ => true
  | .stored i ok =>
      match s.objects[i]? with
      | some runtime =>
          ok || runtime.check ≠ .storing false || runtime.consecutiveFailures = 0
      | none => true
  | .notified i recorded =>
      match s.objects[i]? with
      | some runtime =>
          match runtime.check with
          | .notifying _ _ _ => recorded
          | _ => true
      | none => true

/-! ## One object -/

/-- The failures that are counted are the last results; that of a check whose write is pending is
not counted yet. -/
def Counted (r : RuntimeStreamHealth) : Prop :=
  match r.check with
  | .storing timedOut =>
      ∃ done, r.results = done ++ [timedOut] ∧ List.replicate r.consecutiveFailures true <:+ done
  | _ => List.replicate r.consecutiveFailures true <:+ r.results

/-- The state is that of the last notification, or of the one that is on its way. -/
def Reported (outage : Bool) (r : RuntimeStreamHealth) : Prop :=
  match r.check with
  | .notifying _ .down failureThreshold =>
      r.state = .down ∧ outage = false ∧ List.replicate failureThreshold true <:+ r.results
  | .notifying _ .up _ => r.state = .up ∧ outage = true
  | _ => r.state = .down ↔ outage = true

structure Sound (outage : Bool) (r : RuntimeStreamHealth) : Prop where
  counted : Counted r
  reported : Reported outage r

variable {outage : Bool} {r : RuntimeStreamHealth} {s : Manager}

theorem sound_new (stream : StreamRecord) : Sound false (.new stream) := by
  refine ⟨List.suffix_refl _, ?_⟩
  constructor
  · intro h
    cases h
  · intro h
    cases h

theorem Sound.tick (h : Sound outage r) : Sound outage r.tick := by
  obtain ⟨hcounted, hreported⟩ := h
  rw [RuntimeStreamHealth.tick]
  split
  · exact ⟨hcounted, hreported⟩
  · rename_i hidle
    have hcheck : r.check = .idle := by
      by_contra hne
      exact hidle hne
    split
    · exact ⟨hcounted, hreported⟩
    · rw [Counted, hcheck] at hcounted
      rw [Reported, hcheck] at hreported
      exact ⟨hcounted, hreported⟩

theorem Sound.connected (h : Sound outage r) (timedOut : Bool) :
    Sound outage (r.connected timedOut) := by
  obtain ⟨hcounted, hreported⟩ := h
  rw [RuntimeStreamHealth.connected]
  cases hcheck : r.check with
  | connecting =>
      rw [Counted, hcheck] at hcounted
      rw [Reported, hcheck] at hreported
      exact ⟨⟨r.results, rfl, hcounted⟩, hreported⟩
  | idle => exact ⟨hcounted, hreported⟩
  | storing t => exact ⟨hcounted, hreported⟩
  | notifying notification transition failureThreshold => exact ⟨hcounted, hreported⟩

theorem replicate_suffix_concat {n : Nat} {done : List Bool}
    (h : List.replicate n true <:+ done) : List.replicate (n + 1) true <:+ done ++ [true] := by
  obtain ⟨earlier, rfl⟩ := h
  refine ⟨earlier, ?_⟩
  rw [List.append_assoc, List.replicate_succ']

theorem replicate_suffix_mono {m n : Nat} (hle : m ≤ n) {done : List Bool}
    (h : List.replicate n true <:+ done) : List.replicate m true <:+ done := by
  refine List.IsSuffix.trans ?_ h
  refine ⟨List.replicate (n - m) true, ?_⟩
  rw [List.replicate_append_replicate, Nat.sub_add_cancel hle]

/-- The failures after a result are the last results, that one among them. -/
theorem count_failures {done : List Bool} (timedOut : Bool)
    (h : List.replicate r.consecutiveFailures true <:+ done) :
    List.replicate (r.count timedOut).2.consecutiveFailures true <:+ done ++ [timedOut] := by
  cases timedOut with
  | true => exact replicate_suffix_concat h
  | false => exact List.nil_suffix

/-- What the counters call for is down only behind enough failures. -/
theorem count_down {done : List Bool} {timedOut : Bool}
    (h : List.replicate r.consecutiveFailures true <:+ done)
    (hdown : (r.count timedOut).1 = .down) (hstate : r.state ≠ .down) :
    List.replicate r.failureThreshold true <:+ done ++ [timedOut] := by
  cases timedOut with
  | true =>
      rw [RuntimeStreamHealth.count, if_pos rfl] at hdown
      dsimp only at hdown
      split at hdown
      · rename_i hle
        exact replicate_suffix_mono hle (replicate_suffix_concat h)
      · exact absurd hdown hstate
  | false =>
      rw [RuntimeStreamHealth.count, if_neg Bool.false_ne_true] at hdown
      dsimp only at hdown
      split at hdown
      · cases hdown
      · exact absurd hdown hstate

theorem count_results (timedOut : Bool) : (r.count timedOut).2.results = r.results := by
  rw [RuntimeStreamHealth.count]
  split
  · rfl
  · rfl

theorem count_stream (timedOut : Bool) : (r.count timedOut).2.stream = r.stream := by
  rw [RuntimeStreamHealth.count]
  split
  · rfl
  · rfl

theorem count_state (timedOut : Bool) : (r.count timedOut).2.state = r.state := by
  rw [RuntimeStreamHealth.count]
  split
  · rfl
  · rfl

theorem count_next (timedOut : Bool) : (r.count timedOut).1 = r.state ∨
    (r.count timedOut).1 = .down ∨ (r.count timedOut).1 = .up := by
  rw [RuntimeStreamHealth.count]
  split
  · dsimp only
    split
    · exact .inr (.inl rfl)
    · exact .inl rfl
  · dsimp only
    split
    · exact .inr (.inr rfl)
    · exact .inl rfl

/-- What a result can do to the state. -/
theorem advanceState_cases (r : RuntimeStreamHealth) (timedOut : Bool) :
    r.advanceState timedOut = (none, (r.count timedOut).2) ∨
      (r.advanceState timedOut = (some .down, { (r.count timedOut).2 with state := .down }) ∧
        (r.count timedOut).1 = .down ∧ r.state ≠ .down) ∨
      (r.advanceState timedOut = (some .up, { (r.count timedOut).2 with state := .up }) ∧
        r.state = .down) ∨
      (r.advanceState timedOut = (none, { (r.count timedOut).2 with state := .up }) ∧
        r.state ≠ .down) := by
  rw [RuntimeStreamHealth.advanceState]
  dsimp only
  by_cases hsame : (r.count timedOut).1 = r.state
  · exact .inl (if_pos hsame)
  · rw [if_neg hsame]
    rcases count_next (r := r) timedOut with hstate | hdown | hup
    · exact absurd hstate hsame
    · refine .inr (.inl ⟨?_, hdown, fun hstate => hsame (hdown.trans hstate.symm)⟩)
      rw [hdown, if_pos rfl]
    · have hne : StreamHealthState.up ≠ .down := fun h => (by cases h)
      rw [hup, if_neg hne]
      by_cases hstate : r.state = .down
      · rw [if_pos ⟨rfl, hstate⟩]
        exact .inr (.inr (.inl ⟨rfl, hstate⟩))
      · rw [if_neg fun h => hstate h.2]
        exact .inr (.inr (.inr ⟨rfl, hstate⟩))

/-- A write may fail unless it is that of a success behind failures that are counted. -/
theorem Sound.stored (h : Sound outage r) {ok : Bool}
    (hok : ok || r.check ≠ .storing false || r.consecutiveFailures = 0) :
    Sound outage (r.stored ok) := by
  obtain ⟨hcounted, hreported⟩ := h
  rw [RuntimeStreamHealth.stored]
  cases hcheck : r.check with
  | idle => exact ⟨hcounted, hreported⟩
  | connecting => exact ⟨hcounted, hreported⟩
  | notifying notification transition failureThreshold => exact ⟨hcounted, hreported⟩
  | storing timedOut =>
      rw [Counted, hcheck] at hcounted
      rw [Reported, hcheck] at hreported
      obtain ⟨done, hresults, hfailures⟩ := hcounted
      dsimp only
      cases ok with
      | false =>
          rw [if_neg Bool.false_ne_true]
          refine ⟨?_, hreported⟩
          change List.replicate r.consecutiveFailures true <:+ r.results
          rw [hresults]
          cases timedOut with
          | true =>
              exact replicate_suffix_mono (Nat.le_succ _) (replicate_suffix_concat hfailures)
          | false =>
              rw [hcheck] at hok
              have hzero : r.consecutiveFailures = 0 := by simpa using hok
              rw [hzero]
              exact List.nil_suffix
      | true =>
          have hcount := count_failures timedOut hfailures
          rw [← hresults, ← count_results timedOut] at hcount
          rw [if_pos rfl]
          rcases advanceState_cases r timedOut with hnone | ⟨hdown, hnext, hstate⟩ |
            ⟨hup, hstate⟩ | ⟨hnone, hstate⟩
          · rw [hnone]
            refine ⟨hcount, ?_⟩
            change (r.count timedOut).2.state = .down ↔ outage = true
            rw [count_state]
            exact hreported
          · have houtage : outage = false := by
              rw [← Bool.not_eq_true]
              exact fun ho => hstate (hreported.mpr ho)
            have hthreshold := count_down hfailures hnext hstate
            rw [← hresults, ← count_results timedOut] at hthreshold
            rw [hdown]
            refine ⟨hcount, rfl, houtage, ?_⟩
            change List.replicate
              ((r.count timedOut).2.stream.originHealthCheckFailureThreshold.getD 3) true <:+ _
            rw [count_stream]
            exact hthreshold
          · rw [hup]
            exact ⟨hcount, rfl, hreported.mp hstate⟩
          · rw [hnone]
            refine ⟨hcount, fun hd => (by cases hd), fun ho => ?_⟩
            exact absurd (hreported.mpr ho) hstate

/-- A notification that has been recorded is the last one. -/
theorem Sound.notified (h : Sound outage r) {notification : StreamNotification}
    {transition : Transition} {failureThreshold : Nat}
    (hcheck : r.check = .notifying notification transition failureThreshold) :
    Sound (transition = .down) { r with check := .idle } := by
  obtain ⟨hcounted, hreported⟩ := h
  rw [Counted, hcheck] at hcounted
  rw [Reported, hcheck] at hreported
  refine ⟨hcounted, ?_⟩
  cases transition with
  | down => exact ⟨fun _ => rfl, fun _ => hreported.1⟩
  | up =>
      refine ⟨fun hdown => ?_, fun ho => (by cases ho)⟩
      change r.state = .down at hdown
      rw [hreported.1] at hdown
      cases hdown

/-! ## The list of notifications -/

theorem alternates_concat {expected : Transition} {list : List Transition}
    (h : Alternates expected list) {transition : Transition}
    (hnext : transition = (list.getLast?.map Transition.other).getD expected) :
    Alternates expected (list ++ [transition]) := by
  induction list generalizing expected with
  | nil => exact ⟨hnext, trivial⟩
  | cons first list ih =>
      obtain ⟨rfl, hrest⟩ := h
      refine ⟨rfl, ih hrest ?_⟩
      rw [hnext]
      cases list with
      | nil => rfl
      | cons second list => rfl

theorem Lawful.recorded (h : Lawful s) {entry : Recorded}
    (hnext : entry.transition = if s.outage then .up else .down)
    (hsustained : entry.transition = .down →
      List.replicate entry.failureThreshold true <:+ entry.results)
    (hcurrent : entry.replaced = false) (objects : List RuntimeStreamHealth)
    (current : Option Nat) :
    Lawful { objects, current, recorded := s.recorded ++ [entry] } := by
  refine ⟨?_, ?_, ?_⟩
  · change Alternates .down ((s.recorded ++ [entry]).map (·.transition))
    rw [List.map_append]
    refine alternates_concat h.alternates ?_
    change entry.transition = _
    rw [hnext, Manager.outage, List.getLast?_map]
    rcases s.recorded.getLast? with - | ⟨notification, transition, replaced, threshold, results⟩
    · rfl
    · cases transition with
      | down => rfl
      | up => rfl
  · intro r hr hdown
    rcases List.mem_snoc.mp hr with hr | rfl
    · exact h.sustained r hr hdown
    · exact hsustained hdown
  · intro r hr
    rcases List.mem_snoc.mp hr with hr | rfl
    · exact h.current r hr
    · exact hcurrent

/-! ## The entry of the stream -/

/-- Only the object of the map has a check running. -/
structure Steady (s : Manager) : Prop where
  valid : ∀ i, s.current = some i → i < s.objects.length
  detached : ∀ i r, s.objects[i]? = some r → s.current ≠ some i → r.check = .idle
  sound : ∀ i r, s.current = some i → s.objects[i]? = some r → Sound s.outage r
  lawful : Lawful s

theorem steady_start : Steady .start := by
  refine ⟨fun i h => (by cases h), fun i r h => (by cases h), fun i r h => (by cases h),
    trivial, fun r h => (by cases h), fun r h => (by cases h)⟩

theorem getElem?_onObject (s : Manager) (i j : Nat) (f : RuntimeStreamHealth → RuntimeStreamHealth) :
    (s.onObject i f).objects[j]? = if i = j then s.objects[j]?.map f else s.objects[j]? := by
  change (s.objects.modify i f)[j]? = _
  rw [List.getElem?_modify]
  split
  · rfl
  · exact Option.map_id'

/-- What an object keeps, the entry keeps. -/
theorem Steady.onObject (h : Steady s) {i : Nat} {f : RuntimeStreamHealth → RuntimeStreamHealth}
    (hidle : s.current ≠ some i → ∀ r, r.check = .idle → (f r).check = .idle)
    (hsound : ∀ r, s.objects[i]? = some r → Sound s.outage r → Sound s.outage (f r)) :
    Steady (s.onObject i f) := by
  refine ⟨fun j hj => ?_, fun j r hr hj => ?_, fun j r hj hr => ?_, h.lawful.1, h.lawful.2,
    h.lawful.3⟩
  · change j < (s.objects.modify i f).length
    rw [List.length_modify]
    exact h.valid j hj
  · rw [getElem?_onObject] at hr
    split at hr
    · rename_i heq
      obtain rfl := heq
      obtain ⟨before, hbefore, rfl⟩ := Option.map_eq_some_iff.mp hr
      exact hidle hj before (h.detached i before hbefore hj)
    · exact h.detached j r hr hj
  · rw [getElem?_onObject] at hr
    split at hr
    · rename_i heq
      obtain rfl := heq
      obtain ⟨before, hbefore, rfl⟩ := Option.map_eq_some_iff.mp hr
      exact hsound before hbefore (h.sound i before hj hbefore)
    · exact h.sound j r hj hr

theorem idle_of_quiet (hquiet : s.quiet = true) {i : Nat} {r : RuntimeStreamHealth}
    (hcurrent : s.current = some i) (hr : s.objects[i]? = some r) : r.check = .idle := by
  rw [Manager.quiet, Manager.currentRuntime, hcurrent, Option.bind_some, hr] at hquiet
  exact of_decide_eq_true hquiet

theorem Steady.idle (h : Steady s) (hquiet : s.quiet = true) {i : Nat}
    {r : RuntimeStreamHealth} (hr : s.objects[i]? = some r) : r.check = .idle := by
  by_cases hcurrent : s.current = some i
  · exact idle_of_quiet hquiet hcurrent hr
  · exact h.detached i r hr hcurrent

theorem Steady.remove (h : Steady s) (hquiet : s.quiet = true) :
    Steady { s with current := none } :=
  ⟨fun _ hj => (by cases hj), fun _ _ hr _ => h.idle hquiet hr, fun _ _ hj => (by cases hj),
    h.lawful.1, h.lawful.2, h.lawful.3⟩

theorem Steady.create (h : Steady s) (hquiet : s.quiet = true) (houtage : s.outage = false)
    (stream : StreamRecord) :
    Steady { s with
      objects := s.objects ++ [RuntimeStreamHealth.new stream]
      current := some s.objects.length } := by
  refine ⟨fun j hj => ?_, fun j r hr hj => ?_, fun j r hj hr => ?_, h.lawful.1, h.lawful.2,
    h.lawful.3⟩
  · obtain rfl := Option.some.inj hj
    change s.objects.length < (s.objects ++ [_]).length
    rw [List.length_append, List.length_singleton]
    exact Nat.lt_succ_self _
  · change (s.objects ++ [_])[j]? = some r at hr
    rcases Nat.lt_or_ge j s.objects.length with hlt | hge
    · rw [List.getElem?_append_left hlt] at hr
      exact h.idle hquiet hr
    · rw [List.getElem?_append_right hge] at hr
      have hzero : j - s.objects.length = 0 := by
        have hlt := (List.getElem?_eq_some_iff.mp hr).1
        rw [List.length_singleton] at hlt
        omega
      have hj' : j = s.objects.length := by omega
      exact absurd (congrArg some hj'.symm) hj
  · obtain rfl := Option.some.inj hj
    change (s.objects ++ [_])[s.objects.length]? = some r at hr
    rw [List.getElem?_append_right (Nat.le_refl _), Nat.sub_self] at hr
    obtain rfl := Option.some.inj hr
    change Sound s.outage _
    rw [houtage]
    exact sound_new stream

theorem Steady.setRuntimeStream (h : Steady s) {stream : StreamRecord}
    (horderly : !s.replaces stream || (s.quiet && !s.outage)) :
    Steady (setRuntimeStream stream s) := by
  have hcreate : s.replaces stream = true → Steady { s with
      objects := s.objects ++ [RuntimeStreamHealth.new stream]
      current := some s.objects.length } := by
    intro hreplaces
    rw [hreplaces, Bool.not_true, Bool.false_or, Bool.and_eq_true, Bool.not_eq_true'] at horderly
    exact h.create horderly.1 horderly.2 stream
  rw [StreamHealth.setRuntimeStream]
  cases hcurrent : s.current with
  | none =>
      refine hcreate (decide_eq_true ?_)
      rw [Manager.currentRuntime, hcurrent]
      exact fun hkey => (by cases hkey)
  | some i =>
      dsimp only
      split
      · have hkept : Steady (s.onObject i fun existing => { existing with stream }) :=
          h.onObject (fun _ _ hr => hr) fun _ _ hr => ⟨hr.counted, hr.reported⟩
        rw [Manager.onObject, hcurrent] at hkept
        exact hkept
      · rename_i hkey
        refine hcreate (decide_eq_true ?_)
        rw [Manager.currentRuntime, hcurrent]
        exact hkey

theorem Steady.notified (h : Steady s) {i : Nat} {recorded : Bool}
    (horderly : Orderly s (.notified i recorded) = true) : Steady (notified i recorded s) := by
  rw [StreamHealth.notified]
  cases hr : s.objects[i]? with
  | none => exact h
  | some r =>
      rw [Orderly, hr] at horderly
      dsimp only at horderly ⊢
      split
      · rename_i notification transition failureThreshold hcheck
        rw [hcheck] at horderly
        obtain rfl : recorded = true := horderly
        have hcurrent : s.current = some i := by
          by_contra hne
          have hidle := h.detached i r hr hne
          rw [hcheck] at hidle
          cases hidle
        have hsound := h.sound i r hcurrent hr
        have hreported := hsound.reported
        rw [Reported, hcheck] at hreported
        have hnext : transition = if s.outage then .up else .down := by
          cases transition with
          | down => rw [hreported.2.1]; rfl
          | up => rw [hreported.2]; rfl
        have hsustained : transition = .down →
            List.replicate failureThreshold true <:+ r.results := by
          rintro rfl
          exact hreported.2.2
        let entry : Recorded :=
          ⟨notification, transition, s.current ≠ some i, failureThreshold, r.results⟩
        have hkept : entry.replaced = false := decide_eq_false fun hne => hne hcurrent
        have hlawful := h.lawful.recorded hnext hsustained hkept
        have houtage : ∀ objects entry, entry.transition = transition →
            Manager.outage ⟨objects, s.current, s.recorded ++ [entry]⟩ =
              decide (transition = .down) := by
          intro objects entry hentry
          rw [Manager.outage, List.getLast?_concat, Option.map_some, hentry]
          cases transition with
          | down => rfl
          | up => rfl
        refine ⟨fun j hj => ?_, fun j r' hr' hj => ?_, fun j r' hj hr' => ?_, hlawful _ _⟩
        · change j < (s.objects.modify i _).length
          rw [List.length_modify]
          exact h.valid j hj
        · have hne : i ≠ j := fun heq => hj (heq ▸ hcurrent)
          have hget := getElem?_onObject s i j fun runtime => { runtime with check := .idle }
          rw [if_neg hne] at hget
          exact h.detached j r' (hget.symm.trans hr') hj
        · obtain rfl := Option.some.inj (hcurrent.symm.trans hj)
          have hget := getElem?_onObject s i i fun runtime => { runtime with check := .idle }
          rw [if_pos rfl, hr] at hget
          obtain rfl := Option.some.inj (hget.symm.trans hr')
          change Sound (Manager.outage ⟨_, s.current, s.recorded ++ [_]⟩) _
          rw [houtage _ _ rfl]
          exact hsound.notified hcheck
      · exact h

theorem Steady.tick (h : Steady s) : Steady (step s .tick) := by
  rw [StreamHealth.step]
  cases hcurrent : s.current with
  | none => exact h
  | some i =>
      refine h.onObject (fun hne => absurd hcurrent hne) ?_
      intro r _ hsound
      exact hsound.tick

theorem Steady.connected (h : Steady s) (i : Nat) (timedOut : Bool) :
    Steady (step s (.connected i timedOut)) := by
  refine h.onObject ?_ ?_
  · intro _ r hidle
    rw [RuntimeStreamHealth.connected, hidle]
    exact hidle
  · intro r _ hsound
    exact hsound.connected timedOut

theorem Steady.stored (h : Steady s) {i : Nat} {ok : Bool}
    (horderly : Orderly s (.stored i ok) = true) : Steady (step s (.stored i ok)) := by
  refine h.onObject ?_ ?_
  · intro _ r hidle
    rw [RuntimeStreamHealth.stored, hidle]
    exact hidle
  · intro r hr hsound
    rw [Orderly, hr] at horderly
    exact hsound.stored horderly

theorem Steady.step (h : Steady s) (e : Event) (horderly : Orderly s e = true) :
    Steady (step s e) := by
  cases e with
  | refresh row =>
      cases row with
      | none => exact h.remove horderly
      | some stream => exact h.setRuntimeStream horderly
  | remove => exact h.remove horderly
  | tick => exact h.tick
  | connected i timedOut => exact h.connected i timedOut
  | stored i ok => exact h.stored horderly
  | notified i recorded => exact h.notified horderly

/-- In a run whose steps are all orderly the notifications of the stream alternate, each outage
behind enough failed checks of the target, and none is of a target that is gone. -/
theorem notifications_lawful (events : List Event)
    (horderly : Meets StreamHealth.step (fun s e => Orderly s e = true) .start events) :
    Always StreamHealth.step Lawful .start events :=
  always_of_meets (fun _ h => h.lawful) (fun _ e h he => h.step e he) steady_start horderly

def game : StreamRecord :=
  { name := "game".toList
    incomingPort := 25565
    tcpEnabled := 1
    originHealthCheckEnabled := 1
    forwardHost := "10.0.0.5".toList
    forwardPort := 25565
    originHealthCheckIntervalSeconds := 10
    originHealthCheckTimeoutMs := 1000
    originHealthCheckFailureThreshold := some 1
    originHealthCheckRecoveryThreshold := some 1 }

/-- An outage and the recovery from it. -/
def outageEvents : List Event :=
  [.refresh (some game), .tick, .connected 0 true, .stored 0 true, .notified 0 true, .tick,
    .connected 0 false, .stored 0 true, .notified 0 true]

theorem notifications_lawful_outage :
    (outageEvents.foldl StreamHealth.step .start).recorded.map (·.transition) = [.down, .up] ∧
      Always StreamHealth.step Lawful .start outageEvents :=
  ⟨by decide +kernel, notifications_lawful outageEvents (by decide +kernel)⟩

/-- The target changes while the result of a check of the old one is being written. -/
def movedEvents : List Event :=
  [.refresh (some game), .tick, .connected 0 true,
    .refresh (some { game with forwardHost := "10.0.0.6".toList }), .stored 0 true,
    .notified 0 true]

/-- A target that has been replaced is reported to be down. -/
theorem replaced_target_notified :
    ¬∀ events : List Event, Always StreamHealth.step Lawful .start events := by
  intro h
  have hlawful := (h movedEvents).last
  have hreplaced : (movedEvents.foldl StreamHealth.step .start).recorded.any (·.replaced) := by
    decide +kernel
  obtain ⟨r, hr, hgone⟩ := List.any_eq_true.mp hreplaced
  rw [hlawful.current r hr] at hgone
  cases hgone

end BurrowGate.StreamHealth
