import Mathlib.Data.List.Infix

/-!
# `guardResponseBody` of `transfer-timeout-service.ts`

The reader of the origin, the client's pulls and its cancellation, and the two timers may come in
any order. A pull is not called again before the last one is over, as streams have it. A timer that
is set may fire at any time, so that the two durations do not matter.
-/

namespace BurrowGate.GuardedBody

variable {β : Type}

/-! ## Timers -/

/-- `armed` are the timers that have been set and neither cleared nor fired. -/
structure Timers where
  originTimer : Option Nat
  clientTimer : Option Nat
  armed : List Nat
  next : Nat

namespace Timers

/-- `if (timer) clearTimeout(timer)` -/
def clear (handle : Option Nat) (t : Timers) : Timers :=
  { t with armed := t.armed.filter fun id => some id ≠ handle }

def clearOrigin (t : Timers) : Timers := { t.clear t.originTimer with originTimer := none }

def clearClient (t : Timers) : Timers := { t.clear t.clientTimer with clientTimer := none }

def clearTimers (t : Timers) : Timers := t.clearOrigin.clearClient

def setOrigin (t : Timers) : Timers :=
  { t with originTimer := some t.next, armed := t.next :: t.armed, next := t.next + 1 }

def setClient (t : Timers) : Timers :=
  { t with clientTimer := some t.next, armed := t.next :: t.armed, next := t.next + 1 }

/-- Every armed timer has its handle. -/
def Handled (t : Timers) : Prop :=
  ∀ id ∈ t.armed, t.originTimer = some id ∨ t.clientTimer = some id

variable {t : Timers}

theorem Handled.clearOrigin (h : Handled t) : Handled t.clearOrigin := by
  intro id hid
  obtain ⟨harmed, hne⟩ := List.mem_filter.mp hid
  refine .inr ((h id harmed).resolve_left ?_)
  intro heq
  exact of_decide_eq_true hne heq.symm

theorem Handled.clearClient (h : Handled t) : Handled t.clearClient := by
  intro id hid
  obtain ⟨harmed, hne⟩ := List.mem_filter.mp hid
  refine .inl ((h id harmed).resolve_right ?_)
  intro heq
  exact of_decide_eq_true hne heq.symm

/-- Without handles nothing is armed. -/
theorem Handled.armed_eq_nil (h : Handled t) (horigin : t.originTimer = none)
    (hclient : t.clientTimer = none) : t.armed = [] := by
  refine List.eq_nil_iff_forall_not_mem.mpr ?_
  intro id hid
  rcases h id hid with heq | heq
  · rw [horigin] at heq
    cases heq
  · rw [hclient] at heq
    cases heq

theorem Handled.clearTimers (h : Handled t) : t.clearTimers.armed = [] :=
  h.clearOrigin.clearClient.armed_eq_nil rfl rfl

theorem Handled.setOrigin (h : Handled t) (hnone : t.originTimer = none) :
    Handled t.setOrigin := by
  intro id hid
  rcases List.mem_cons.mp hid with rfl | hid
  · exact .inl rfl
  · refine .inr ((h id hid).resolve_left ?_)
    rw [hnone]
    exact Option.some_ne_none id ∘ Eq.symm

theorem Handled.setClient (h : Handled t) (hnone : t.clientTimer = none) :
    Handled t.setClient := by
  intro id hid
  rcases List.mem_cons.mp hid with rfl | hid
  · exact .inr rfl
  · refine .inl ((h id hid).resolve_right ?_)
    rw [hnone]
    exact Option.some_ne_none id ∘ Eq.symm

theorem Handled.erase (h : Handled t) (id : Nat) :
    Handled { t with armed := t.armed.erase id } :=
  fun other hother => h other (List.mem_of_mem_erase hother)

end Timers

/-! ## The stream -/

inductive StreamState
  | readable
  | closed
  | errored
  | cancelled
  deriving DecidableEq

inductive ReadResult (β : Type)
  | chunk (value : β)
  | done
  | failed

/-- Where the current pull is: the read is pending, or has come to something that the pull has
not seen yet, or the pull waits for ever. -/
inductive Pulling (β : Type)
  | idle
  | reading
  | settled (result : ReadResult β)
  | never

/-- `remaining` is what the origin has still to send. No step reads `endReported`, `enqueued`,
`aborted`, `failed`, `timedOut` and `stopped`: that the reader has reported the end, what has been
enqueued, that the connection has been aborted, and that the origin failed, a timer fired, or the
client cancelled. -/
structure Guard (β : Type) where
  remaining : List β
  timers : Timers
  closing : Bool
  stream : StreamState
  pulling : Pulling β
  endReported : Bool
  enqueued : List β
  aborted : Bool
  failed : Bool
  timedOut : Bool
  stopped : Bool

def Guard.start (body : List β) : Guard β :=
  { remaining := body
    timers := ⟨none, none, [], 0⟩
    closing := false
    stream := .readable
    pulling := .idle
    endReported := false
    enqueued := []
    aborted := false
    failed := false
    timedOut := false
    stopped := false }

/-- `controller.error(error)` -/
def StreamState.error : StreamState → StreamState
  | .readable => .errored
  | state => state

/-- `abort` is what `control?.abort()` returns. -/
def closeConnection (abort : Bool) (s : Guard β) : Guard β :=
  if s.closing then s
  else
    { s with
      closing := true
      timers := s.timers.clearTimers
      aborted := s.aborted || abort
      stream := if abort then s.stream else s.stream.error }

def pull (s : Guard β) : Guard β :=
  let s := { s with timers := s.timers.clearClient }
  if s.closing then { s with pulling := .never }
  else { s with timers := s.timers.setOrigin, pulling := .reading }

/-- The pull goes on from its read. Behind an error it never comes to its `finally`. -/
def resume (abort : Bool) (result : ReadResult β) (s : Guard β) : Guard β :=
  match result with
  | .failed => { closeConnection abort s with pulling := .never }
  | .done =>
      let s := { s with timers := s.timers.clearOrigin }
      if s.closing then { s with pulling := .never }
      else { s with stream := .closed, pulling := .idle }
  | .chunk value =>
      let s := { s with timers := s.timers.clearOrigin }
      if s.closing then { s with pulling := .never }
      else
        { s with
          enqueued := s.enqueued ++ [value]
          timers := s.timers.setClient
          pulling := .idle }

def cancel (s : Guard β) : Guard β :=
  { s with
    closing := true
    timers := s.timers.clearTimers
    stream := .cancelled
    stopped := true }

inductive Event
  | pull
  | chunk
  | done
  | fail
  | resume (abort : Bool)
  | timer (id : Nat) (abort : Bool)
  | cancel

/-- The reader yields the chunks in order and reports the end behind the last, or at once when it
has been cancelled; it may fail at any time. -/
def step (s : Guard β) : Event → Guard β
  | .pull =>
      match s.stream, s.pulling with
      | .readable, .idle => pull s
      | _, _ => s
  | .chunk =>
      match s.pulling, s.remaining with
      | .reading, value :: rest =>
          { s with pulling := .settled (.chunk value), remaining := rest }
      | _, _ => s
  | .done =>
      match s.pulling with
      | .reading =>
          if s.remaining.isEmpty || s.closing then
            { s with pulling := .settled .done, endReported := true }
          else s
      | _ => s
  | .fail =>
      match s.pulling with
      | .reading => { s with pulling := .settled .failed, failed := true }
      | _ => s
  | .resume abort =>
      match s.pulling with
      | .settled result => resume abort result s
      | _ => s
  | .timer id abort =>
      if s.timers.armed.contains id then
        closeConnection abort
          { s with
            timers := { s.timers with armed := s.timers.armed.erase id }
            timedOut := true }
      else s
  | .cancel => if s.stream = .readable then cancel s else s

def run (body : List β) (events : List Event) : Guard β := events.foldl step (.start body)

/-- What the client gets is a part of the body from its beginning, the whole of it where the
stream is closed, and no timer outlives the stream or the connection, closed, cancelled, errored
or aborted. -/
structure Honest (body : List β) (s : Guard β) : Prop where
  ordered : s.enqueued <+: body
  complete : s.stream = .closed → s.endReported = true ∧ s.enqueued = body
  quiet : s.stream ≠ .readable ∨ s.closing = true ∨ s.aborted = true → s.timers.armed = []

/-- The origin has failed, a timer has fired, or the client has cancelled. -/
def Broken (s : Guard β) : Prop := s.failed = true ∨ s.timedOut = true ∨ s.stopped = true

/-! ## The invariant -/

def Pulling.inHand : Pulling β → List β
  | .settled (.chunk value) => [value]
  | .idle | .reading | .settled .done | .settled .failed | .never => []

/-- While nothing has gone wrong. -/
structure Flowing (body : List β) (s : Guard β) : Prop where
  readable : s.stream = .readable
  split : s.enqueued ++ s.pulling.inHand ++ s.remaining = body
  done : s.pulling = .settled .done → s.remaining = [] ∧ s.endReported = true
  waits : s.pulling ≠ .never

structure Finished (body : List β) (s : Guard β) : Prop where
  closed : s.stream = .closed
  whole : s.enqueued = body
  endReported : s.endReported = true
  idle : s.pulling = .idle
  quiet : s.timers.armed = []

structure Guarded (body : List β) (s : Guard β) : Prop where
  handled : s.timers.Handled
  originTimer : s.closing = false → s.pulling = .idle → s.timers.originTimer = none
  clientTimer : s.closing = false → s.pulling ≠ .idle → s.timers.clientTimer = none
  ordered : s.enqueued <+: body
  shut : s.closing = true → s.timers.armed = [] ∧ s.stream ≠ .closed
  phase : s.closing = false → Flowing body s ∨ Finished body s
  aborted : s.aborted = true → s.closing = true
  broken : Broken s → s.closing = true ∨ s.pulling = .settled .failed

variable {body : List β} {s : Guard β}

theorem Guarded.honest (h : Guarded body s) : Honest body s := by
  refine ⟨h.ordered, fun hclosed => ?_, fun hover => ?_⟩
  · cases hclosing : s.closing with
    | true => exact absurd hclosed (h.shut hclosing).2
    | false =>
        rcases h.phase hclosing with hflowing | hfinished
        · rw [hflowing.readable] at hclosed
          cases hclosed
        · exact ⟨hfinished.endReported, hfinished.whole⟩
  · cases hclosing : s.closing with
    | true => exact (h.shut hclosing).1
    | false =>
        rcases h.phase hclosing with hflowing | hfinished
        · rcases hover with hstream | hshut | haborted
          · exact absurd hflowing.readable hstream
          · rw [hclosing] at hshut
            cases hshut
          · rw [h.aborted haborted] at hclosing
            cases hclosing
        · exact hfinished.quiet

theorem guarded_start : Guarded body (.start body) := by
  refine ⟨?_, fun _ _ => rfl, fun _ _ => rfl, List.nil_prefix, ?_, fun _ => .inl ?_, ?_, ?_⟩
  · intro id hid
    cases hid
  · intro h
    cases h
  · exact ⟨rfl, rfl, fun h => (by cases h), fun h => (by cases h)⟩
  · intro h
    cases h
  · rintro (h | h | h)
    · cases h
    · cases h
    · cases h

/-- Once the connection is closing, only that nothing is armed or closed is left to keep. -/
theorem guarded_of_closing (hclosing : s.closing = true) (harmed : s.timers.armed = [])
    (hstream : s.stream ≠ .closed) (hordered : s.enqueued <+: body) : Guarded body s := by
  have hopen : s.closing ≠ false := by
    rw [hclosing]
    exact Bool.noConfusion
  refine ⟨?_, fun h => absurd h hopen, fun h => absurd h hopen, hordered,
    fun _ => ⟨harmed, hstream⟩, fun h => absurd h hopen, fun _ => hclosing, fun _ => .inl hclosing⟩
  intro id hid
  rw [harmed] at hid
  cases hid

theorem closeConnection_shut (s : Guard β) (abort : Bool) (hhandled : s.timers.Handled)
    (hopen : s.closing = false) (hstream : s.stream ≠ .closed) :
    (closeConnection abort s).closing = true ∧ (closeConnection abort s).timers.armed = [] ∧
      (closeConnection abort s).stream ≠ .closed ∧
        (closeConnection abort s).enqueued = s.enqueued := by
  rw [closeConnection, hopen]
  refine ⟨rfl, hhandled.clearTimers, ?_, rfl⟩
  change (if abort then s.stream else s.stream.error) ≠ .closed
  split
  · exact hstream
  · cases hstate : s.stream with
    | readable => exact fun h => (by cases h)
    | closed => exact absurd hstate hstream
    | errored => exact fun h => (by cases h)
    | cancelled => exact fun h => (by cases h)

/-! ## One event -/

theorem Guarded.pull (h : Guarded body s) (hreadable : s.stream = .readable)
    (hidle : s.pulling = .idle) : Guarded body (pull s) := by
  rw [GuardedBody.pull]
  dsimp only
  cases hclosing : s.closing with
  | true =>
      obtain ⟨harmed, hstream⟩ := h.shut hclosing
      have hnone : s.timers.clearClient.armed = [] := by
        change s.timers.armed.filter _ = []
        rw [harmed]
        rfl
      rw [if_pos rfl]
      exact guarded_of_closing rfl hnone hstream h.ordered
  | false =>
      have horigin := h.originTimer hclosing hidle
      rw [if_neg Bool.false_ne_true]
      refine ⟨h.handled.clearClient.setOrigin horigin, fun _ hne => (by cases hne), fun _ _ => rfl,
        h.ordered, fun hc => (by cases hc), fun _ => .inl ?_, fun haborted => ?_,
        fun hbroken => ?_⟩
      · rcases h.phase hclosing with hflowing | hfinished
        · have hsplit := hflowing.split
          rw [hidle] at hsplit
          exact ⟨hreadable, hsplit, fun hd => (by cases hd), fun hn => (by cases hn)⟩
        · rw [hfinished.closed] at hreadable
          cases hreadable
      · exact hclosing.symm.trans (h.aborted haborted)
      · rcases h.broken hbroken with hc | hfailed
        · exact .inl (hclosing.symm.trans hc)
        · rw [hidle] at hfailed
          cases hfailed

/-- The read that a pull waits for is pending only while the stream is readable. -/
theorem Guarded.flowing (h : Guarded body s) (hopen : s.closing = false)
    (hpulling : s.pulling ≠ .idle) : Flowing body s :=
  (h.phase hopen).resolve_right fun hfinished => hpulling hfinished.idle

/-- What the read comes to is put in the place of the read. -/
theorem Guarded.settle (h : Guarded body s) (hreading : s.pulling = .reading)
    {result : ReadResult β} {remaining : List β} {endReported failed : Bool}
    (hsplit : s.closing = false →
      s.enqueued ++ (Pulling.settled result).inHand ++ remaining = body)
    (hdone : s.closing = false → result = .done → remaining = [] ∧ endReported = true)
    (hfailed : failed = true → s.failed = true ∨ result = .failed) :
    Guarded body { s with pulling := .settled result, remaining, endReported, failed } := by
  have hbusy : s.pulling ≠ .idle := by
    rw [hreading]
    exact fun hidle => (by cases hidle)
  refine ⟨h.handled, fun _ hidle => (by cases hidle), fun hopen _ => h.clientTimer hopen hbusy,
    h.ordered, h.shut, fun hopen => .inl ?_, h.aborted, ?_⟩
  · refine ⟨(h.flowing hopen hbusy).readable, hsplit hopen, fun hresult => ?_,
      fun hn => (by cases hn)⟩
    exact hdone hopen (Pulling.settled.inj hresult)
  · have hbefore : Broken s → s.closing = true := by
      intro hbroken
      rcases h.broken hbroken with hclosing | hsettled
      · exact hclosing
      · rw [hreading] at hsettled
        cases hsettled
    rintro (hf | htimed | hstopped)
    · rcases hfailed hf with hf | rfl
      · exact .inl (hbefore (.inl hf))
      · exact .inr rfl
    · exact .inl (hbefore (.inr (.inl htimed)))
    · exact .inl (hbefore (.inr (.inr hstopped)))

theorem Guarded.resume (h : Guarded body s) {result : ReadResult β}
    (hsettled : s.pulling = .settled result) (abort : Bool) :
    Guarded body (resume abort result s) := by
  have hbusy : s.pulling ≠ .idle := by
    rw [hsettled]
    exact fun hidle => (by cases hidle)
  have hclear : s.closing = true → s.timers.clearOrigin.armed = [] := by
    intro hclosing
    change s.timers.armed.filter _ = []
    rw [(h.shut hclosing).1]
    rfl
  cases hclosing : s.closing with
  | true =>
      obtain ⟨harmed, hstream⟩ := h.shut hclosing
      cases result with
      | failed =>
          rw [GuardedBody.resume, closeConnection, if_pos hclosing]
          exact guarded_of_closing hclosing harmed hstream h.ordered
      | done =>
          rw [GuardedBody.resume]
          dsimp only
          rw [if_pos hclosing]
          exact guarded_of_closing hclosing (hclear hclosing) hstream h.ordered
      | chunk value =>
          rw [GuardedBody.resume]
          dsimp only
          rw [if_pos hclosing]
          exact guarded_of_closing hclosing (hclear hclosing) hstream h.ordered
  | false =>
      have hopen : ¬s.closing = true := by
        rw [hclosing]
        exact Bool.false_ne_true
      have hflowing := h.flowing hclosing hbusy
      have hclient := h.clientTimer hclosing hbusy
      have hsplit := hflowing.split
      rw [hsettled] at hsplit
      have hunbroken : result ≠ .failed → ¬Broken s := by
        intro hne hbroken
        rcases h.broken hbroken with hc | hfailed
        · exact hopen hc
        · rw [hsettled] at hfailed
          exact hne (Pulling.settled.inj hfailed)
      cases result with
      | failed =>
          have hstream : s.stream ≠ .closed := by
            rw [hflowing.readable]
            exact fun hc => (by cases hc)
          obtain ⟨hc, harmed, hstate, hsame⟩ :=
            closeConnection_shut s abort h.handled hclosing hstream
          exact guarded_of_closing hc harmed hstate (hsame ▸ h.ordered)
      | done =>
          obtain ⟨hnil, hend⟩ := hflowing.done hsettled
          have hwhole : s.enqueued = body := by
            rw [hnil] at hsplit
            simpa [Pulling.inHand] using hsplit
          rw [GuardedBody.resume]
          dsimp only
          rw [if_neg hopen]
          refine ⟨h.handled.clearOrigin, fun _ _ => rfl, fun _ hne => absurd rfl hne, h.ordered,
            fun hc => absurd hc hopen, fun _ => .inr ?_, h.aborted,
            fun hbroken => absurd hbroken (hunbroken fun hf => (by cases hf))⟩
          exact ⟨rfl, hwhole, hend, rfl, h.handled.clearOrigin.armed_eq_nil rfl hclient⟩
      | chunk value =>
          have hnext : s.enqueued ++ [value] ++ s.remaining = body := hsplit
          rw [GuardedBody.resume]
          dsimp only
          rw [if_neg hopen]
          refine ⟨h.handled.clearOrigin.setClient hclient, fun _ _ => rfl,
            fun _ hne => absurd rfl hne, ⟨_, hnext⟩, fun hc => absurd hc hopen, fun _ => .inl ?_,
            h.aborted, fun hbroken => absurd hbroken (hunbroken fun hf => (by cases hf))⟩
          refine ⟨hflowing.readable, ?_, fun hd => (by cases hd), fun hn => (by cases hn)⟩
          change s.enqueued ++ [value] ++ [] ++ s.remaining = body
          rw [List.append_nil]
          exact hnext

theorem Guarded.timer (h : Guarded body s) {id : Nat} (hid : id ∈ s.timers.armed) (abort : Bool) :
    Guarded body (closeConnection abort { s with
      timers := { s.timers with armed := s.timers.armed.erase id }
      timedOut := true }) := by
  rcases Bool.eq_false_or_eq_true s.closing with hclosing | hclosing
  · rw [(h.shut hclosing).1] at hid
    cases hid
  · have hstream : s.stream ≠ .closed := by
      rcases h.phase hclosing with hflowing | hfinished
      · rw [hflowing.readable]
        exact fun hc => (by cases hc)
      · rw [hfinished.quiet] at hid
        cases hid
    obtain ⟨hc, harmed, hstate, hsame⟩ := closeConnection_shut
      { s with timers := { s.timers with armed := s.timers.armed.erase id }, timedOut := true }
      abort (h.handled.erase id) hclosing hstream
    refine guarded_of_closing hc harmed hstate ?_
    rw [hsame]
    exact h.ordered

theorem Guarded.cancel (h : Guarded body s) : Guarded body (cancel s) :=
  guarded_of_closing rfl h.handled.clearTimers (fun hc => (by cases hc)) h.ordered

theorem Guarded.step (h : Guarded body s) (event : Event) : Guarded body (step s event) := by
  cases event with
  | pull =>
      rw [GuardedBody.step]
      split
      · exact h.pull ‹_› ‹_›
      · exact h
  | chunk =>
      rw [GuardedBody.step]
      split
      · rename_i value rest hreading hremaining
        refine h.settle hreading (fun hopen => ?_) (fun _ hd => (by cases hd)) .inl
        have hbusy : s.pulling ≠ .idle := by
          rw [hreading]
          exact fun hidle => (by cases hidle)
        have hsplit := (h.flowing hopen hbusy).split
        rw [hreading, hremaining] at hsplit
        change s.enqueued ++ [value] ++ rest = body
        rw [List.append_assoc]
        change s.enqueued ++ [] ++ value :: rest = body at hsplit
        rw [List.append_nil] at hsplit
        exact hsplit
      · exact h
  | done =>
      rw [GuardedBody.step]
      split
      · rename_i hreading
        split
        · rename_i hend
          have hbusy : s.pulling ≠ .idle := by
            rw [hreading]
            exact fun hidle => (by cases hidle)
          refine h.settle hreading (fun hopen => ?_) (fun hopen _ => ⟨?_, rfl⟩) .inl
          · have hsplit := (h.flowing hopen hbusy).split
            rw [hreading] at hsplit
            exact hsplit
          · rw [hopen, Bool.or_false] at hend
            exact List.isEmpty_iff.mp hend
        · exact h
      · exact h
  | fail =>
      rw [GuardedBody.step]
      split
      · rename_i hreading
        have hbusy : s.pulling ≠ .idle := by
          rw [hreading]
          exact fun hidle => (by cases hidle)
        refine h.settle hreading (fun hopen => ?_) (fun _ hd => (by cases hd)) fun _ => .inr rfl
        have hsplit := (h.flowing hopen hbusy).split
        rw [hreading] at hsplit
        exact hsplit
      · exact h
  | resume abort =>
      rw [GuardedBody.step]
      split
      · exact h.resume ‹_› abort
      · exact h
  | timer id abort =>
      rw [GuardedBody.step]
      split
      · exact h.timer (List.contains_iff_mem.mp ‹_›) abort
      · exact h
  | cancel =>
      rw [GuardedBody.step]
      split
      · exact h.cancel
      · exact h

/-! ## Runs -/

theorem run_guarded (body : List β) (events : List Event) : Guarded body (run body events) := by
  -- by induction on the events still to come
  have hrun : ∀ (events : List Event) (s : Guard β), Guarded body s →
      Guarded body (events.foldl step s) := by
    intro events
    induction events with
    | nil => exact fun s h => h
    | cons event events ih => exact fun s h => ih _ (h.step event)
  exact hrun events _ guarded_start

/-- After a failure, a timeout or a cancellation no event enqueues anything or closes the
stream. -/
theorem Guarded.step_broken (h : Guarded body s) (hbroken : Broken s) (event : Event) :
    Broken (GuardedBody.step s event) ∧ (GuardedBody.step s event).enqueued = s.enqueued := by
  have hkept : ∀ t : Guard β, t.failed = s.failed → t.timedOut = s.timedOut →
      t.stopped = s.stopped → Broken t := by
    intro t hfailed htimedOut hstopped
    rw [Broken, hfailed, htimedOut, hstopped]
    exact hbroken
  have hclose : ∀ abort (t : Guard β), Broken t → t.enqueued = s.enqueued →
      Broken (closeConnection abort t) ∧ (closeConnection abort t).enqueued = s.enqueued := by
    intro abort t ht hsame
    rw [closeConnection]
    split
    · exact ⟨ht, hsame⟩
    · exact ⟨ht, hsame⟩
  cases event with
  | pull =>
      rw [GuardedBody.step]
      split
      · rw [GuardedBody.pull]
        dsimp only
        split
        · exact ⟨hkept _ rfl rfl rfl, rfl⟩
        · exact ⟨hkept _ rfl rfl rfl, rfl⟩
      · exact ⟨hbroken, rfl⟩
  | chunk =>
      rw [GuardedBody.step]
      split
      · exact ⟨hkept _ rfl rfl rfl, rfl⟩
      · exact ⟨hbroken, rfl⟩
  | done =>
      rw [GuardedBody.step]
      split
      · split
        · exact ⟨hkept _ rfl rfl rfl, rfl⟩
        · exact ⟨hbroken, rfl⟩
      · exact ⟨hbroken, rfl⟩
  | fail =>
      rw [GuardedBody.step]
      split
      · exact ⟨.inl rfl, rfl⟩
      · exact ⟨hbroken, rfl⟩
  | resume abort =>
      rw [GuardedBody.step]
      split
      · rename_i result hsettled
        cases result with
        | failed =>
            rw [GuardedBody.resume]
            exact hclose abort s hbroken rfl
        | done =>
            rw [GuardedBody.resume]
            dsimp only
            split
            · exact ⟨hkept _ rfl rfl rfl, rfl⟩
            · exact ⟨hkept _ rfl rfl rfl, rfl⟩
        | chunk value =>
            -- a read that has come to a chunk has not failed
            have hclosing : s.closing = true := by
              rcases h.broken hbroken with hclosing | hfailed
              · exact hclosing
              · rw [hsettled] at hfailed
                cases hfailed
            rw [GuardedBody.resume]
            dsimp only
            rw [if_pos hclosing]
            exact ⟨hkept _ rfl rfl rfl, rfl⟩
      · exact ⟨hbroken, rfl⟩
  | timer id abort =>
      rw [GuardedBody.step]
      split
      · exact hclose abort _ (.inr (.inl rfl)) rfl
      · exact ⟨hbroken, rfl⟩
  | cancel =>
      rw [GuardedBody.step]
      split
      · exact ⟨.inr (.inr rfl), rfl⟩
      · exact ⟨hbroken, rfl⟩

theorem Guarded.not_closed (h : Guarded body s) (hbroken : Broken s) : s.stream ≠ .closed := by
  cases hclosing : s.closing with
  | true => exact (h.shut hclosing).2
  | false =>
      rcases h.broken hbroken with hc | hfailed
      · rw [hclosing] at hc
        cases hc
      · have hbusy : s.pulling ≠ .idle := by
          rw [hfailed]
          exact fun hidle => (by cases hidle)
        rw [(h.flowing hclosing hbusy).readable]
        exact fun hc => (by cases hc)

/-- Whatever comes in whatever order, a body that is cut off never looks complete. -/
theorem guarded_body_honest (body : List β) (events : List Event) :
    Honest body (run body events) ∧
      ∀ more, Broken (run body events) →
        (run body (events ++ more)).enqueued = (run body events).enqueued ∧
          (run body (events ++ more)).stream ≠ .closed := by
  refine ⟨(run_guarded body events).honest, ?_⟩
  -- by induction on the events that follow
  have hmore : ∀ (more : List Event) (s : Guard β), Guarded body s → Broken s →
      (more.foldl step s).enqueued = s.enqueued ∧ (more.foldl step s).stream ≠ .closed := by
    intro more
    induction more with
    | nil => exact fun s h hbroken => ⟨rfl, h.not_closed hbroken⟩
    | cons event more ih =>
        intro s h hbroken
        obtain ⟨hstill, hsame⟩ := h.step_broken hbroken event
        obtain ⟨henqueued, hstream⟩ := ih _ (h.step event) hstill
        exact ⟨henqueued.trans hsame, hstream⟩
  intro more hbroken
  rw [run, List.foldl_append]
  exact hmore more _ (run_guarded body events) hbroken

end BurrowGate.GuardedBody
