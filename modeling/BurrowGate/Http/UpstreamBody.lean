import BurrowGate.Form.Inspector
import BurrowGate.Js.Value
import BurrowGate.Lib.Run
import Mathlib.Algebra.Order.Floor.Ring
import Mathlib.Data.Rat.Floor

/-!
# The body of a proxied request

`upstreamRequestBody` and the part of `proxyRequest` around `fetch` in `proxy-service.ts`, with
`UploadDeadline` and `readBodyWithinDeadline` of `transfer-timeout-service.ts`. The events of a
request are the chunks of its body, the end or the failure of it, the timer of the deadline, the
reads of `fetch` behind a tap, and what `fetch` comes to, in any order.
-/

namespace BurrowGate.UpstreamBody

open Js Form
open Lib.Run (Always Meets always_iff_meets)

/-! ## The upload deadline -/

/-- `config.client` -/
structure ClientConfig where
  timeoutMs : Nat
  minRateBytesPerSecond : Nat

/-- `dueAt` is the time that the timer has been set to. -/
structure UploadDeadline where
  startedAt : Int
  lastActivityAt : Int
  receivedBytes : Nat
  finished : Bool
  dueAt : Int

namespace UploadDeadline

/-- `setTimeout` drops the fraction of its delay. -/
def arm (config : ClientConfig) (now : Int) (d : UploadDeadline) : UploadDeadline :=
  let idleDeadline : ℚ := d.lastActivityAt + config.timeoutMs
  let rateDeadline : ℚ :=
    d.startedAt + config.timeoutMs + d.receivedBytes * 1000 / config.minRateBytesPerSecond
  { d with dueAt := now + ⌊max 0 (min idleDeadline rateDeadline - now)⌋ }

def new (config : ClientConfig) (now : Int) : UploadDeadline :=
  arm config now
    { startedAt := now, lastActivityAt := now, receivedBytes := 0, finished := false, dueAt := now }

def received (config : ClientConfig) (now : Int) (bytes : Nat) (d : UploadDeadline) :
    UploadDeadline :=
  if d.finished then d
  else arm config now { d with receivedBytes := d.receivedBytes + bytes, lastActivityAt := now }

def stop (d : UploadDeadline) : UploadDeadline := { d with finished := true }

/-- The timer is set and may fire. -/
def expires (now : Int) (d : UploadDeadline) : Bool := !d.finished && d.dueAt ≤ now

end UploadDeadline

/-! ## A request on its way -/

/-- The limit as the constructor of the inspector takes it. -/
structure Inspection where
  boundary : Option (List Char)
  limits : RequestLimits
  blockedMultipartFields : List BlockedName

/-- `tapped`: `tapBodyForCapture` puts a stream of its own behind the one that counts. -/
structure Settings where
  config : ClientConfig
  maxBodyBytes : Nat
  inspection : Option Inspection
  tapped : Bool

structure Request where
  method : List Char
  hasBody : Bool
  contentLength : Option (List Char)

/-- `RequestBodyTooLargeError`, `RequestInputRejectedError`, `RequestBodyTimeoutError` and
`RequestBodyIncompleteError`; then the error of the body itself, and that of `fetch`. -/
inductive Failure
  | tooLarge (maximumBytes : Nat)
  | rejected (violation : RequestLimitViolation)
  | timedOut
  | incomplete (expectedBytes receivedBytes : Nat)
  | client
  | origin
  deriving DecidableEq

inductive BodyState
  | flowing
  | closed
  | errored (failure : Failure)
  deriving DecidableEq

inductive Outcome
  | answered
  | failed (failure : Failure)
  deriving DecidableEq

structure LimitState where
  exceeded : Bool := false
  rejection : Option RequestLimitViolation := none
  timedOut : Bool := false
  deriving DecidableEq

/-- What `recordBandwidth` and `recordBandwidthLimitBytes` have been given. -/
structure Meter where
  clientReceivedBytes : Nat := 0
  upstreamSentBytes : Nat := 0
  limitBytes : Nat := 0
  deriving DecidableEq

def Meter.receive (bytes : Nat) (m : Meter) : Meter :=
  { m with
    clientReceivedBytes := m.clientReceivedBytes + bytes
    limitBytes := m.limitBytes + bytes }

def Meter.send (bytes : Nat) (m : Meter) : Meter :=
  { m with upstreamSentBytes := m.upstreamSentBytes + bytes }

/-- `taken` are the chunks that have been read, `handed` is what the body given to `fetch` has
brought, `pending` what a tap holds of it, and `body` is that body, or the reading of it where it is
buffered. -/
structure Upload where
  taken : List Bytes
  received : Nat
  ended : Bool
  handed : List Bytes
  pending : List Bytes
  body : BodyState
  deadline : UploadDeadline
  inspector : Option FormBodyInspector
  limitState : LimitState
  meter : Meter
  outcome : Option Outcome

inductive Mode
  | bodyless
  | buffered (contentLength : Nat)
  | streamed
  deriving DecidableEq

def FIXED_LENGTH_BODY_BUFFER_LIMIT : Int := 1048576

def Request.mode (request : Request) : Mode :=
  if request.method = "GET".toList ∨ request.method = "HEAD".toList ∨ request.hasBody = false then
    .bodyless
  else
    match request.contentLength.bind fun raw => safeInteger (toNumber raw) with
    | some length =>
        if 0 ≤ length ∧ length ≤ FIXED_LENGTH_BODY_BUFFER_LIMIT then .buffered length.toNat
        else .streamed
    | none => .streamed

def start (settings : Settings) (mode : Mode) (now : Int) : Upload :=
  let deadline := UploadDeadline.new settings.config now
  { taken := []
    received := 0
    ended := false
    handed := []
    pending := []
    body := if mode = .bodyless then .closed else .flowing
    deadline := if mode = .bodyless then deadline.stop else deadline
    inspector := settings.inspection.map fun inspection =>
      .new inspection.boundary inspection.limits inspection.blockedMultipartFields
    limitState := {}
    meter := {}
    outcome := none }

inductive Event
  | chunk (now : Int) (bytes : Bytes)
  | close
  | fail
  | timer (now : Int)
  | pull
  | answer
  | refuse

def Settings.oversize (settings : Settings) (received : Nat) : Bool :=
  0 < settings.maxBodyBytes && settings.maxBodyBytes < received

/-- `inspector?.push(chunk)` -/
def inspect (inspector : Option FormBodyInspector) (chunk : Bytes) :
    Option RequestLimitViolation × Option FormBodyInspector :=
  match inspector with
  | none => (none, none)
  | some inspector =>
      let (violation, inspector) := inspector.push chunk
      (violation, some inspector)

/-- The chunk is counted, however it fares. -/
def Upload.take (config : ClientConfig) (now : Int) (chunk : Bytes) (s : Upload) : Upload :=
  { s with
    taken := s.taken ++ [chunk]
    received := s.received + chunk.length
    deadline := s.deadline.received config now chunk.length }

/-- `fetch` reads what is pending. -/
def Upload.pull (s : Upload) : Upload :=
  match s.pending with
  | [] => s
  | chunk :: pending => { s with handed := s.handed ++ [chunk], pending }

/-- `controller.enqueue(chunk)`. Without a tap it is `fetch` that has asked for the chunk. -/
def Upload.enqueue (tapped : Bool) (chunk : Bytes) (s : Upload) : Upload :=
  let s := { s with pending := s.pending ++ [chunk] }
  if tapped then s else s.pull

/-- A stream that fails drops what a tap holds of it. -/
def Upload.error (failure : Failure) (s : Upload) : Upload :=
  { s with body := .errored failure, pending := [] }

/-- The `transform` of the stream. -/
def transform (settings : Settings) (now : Int) (chunk : Bytes) (s : Upload) : Upload :=
  let s := s.take settings.config now chunk
  let s := { s with meter := s.meter.receive chunk.length }
  if settings.oversize s.received then
    { s with limitState := { s.limitState with exceeded := true } }.error
      (.tooLarge settings.maxBodyBytes)
  else
    match inspect s.inspector chunk with
    | (some violation, inspector) =>
        { s with
          inspector
          limitState := { s.limitState with rejection := some violation } }.error
            (.rejected violation)
    | (none, inspector) =>
        { s with inspector, meter := s.meter.send chunk.length }.enqueue settings.tapped chunk

def Upload.throwing (failure : Failure) (s : Upload) : Upload :=
  { s with body := .errored failure, outcome := some (.failed failure) }

/-- The reading has come to the end of the body. -/
def finishBuffered (settings : Settings) (contentLength : Nat) (s : Upload) : Upload :=
  let s := { s with ended := true, deadline := s.deadline.stop }
  if s.received < contentLength then s.throwing (.incomplete contentLength s.received)
  else
    let body := s.taken.flatten
    if settings.oversize body.length then
      { s with meter := s.meter.receive body.length }.throwing (.tooLarge settings.maxBodyBytes)
    else
      match inspect s.inspector body with
      | (some violation, inspector) =>
          { s with inspector, meter := s.meter.receive body.length }.throwing (.rejected violation)
      | (none, inspector) => { s with inspector, handed := [body], body := .closed }

/-- What `proxyRequest` throws where `fetch` is rejected. -/
def thrown (settings : Settings) (limitState : LimitState) : Failure :=
  if limitState.timedOut then .timedOut
  else if limitState.exceeded then .tooLarge settings.maxBodyBytes
  else
    match limitState.rejection with
    | some violation => .rejected violation
    | none => .origin

def stepBuffered (settings : Settings) (contentLength : Nat) (s : Upload) : Event → Upload
  | .chunk now bytes => if s.body = .flowing then s.take settings.config now bytes else s
  | .close => if s.body = .flowing then finishBuffered settings contentLength s else s
  | .fail =>
      if s.body = .flowing then { s with deadline := s.deadline.stop }.throwing .client else s
  | .timer now =>
      if s.deadline.expires now then { s with deadline := s.deadline.stop }.throwing .timedOut
      else s
  | .pull => s
  -- `fetch` has been called with the buffer.
  | .answer =>
      if s.body = .closed ∧ s.outcome = none then
        let bytes := s.handed.flatten.length
        { s with
          outcome := some .answered
          meter := if 0 < bytes then (s.meter.receive bytes).send bytes else s.meter }
      else s
  | .refuse =>
      if s.body = .closed ∧ s.outcome = none then
        { s with outcome := some (.failed (thrown settings s.limitState)) }
      else s

def stepStreamed (settings : Settings) (s : Upload) : Event → Upload
  | .chunk now bytes => if s.body = .flowing then transform settings now bytes s else s
  | .close =>
      if s.body = .flowing then
        { s with ended := true, body := .closed, deadline := s.deadline.stop }
      else s
  -- It fails, or it is cancelled; behind its end only what a tap holds is lost.
  | .fail =>
      if s.body = .flowing ∨ s.body = .closed ∧ s.pending ≠ [] then s.error .client else s
  | .timer now =>
      if s.deadline.expires now then
        let s := { s with
          deadline := s.deadline.stop
          limitState := { s.limitState with timedOut := true } }
        if s.body = .flowing then s.error .timedOut else s
      else s
  | .pull => s.pull
  | .answer => if s.outcome = none then { s with outcome := some .answered } else s
  -- The body is cancelled with the request that it was for.
  | .refuse =>
      if s.outcome = none then
        { s with
          deadline := s.deadline.stop
          body := if s.body = .flowing then .errored .origin else s.body
          pending := []
          outcome := some (.failed (thrown settings s.limitState)) }
      else s

def step (settings : Settings) (mode : Mode) (s : Upload) (event : Event) : Upload :=
  match mode with
  | .buffered contentLength => stepBuffered settings contentLength s event
  | .bodyless | .streamed => stepStreamed settings s event

/-! ## The rules of a body -/

inductive Rule
  | size
  | input
  deriving DecidableEq

/-- The error that reports a broken rule. -/
def Failure.rule : Failure → Option Rule
  | .tooLarge _ => some .size
  | .rejected _ => some .input
  | .timedOut | .incomplete _ _ | .client | .origin => none

/-- What the inspection finds in a body as a whole. -/
def Settings.violation (settings : Settings) (body : Bytes) : Option RequestLimitViolation :=
  settings.inspection.bind fun inspection =>
    verdict inspection.boundary inspection.limits inspection.blockedMultipartFields body

/-- The size is checked first. -/
def Settings.broken (settings : Settings) (body : Bytes) : Option Rule :=
  if settings.oversize body.length then some .size
  else if (settings.violation body).isSome then some .input
  else none

/-- The rule that is broken with the first chunk to break one. -/
def Settings.firstBroken (settings : Settings) (before : Bytes) : List Bytes → Option Rule
  | [] => none
  | chunk :: chunks =>
      (settings.broken (before ++ chunk)).or (settings.firstBroken (before ++ chunk) chunks)

/-- The limits are exact. The counts are read once `fetch` has answered or failed, or the body
has. What a tap holds is on its way to the origin. -/
structure Exact (settings : Settings) (mode : Mode) (s : Upload) : Prop where
  bounded : 0 < settings.maxBodyBytes → s.handed.flatten.length ≤ settings.maxBodyBytes
  withheld : ∃ clean, clean <+: s.taken ∧ settings.firstBroken [] clean = none ∧
    s.handed.flatten = clean.flatten
  reported : ∀ failure, s.body = .errored failure ∨ s.outcome = some (.failed failure) →
    failure.rule = settings.firstBroken [] s.taken
  unchanged : s.ended = true → (∀ contentLength, mode = .buffered contentLength →
    contentLength ≤ s.taken.flatten.length) → settings.firstBroken [] s.taken = none →
    (s.handed ++ s.pending).flatten = s.taken.flatten
  counted : s.outcome ≠ none ∨ (∃ failure, s.body = .errored failure) →
    s.meter = ⟨s.taken.flatten.length, (s.handed ++ s.pending).flatten.length,
      s.taken.flatten.length⟩

/-- The event fails the stream of the body. -/
def Upload.fails (settings : Settings) (s : Upload) : Event → Prop
  | .chunk _ bytes => s.body = .flowing ∧ settings.broken (s.taken.flatten ++ bytes) ≠ none
  | .fail => s.body = .flowing ∨ s.body = .closed ∧ s.pending ≠ []
  | .timer now => s.body = .flowing ∧ s.deadline.expires now = true
  | .refuse => s.outcome = none
  | .close | .pull | .answer => False

/-- A buffered body is read to its declared length, breaks no rule of its input before the size,
and the origin answers, or nothing of it has been read. A stream does not fail while a tap holds
bytes of it, and its deadline does not expire between the chunk that broke a rule and the rejection
of `fetch`. -/
def Orderly (settings : Settings) (mode : Mode) (s : Upload) (event : Event) : Prop :=
  match mode, event with
  | .buffered contentLength, .close => s.body = .flowing →
      (s.received < contentLength → s.received = 0) ∧
        (contentLength ≤ s.received → settings.oversize s.received = true →
          settings.firstBroken [] s.taken = some .size)
  | .buffered _, .fail => s.body = .flowing → s.received = 0
  | .buffered _, .timer now => s.deadline.expires now = true → s.received = 0
  | .buffered _, .refuse => s.body = .closed → s.outcome = none → s.received = 0
  | .buffered _, _ => True
  | _, event => (s.fails settings event → s.pending.flatten = []) ∧
      (event = .refuse → s.outcome = none → s.limitState.timedOut = true →
        s.limitState.exceeded = false ∧ s.limitState.rejection = none)

/-! ## Rules and chunks -/

namespace Settings

variable {settings : Settings} {body : Bytes} {chunks : List Bytes} {rule : Rule}

theorem oversize_iff {received : Nat} : settings.oversize received = true ↔
    0 < settings.maxBodyBytes ∧ settings.maxBodyBytes < received := by
  rw [oversize, Bool.and_eq_true, decide_eq_true_iff, decide_eq_true_iff]

theorem oversize_mono {m n : Nat} (hle : m ≤ n) (h : settings.oversize m = true) :
    settings.oversize n = true := by
  rw [oversize_iff] at h ⊢
  omega

theorem violation_nil : settings.violation [] = none := by
  rw [violation]
  cases settings.inspection with
  | none => rfl
  | some inspection => exact verdict_nil _ _ _

theorem violation_append (h : (settings.violation body).isSome = true) (more : Bytes) :
    (settings.violation (body ++ more)).isSome = true := by
  rw [violation] at h ⊢
  cases hinspection : settings.inspection with
  | none =>
      rw [hinspection] at h
      cases h
  | some inspection =>
      rw [hinspection] at h
      rw [Option.isSome_iff_ne_none] at h ⊢
      exact verdict_append h more

theorem broken_eq_none : settings.broken body = none ↔
    settings.oversize body.length = false ∧ settings.violation body = none := by
  rw [broken]
  cases hsize : settings.oversize body.length with
  | true => exact ⟨fun h => (by cases h), fun h => (by cases h.1)⟩
  | false =>
      cases hviolation : settings.violation body with
      | none => exact ⟨fun _ => ⟨rfl, rfl⟩, fun _ => rfl⟩
      | some violation => exact ⟨fun h => (by cases h), fun h => (by cases h.2)⟩

theorem broken_nil : settings.broken [] = none := by
  rw [broken_eq_none]
  refine ⟨?_, violation_nil⟩
  rw [← Bool.not_eq_true, oversize_iff, List.length_nil]
  omega

/-- What a body breaks, every longer one breaks. -/
theorem broken_of_append {more : Bytes} (h : settings.broken (body ++ more) = none) :
    settings.broken body = none := by
  rw [broken_eq_none] at h ⊢
  obtain ⟨hsize, hviolation⟩ := h
  constructor
  · rw [← Bool.not_eq_true] at hsize ⊢
    intro hover
    refine hsize (oversize_mono ?_ hover)
    rw [List.length_append]
    exact Nat.le_add_right _ _
  · rw [← Option.not_isSome_iff_eq_none] at hviolation ⊢
    exact fun hsome => hviolation (violation_append hsome more)

theorem firstBroken_append (before : Bytes) (first second : List Bytes) :
    settings.firstBroken before (first ++ second) =
      (settings.firstBroken before first).or
        (settings.firstBroken (before ++ first.flatten) second) := by
  induction first generalizing before with
  | nil => rw [List.flatten_nil, List.append_nil]; rfl
  | cons chunk first ih =>
      rw [List.cons_append, firstBroken, ih, firstBroken, List.flatten_cons, List.append_assoc,
        Option.or_assoc]

/-- Some chunk breaks a rule just where the whole does. -/
theorem firstBroken_eq_none {before : Bytes} (hbefore : settings.broken before = none) :
    settings.firstBroken before chunks = none ↔
      settings.broken (before ++ chunks.flatten) = none := by
  induction chunks generalizing before with
  | nil =>
      rw [List.flatten_nil, List.append_nil]
      exact ⟨fun _ => hbefore, fun _ => rfl⟩
  | cons chunk chunks ih =>
      rw [firstBroken, Option.or_eq_none_iff, List.flatten_cons, ← List.append_assoc]
      constructor
      · rintro ⟨hchunk, hrest⟩
        exact (ih hchunk).mp hrest
      · intro h
        have hchunk := broken_of_append h
        exact ⟨hchunk, (ih hchunk).mpr h⟩

theorem firstBroken_nil : settings.firstBroken [] chunks = none ↔
    settings.broken chunks.flatten = none :=
  firstBroken_eq_none broken_nil

theorem firstBroken_concat (h : settings.firstBroken [] chunks = none) (chunk : Bytes) :
    settings.firstBroken [] (chunks ++ [chunk]) = settings.broken (chunks.flatten ++ chunk) := by
  rw [firstBroken_append, h, Option.none_or, firstBroken, List.nil_append]
  exact Option.or_none

theorem firstBroken_prefix {part : List Bytes} (h : settings.firstBroken [] chunks = none)
    (hpart : part <+: chunks) : settings.firstBroken [] part = none := by
  obtain ⟨rest, rfl⟩ := hpart
  rw [firstBroken_append, Option.or_eq_none_iff] at h
  exact h.1

theorem oversize_of_firstBroken {before : Bytes}
    (h : settings.firstBroken before chunks = some .size) :
    settings.oversize (before ++ chunks.flatten).length = true := by
  induction chunks generalizing before with
  | nil => cases h
  | cons chunk chunks ih =>
      rw [List.flatten_cons, ← List.append_assoc]
      rw [firstBroken, Option.or_eq_some_iff] at h
      rcases h with hchunk | ⟨-, hrest⟩
      · rw [broken] at hchunk
        split at hchunk
        · rename_i hover
          refine oversize_mono ?_ hover
          simp only [List.length_append]
          omega
        · split at hchunk
          · cases hchunk
          · cases hchunk
      · exact ih hrest

/-- A body within its size that breaks the rule of its input breaks that one first. -/
theorem firstBroken_input (hsize : settings.oversize chunks.flatten.length = false)
    (h : settings.violation chunks.flatten ≠ none) :
    settings.firstBroken [] chunks = some .input := by
  cases hfirst : settings.firstBroken [] chunks with
  | none => exact absurd (broken_eq_none.mp (firstBroken_nil.mp hfirst)).2 h
  | some rule =>
      cases rule with
      | size =>
          have hover := oversize_of_firstBroken hfirst
          rw [List.nil_append, hsize] at hover
          cases hover
      | input => rfl

end Settings

/-! ## The inspector of a request -/

section Steps

variable {settings : Settings} {s : Upload}

/-- The inspector has seen this body, and no violation in it. -/
def Watches (settings : Settings) (inspector : Option FormBodyInspector) (body : Bytes) : Prop :=
  match settings.inspection with
  | none => inspector = none
  | some inspection => ∃ i, inspector = some i ∧
      Inspected i inspection.boundary inspection.limits inspection.blockedMultipartFields body

theorem watches_new : Watches settings (settings.inspection.map fun inspection =>
    .new inspection.boundary inspection.limits inspection.blockedMultipartFields) [] := by
  rw [Watches]
  cases settings.inspection with
  | none => rfl
  | some inspection => exact ⟨_, rfl, inspected_new _ _ _⟩

theorem Watches.inspect {inspector : Option FormBodyInspector} {body : Bytes}
    (h : Watches settings inspector body) (chunk : Bytes) :
    (inspect inspector chunk).1 = settings.violation (body ++ chunk) ∧
      ((inspect inspector chunk).1 = none →
        Watches settings (inspect inspector chunk).2 (body ++ chunk)) := by
  rw [Watches] at h ⊢
  rw [Settings.violation]
  cases hinspection : settings.inspection with
  | none =>
      rw [hinspection] at h
      obtain rfl := h
      exact ⟨rfl, fun _ => rfl⟩
  | some inspection =>
      rw [hinspection] at h
      obtain ⟨i, rfl, hinspected⟩ := h
      obtain ⟨hreport, -, hnext⟩ := hinspected.push chunk
      exact ⟨hreport, fun hnone => ⟨_, rfl, hnext hnone⟩⟩

theorem flatten_concat (chunks : List Bytes) (chunk : Bytes) :
    (chunks ++ [chunk]).flatten = chunks.flatten ++ chunk := by
  rw [List.flatten_append, List.flatten_singleton]

/-! ## A body that is passed on while it is read -/

/-- No rule has been broken. -/
structure Clean (settings : Settings) (s : Upload) : Prop where
  first : settings.firstBroken [] s.taken = none
  whole : s.body = .flowing → s.handed ++ s.pending = s.taken
  passed : (s.handed ++ s.pending).flatten = s.taken.flatten
  exceeded : s.limitState.exceeded = false
  rejection : s.limitState.rejection = none
  watches : Watches settings s.inspector s.taken.flatten
  failure : ∀ failure, s.body = .errored failure → failure.rule = none

/-- The last chunk has broken a rule. -/
structure Broken (settings : Settings) (rule : Rule) (s : Upload) : Prop where
  first : settings.firstBroken [] s.taken = some rule
  flagged : ¬(s.limitState.exceeded = false ∧ s.limitState.rejection = none)
  thrown : s.limitState.timedOut = false → (thrown settings s.limitState).rule = some rule
  failure : ∃ failure, s.body = .errored failure ∧ failure.rule = some rule

/-- What has been passed on is a beginning of the body that breaks no rule. -/
structure Streaming (settings : Settings) (s : Upload) : Prop where
  received : s.received = s.taken.flatten.length
  meter : s.meter = ⟨s.taken.flatten.length, (s.handed ++ s.pending).flatten.length,
    s.taken.flatten.length⟩
  order : s.handed ++ s.pending <+: s.taken
  sound : settings.firstBroken [] (s.handed ++ s.pending) = none
  progress : Clean settings s ∨ ∃ rule, Broken settings rule s
  outcome : ∀ failure, s.outcome = some (.failed failure) →
    s.body ≠ .flowing ∧ failure.rule = settings.firstBroken [] s.taken

theorem streaming_start (mode : Mode) (now : Int) :
    Streaming settings (start settings mode now) := by
  refine ⟨rfl, rfl, List.nil_prefix, rfl, .inl ⟨rfl, fun _ => rfl, rfl, rfl, rfl, watches_new, ?_⟩,
    fun _ h => (by cases h)⟩
  intro failure h
  change (if mode = .bodyless then BodyState.closed else .flowing) = _ at h
  split at h
  · cases h
  · cases h

/-- What breaks a rule ends the body. -/
theorem Streaming.clean (h : Streaming settings s) (hflowing : s.body = .flowing) :
    Clean settings s := by
  rcases h.progress with hclean | ⟨rule, hbroken⟩
  · exact hclean
  · obtain ⟨failure, hfailure, -⟩ := hbroken.failure
    rw [hflowing] at hfailure
    cases hfailure

theorem thrown_rule {limitState : LimitState} (hexceeded : limitState.exceeded = false)
    (hrejection : limitState.rejection = none) : (thrown settings limitState).rule = none := by
  rw [thrown, hexceeded, hrejection]
  split
  · rfl
  · rfl

section Transform

variable {now : Int} {chunk : Bytes}

theorem transform_oversize (hover : settings.oversize (s.received + chunk.length) = true) :
    transform settings now chunk s =
      { s.take settings.config now chunk with
        meter := s.meter.receive chunk.length
        limitState := { s.limitState with exceeded := true } }.error
          (.tooLarge settings.maxBodyBytes) :=
  if_pos hover

/-- A chunk within the size fares as the inspection finds. -/
theorem transform_inspected (hover : ¬settings.oversize (s.received + chunk.length) = true) :
    transform settings now chunk s =
      (inspect s.inspector chunk).1.elim
        ({ s.take settings.config now chunk with
          meter := (s.meter.receive chunk.length).send chunk.length
          inspector := (inspect s.inspector chunk).2 }.enqueue settings.tapped chunk)
        fun violation =>
          { s.take settings.config now chunk with
            meter := s.meter.receive chunk.length
            inspector := (inspect s.inspector chunk).2
            limitState := { s.limitState with rejection := some violation } }.error
              (.rejected violation) := by
  refine (if_neg hover).trans ?_
  change (match inspect s.inspector chunk with
    | (some violation, inspector) => _
    | (none, inspector) => _) = _
  rcases inspect s.inspector chunk with ⟨report, inspector⟩
  cases report with
  | some violation => rfl
  | none => rfl

end Transform

theorem pull_eq (s : Upload) : ∃ handed pending, handed ++ pending = s.handed ++ s.pending ∧
    s.pull = { s with handed, pending } := by
  rw [Upload.pull]
  split
  · exact ⟨s.handed, s.pending, rfl, rfl⟩
  · rename_i chunk pending hpending
    refine ⟨s.handed ++ [chunk], pending, ?_, rfl⟩
    rw [hpending, List.append_assoc]
    rfl

theorem enqueue_eq (tapped : Bool) (chunk : Bytes) (s : Upload) :
    ∃ handed pending, handed ++ pending = s.handed ++ s.pending ++ [chunk] ∧
      s.enqueue tapped chunk = { s with handed, pending } := by
  rw [Upload.enqueue, List.append_assoc]
  cases tapped with
  | true => exact ⟨s.handed, s.pending ++ [chunk], rfl, rfl⟩
  | false => exact pull_eq { s with pending := s.pending ++ [chunk] }

theorem Streaming.pull (h : Streaming settings s) : Streaming settings s.pull := by
  obtain ⟨handed, pending, hqueue, heq⟩ := pull_eq s
  rw [heq]
  refine ⟨h.received, ?_, ?_, ?_, ?_, h.outcome⟩
  · change s.meter = ⟨_, (handed ++ pending).flatten.length, _⟩
    rw [hqueue]
    exact h.meter
  · change handed ++ pending <+: _
    rw [hqueue]
    exact h.order
  · change settings.firstBroken [] (handed ++ pending) = none
    rw [hqueue]
    exact h.sound
  · rcases h.progress with hclean | ⟨rule, hbroken⟩
    · exact .inl ⟨hclean.first, fun hflowing => hqueue.trans (hclean.whole hflowing),
        (congrArg List.flatten hqueue).trans hclean.passed, hclean.exceeded, hclean.rejection,
        hclean.watches, hclean.failure⟩
    · exact .inr ⟨rule, hbroken.first, hbroken.flagged, hbroken.thrown, hbroken.failure⟩

section Taken

variable (h : Streaming settings s) (hflowing : s.body = .flowing) (now : Int) (chunk : Bytes)

include h

theorem Streaming.received_take :
    s.received + chunk.length = (s.taken ++ [chunk]).flatten.length := by
  rw [flatten_concat, List.length_append, h.received]

include hflowing

theorem Streaming.outcome_open (failure : Failure) : s.outcome ≠ some (.failed failure) :=
  fun hfailed => (h.outcome failure hfailed).1 hflowing

/-- The chunk breaks a rule, and nothing is held ahead of it. -/
theorem Streaming.broke (hempty : s.pending.flatten = []) {rule : Rule} {failure : Failure}
    {limitState : LimitState} (inspector : Option FormBodyInspector)
    (hfirst : settings.firstBroken [] (s.taken ++ [chunk]) = some rule)
    (hflagged : ¬(limitState.exceeded = false ∧ limitState.rejection = none))
    (hthrown : limitState.timedOut = false → (thrown settings limitState).rule = some rule)
    (hrule : failure.rule = some rule) :
    Streaming settings ({ s.take settings.config now chunk with
      meter := s.meter.receive chunk.length
      inspector
      limitState }.error failure) := by
  refine ⟨h.received_take chunk, ?_, ?_, ?_, .inr ⟨rule, hfirst, hflagged, hthrown, failure, rfl,
    hrule⟩, fun f hf => absurd hf (h.outcome_open hflowing f)⟩
  · change s.meter.receive chunk.length =
      ⟨(s.taken ++ [chunk]).flatten.length, (s.handed ++ []).flatten.length,
        (s.taken ++ [chunk]).flatten.length⟩
    rw [h.meter, Meter.receive, flatten_concat, List.length_append, List.append_nil,
      List.flatten_append, hempty, List.append_nil]
  · change s.handed ++ [] <+: s.taken ++ [chunk]
    rw [List.append_nil]
    exact ((List.prefix_append ..).trans h.order).trans (List.prefix_append ..)
  · apply Settings.firstBroken_prefix h.sound
    change s.handed ++ [] <+: _
    rw [List.append_nil]
    exact List.prefix_append ..

end Taken

theorem Streaming.transform (h : Streaming settings s) (hflowing : s.body = .flowing) (now : Int)
    (chunk : Bytes)
    (hdrop : settings.broken (s.taken.flatten ++ chunk) ≠ none → s.pending.flatten = []) :
    Streaming settings (transform settings now chunk s) := by
  have hclean := h.clean hflowing
  have hfirst := Settings.firstBroken_concat hclean.first chunk
  have hlength : s.received + chunk.length = (s.taken.flatten ++ chunk).length := by
    rw [List.length_append, h.received]
  by_cases hover : settings.oversize (s.received + chunk.length) = true
  · rw [transform_oversize hover]
    rw [hlength] at hover
    have hsize : settings.broken (s.taken.flatten ++ chunk) = some .size := if_pos hover
    apply h.broke hflowing now chunk (hdrop (by rw [hsize]; exact Option.some_ne_none _)) _
      (hfirst.trans hsize) _ _ rfl
    · rintro ⟨hexceeded, -⟩
      cases hexceeded
    · intro htimedOut
      rw [thrown, htimedOut]
      rfl
  · obtain ⟨hreport, hwatches⟩ := hclean.watches.inspect chunk
    cases hviolation : (inspect s.inspector chunk).1 with
    | some violation =>
      rw [transform_inspected hover, hviolation]
      rw [hviolation] at hreport
      rw [hlength] at hover
      have hinput : settings.broken (s.taken.flatten ++ chunk) = some .input := by
        refine (if_neg hover).trans ?_
        rw [← hreport]
        rfl
      apply h.broke hflowing now chunk (hdrop (by rw [hinput]; exact Option.some_ne_none _)) _
        (hfirst.trans hinput) _ _ rfl
      · rintro ⟨-, hrejection⟩
        cases hrejection
      · intro htimedOut
        rw [thrown, htimedOut, hclean.exceeded]
        rfl
    | none =>
      rw [transform_inspected hover, hviolation, Option.elim_none]
      rw [hviolation] at hreport
      rw [hlength] at hover
      have hnext : settings.firstBroken [] (s.taken ++ [chunk]) = none := by
        refine hfirst.trans ((if_neg hover).trans ?_)
        rw [← hreport]
        rfl
      obtain ⟨handed, pending, hqueue, heq⟩ := enqueue_eq settings.tapped chunk
        { s.take settings.config now chunk with
          meter := (s.meter.receive chunk.length).send chunk.length
          inspector := (inspect s.inspector chunk).2 }
      rw [heq]
      have hwhole : handed ++ pending = s.taken ++ [chunk] :=
        hqueue.trans (congrArg (· ++ [chunk]) (hclean.whole hflowing))
      refine ⟨h.received_take chunk, ?_, ?_, ?_, .inl ⟨hnext, fun _ => hwhole,
        congrArg List.flatten hwhole, hclean.exceeded, hclean.rejection, ?_, ?_⟩,
        fun f hf => absurd hf (h.outcome_open hflowing f)⟩
      · change (s.meter.receive chunk.length).send chunk.length =
          ⟨(s.taken ++ [chunk]).flatten.length, (handed ++ pending).flatten.length,
            (s.taken ++ [chunk]).flatten.length⟩
        rw [hwhole, h.meter, Meter.receive, Meter.send, hclean.passed, flatten_concat,
          List.length_append]
      · change handed ++ pending <+: s.taken ++ [chunk]
        rw [hwhole]
      · change settings.firstBroken [] (handed ++ pending) = none
        rw [hwhole]
        exact hnext
      · change Watches settings _ (s.taken ++ [chunk]).flatten
        rw [flatten_concat]
        exact hwatches hviolation
      · intro failure hfailure
        change s.body = _ at hfailure
        rw [hflowing] at hfailure
        cases hfailure

/-- The body goes on, or it ends for a reason that is no broken rule. -/
theorem Streaming.untouched (h : Streaming settings s) {body : BodyState} {pending : List Bytes}
    (hbody : body = s.body ∨ (s.body = .flowing ∨ s.body = .closed) ∧ body ≠ .flowing ∧
      ∀ failure, body = .errored failure → failure.rule = none)
    (hpending : pending = s.pending ∨
      pending = [] ∧ s.pending.flatten = [] ∧ body ≠ .flowing)
    (timedOut ended : Bool) (deadline : UploadDeadline) {outcome : Option Outcome}
    (htimedOut : timedOut = true ∨ timedOut = s.limitState.timedOut)
    (houtcome : ∀ failure, outcome = some (.failed failure) →
      body ≠ .flowing ∧ failure.rule = settings.firstBroken [] s.taken) :
    Streaming settings
      { s with
        body, pending, ended, deadline, outcome, limitState := { s.limitState with timedOut } } := by
  have hqueue : (s.handed ++ pending).flatten = (s.handed ++ s.pending).flatten := by
    rcases hpending with rfl | ⟨rfl, hempty, -⟩
    · rfl
    · rw [List.append_nil, List.flatten_append, hempty, List.append_nil]
  have hprefix : s.handed ++ pending <+: s.handed ++ s.pending := by
    rcases hpending with rfl | ⟨rfl, -⟩
    · exact List.prefix_refl _
    · rw [List.append_nil]
      exact List.prefix_append ..
  refine ⟨h.received, ?_, hprefix.trans h.order, Settings.firstBroken_prefix h.sound hprefix, ?_,
    houtcome⟩
  · change s.meter = ⟨_, (s.handed ++ pending).flatten.length, _⟩
    rw [hqueue]
    exact h.meter
  rcases h.progress with hclean | ⟨rule, hbroken⟩
  · refine .inl ⟨hclean.first, ?_, hqueue.trans hclean.passed, hclean.exceeded, hclean.rejection,
      hclean.watches, ?_⟩
    · intro hflowing
      change body = .flowing at hflowing
      have hopen : s.body = .flowing := by
        rcases hbody with hsame | ⟨-, hclosed, -⟩
        · exact hsame.symm.trans hflowing
        · exact absurd hflowing hclosed
      rcases hpending with rfl | ⟨-, -, hclosed⟩
      · exact hclean.whole hopen
      · exact absurd hflowing hclosed
    · rcases hbody with rfl | ⟨-, -, hrule⟩
      · exact hclean.failure
      · exact hrule
  · obtain ⟨failure, hfailure, hfailed⟩ := hbroken.failure
    have hsame : body = s.body := by
      rcases hbody with hsame | ⟨hopen, -⟩
      · exact hsame
      · rw [hfailure] at hopen
        rcases hopen with hopen | hopen <;> cases hopen
    refine .inr ⟨rule, hbroken.first, hbroken.flagged, ?_, failure, hsame.trans hfailure, hfailed⟩
    intro hlate
    rcases htimedOut with htimedOut | htimedOut
    · exact absurd (htimedOut.symm.trans hlate) fun h => (by cases h)
    · have hthrown := hbroken.thrown (htimedOut.symm.trans hlate)
      rw [htimedOut]
      exact hthrown

/-- `fetch` is rejected with the error that the body has come to. -/
theorem Streaming.thrown (h : Streaming settings s)
    (hlate : s.limitState.timedOut = true →
      s.limitState.exceeded = false ∧ s.limitState.rejection = none) :
    (thrown settings s.limitState).rule = settings.firstBroken [] s.taken := by
  rcases h.progress with hclean | ⟨rule, hbroken⟩
  · rw [hclean.first]
    exact thrown_rule hclean.exceeded hclean.rejection
  · rw [hbroken.first]
    apply hbroken.thrown
    rw [← Bool.not_eq_true]
    exact fun htimedOut => hbroken.flagged (hlate htimedOut)

theorem Streaming.step (h : Streaming settings s) (e : Event)
    (horderly : (s.fails settings e → s.pending.flatten = []) ∧
      (e = .refuse → s.outcome = none → s.limitState.timedOut = true →
        s.limitState.exceeded = false ∧ s.limitState.rejection = none)) :
    Streaming settings (stepStreamed settings s e) := by
  obtain ⟨hdrop, hlate⟩ := horderly
  have hfailed : ∀ {failure}, failure.rule = none → ∀ other, BodyState.errored failure =
      .errored other → other.rule = none := by
    intro failure hrule other hother
    obtain rfl := BodyState.errored.inj hother
    exact hrule
  have herrored : ∀ {failure}, BodyState.errored failure ≠ .flowing :=
    fun hbody => (by cases hbody)
  cases e with
  | chunk now chunk =>
      rw [stepStreamed]
      split
      · rename_i hflowing
        exact h.transform hflowing now chunk fun hbroken => hdrop ⟨hflowing, hbroken⟩
      · exact h
  | close =>
      rw [stepStreamed]
      split
      · rename_i hflowing
        refine h.untouched (.inr ⟨.inl hflowing, fun hbody => (by cases hbody),
          fun f hf => (by cases hf)⟩) (.inl rfl) _ _ _ (.inr rfl) ?_
        exact fun f hf => absurd hf (h.outcome_open hflowing f)
      · exact h
  | fail =>
      rw [stepStreamed]
      split
      · rename_i hopen
        refine h.untouched (.inr ⟨hopen.imp_right And.left, herrored, hfailed rfl⟩)
          (.inr ⟨rfl, hdrop hopen, herrored⟩) _ _ _ (.inr rfl) ?_
        exact fun f hf => ⟨herrored, (h.outcome f hf).2⟩
      · exact h
  | timer now =>
      rw [stepStreamed]
      split
      · rename_i hexpires
        dsimp only
        split
        · rename_i hflowing
          refine h.untouched (.inr ⟨.inl hflowing, herrored, hfailed rfl⟩)
            (.inr ⟨rfl, hdrop ⟨hflowing, hexpires⟩, herrored⟩) _ _ _ (.inl rfl) ?_
          exact fun f hf => absurd hf (h.outcome_open hflowing f)
        · exact h.untouched (.inl rfl) (.inl rfl) _ _ _ (.inl rfl) h.outcome
      · exact h
  | pull => exact h.pull
  | answer =>
      rw [stepStreamed]
      split
      · exact h.untouched (.inl rfl) (.inl rfl) _ _ _ (.inr rfl) fun f hf => (by cases hf)
      · exact h
  | refuse =>
      rw [stepStreamed]
      split
      · rename_i hnone
        have hclosed : (if s.body = .flowing then BodyState.errored .origin else s.body) ≠
            .flowing := by
          split
          · exact herrored
          · rename_i hflowing
            exact hflowing
        refine h.untouched ?_ (.inr ⟨rfl, hdrop hnone, hclosed⟩) _ _ _ (.inr rfl) ?_
        · split
          · rename_i hflowing
            exact .inr ⟨.inl hflowing, herrored, hfailed rfl⟩
          · exact .inl rfl
        · rintro f hf
          obtain rfl := Outcome.failed.inj (Option.some.inj hf)
          exact ⟨hclosed, h.thrown (hlate rfl hnone)⟩
      · exact h

/-- What the rules say of a body of any length in chunks. -/
theorem bounded_of_clean {clean : List Bytes} (h : settings.firstBroken [] clean = none)
    (hpositive : 0 < settings.maxBodyBytes) : clean.flatten.length ≤ settings.maxBodyBytes := by
  have hsize := (Settings.broken_eq_none.mp (Settings.firstBroken_nil.mp h)).1
  rw [← Bool.not_eq_true, Settings.oversize_iff] at hsize
  omega

theorem Streaming.exact (h : Streaming settings s) (mode : Mode) : Exact settings mode s := by
  have hhanded : s.handed <+: s.handed ++ s.pending := List.prefix_append ..
  have hclean := Settings.firstBroken_prefix h.sound hhanded
  refine ⟨bounded_of_clean hclean, ⟨s.handed, hhanded.trans h.order, hclean, rfl⟩, ?_, ?_,
    fun _ => h.meter⟩
  · rintro failure (hbody | houtcome)
    · rcases h.progress with hclean | ⟨rule, hbroken⟩
      · rw [hclean.first]
        exact hclean.failure failure hbody
      · obtain ⟨other, hother, hrule⟩ := hbroken.failure
        obtain rfl := BodyState.errored.inj (hother.symm.trans hbody)
        rw [hbroken.first]
        exact hrule
    · exact (h.outcome failure houtcome).2
  · intro _ _ hfirst
    rcases h.progress with hclean | ⟨rule, hbroken⟩
    · exact hclean.passed
    · rw [hbroken.first] at hfirst
      cases hfirst

/-- An event that fails the stream sends no more, and it leaves nothing pending. -/
theorem Streaming.of_fails (h : Streaming settings s) {e : Event} (hfails : s.fails settings e) :
    (stepStreamed settings s e).handed ++ (stepStreamed settings s e).pending = s.handed ∧
      (stepStreamed settings s e).meter.upstreamSentBytes = s.meter.upstreamSentBytes ∧
      ((stepStreamed settings s e).outcome ≠ none ∨
        ∃ failure, (stepStreamed settings s e).body = .errored failure) := by
  cases e with
  | chunk now chunk =>
      obtain ⟨hflowing, hbroken⟩ := hfails
      rw [stepStreamed, if_pos hflowing]
      by_cases hover : settings.oversize (s.received + chunk.length) = true
      · rw [transform_oversize hover]
        exact ⟨List.append_nil _, rfl, .inr ⟨_, rfl⟩⟩
      · obtain ⟨hreport, -⟩ := (h.clean hflowing).watches.inspect chunk
        cases hviolation : (inspect s.inspector chunk).1 with
        | some violation =>
            rw [transform_inspected hover, hviolation]
            exact ⟨List.append_nil _, rfl, .inr ⟨_, rfl⟩⟩
        | none =>
            rw [h.received, ← List.length_append] at hover
            rw [hviolation] at hreport
            exact absurd (Settings.broken_eq_none.mpr
              ⟨Bool.not_eq_true _ ▸ hover, hreport.symm⟩) hbroken
  | fail =>
      rw [stepStreamed, if_pos (show s.body = .flowing ∨ _ from hfails)]
      exact ⟨List.append_nil _, rfl, .inr ⟨_, rfl⟩⟩
  | timer now =>
      rw [stepStreamed, if_pos hfails.2]
      dsimp only
      rw [if_pos hfails.1]
      exact ⟨List.append_nil _, rfl, .inr ⟨_, rfl⟩⟩
  | refuse =>
      change s.outcome = none at hfails
      rw [stepStreamed, if_pos hfails]
      exact ⟨List.append_nil _, rfl, .inl (Option.some_ne_none _)⟩
  | close => exact hfails.elim
  | pull => exact hfails.elim
  | answer => exact hfails.elim

/-- What is dropped has been counted, and a late deadline hides the rule that was broken. -/
theorem Streaming.orderly (h : Streaming settings s) (mode : Mode) (e : Event)
    (hexact : Exact settings mode (stepStreamed settings s e)) :
    (s.fails settings e → s.pending.flatten = []) ∧
      (e = .refuse → s.outcome = none → s.limitState.timedOut = true →
        s.limitState.exceeded = false ∧ s.limitState.rejection = none) := by
  constructor
  · intro hfails
    obtain ⟨hqueue, hsent, hread⟩ := h.of_fails hfails
    have hcounted := congrArg Meter.upstreamSentBytes (hexact.counted hread)
    rw [hsent, h.meter, hqueue] at hcounted
    change (s.handed ++ s.pending).flatten.length = s.handed.flatten.length at hcounted
    rw [List.flatten_append, List.length_append] at hcounted
    apply List.eq_nil_of_length_eq_zero
    omega
  · rintro rfl hnone hlate
    rcases h.progress with hclean | ⟨rule, hbroken⟩
    · exact ⟨hclean.exceeded, hclean.rejection⟩
    · have hreported := hexact.reported (UpstreamBody.thrown settings s.limitState)
      rw [stepStreamed, if_pos hnone] at hreported
      have hrule := hreported (.inr rfl)
      change (UpstreamBody.thrown settings s.limitState).rule =
        settings.firstBroken [] s.taken at hrule
      rw [UpstreamBody.thrown, if_pos hlate, hbroken.first] at hrule
      cases hrule

/-! ## A body that is read as a whole -/

structure Reading (settings : Settings) (s : Upload) : Prop where
  body : s.body = .flowing
  ended : s.ended = false
  handed : s.handed = []
  pending : s.pending = []
  meter : s.meter = {}
  outcome : s.outcome = none
  limitState : s.limitState = {}
  watches : Watches settings s.inspector []

/-- The body has been given to `fetch`. -/
structure Complete (settings : Settings) (s : Upload) : Prop where
  body : s.body = .closed
  finished : s.deadline.finished = true
  first : settings.firstBroken [] s.taken = none
  handed : s.handed = [s.taken.flatten]
  pending : s.pending = []
  limitState : s.limitState = {}
  outcome : (s.outcome = none ∧ s.meter = {}) ∨
    (s.outcome = some .answered ∧
      s.meter = ⟨s.taken.flatten.length, s.taken.flatten.length, s.taken.flatten.length⟩) ∨
    (s.outcome = some (.failed .origin) ∧ s.meter = {} ∧ s.taken.flatten.length = 0)

structure Thrown (settings : Settings) (contentLength : Nat) (failure : Failure) (s : Upload) :
    Prop where
  body : s.body = .errored failure
  finished : s.deadline.finished = true
  outcome : s.outcome = some (.failed failure)
  handed : s.handed = []
  pending : s.pending = []
  rule : failure.rule = settings.firstBroken [] s.taken
  meter : s.meter = ⟨s.taken.flatten.length, 0, s.taken.flatten.length⟩
  short : s.ended = true → failure.rule = none → s.taken.flatten.length < contentLength

structure Buffering (settings : Settings) (contentLength : Nat) (s : Upload) : Prop where
  received : s.received = s.taken.flatten.length
  progress : Reading settings s ∨ Complete settings s ∨
    ∃ failure, Thrown settings contentLength failure s

variable {contentLength : Nat}

theorem buffering_start (now : Int) :
    Buffering settings contentLength (start settings (.buffered contentLength) now) :=
  ⟨rfl, .inl ⟨rfl, rfl, rfl, rfl, rfl, rfl, rfl, watches_new⟩⟩

theorem firstBroken_of_empty {chunks : List Bytes} (h : chunks.flatten.length = 0) :
    settings.firstBroken [] chunks = none := by
  rw [Settings.firstBroken_nil, List.length_eq_zero_iff.mp h]
  exact Settings.broken_nil

/-- What fails before a byte has been read leaves nothing to count. -/
theorem Reading.failed (h : Reading settings s) (hempty : s.taken.flatten.length = 0)
    {failure : Failure} (hrule : failure.rule = none) (ended : Bool)
    (hshort : ended = true → 0 < contentLength) :
    Thrown settings contentLength failure
      ({ s with ended, deadline := s.deadline.stop }.throwing failure) := by
  refine ⟨rfl, rfl, rfl, h.handed, h.pending, ?_, ?_, ?_⟩
  · exact hrule.trans (firstBroken_of_empty hempty).symm
  · refine h.meter.trans ?_
    change _ = Meter.mk s.taken.flatten.length 0 s.taken.flatten.length
    rw [hempty]
  · intro hended _
    change s.taken.flatten.length < contentLength
    rw [hempty]
    exact hshort hended

/-- A body that breaks a rule is thrown away, with its bytes counted. -/
theorem Reading.broke (h : Reading settings s) {failure : Failure} {rule : Rule}
    (hrule : failure.rule = some rule) (hfirst : settings.firstBroken [] s.taken = some rule)
    (inspector : Option FormBodyInspector) :
    Thrown settings contentLength failure
      ({ s with
          ended := true
          deadline := s.deadline.stop
          inspector
          meter := s.meter.receive s.taken.flatten.length }.throwing failure) := by
  refine ⟨rfl, rfl, rfl, h.handed, h.pending, hrule.trans hfirst.symm, ?_, ?_⟩
  · change s.meter.receive _ = _
    rw [h.meter, Meter.receive, Nat.zero_add]
    rfl
  · intro _ hnone
    rw [hrule] at hnone
    cases hnone

section Finish

variable (hlength : ¬s.received < contentLength)

include hlength

theorem finishBuffered_oversize (hover : settings.oversize s.taken.flatten.length = true) :
    finishBuffered settings contentLength s =
      { s with
        ended := true
        deadline := s.deadline.stop
        meter := s.meter.receive s.taken.flatten.length }.throwing
          (.tooLarge settings.maxBodyBytes) :=
  (if_neg hlength).trans (if_pos hover)

theorem finishBuffered_inspected (hover : ¬settings.oversize s.taken.flatten.length = true) :
    finishBuffered settings contentLength s =
      (inspect s.inspector s.taken.flatten).1.elim
        { s with
          ended := true
          deadline := s.deadline.stop
          inspector := (inspect s.inspector s.taken.flatten).2
          handed := [s.taken.flatten]
          body := .closed }
        fun violation =>
          { s with
            ended := true
            deadline := s.deadline.stop
            inspector := (inspect s.inspector s.taken.flatten).2
            meter := s.meter.receive s.taken.flatten.length }.throwing (.rejected violation) := by
  refine (if_neg hlength).trans ((if_neg hover).trans ?_)
  change (match inspect s.inspector s.taken.flatten with
    | (some violation, inspector) => _
    | (none, inspector) => _) = _
  rcases inspect s.inspector s.taken.flatten with ⟨report, inspector⟩
  cases report with
  | some violation => rfl
  | none => rfl

end Finish

theorem Reading.finish (h : Reading settings s) (hreceived : s.received = s.taken.flatten.length)
    (hshort : s.received < contentLength → s.received = 0)
    (hover : contentLength ≤ s.received → settings.oversize s.received = true →
      settings.firstBroken [] s.taken = some .size) :
    Buffering settings contentLength (finishBuffered settings contentLength s) := by
  by_cases hlength : s.received < contentLength
  · rw [finishBuffered]
    dsimp only
    rw [if_pos hlength]
    have hempty := hshort hlength
    rw [hreceived] at hempty
    refine ⟨hreceived, .inr (.inr ⟨_, h.failed hempty rfl true fun _ => ?_⟩)⟩
    omega
  · by_cases hsize : settings.oversize s.taken.flatten.length = true
    · rw [finishBuffered_oversize hlength hsize]
      have hfirst := hover (Nat.le_of_not_lt hlength) (hreceived ▸ hsize)
      exact ⟨hreceived, .inr (.inr ⟨_, h.broke rfl hfirst _⟩)⟩
    · obtain ⟨hreport, -⟩ := h.watches.inspect s.taken.flatten
      rw [List.nil_append] at hreport
      cases hviolation : (inspect s.inspector s.taken.flatten).1 with
      | some violation =>
          rw [finishBuffered_inspected hlength hsize, hviolation]
          rw [hviolation] at hreport
          have hfirst : settings.firstBroken [] s.taken = some .input := by
            apply Settings.firstBroken_input
            · exact Bool.not_eq_true _ ▸ hsize
            · rw [← hreport]
              exact Option.some_ne_none _
          exact ⟨hreceived, .inr (.inr ⟨_, h.broke rfl hfirst _⟩)⟩
      | none =>
          rw [finishBuffered_inspected hlength hsize, hviolation]
          rw [hviolation] at hreport
          refine ⟨hreceived, .inr (.inl ⟨rfl, rfl, ?_, rfl, h.pending, h.limitState,
            .inl ⟨h.outcome, h.meter⟩⟩)⟩
          rw [Settings.firstBroken_nil, Settings.broken_eq_none]
          exact ⟨Bool.not_eq_true _ ▸ hsize, hreport.symm⟩

theorem not_expires {d : UploadDeadline} (h : d.finished = true) (now : Int) :
    ¬d.expires now = true := by
  rw [UploadDeadline.expires, h]
  exact fun h => (by cases h)

theorem Complete.answer (h : Complete settings s) (hnone : s.outcome = none) :
    Complete settings
      { s with
        outcome := some .answered
        meter :=
          if 0 < s.handed.flatten.length then
            (s.meter.receive s.handed.flatten.length).send s.handed.flatten.length
          else s.meter } := by
  refine ⟨h.body, h.finished, h.first, h.handed, h.pending, h.limitState, .inr (.inl ⟨rfl, ?_⟩)⟩
  have hmeter : s.meter = {} := by
    rcases h.outcome with ⟨-, hmeter⟩ | ⟨hsome, -⟩ | ⟨hsome, -⟩
    · exact hmeter
    · rw [hnone] at hsome
      cases hsome
    · rw [hnone] at hsome
      cases hsome
  have hhanded : s.handed.flatten = s.taken.flatten := by
    rw [h.handed, List.flatten_singleton]
  dsimp only
  rw [hmeter, hhanded]
  split
  · rw [Meter.receive, Meter.send]
    dsimp only
    rw [Nat.zero_add]
  · rename_i hzero
    have hempty : s.taken.flatten.length = 0 := by omega
    rw [hempty]

theorem Complete.refuse (h : Complete settings s) (hempty : s.received = 0)
    (hreceived : s.received = s.taken.flatten.length) (hnone : s.outcome = none) :
    Complete settings { s with outcome := some (.failed (thrown settings s.limitState)) } := by
  refine ⟨h.body, h.finished, h.first, h.handed, h.pending, h.limitState,
    .inr (.inr ⟨?_, ?_, ?_⟩)⟩
  · dsimp only
    rw [h.limitState]
    rfl
  · rcases h.outcome with ⟨-, hmeter⟩ | ⟨hsome, -⟩ | ⟨hsome, -⟩
    · exact hmeter
    · rw [hnone] at hsome
      cases hsome
    · rw [hnone] at hsome
      cases hsome
  · exact hreceived.symm.trans hempty

/-- Behind the reading nothing but the answer of the origin changes the request. -/
theorem stepBuffered_of_not_flowing (hflowing : s.body ≠ .flowing)
    (hfinished : s.deadline.finished = true) (e : Event) :
    stepBuffered settings contentLength s e = s ∨
      (e = .answer ∧ s.body = .closed ∧ s.outcome = none) ∨
      (e = .refuse ∧ s.body = .closed ∧ s.outcome = none) := by
  cases e with
  | chunk now chunk => exact .inl (if_neg hflowing)
  | close => exact .inl (if_neg hflowing)
  | fail => exact .inl (if_neg hflowing)
  | timer now => exact .inl (if_neg (not_expires hfinished now))
  | pull => exact .inl rfl
  | answer =>
      by_cases hclosed : s.body = .closed ∧ s.outcome = none
      · exact .inr (.inl ⟨rfl, hclosed⟩)
      · exact .inl (if_neg hclosed)
  | refuse =>
      by_cases hclosed : s.body = .closed ∧ s.outcome = none
      · exact .inr (.inr ⟨rfl, hclosed⟩)
      · exact .inl (if_neg hclosed)

theorem Reading.step (h : Reading settings s) (hreceived : s.received = s.taken.flatten.length)
    (e : Event) (horderly : Orderly settings (.buffered contentLength) s e) :
    Buffering settings contentLength (stepBuffered settings contentLength s e) := by
  have hflowing := h.body
  have hopen : ¬(s.body = .closed ∧ s.outcome = none) := by
    rintro ⟨hclosed, -⟩
    rw [hflowing] at hclosed
    cases hclosed
  cases e with
  | chunk now chunk =>
      rw [stepBuffered, if_pos hflowing]
      refine ⟨?_, .inl ⟨hflowing, h.ended, h.handed, h.pending, h.meter, h.outcome, h.limitState,
        h.watches⟩⟩
      change s.received + chunk.length = (s.taken ++ [chunk]).flatten.length
      rw [flatten_concat, List.length_append, hreceived]
  | close =>
      rw [stepBuffered, if_pos hflowing]
      obtain ⟨hshort, hover⟩ := horderly hflowing
      exact h.finish hreceived hshort hover
  | fail =>
      rw [stepBuffered, if_pos hflowing]
      have hempty : s.taken.flatten.length = 0 := hreceived.symm.trans (horderly hflowing)
      refine ⟨hreceived, .inr (.inr ⟨.client, h.failed hempty rfl s.ended fun hended => ?_⟩)⟩
      rw [h.ended] at hended
      cases hended
  | timer now =>
      rw [stepBuffered]
      split
      · rename_i hexpires
        have hempty : s.taken.flatten.length = 0 := hreceived.symm.trans (horderly hexpires)
        refine ⟨hreceived, .inr (.inr ⟨.timedOut, h.failed hempty rfl s.ended fun hended => ?_⟩)⟩
        rw [h.ended] at hended
        cases hended
      · exact ⟨hreceived, .inl h⟩
  | pull => exact ⟨hreceived, .inl h⟩
  | answer =>
      rw [stepBuffered, if_neg hopen]
      exact ⟨hreceived, .inl h⟩
  | refuse =>
      rw [stepBuffered, if_neg hopen]
      exact ⟨hreceived, .inl h⟩

theorem Buffering.step (h : Buffering settings contentLength s) (e : Event)
    (horderly : Orderly settings (.buffered contentLength) s e) :
    Buffering settings contentLength (stepBuffered settings contentLength s e) := by
  rcases h.progress with hreading | hcomplete | ⟨failure, hthrown⟩
  · exact hreading.step h.received e horderly
  · have hflowing : s.body ≠ .flowing := by
      rw [hcomplete.body]
      exact fun hbody => (by cases hbody)
    rcases stepBuffered_of_not_flowing hflowing hcomplete.finished e with
      hsame | ⟨rfl, hclosed, hnone⟩ | ⟨rfl, hclosed, hnone⟩
    · rw [hsame]
      exact h
    · rw [stepBuffered, if_pos ⟨hclosed, hnone⟩]
      exact ⟨h.received, .inr (.inl (hcomplete.answer hnone))⟩
    · rw [stepBuffered, if_pos ⟨hclosed, hnone⟩]
      have hempty := horderly hclosed hnone
      exact ⟨h.received, .inr (.inl (hcomplete.refuse hempty h.received hnone))⟩
  · have hflowing : s.body ≠ .flowing := by
      rw [hthrown.body]
      exact fun hbody => (by cases hbody)
    rcases stepBuffered_of_not_flowing hflowing hthrown.finished e with
      hsame | ⟨rfl, hclosed, -⟩ | ⟨rfl, hclosed, -⟩
    · rw [hsame]
      exact h
    · rw [hthrown.body] at hclosed
      cases hclosed
    · rw [hthrown.body] at hclosed
      cases hclosed

theorem Reading.exact (h : Reading settings s) (mode : Mode) : Exact settings mode s := by
  refine ⟨?_, ⟨[], List.nil_prefix, rfl, ?_⟩, ?_, ?_, ?_⟩
  · rw [h.handed]
    exact fun _ => Nat.zero_le _
  · rw [h.handed]
  · rintro failure (hbody | houtcome)
    · rw [h.body] at hbody
      cases hbody
    · rw [h.outcome] at houtcome
      cases houtcome
  · intro hended
    rw [h.ended] at hended
    cases hended
  · rintro (hsome | ⟨failure, hbody⟩)
    · exact absurd h.outcome hsome
    · rw [h.body] at hbody
      cases hbody

theorem Complete.exact (h : Complete settings s) (mode : Mode) : Exact settings mode s := by
  have hhanded : s.handed.flatten = s.taken.flatten := by
    rw [h.handed, List.flatten_singleton]
  have hqueue : (s.handed ++ s.pending).flatten = s.taken.flatten := by
    rw [h.pending, List.append_nil, hhanded]
  refine ⟨?_, ⟨s.taken, List.prefix_refl _, h.first, hhanded⟩, ?_, fun _ _ _ => hqueue, ?_⟩
  · rw [hhanded]
    exact bounded_of_clean h.first
  · rw [h.first]
    rintro failure (hbody | houtcome)
    · rw [h.body] at hbody
      cases hbody
    · rcases h.outcome with ⟨hnone, -⟩ | ⟨hsome, -⟩ | ⟨hsome, -⟩
      · rw [hnone] at houtcome
        cases houtcome
      · rw [hsome] at houtcome
        cases houtcome
      · rw [hsome] at houtcome
        obtain rfl := Outcome.failed.inj (Option.some.inj houtcome)
        rfl
  · intro hread
    rw [hqueue]
    rcases h.outcome with ⟨hnone, -⟩ | ⟨-, hmeter⟩ | ⟨-, hmeter, hempty⟩
    · rcases hread with hsome | ⟨failure, hbody⟩
      · exact absurd hnone hsome
      · rw [h.body] at hbody
        cases hbody
    · exact hmeter
    · rw [hmeter, hempty]

theorem Thrown.exact {failure : Failure} (h : Thrown settings contentLength failure s) :
    Exact settings (.buffered contentLength) s := by
  refine ⟨?_, ⟨[], List.nil_prefix, rfl, ?_⟩, ?_, ?_, ?_⟩
  · rw [h.handed]
    exact fun _ => Nat.zero_le _
  · rw [h.handed]
  · rintro other (hbody | houtcome)
    · obtain rfl := BodyState.errored.inj (h.body.symm.trans hbody)
      exact h.rule
    · obtain rfl := Outcome.failed.inj (Option.some.inj (h.outcome.symm.trans houtcome))
      exact h.rule
  · intro hended hlength hfirst
    have hshort := h.short hended (h.rule.trans hfirst)
    have hle := hlength contentLength rfl
    omega
  · intro _
    rw [h.handed, h.pending]
    exact h.meter

theorem Buffering.exact (h : Buffering settings contentLength s) :
    Exact settings (.buffered contentLength) s := by
  rcases h.progress with hreading | hcomplete | ⟨failure, hthrown⟩
  · exact hreading.exact _
  · exact hcomplete.exact _
  · exact hthrown.exact

/-- A failure that leaves the meter empty is exact of an empty body only. -/
theorem Reading.empty_of_counted (h : Reading settings s)
    (hreceived : s.received = s.taken.flatten.length) {failure : Failure} {ended : Bool}
    {mode : Mode}
    (hexact : Exact settings mode
      ({ s with ended, deadline := s.deadline.stop }.throwing failure)) : s.received = 0 := by
  have hcounted := hexact.counted (.inl (Option.some_ne_none _))
  change s.meter = ⟨s.taken.flatten.length, _, _⟩ at hcounted
  rw [h.meter] at hcounted
  rw [hreceived]
  exact (Meter.mk.inj hcounted).1.symm

theorem Buffering.orderly (h : Buffering settings contentLength s) (e : Event)
    (hexact : Exact settings (.buffered contentLength)
      (stepBuffered settings contentLength s e)) :
    Orderly settings (.buffered contentLength) s e := by
  have hreading : s.body = .flowing → Reading settings s := by
    intro hflowing
    rcases h.progress with hreading | hcomplete | ⟨failure, hthrown⟩
    · exact hreading
    · rw [hcomplete.body] at hflowing
      cases hflowing
    · rw [hthrown.body] at hflowing
      cases hflowing
  cases e with
  | chunk now chunk => exact trivial
  | pull => exact trivial
  | answer => exact trivial
  | close =>
      intro hflowing
      rw [stepBuffered, if_pos hflowing] at hexact
      refine ⟨?_, ?_⟩
      · intro hshort
        rw [finishBuffered] at hexact
        dsimp only at hexact
        rw [if_pos hshort] at hexact
        exact (hreading hflowing).empty_of_counted h.received hexact
      · intro hle hover
        rw [h.received] at hover
        rw [finishBuffered_oversize (Nat.not_lt_of_le hle) hover] at hexact
        exact (hexact.reported _ (.inl rfl)).symm
  | fail =>
      intro hflowing
      rw [stepBuffered, if_pos hflowing] at hexact
      exact (hreading hflowing).empty_of_counted h.received hexact
  | timer now =>
      intro hexpires
      rw [stepBuffered, if_pos hexpires] at hexact
      rcases h.progress with hreading | hcomplete | ⟨failure, hthrown⟩
      · exact hreading.empty_of_counted h.received hexact
      · exact absurd hexpires (not_expires hcomplete.finished now)
      · exact absurd hexpires (not_expires hthrown.finished now)
  | refuse =>
      intro hclosed hnone
      rw [stepBuffered, if_pos ⟨hclosed, hnone⟩] at hexact
      have hcounted := hexact.counted (.inl (Option.some_ne_none _))
      rcases h.progress with hreading | hcomplete | ⟨failure, hthrown⟩
      · rw [hreading.body] at hclosed
        cases hclosed
      · rcases hcomplete.outcome with ⟨-, hmeter⟩ | ⟨hsome, -⟩ | ⟨hsome, -⟩
        · change s.meter = ⟨s.taken.flatten.length, _, _⟩ at hcounted
          rw [hmeter] at hcounted
          rw [h.received]
          exact (Meter.mk.inj hcounted).1.symm
        · rw [hnone] at hsome
          cases hsome
        · rw [hnone] at hsome
          cases hsome
      · rw [hthrown.body] at hclosed
        cases hclosed

/-- The invariant of a request. -/
def Progress (settings : Settings) (mode : Mode) (s : Upload) : Prop :=
  match mode with
  | .buffered contentLength => Buffering settings contentLength s
  | .bodyless | .streamed => Streaming settings s

theorem Progress.exact {mode : Mode} (h : Progress settings mode s) : Exact settings mode s := by
  cases mode with
  | bodyless => exact Streaming.exact h _
  | buffered contentLength => exact Buffering.exact h
  | streamed => exact Streaming.exact h _

theorem Progress.step {mode : Mode} (h : Progress settings mode s) (e : Event)
    (horderly : Orderly settings mode s e) : Progress settings mode (step settings mode s e) := by
  cases mode with
  | bodyless => exact Streaming.step h e horderly
  | buffered contentLength => exact Buffering.step h e horderly
  | streamed => exact Streaming.step h e horderly

theorem Progress.orderly {mode : Mode} (h : Progress settings mode s) (e : Event)
    (hexact : Exact settings mode (UpstreamBody.step settings mode s e)) :
    Orderly settings mode s e := by
  cases mode with
  | bodyless => exact Streaming.orderly h .bodyless e hexact
  | buffered contentLength => exact Buffering.orderly h e hexact
  | streamed => exact Streaming.orderly h .streamed e hexact

theorem progress_start (mode : Mode) (now : Int) :
    Progress settings mode (start settings mode now) := by
  cases mode with
  | bodyless => exact streaming_start .bodyless now
  | buffered contentLength => exact buffering_start now
  | streamed => exact streaming_start .streamed now

end Steps

/-- `Content-Length: 10` and four bytes. -/
def shortEvents : List Event := [.chunk 0 [1, 2, 3, 4], .close]

def plainSettings : Settings :=
  { config := { timeoutMs := 30000, minRateBytesPerSecond := 1024 }
    maxBodyBytes := 0
    inspection := none
    tapped := false }

def shortRequest : Request :=
  { method := "POST".toList, hasBody := true, contentLength := some "10".toList }

end BurrowGate.UpstreamBody
