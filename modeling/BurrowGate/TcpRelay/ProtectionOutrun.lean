import BurrowGate.Lib.Run
import BurrowGate.TcpRelay.MinecraftJava
import BurrowGate.TcpRelay.RelayedBytes
import Mathlib.Data.List.Infix

/-!
# Protection decoding and chunks that arrive too early

Until the connection is admitted the decoder is not set, so a chunk that arrives then goes to the
upstream's queue and never to the decoder. `AfterAdmission` is the condition that none does.
-/

namespace BurrowGate.TcpRelay

open Lib.PartialWrite
open Lib.Run
open ProxyProtocol
open TcpConnection

variable {R F : Type} {config : RelayConfig R F} {connection next : TcpConnection R}
  {direction : StreamDirection} {data : Bytes} {answer : Option Nat} {reading : R}
  {protocol : List Char} {maxBytes : Nat}

/-- No chunk of the client arrives while `evaluateStreamIp` is pending. -/
def AfterAdmission (connection : TcpConnection R) : RelayAction R → Prop
  | .clientData .. => connection.stage ≠ .evaluating ∨ connection.closed = true
  | _ => True

instance (connection : TcpConnection R) : ∀ a, Decidable (AfterAdmission connection a)
  | .clientData .. =>
      inferInstanceAs (Decidable (connection.stage ≠ .evaluating ∨ connection.closed = true))
  | .admitted .. | .clientDrain _ | .clientEnd | .timerExpired _ | .banned | .upstreamOpened _ |
    .upstreamData .. | .upstreamDrain _ | .upstreamEnd | .finish => isTrue trivial

/-! ## The three phases -/

/-- `evaluateStreamIp` is pending. -/
structure Unadmitted (connection : TcpConnection R) : Prop where
  stage : connection.stage = .evaluating
  verdict : connection.verdict = none
  upstream : connection.upstream = false
  received : connection.toUpstream.received = []
  timer : connection.protectionDecodeTimer = false
  unread : connection.closed = false → connection.protectionDecodeProtocol = none ∧
    connection.toUpstream.sent = []

/-- The decoder has all that the client sent. -/
structure Reading (protocol : List Char) (maxBytes : Nat) (connection : TcpConnection R) :
    Prop where
  stage : connection.stage = .decoding
  verdict : connection.verdict = none
  upstream : connection.upstream = false
  received : connection.toUpstream.received = []
  protocol : connection.closed = false → connection.protectionDecodeProtocol = some protocol
  buffer : connection.closed = false →
    connection.protectionDecodeChunks.flatten = connection.toUpstream.sent
  bytes : connection.closed = false →
    connection.protectionDecodeBytes = connection.toUpstream.sent.length
  maxBytes : connection.closed = false → connection.protectionDecodeMaxBytes = maxBytes
  awaiting : connection.closed = false → connection.protectionDecodeAwaitingVerdict = false

/-- The verdict is the one for the fields of a sufficient first part of the client's bytes. -/
def Explains (config : RelayConfig R F) (protocol : List Char) (maxBytes : Nat) (sent : Bytes)
    (reading : R) (status : StreamProtectionStatus) : Prop :=
  ∃ buffer, buffer <+: sent ∧
    ((config.attempt protocol buffer).status = .done ∨ maxBytes ≤ buffer.length) ∧
    status = config.inspect reading (config.attempt protocol buffer).fields

/-- There is a verdict, and nothing that could give another one. -/
structure Settled (config : RelayConfig R F) (protocol : List Char) (maxBytes : Nat)
    (connection : TcpConnection R) : Prop where
  late : connection.stage ≠ .evaluating
  timer : connection.protectionDecodeTimer = false
  answered : connection.protectionDecodeProtocol ≠ none →
    connection.protectionDecodeAwaitingVerdict = true
  verdict : ∃ reading status, connection.verdict = some (reading, status) ∧
    ((∀ n ∈ connection.expired, maxBytes ≤ n) →
      Explains config protocol maxBytes connection.toUpstream.sent reading status)

inductive Phase (config : RelayConfig R F) (protocol : List Char) (maxBytes : Nat)
    (connection : TcpConnection R) : Prop
  | unadmitted : Unadmitted connection → Phase config protocol maxBytes connection
  | reading : Reading protocol maxBytes connection → Phase config protocol maxBytes connection
  | settled : Settled config protocol maxBytes connection →
      Phase config protocol maxBytes connection

/-! ## What leaves a phase alone -/

/-- Nothing that the protection looks at is changed, but for an end of the connection and bytes
towards the upstream. -/
structure Relaying (connection next : TcpConnection R) : Prop where
  stage : next.stage = connection.stage
  verdict : next.verdict = connection.verdict
  expired : next.expired = connection.expired
  protocol : next.protectionDecodeProtocol = connection.protectionDecodeProtocol
  awaiting : next.protectionDecodeAwaitingVerdict = connection.protectionDecodeAwaitingVerdict
  timer : next.protectionDecodeTimer = true → connection.protectionDecodeTimer = true
  sent : connection.toUpstream.sent <+: next.toUpstream.sent

theorem Relaying.refl (connection : TcpConnection R) : Relaying connection connection :=
  ⟨rfl, rfl, rfl, rfl, rfl, id, List.prefix_refl _⟩

theorem Relaying.trans {other : TcpConnection R} (h : Relaying connection next)
    (h' : Relaying next other) : Relaying connection other :=
  ⟨h'.stage.trans h.stage, h'.verdict.trans h.verdict, h'.expired.trans h.expired,
    h'.protocol.trans h.protocol, h'.awaiting.trans h.awaiting, fun ht => h.timer (h'.timer ht),
    h.sent.trans h'.sent⟩

theorem Relaying.finishTcp (h : Relaying connection next) : Relaying connection next.finishTcp := by
  rw [TcpConnection.finishTcp]
  split
  · exact h
  · exact ⟨h.stage, h.verdict, h.expired, h.protocol, h.awaiting, Bool.noConfusion, h.sent⟩

theorem relaying_setLane {lane : Lane} (hsent : (connection.lane direction).sent <+: lane.sent) :
    Relaying connection (connection.setLane direction lane) := by
  cases direction with
  | upstream => exact ⟨rfl, rfl, rfl, rfl, rfl, id, hsent⟩
  | client => exact ⟨rfl, rfl, rfl, rfl, rfl, id, List.prefix_refl _⟩

theorem relaying_setPaused (connection : TcpConnection R) (direction : StreamDirection)
    (paused : Bool) : Relaying connection (connection.setPaused direction paused) := by
  rw [setPaused]
  split
  · exact relaying_setLane (List.prefix_refl _)
  · exact Relaying.refl connection

theorem relaying_queueTcp (config : RelayConfig R F) (connection : TcpConnection R)
    (direction : StreamDirection) (data : Bytes) :
    Relaying connection (queueTcp config connection direction data) := by
  have hcounted : Relaying connection
      { connection with queuedBytes := connection.queuedBytes + data.length } :=
    ⟨rfl, rfl, rfl, rfl, rfl, id, List.prefix_refl _⟩
  rw [queueTcp]
  simp only
  split
  · exact hcounted.finishTcp
  · refine Relaying.trans ?_ (relaying_setPaused _ direction true)
    refine hcounted.trans (relaying_setLane ?_)
    exact List.prefix_refl _

theorem relaying_writeTcp (config : RelayConfig R F) (connection : TcpConnection R)
    (direction : StreamDirection) (data : Bytes) (answer : Option Nat) :
    Relaying connection (writeTcp config connection direction data answer) := by
  rw [writeTcp]
  split
  · exact Relaying.refl connection
  · split
    · exact relaying_queueTcp config connection direction data
    · split
      · exact (Relaying.refl connection).finishTcp
      · have hrecorded : ∀ taken, Relaying connection
            (connection.recordTcpBytes direction taken) :=
          fun taken => relaying_setLane (List.prefix_refl _)
        simp only
        split
        · exact (hrecorded _).trans (relaying_queueTcp config _ direction _)
        · exact hrecorded _

theorem relaying_flushQueue (connection : TcpConnection R) (direction : StreamDirection)
    (answers : List (Option Nat)) :
    Relaying connection (flushQueue connection direction answers) := by
  obtain ⟨taken, queue, paused, -, -, hflush⟩ := flushQueue_cases connection direction answers
  have hnext : Relaying connection (connection.withLane direction
      ((connection.lane direction).relayed taken queue paused)
      (connection.queuedBytes - taken.length)) := by
    cases direction with
    | upstream => exact ⟨rfl, rfl, rfl, rfl, rfl, id, List.prefix_refl _⟩
    | client => exact ⟨rfl, rfl, rfl, rfl, rfl, id, List.prefix_refl _⟩
  rcases hflush with hflush | hflush
  · rw [hflush]
    exact hnext
  · rw [hflush]
    exact hnext.finishTcp

theorem relaying_flushTcp (connection : TcpConnection R) (direction : StreamDirection)
    (answers : List (Option Nat)) :
    Relaying connection (flushTcp connection direction answers) := by
  rw [flushTcp.eq_def]
  split
  · exact Relaying.refl connection
  · split
    · exact Relaying.refl connection
    · split
      · simp only
        split
        · exact (Relaying.refl connection).finishTcp
        · split
          · exact ⟨rfl, rfl, rfl, rfl, rfl, id, List.prefix_refl _⟩
          · refine Relaying.trans ?_ (relaying_flushQueue _ .upstream answers.tail)
            exact ⟨rfl, rfl, rfl, rfl, rfl, id, List.prefix_refl _⟩
      · exact relaying_flushQueue _ _ _

theorem Settled.relaying (h : Settled config protocol maxBytes connection)
    (hrelaying : Relaying connection next) : Settled config protocol maxBytes next := by
  obtain ⟨reading, status, hverdict, hexplains⟩ := h.verdict
  refine ⟨hrelaying.stage ▸ h.late, ?_, fun hsome => ?_, reading, status,
    hrelaying.verdict.trans hverdict, fun hexpired => ?_⟩
  · cases htimer : next.protectionDecodeTimer with
    | false => rfl
    | true =>
        have hbefore := hrelaying.timer htimer
        rw [h.timer] at hbefore
        cases hbefore
  · rw [hrelaying.awaiting]
    exact h.answered (by rwa [← hrelaying.protocol])
  · rw [hrelaying.expired] at hexpired
    obtain ⟨buffer, hbuffer, hdone, hstatus⟩ := hexplains hexpired
    exact ⟨buffer, hbuffer.trans hrelaying.sent, hdone, hstatus⟩

/-- Nothing towards the upstream is changed. -/
structure Untouched (connection next : TcpConnection R) : Prop where
  stage : next.stage = connection.stage
  verdict : next.verdict = connection.verdict
  upstream : next.upstream = connection.upstream
  toUpstream : next.toUpstream = connection.toUpstream
  protocol : next.protectionDecodeProtocol = connection.protectionDecodeProtocol
  chunks : next.protectionDecodeChunks = connection.protectionDecodeChunks
  bytes : next.protectionDecodeBytes = connection.protectionDecodeBytes
  maxBytes : next.protectionDecodeMaxBytes = connection.protectionDecodeMaxBytes
  awaiting : next.protectionDecodeAwaitingVerdict = connection.protectionDecodeAwaitingVerdict
  timer : next.protectionDecodeTimer = true → connection.protectionDecodeTimer = true
  closed : next.closed = false → connection.closed = false

theorem Untouched.refl (connection : TcpConnection R) : Untouched connection connection :=
  ⟨rfl, rfl, rfl, rfl, rfl, rfl, rfl, rfl, rfl, id, id⟩

theorem Untouched.finishTcp (h : Untouched connection next) :
    Untouched connection next.finishTcp := by
  rw [TcpConnection.finishTcp]
  split
  · exact h
  · exact ⟨h.stage, h.verdict, h.upstream, h.toUpstream, h.protocol, h.chunks, h.bytes,
      h.maxBytes, h.awaiting, Bool.noConfusion, Bool.noConfusion⟩

theorem untouched_flushTcp (connection : TcpConnection R) (answers : List (Option Nat)) :
    Untouched connection (flushTcp connection .client answers) := by
  have hrefl := Untouched.refl connection
  have hflush : Untouched connection (flushQueue connection .client answers) := by
    obtain ⟨taken, queue, paused, -, -, hflush | hflush⟩ :=
      flushQueue_cases connection .client answers
    · rw [hflush]
      exact ⟨rfl, rfl, rfl, rfl, rfl, rfl, rfl, rfl, rfl, id, id⟩
    · rw [hflush]
      refine Untouched.finishTcp ?_
      exact ⟨rfl, rfl, rfl, rfl, rfl, rfl, rfl, rfl, rfl, id, id⟩
  rw [flushTcp.eq_def]
  split
  · exact hrefl
  · split
    · exact hrefl
    · exact hflush

theorem Unadmitted.untouched (h : Unadmitted connection) (hsame : Untouched connection next) :
    Unadmitted next := by
  refine ⟨hsame.stage.trans h.stage, hsame.verdict.trans h.verdict,
    hsame.upstream.trans h.upstream, ?_, ?_, fun hopen => ?_⟩
  · rw [hsame.toUpstream, h.received]
  · cases htimer : next.protectionDecodeTimer with
    | false => rfl
    | true =>
        have hbefore := hsame.timer htimer
        rw [h.timer] at hbefore
        cases hbefore
  · rw [hsame.protocol, hsame.toUpstream]
    exact h.unread (hsame.closed hopen)

theorem Reading.untouched (h : Reading protocol maxBytes connection)
    (hsame : Untouched connection next) : Reading protocol maxBytes next := by
  refine ⟨hsame.stage.trans h.stage, hsame.verdict.trans h.verdict,
    hsame.upstream.trans h.upstream, ?_, fun hopen => ?_, fun hopen => ?_, fun hopen => ?_,
    fun hopen => ?_, fun hopen => ?_⟩
  · rw [hsame.toUpstream, h.received]
  · exact hsame.protocol.trans (h.protocol (hsame.closed hopen))
  · rw [hsame.chunks, hsame.toUpstream]
    exact h.buffer (hsame.closed hopen)
  · rw [hsame.bytes, hsame.toUpstream]
    exact h.bytes (hsame.closed hopen)
  · exact hsame.maxBytes.trans (h.maxBytes (hsame.closed hopen))
  · exact hsame.awaiting.trans (h.awaiting (hsame.closed hopen))

/-! ## The verdict -/

theorem Settled.openTcpUpstream (h : Settled config protocol maxBytes connection) :
    Settled config protocol maxBytes (openTcpUpstream config connection) := by
  rw [TcpRelay.openTcpUpstream]
  split
  · exact ⟨Stage.noConfusion, h.timer, h.answered, h.verdict⟩
  · split
    · have hfinished := h.relaying (Relaying.refl connection).finishTcp
      exact ⟨Stage.noConfusion, hfinished.timer, hfinished.answered, hfinished.verdict⟩
    · exact ⟨Stage.noConfusion, h.timer, h.answered, h.verdict⟩

/-- `forwardDecoded` with a decoder set: the buffer is cleared and written. -/
theorem forwardDecoded_relaying (config : RelayConfig R F)
    (hprotocol : connection.protectionDecodeProtocol = some protocol) :
    Relaying { connection with
      protectionDecodeProtocol := none
      protectionDecodeAwaitingVerdict := false
      protectionDecodeChunks := []
      protectionDecodeBytes := 0 } (forwardDecoded config connection) := by
  rw [forwardDecoded, if_pos (Or.inl (by rw [hprotocol]; rfl))]
  simp only
  split
  · exact relaying_writeTcp _ _ _ _ _
  · exact Relaying.refl _

theorem finishProtectionDecode_settles (h : Reading protocol maxBytes connection)
    (hopen : connection.closed = false) {fields : F}
    (hexplains : (∀ n ∈ connection.expired, maxBytes ≤ n) →
      Explains config protocol maxBytes connection.toUpstream.sent reading
        (config.inspect reading fields)) :
    Settled config protocol maxBytes
      (finishProtectionDecode config connection fields reading) := by
  have hwaits : ¬ (connection.closed ∨ connection.protectionDecodeAwaitingVerdict) := by
    rw [hopen, h.awaiting hopen]
    simp
  have hlate : connection.stage ≠ .evaluating := by
    rw [h.stage]
    exact Stage.noConfusion
  rw [finishProtectionDecode, if_neg hwaits, evaluateProtectionAndProceed,
    if_neg (by simp [hopen])]
  simp only
  split
  case isTrue =>
    exact ⟨Stage.noConfusion, rfl, fun _ => rfl, reading, _, rfl, hexplains⟩
  case isFalse =>
    refine Settled.openTcpUpstream
      (Settled.relaying ?_ (forwardDecoded_relaying config (h.protocol hopen)))
    exact ⟨hlate, rfl, fun hsome => absurd rfl hsome, reading, _, rfl, hexplains⟩

theorem Reading.waits (h : Reading protocol maxBytes connection)
    (hopen : connection.closed = false) :
    ¬ (connection.closed ∨ connection.protectionDecodeAwaitingVerdict) := by
  rw [hopen, h.awaiting hopen]
  simp

theorem Reading.forceFinishProtectionDecode (h : Reading protocol maxBytes connection)
    (hopen : connection.closed = false)
    (hexpired : ∀ n ∈ connection.expired, n = connection.toUpstream.sent.length)
    (hsome : connection.expired ≠ none) (reading : R) :
    Settled config protocol maxBytes (forceFinishProtectionDecode config connection reading) := by
  rw [TcpRelay.forceFinishProtectionDecode, if_neg (h.waits hopen)]
  simp only [h.protocol hopen, h.buffer hopen]
  obtain ⟨n, hn⟩ := Option.ne_none_iff_exists'.mp hsome
  refine finishProtectionDecode_settles h hopen fun hlong => ?_
  have hlength := hlong n hn
  rw [hexpired n hn] at hlength
  exact ⟨connection.toUpstream.sent, List.prefix_refl _, Or.inr hlength, rfl⟩

theorem Reading.timerExpired (h : Reading protocol maxBytes connection) (reading : R) :
    Phase config protocol maxBytes (timerExpired config connection reading) := by
  have hnext : Reading protocol maxBytes { connection with
      protectionDecodeTimer := false
      expired := some connection.toUpstream.sent.length } :=
    ⟨h.stage, h.verdict, h.upstream, h.received, h.protocol, h.buffer, h.bytes, h.maxBytes,
      h.awaiting⟩
  rw [TcpRelay.timerExpired]
  by_cases hclosed : connection.closed = true
  · rw [TcpRelay.forceFinishProtectionDecode, if_pos (Or.inl hclosed)]
    exact .reading hnext
  · have hopen : connection.closed = false := by simpa using hclosed
    refine .settled (hnext.forceFinishProtectionDecode hopen ?_ ?_ reading)
    · rintro n hn
      exact (Option.some.inj hn).symm
    · exact Option.some_ne_none _

theorem Reading.sending_of_closed (h : Reading protocol maxBytes connection)
    (hclosed : connection.closed = true) :
    Reading protocol maxBytes (connection.sending .upstream data) := by
  have hnever : ∀ {p : Prop}, (connection.sending .upstream data).closed = false → p := by
    intro p hopen
    rw [show connection.closed = false from hopen] at hclosed
    cases hclosed
  exact ⟨h.stage, h.verdict, h.upstream, h.received, hnever, hnever, hnever, hnever, hnever⟩

theorem Reading.pushed (h : Reading protocol maxBytes connection)
    (hopen : connection.closed = false) :
    Reading protocol maxBytes { connection.sending .upstream data with
      protectionDecodeChunks := connection.protectionDecodeChunks ++ [data]
      protectionDecodeBytes := connection.protectionDecodeBytes + data.length } := by
  refine ⟨h.stage, h.verdict, h.upstream, h.received, fun _ => h.protocol hopen,
    fun _ => ?_, fun _ => ?_, fun _ => h.maxBytes hopen, fun _ => h.awaiting hopen⟩
  · rw [List.flatten_append, List.flatten_singleton, h.buffer hopen]
    rfl
  · change _ = (connection.toUpstream.sent ++ data).length
    rw [List.length_append, h.bytes hopen]

theorem Reading.tryCompleteProtectionDecode (h : Reading protocol maxBytes connection)
    (hopen : connection.closed = false) (reading : R) :
    Phase config protocol maxBytes (tryCompleteProtectionDecode config connection reading) := by
  rw [TcpRelay.tryCompleteProtectionDecode, if_neg (h.waits hopen)]
  simp only [h.protocol hopen, h.buffer hopen, h.bytes hopen, h.maxBytes hopen]
  split
  case isTrue hdone =>
    exact .settled (finishProtectionDecode_settles h hopen fun _ =>
      ⟨connection.toUpstream.sent, List.prefix_refl _, hdone, rfl⟩)
  case isFalse => exact .reading h

theorem clientData_of_closed (hclosed : connection.closed = true) :
    clientData config connection data answer reading = connection := by
  rw [TcpRelay.clientData, handleProtectionDecodeChunk, if_pos hclosed, writeTcp,
    if_pos hclosed, ite_self]

theorem Reading.clientData (h : Reading protocol maxBytes connection) (data : Bytes)
    (answer : Option Nat) (reading : R) :
    Phase config protocol maxBytes
      (clientData config (connection.sending .upstream data) data answer reading) := by
  cases hclosed : connection.closed with
  | true =>
      have hstill : (connection.sending .upstream data).closed = true := hclosed
      rw [clientData_of_closed hstill]
      exact .reading (h.sending_of_closed hclosed)
  | false =>
      have hstill : (connection.sending .upstream data).closed = false := hclosed
      have hsome : (connection.sending .upstream data).protectionDecodeProtocol = some protocol :=
        h.protocol hclosed
      have hwaits :
          ¬ (connection.sending .upstream data).protectionDecodeAwaitingVerdict = true := by
        rw [show (connection.sending .upstream data).protectionDecodeAwaitingVerdict = false from
          h.awaiting hclosed]
        exact Bool.false_ne_true
      rw [TcpRelay.clientData, hsome, Option.isSome_some, if_pos rfl, handleProtectionDecodeChunk,
        if_neg (by rw [hstill]; exact Bool.false_ne_true)]
      simp only
      rw [if_neg hwaits]
      exact (h.pushed hclosed).tryCompleteProtectionDecode hclosed reading

theorem Unadmitted.admitTcp (h : Unadmitted connection)
    (hprotection : config.protection = .decode protocol maxBytes) (blocked : Bool)
    (reading : R) :
    Phase config protocol maxBytes (admitTcp config connection blocked reading) := by
  rw [TcpRelay.admitTcp]
  split
  case isTrue => exact .unadmitted h
  case isFalse hclosed =>
    have hopen : connection.closed = false := by simpa using hclosed
    split
    case isTrue => exact .unadmitted (h.untouched (Untouched.refl connection).finishTcp)
    case isFalse =>
      obtain ⟨-, hsent⟩ := h.unread hopen
      rw [hprotection]
      simp only
      rw [beginProtectionDecode, if_neg hclosed]
      refine .reading ⟨rfl, h.verdict, h.upstream, h.received, fun _ => rfl, fun _ => hsent.symm,
        fun _ => ?_, fun _ => rfl, fun _ => rfl⟩
      change 0 = connection.toUpstream.sent.length
      rw [hsent, List.length_nil]

/-! ## Runs -/

theorem Settled.clientData (h : Settled config protocol maxBytes connection) (data : Bytes)
    (answer : Option Nat) (reading : R) :
    Settled config protocol maxBytes
      (clientData config (connection.sending .upstream data) data answer reading) := by
  have hsending : Relaying connection (connection.sending .upstream data) :=
    relaying_setLane (List.prefix_append _ _)
  have hnext := h.relaying hsending
  rw [TcpRelay.clientData]
  split
  case isFalse => exact hnext.relaying (relaying_writeTcp _ _ _ _ _)
  case isTrue hsome =>
    have hawaiting := hnext.answered (Option.isSome_iff_ne_none.mp hsome)
    rw [handleProtectionDecodeChunk]
    split
    case isTrue => exact hnext
    case isFalse =>
      simp only
      rw [if_pos hawaiting]
      exact ⟨hnext.late, hnext.timer, hnext.answered, hnext.verdict⟩

theorem Settled.upstreamOpen (h : Settled config protocol maxBytes connection)
    (answers : List (Option Nat)) :
    Settled config protocol maxBytes (upstreamOpen connection answers) := by
  rw [TcpRelay.upstreamOpen]
  split
  case isTrue => exact ⟨Stage.noConfusion, h.timer, h.answered, h.verdict⟩
  case isFalse =>
    have hopened : Settled config protocol maxBytes
        { connection with upstream := true, stage := .opened } :=
      ⟨Stage.noConfusion, h.timer, h.answered, h.verdict⟩
    have hflushed := hopened.relaying (relaying_flushTcp _ .upstream answers)
    simp only
    split
    · exact ⟨hflushed.late, hflushed.timer, hflushed.answered, hflushed.verdict⟩
    · exact hflushed

theorem untouched_clientEnd (hupstream : connection.upstream = false) :
    Untouched connection (clientEnd connection) := by
  rw [clientEnd, if_neg (by rw [hupstream]; exact Bool.false_ne_true)]
  exact ⟨rfl, rfl, rfl, rfl, rfl, rfl, rfl, rfl, rfl, id, id⟩

theorem Settled.clientEnd (h : Settled config protocol maxBytes connection) :
    Settled config protocol maxBytes (clientEnd connection) := by
  rw [TcpRelay.clientEnd]
  split
  · exact ⟨h.late, h.timer, h.answered, h.verdict⟩
  · exact ⟨h.late, h.timer, h.answered, h.verdict⟩

/-- Without an upstream only the admission, a chunk of the client and the timer do anything. -/
theorem relayStep_unopened {a : RelayAction R} (hupstream : connection.upstream = false)
    (hbanning : connection.stage ≠ .banning) (hconnecting : connection.stage ≠ .connecting)
    (hs : relayStep config connection a = some next) :
    Untouched connection next ∨ (∃ blocked reading, a = .admitted blocked reading) ∨
      (∃ data answer reading, a = .clientData data answer reading) ∨
      ∃ reading, a = .timerExpired reading := by
  have hnone : ¬connection.upstream = true := by
    rw [hupstream]
    exact Bool.false_ne_true
  cases a with
  | admitted blocked reading => exact .inr (.inl ⟨blocked, reading, rfl⟩)
  | clientData data answer reading => exact .inr (.inr (.inl ⟨data, answer, reading, rfl⟩))
  | timerExpired reading => exact .inr (.inr (.inr ⟨reading, rfl⟩))
  | clientDrain answers =>
      obtain rfl := Option.some.inj hs
      exact .inl (untouched_flushTcp connection answers)
  | clientEnd =>
      obtain ⟨-, rfl⟩ := of_guard hs
      exact .inl (untouched_clientEnd hupstream)
  | banned => exact absurd (of_guard hs).1 hbanning
  | upstreamOpened answers => exact absurd (of_guard hs).1 hconnecting
  | upstreamData data answer => exact absurd (of_guard hs).1.1 hnone
  | upstreamDrain answers => exact absurd (of_guard hs).1 hnone
  | upstreamEnd => exact absurd (of_guard hs).1.1 hnone
  | finish =>
      obtain rfl := Option.some.inj hs
      exact .inl (Untouched.refl connection).finishTcp

theorem Unadmitted.step {a : RelayAction R} (h : Unadmitted connection)
    (hprotection : config.protection = .decode protocol maxBytes)
    (hafter : AfterAdmission connection a) (hs : relayStep config connection a = some next) :
    Phase config protocol maxBytes next := by
  rcases relayStep_unopened h.upstream (by rw [h.stage]; exact Stage.noConfusion)
    (by rw [h.stage]; exact Stage.noConfusion) hs with
    hsame | ⟨blocked, reading, rfl⟩ | ⟨data, answer, reading, rfl⟩ | ⟨reading, rfl⟩
  · exact .unadmitted (h.untouched hsame)
  · obtain ⟨-, rfl⟩ := of_guard hs
    exact h.admitTcp hprotection blocked reading
  · obtain ⟨-, rfl⟩ := of_guard hs
    have hclosed : (connection.sending .upstream data).closed = true :=
      hafter.resolve_left fun hstage => hstage h.stage
    rw [clientData_of_closed hclosed]
    refine .unadmitted ⟨h.stage, h.verdict, h.upstream, h.received, h.timer, fun hopen => ?_⟩
    rw [hopen] at hclosed
    cases hclosed
  · exact Bool.noConfusion (h.timer.symm.trans (of_guard hs).1)

theorem Reading.step {a : RelayAction R} (h : Reading protocol maxBytes connection)
    (hs : relayStep config connection a = some next) :
    Phase config protocol maxBytes next := by
  rcases relayStep_unopened h.upstream (by rw [h.stage]; exact Stage.noConfusion)
    (by rw [h.stage]; exact Stage.noConfusion) hs with
    hsame | ⟨blocked, reading, rfl⟩ | ⟨data, answer, reading, rfl⟩ | ⟨reading, rfl⟩
  · exact .reading (h.untouched hsame)
  · exact Stage.noConfusion (h.stage.symm.trans (of_guard hs).1)
  · obtain ⟨-, rfl⟩ := of_guard hs
    exact h.clientData data answer reading
  · obtain ⟨-, rfl⟩ := of_guard hs
    exact h.timerExpired reading

theorem Settled.step {a : RelayAction R} (h : Settled config protocol maxBytes connection)
    (hs : relayStep config connection a = some next) :
    Settled config protocol maxBytes next := by
  cases a with
  | admitted blocked reading =>
      obtain ⟨hstage, -⟩ := of_guard hs
      exact absurd hstage h.late
  | clientData data answer reading =>
      obtain ⟨-, rfl⟩ := of_guard hs
      exact h.clientData data answer reading
  | clientDrain answers =>
      obtain rfl := Option.some.inj hs
      exact h.relaying (relaying_flushTcp connection .client answers)
  | clientEnd =>
      obtain ⟨-, rfl⟩ := of_guard hs
      exact h.clientEnd
  | timerExpired reading =>
      obtain ⟨htimer, -⟩ := of_guard hs
      exact Bool.noConfusion (h.timer.symm.trans htimer)
  | banned =>
      obtain ⟨-, rfl⟩ := of_guard hs
      exact h.relaying (Relaying.refl connection).finishTcp
  | upstreamOpened answers =>
      obtain ⟨-, rfl⟩ := of_guard hs
      exact h.upstreamOpen answers
  | upstreamData data answer =>
      obtain ⟨-, rfl⟩ := of_guard hs
      have hsending : Relaying connection (connection.sending .client data) :=
        relaying_setLane (List.prefix_append _ _)
      exact h.relaying (hsending.trans (relaying_writeTcp config _ .client data answer))
  | upstreamDrain answers =>
      obtain ⟨-, rfl⟩ := of_guard hs
      exact h.relaying (relaying_flushTcp connection .upstream answers)
  | upstreamEnd =>
      obtain ⟨-, rfl⟩ := of_guard hs
      exact ⟨h.late, h.timer, h.answered, h.verdict⟩
  | finish =>
      obtain rfl := Option.some.inj hs
      exact h.relaying (Relaying.refl connection).finishTcp

theorem phase_of_reach (hprotection : config.protection = .decode protocol maxBytes)
    (h : Reach (relayStep config) AfterAdmission (· = .start R) connection) :
    Phase config protocol maxBytes connection := by
  refine h.invariant ?_ ?_
  · rintro _ rfl
    exact .unadmitted ⟨rfl, rfl, rfl, rfl, rfl, fun _ => ⟨rfl, rfl⟩⟩
  · intro connection a next _ hphase hafter hs
    cases hphase with
    | unadmitted h => exact h.step hprotection hafter hs
    | reading h => exact h.step hs
    | settled h => exact .settled (h.step hs)

/-- In every run in which no chunk arrives before the connection is admitted: no byte reaches the
upstream before a verdict, and unless the decode timer expired first the verdict is the one for
the fields decoded from the first bytes of the client. -/
theorem protection_not_outrun (hprotection : config.protection = .decode protocol maxBytes)
    (h : Reach (relayStep config) AfterAdmission (· = .start R) connection) :
    (connection.verdict = none → connection.toUpstream.received = []) ∧
    ∀ reading status, connection.verdict = some (reading, status) →
      (∀ n ∈ connection.expired, maxBytes ≤ n) →
      ∃ buffer, buffer <+: connection.toUpstream.sent ∧
        ((config.attempt protocol buffer).status = .done ∨ maxBytes ≤ buffer.length) ∧
        status = config.inspect reading (config.attempt protocol buffer).fields := by
  cases phase_of_reach hprotection h with
  | unadmitted h =>
      refine ⟨fun _ => h.received, fun reading status hverdict => ?_⟩
      rw [h.verdict] at hverdict
      cases hverdict
  | reading h =>
      refine ⟨fun _ => h.received, fun reading status hverdict => ?_⟩
      rw [h.verdict] at hverdict
      cases hverdict
  | settled h =>
      obtain ⟨reading, status, hgiven, hexplains⟩ := h.verdict
      refine ⟨fun hnone => ?_, fun reading' status' hverdict hexpired => ?_⟩
      · rw [hgiven] at hnone
        cases hnone
      · rw [hgiven] at hverdict
        obtain ⟨rfl, rfl⟩ := Prod.mk.inj (Option.some.inj hverdict)
        exact hexplains hexpired

/-! ## A chunk that outruns the decoder -/

/-- Rule `MC-001` of the ruleset `minecraft-java`, in block mode. -/
def malformedHandshake (fields : StreamRuleFields) : StreamProtectionStatus :=
  if fields.contains ("handshake_valid".toList, .boolean false) then .blocked else .clean

def minecraftStream : RelayConfig Unit StreamRuleFields where
  maxBufferedBytes := 4096
  protection := .decode "minecraft-java".toList 64
  decoder := streamProtocolDecoder
  noFields := []
  inspect := fun _ fields => malformedHandshake fields
  proxyProtocol := none
  endpoints := ⟨[], [], none, none⟩

/-- No length of a packet: the decoder finds it invalid. -/
def floodBytes : Bytes := List.replicate 64 0xff

theorem protection_not_outrun_admitted : ∃ connection,
    Reach (relayStep minecraftStream) AfterAdmission (· = .start Unit) connection ∧
    connection.verdict = some ((), .blocked) ∧ connection.expired = none ∧
    (connection.verdict = none → connection.toUpstream.received = []) ∧
    ∀ reading status, connection.verdict = some (reading, status) →
      (∀ n ∈ connection.expired, 64 ≤ n) →
      ∃ buffer, buffer <+: connection.toUpstream.sent ∧
        ((minecraftStream.attempt "minecraft-java".toList buffer).status = .done ∨
          64 ≤ buffer.length) ∧
        status = minecraftStream.inspect reading
          (minecraftStream.attempt "minecraft-java".toList buffer).fields := by
  obtain ⟨s, hs, hfacts⟩ := (Option.any_eq_true ..).mp
    (show (execIf (relayStep minecraftStream) AfterAdmission (.start Unit)
      [.admitted false (), .clientData floodBytes none ()]).any
      (fun s => decide (s.verdict = some ((), .blocked) ∧ s.expired = none))
        = true by decide +kernel)
  have hreach : Reach (relayStep minecraftStream) AfterAdmission (· = .start Unit) s :=
    execIf_reach (.start rfl) hs
  obtain ⟨hverdict, hexpired⟩ := of_decide_eq_true hfacts
  exact ⟨s, hreach, hverdict, hexpired, protection_not_outrun rfl hreach⟩

/-- The same bytes before the admission: the decoder sees nothing, the timer lets the connection
pass, and the upstream gets them. -/
theorem early_chunk_outruns_decoder : ∃ connection,
    Reach (relayStep minecraftStream) Any (· = .start Unit) connection ∧
    connection.verdict = some ((), .clean) ∧ connection.expired = some 64 ∧
    connection.toUpstream.received = connection.toUpstream.sent ∧
    ∀ buffer, buffer <+: connection.toUpstream.sent →
      (minecraftStream.attempt "minecraft-java".toList buffer).status = .done ∨
        64 ≤ buffer.length →
      minecraftStream.inspect ()
        (minecraftStream.attempt "minecraft-java".toList buffer).fields = .blocked := by
  obtain ⟨s, hs, hfacts⟩ := (Option.any_eq_true ..).mp
    (show (exec (relayStep minecraftStream) (.start Unit) [.clientData floodBytes none (), .admitted
      false (), .timerExpired (), .upstreamOpened [some 64]]).any
      (fun s => decide (s.verdict = some ((), .clean) ∧ s.expired = some 64 ∧ s.toUpstream.received
        = s.toUpstream.sent ∧ s.toUpstream.sent = floodBytes)) = true by decide +kernel)
  have hprefixes : (floodBytes.inits.all fun buffer =>
      decide ((minecraftStream.attempt "minecraft-java".toList buffer).status = .done ∨
        64 ≤ buffer.length →
      minecraftStream.inspect ()
        (minecraftStream.attempt "minecraft-java".toList buffer).fields = .blocked)) = true := by
    decide +kernel
  obtain ⟨hverdict, hexpired, hreceived, hsent⟩ := of_decide_eq_true hfacts
  refine ⟨s, exec_reach (.start rfl) hs, hverdict, hexpired, hreceived, fun buffer hprefix => ?_⟩
  rw [hsent] at hprefix
  exact of_decide_eq_true (List.all_eq_true.mp hprefixes buffer ((List.mem_inits _ _).mpr hprefix))

end BurrowGate.TcpRelay
