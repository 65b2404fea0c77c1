import BurrowGate.Lib.Run
import BurrowGate.TcpRelay.RelayedBytes

/-!
# The relay is faithful unless a side is ended too early

`end()` is called without a look at the header, the queue or the decode buffer, so a half-close
drops what still waits. `Drained` is the condition that nothing does.
-/

namespace BurrowGate.TcpRelay

open Lib.PartialWrite
open Lib.Run
open ProxyProtocol
open TcpConnection

variable {R F : Type} {config : RelayConfig R F} {connection : TcpConnection R}
  {direction : StreamDirection} {data : Bytes} {answer : Option Nat} {reading : R}

/-! ## The condition -/

/-- The bytes that a verdict on `fields` puts into the queue. -/
def queuedByVerdict (config : RelayConfig R F) (buffer : Bytes) (fields : F) (reading : R) : Nat :=
  if config.inspect reading fields = .blocked then 0 else buffer.length

/-- The connection with one more chunk in the decode buffer. -/
def TcpConnection.push (connection : TcpConnection R) (data : Bytes) : TcpConnection R :=
  { connection with
    protectionDecodeChunks := connection.protectionDecodeChunks ++ [data]
    protectionDecodeBytes := connection.protectionDecodeBytes + data.length }

/-- The bytes that an attempt to decode puts into the queue. -/
def queuedByDecode (config : RelayConfig R F) (connection : TcpConnection R)
    (protocol : List Char) (reading : R) : Nat :=
  let buffer := connection.protectionDecodeChunks.flatten
  let attempt := config.attempt protocol buffer
  if connection.closed ∨ connection.protectionDecodeAwaitingVerdict then 0
  else if attempt.status = .done ∨
      connection.protectionDecodeMaxBytes ≤ connection.protectionDecodeBytes then
    queuedByVerdict config buffer attempt.fields reading
  else 0

/-- The bytes that the expiry of the decode timer puts into the queue. -/
def queuedByTimer (config : RelayConfig R F) (connection : TcpConnection R)
    (protocol : List Char) (reading : R) : Nat :=
  let buffer := connection.protectionDecodeChunks.flatten
  if connection.closed ∨ connection.protectionDecodeAwaitingVerdict then 0
  else queuedByVerdict config buffer (config.attempt protocol buffer).fields reading

/-- What a flush towards the upstream offers. -/
def TcpConnection.pending (connection : TcpConnection R) : List Bytes :=
  (connection.proxyHeader.map (·.drop connection.proxyHeaderOffset)).toList ++
    connection.toUpstream.queue

/-- Nothing waits for the destination of a direction. -/
def Idle (connection : TcpConnection R) (direction : StreamDirection) : Prop :=
  connection.headerLeft direction = [] ∧ (connection.lane direction).queue.flatten = []

instance (connection : TcpConnection R) (direction : StreamDirection) :
    Decidable (Idle connection direction) :=
  inferInstanceAs (Decidable (_ ∧ _))

/-- A side is ended only when nothing waits for it, and what is queued has room. -/
def Drained (config : RelayConfig R F) (connection : TcpConnection R) : RelayAction R → Prop
  | .clientData data answer reading =>
      Room config connection
        (connection.protectionDecodeProtocol.elim
          (queuedByWrite connection .upstream data answer)
          (queuedByDecode config (connection.push data) · reading))
  | .timerExpired reading =>
      Room config connection
        (connection.protectionDecodeProtocol.elim 0
          (queuedByTimer config connection · reading))
  | .upstreamData data answer =>
      Room config connection (queuedByWrite connection .client data answer)
  | .clientEnd =>
      connection.closed = false → connection.upstream = true → Idle connection .upstream
  | .upstreamEnd => connection.closed = false → Idle connection .client
  | .upstreamOpened answers =>
      connection.closed = false → connection.clientEnded = true →
        Drains connection.pending answers
  | _ => True

instance (config : RelayConfig R F) (connection : TcpConnection R) :
    ∀ a, Decidable (Drained config connection a)
  | .clientData data answer reading => inferInstanceAs (Decidable
      (Room config connection
        (connection.protectionDecodeProtocol.elim
          (queuedByWrite connection .upstream data answer)
          (queuedByDecode config (connection.push data) · reading))))
  | .timerExpired reading => inferInstanceAs (Decidable
      (Room config connection
        (connection.protectionDecodeProtocol.elim 0
          (queuedByTimer config connection · reading))))
  | .upstreamData data answer => inferInstanceAs (Decidable
      (Room config connection (queuedByWrite connection .client data answer)))
  | .clientEnd => inferInstanceAs (Decidable
      (connection.closed = false → connection.upstream = true → Idle connection .upstream))
  | .upstreamEnd => inferInstanceAs (Decidable
      (connection.closed = false → Idle connection .client))
  | .upstreamOpened answers => inferInstanceAs (Decidable
      (connection.closed = false → connection.clientEnded = true →
        Drains connection.pending answers))
  | .admitted .. | .clientDrain _ | .banned | .upstreamDrain _ | .finish => isTrue trivial

/-! ## Before the upstream is there -/

theorem Staged.unconnected (h : Staged config connection) (hearly : Early connection.stage) :
    connection.upstream = false := by
  cases hupstream : connection.upstream with
  | false => rfl
  | true => exact absurd (h.opened hupstream) hearly.2

/-- `openTcpUpstream` up to `connect`. -/
theorem Staged.connecting (h : Staged config connection) (hearly : Early connection.stage)
    (hprotocol : connection.protectionDecodeProtocol = none) (proxyHeader : Option Bytes)
    (offset : Nat) {header : Bytes}
    (hheader : connection.closed = false → config.outgoingHeader = .ok header) :
    Staged config { connection with
      proxyHeader := proxyHeader, proxyHeaderOffset := offset, header := header
      stage := .connecting } := by
  have hupstream := h.unconnected hearly
  refine ⟨fun hthere => ?_, h.unopened, fun hnot => absurd rfl hnot.1,
    fun hdecoding => absurd hprotocol hdecoding, h.chunks, h.ended, ?_⟩
  · rw [hupstream] at hthere
    cases hthere
  · rintro (hthere | ⟨-, hopen⟩)
    · rw [hupstream] at hthere
      cases hthere
    · exact hheader hopen

/-- The header is put before everything that the client sent. -/
theorem Relays.headed (h : Relays config connection) (hopen : connection.closed = false)
    (hearly : Early connection.stage)
    (hprotocol : connection.protectionDecodeProtocol = none) {header : Bytes}
    (hheader : config.outgoingHeader = .ok header) :
    Relays config { connection with
      proxyHeader := some header, proxyHeaderOffset := 0, header := header
      stage := .connecting } := by
  have hflows := h.flows hopen
  obtain ⟨hnone, hempty⟩ := h.staged.early hearly
  obtain ⟨hreceived, hended⟩ := h.staged.unopened (h.staged.unconnected hearly)
  have hcounted := h.kept.counted .upstream
  have horder := hflows.order .upstream
  simp only [Ordered, TcpConnection.lane, headerOf, headerLeft, hnone, hempty, hreceived,
    Option.elim_none, List.nil_append, List.length_nil, Nat.zero_add] at hcounted horder
  refine ⟨⟨fun d => ?_, fun d => ?_, fun d => ?_, h.kept.queued⟩,
    h.staged.connecting hearly hprotocol _ _ fun _ => hheader,
    fun _ => ⟨fun d => ?_, fun d => ?_, fun d => ?_⟩⟩
  · cases d with
    | upstream =>
        change connection.toUpstream.received <+: _
        rw [hreceived]
        exact List.nil_prefix
    | client => exact h.kept.carried .client
  · cases d with
    | upstream =>
        change connection.toUpstream.received.length + header.length =
          header.length + connection.toUpstream.bytes
        rw [hreceived, ← hcounted]
        exact Nat.zero_add _
    | client => exact h.kept.counted .client
  · cases d with
    | upstream => exact fun _ => hcounted.symm
    | client => exact h.kept.header_first .client
  · cases d with
    | upstream =>
        change header ++ connection.toUpstream.sent = connection.toUpstream.received ++
          (header ++ (connection.toUpstream.queue.flatten ++ connection.buffered .upstream))
        rw [hreceived, horder]
        rfl
    | client => exact hflows.order .client
  · cases d with
    | upstream => exact hflows.paused .upstream
    | client => exact hflows.paused .client
  · cases d with
    | upstream => exact fun hend => Bool.noConfusion (hended.symm.trans hend)
    | client => exact hflows.written .client

theorem Relays.openTcpUpstream (h : Relays config connection)
    (hopen : connection.closed = false) (hearly : Early connection.stage)
    (hprotocol : connection.protectionDecodeProtocol = none) :
    Relays config (openTcpUpstream config connection) := by
  have hflows := h.flows hopen
  rw [TcpRelay.openTcpUpstream]
  split
  case h_1 hmode =>
    refine ⟨⟨h.kept.carried, h.kept.counted, h.kept.header_first, h.kept.queued⟩,
      h.staged.connecting hearly hprotocol _ _ fun _ => ?_,
      fun _ => ⟨hflows.order, hflows.paused, hflows.written⟩⟩
    rw [RelayConfig.outgoingHeader, hmode, Option.elim_none, (h.staged.early hearly).2]
  case h_2 mode hmode =>
    split
    case h_1 =>
      have hfinish : connection.finishTcp =
          { connection with closed := true, protectionDecodeTimer := false } := by
        rw [TcpConnection.finishTcp, if_neg (by rw [hopen]; exact Bool.false_ne_true)]
      have hfinished : Relays config connection.finishTcp := Relays.finished h.kept h.staged
      rw [hfinish] at hfinished ⊢
      have hkept := hfinished.kept
      exact ⟨⟨hkept.carried, hkept.counted, hkept.header_first, hkept.queued⟩,
        hfinished.staged.connecting hearly hprotocol _ _ Bool.noConfusion, Bool.noConfusion⟩
    case h_2 header hheader =>
      refine h.headed hopen hearly hprotocol ?_
      rw [RelayConfig.outgoingHeader, hmode, Option.elim_some, hheader]

/-- `forwardDecoded` before its write. -/
def TcpConnection.cleared (connection : TcpConnection R) : TcpConnection R :=
  { connection with
    protectionDecodeProtocol := none
    protectionDecodeAwaitingVerdict := false
    protectionDecodeChunks := []
    protectionDecodeBytes := 0 }

theorem Kept.cleared (h : Kept connection) : Kept connection.cleared :=
  ⟨h.carried, h.counted, h.header_first, h.queued⟩

theorem Staged.cleared (h : Staged config connection) : Staged config connection.cleared :=
  ⟨h.opened, h.unopened, h.early, fun hsome => absurd rfl hsome, fun _ => rfl, h.ended,
    h.headed⟩

/-- The decode buffer moves to the queue. -/
theorem Relays.moved (h : Relays config connection) (hopen : connection.closed = false) :
    Relays config (connection.cleared.withLane .upstream
      { connection.toUpstream with
        queue := connection.toUpstream.queue ++ [connection.protectionDecodeChunks.flatten]
        paused := true }
      (connection.queuedBytes + connection.protectionDecodeChunks.flatten.length)) := by
  have hflows := h.flows hopen
  have hqueue : (connection.toUpstream.queue ++
      [connection.protectionDecodeChunks.flatten]).flatten =
        connection.toUpstream.queue.flatten ++ connection.protectionDecodeChunks.flatten := by
    rw [List.flatten_append, List.flatten_singleton]
  refine ⟨h.kept.cleared.withLane (h.kept.carried .upstream) (h.kept.counted .upstream)
    (h.kept.header_first .upstream) ?_, h.staged.cleared.withLane (fun _ => h.staged.unopened) rfl,
    fun _ => ⟨fun d => ?_, fun d => ?_, fun d => ?_⟩⟩
  · simp only [TcpConnection.lane, TcpConnection.cleared, hqueue, List.length_append]
    omega
  · cases d with
    | upstream =>
        have horder := hflows.order .upstream
        change connection.header ++ connection.toUpstream.sent =
          connection.toUpstream.received ++ (connection.headerLeft .upstream ++
            ((connection.toUpstream.queue ++
              [connection.protectionDecodeChunks.flatten]).flatten ++ []))
        rw [hqueue, List.append_nil]
        exact horder
    | client => exact hflows.order .client
  · cases d with
    | upstream => exact fun _ => rfl
    | client => exact hflows.paused .client
  · cases d with
    | upstream => exact hflows.written .upstream
    | client => exact hflows.written .client

/-- The verdict let the connection through. -/
theorem Relays.forwardDecoded (h : Relays config connection) (hopen : connection.closed = false)
    (hearly : Early connection.stage)
    (hroom : connection.protectionDecodeProtocol ≠ none →
      Room config connection connection.protectionDecodeChunks.flatten.length) :
    Relays config (forwardDecoded config connection) ∧
      (forwardDecoded config connection).closed = false ∧
      (forwardDecoded config connection).stage = connection.stage ∧
      (forwardDecoded config connection).protectionDecodeProtocol = none := by
  have hupstream := h.staged.unconnected hearly
  rw [TcpRelay.forwardDecoded]
  split
  case isTrue hsome =>
    have hprotocol : connection.protectionDecodeProtocol ≠ none := by
      intro hnone
      rw [hnone, h.staged.chunks hnone] at hsome
      simp at hsome
    simp only
    split
    case isTrue =>
      have hwrite : writeTcp config connection.cleared .upstream
          connection.protectionDecodeChunks.flatten none =
          connection.cleared.withLane .upstream
            { connection.toUpstream with
              queue := connection.toUpstream.queue ++ [connection.protectionDecodeChunks.flatten]
              paused := true }
            (connection.queuedBytes + connection.protectionDecodeChunks.flatten.length) := by
        have hclosed : connection.cleared.closed = false := hopen
        have hnowhere : connection.cleared.destination .upstream = false := hupstream
        rw [writeTcp, if_neg (by rw [hclosed]; exact Bool.false_ne_true),
          if_pos (Or.inl hnowhere)]
        exact queueTcp_eq rfl (hroom hprotocol)
      change Relays config (writeTcp config connection.cleared .upstream _ none) ∧
        (writeTcp config connection.cleared .upstream _ none).closed = false ∧
        (writeTcp config connection.cleared .upstream _ none).stage = connection.stage ∧
        (writeTcp config connection.cleared .upstream _ none).protectionDecodeProtocol = none
      rw [hwrite]
      exact ⟨h.moved hopen, hopen, rfl, rfl⟩
    case isFalse hnone =>
      have hempty : connection.protectionDecodeChunks.flatten = [] :=
        List.eq_nil_of_length_eq_zero (by omega)
      have hflows := h.flows hopen
      refine ⟨⟨h.kept.cleared, h.staged.cleared, fun _ => ⟨fun d => ?_, hflows.paused,
        hflows.written⟩⟩, hopen, rfl, rfl⟩
      cases d with
      | upstream =>
          have horder := hflows.order .upstream
          rw [Ordered, buffered, hempty] at horder
          exact horder
      | client => exact hflows.order .client
  case isFalse hnone =>
    have hprotocol : connection.protectionDecodeProtocol = none := by
      by_contra hsome
      exact hnone (Or.inl (Option.isSome_iff_ne_none.mpr hsome))
    exact ⟨h, hopen, rfl, hprotocol⟩

/-! ## The protection -/

/-- The marks of the protection do not touch the bytes. -/
theorem Relays.marked (h : Relays config connection) {awaiting timer : Bool}
    {maxBytes decodeBytes : Nat} {verdict : Option (R × StreamProtectionStatus)} {expired : Option Nat} :
    Relays config { connection with
      protectionDecodeBytes := decodeBytes, protectionDecodeMaxBytes := maxBytes
      protectionDecodeTimer := timer, protectionDecodeAwaitingVerdict := awaiting
      verdict := verdict, expired := expired } :=
  ⟨⟨h.kept.carried, h.kept.counted, h.kept.header_first, h.kept.queued⟩,
    ⟨h.staged.opened, h.staged.unopened, h.staged.early, h.staged.decoding, h.staged.chunks,
      h.staged.ended, h.staged.headed⟩,
    fun hopen => ⟨(h.flows hopen).order, (h.flows hopen).paused, (h.flows hopen).written⟩⟩

theorem Relays.evaluateProtectionAndProceed (h : Relays config connection)
    (hearly : Early connection.stage) {fields : F}
    (hroom : connection.protectionDecodeProtocol ≠ none → connection.closed = false →
      Room config connection
        (queuedByVerdict config connection.protectionDecodeChunks.flatten fields reading)) :
    Relays config (evaluateProtectionAndProceed config connection fields reading) := by
  rw [TcpRelay.evaluateProtectionAndProceed]
  split
  case isTrue => exact h
  case isFalse hclosed =>
    have hopen : connection.closed = false := by simpa using hclosed
    have hflows := h.flows hopen
    have hjudged : Relays config { connection with
        verdict := some (reading, config.inspect reading fields) } := h.marked
    simp only
    split
    case isTrue hblocked =>
      refine ⟨⟨h.kept.carried, h.kept.counted, h.kept.header_first, h.kept.queued⟩,
        ⟨fun hthere => ?_, h.staged.unopened, fun _ => h.staged.early hearly, fun _ => ?_,
          h.staged.chunks, h.staged.ended, ?_⟩,
        fun _ => ⟨hflows.order, hflows.paused, hflows.written⟩⟩
      · exact absurd (h.staged.opened hthere) hearly.2
      · exact Or.inr rfl
      · rintro (hthere | ⟨hstage, -⟩)
        · exact h.staged.headed (Or.inl hthere)
        · cases hstage
    case isFalse hpassed =>
      obtain ⟨hforward, hstill, hstage, hprotocol⟩ :=
        @Relays.forwardDecoded R F config _ hjudged hopen hearly fun hsome => by
          have hfits := hroom hsome hopen
          rw [queuedByVerdict, if_neg hpassed] at hfits
          exact hfits
      exact hforward.openTcpUpstream hstill (by rw [hstage]; exact hearly) hprotocol

theorem Relays.finishProtectionDecode (h : Relays config connection)
    (hearly : Early connection.stage) {fields : F}
    (hroom : connection.protectionDecodeAwaitingVerdict = false → connection.closed = false →
      Room config connection
        (queuedByVerdict config connection.protectionDecodeChunks.flatten fields reading)) :
    Relays config (finishProtectionDecode config connection fields reading) := by
  rw [TcpRelay.finishProtectionDecode]
  split
  case isTrue => exact h
  case isFalse hwaits =>
    obtain ⟨hclosed, hawaiting⟩ := not_or.mp hwaits
    have hopen : connection.closed = false := by simpa using hclosed
    have hnext : Relays config { connection with
        protectionDecodeAwaitingVerdict := true, protectionDecodeTimer := false } := h.marked
    exact hnext.evaluateProtectionAndProceed hearly
      fun _ _ => hroom (by simpa using hawaiting) hopen

theorem Relays.timerExpired (h : Relays config connection)
    (hroom : Room config connection
      (connection.protectionDecodeProtocol.elim 0 (queuedByTimer config connection · reading))) :
    Relays config (timerExpired config connection reading) := by
  have hnext : Relays config { connection with
      protectionDecodeTimer := false
      expired := some connection.toUpstream.sent.length } := h.marked
  rw [TcpRelay.timerExpired, forceFinishProtectionDecode]
  split
  case isTrue => exact hnext
  case isFalse hwaits =>
    split
    · exact hnext
    case h_2 protocol hprotocol =>
      have hsome : connection.protectionDecodeProtocol = some protocol := hprotocol
      have hearly := (h.staged.decoding (by rw [hsome]; exact Option.some_ne_none _)).early
      refine hnext.finishProtectionDecode hearly fun _ _ => ?_
      rw [hsome, Option.elim_some, queuedByTimer, if_neg hwaits] at hroom
      exact hroom

/-- A chunk that waits in the decode buffer. -/
theorem Relays.pushed (h : Relays config connection) (hopen : connection.closed = false)
    (hprotocol : connection.protectionDecodeProtocol ≠ none) :
    Relays config ((connection.sending .upstream data).push data) := by
  have hflows := h.flows hopen
  obtain ⟨-, hended⟩ := h.staged.unopened
    (h.staged.unconnected (h.staged.decoding hprotocol).early)
  have hkept : Kept (connection.sending .upstream data) := h.kept.sending
  have hstaged : Staged config (connection.sending .upstream data) := h.staged.sending
  refine ⟨⟨hkept.carried, hkept.counted, hkept.header_first, hkept.queued⟩,
    ⟨hstaged.opened, hstaged.unopened, hstaged.early, hstaged.decoding,
      fun hnone => absurd hnone hprotocol, hstaged.ended, hstaged.headed⟩,
    fun _ => ⟨fun d => ?_, fun d => ?_, fun d => ?_⟩⟩
  · cases d with
    | upstream =>
        have horder := hflows.order .upstream
        change connection.header ++ (connection.toUpstream.sent ++ data) =
          connection.toUpstream.received ++ (connection.headerLeft .upstream ++
            (connection.toUpstream.queue.flatten ++
              (connection.protectionDecodeChunks ++ [data]).flatten))
        rw [List.flatten_append, List.flatten_singleton, ← List.append_assoc,
          show connection.header ++ connection.toUpstream.sent = _ from horder]
        simp only [TcpConnection.lane, buffered, List.append_assoc]
    | client => exact hflows.order .client
  · cases d with
    | upstream => exact hflows.paused .upstream
    | client => exact hflows.paused .client
  · cases d with
    | upstream => exact fun hend => Bool.noConfusion (hended.symm.trans hend)
    | client => exact hflows.written .client

theorem Relays.tryCompleteProtectionDecode (h : Relays config connection)
    {protocol : List Char} (hprotocol : connection.protectionDecodeProtocol = some protocol)
    (hroom : Room config connection (queuedByDecode config connection protocol reading)) :
    Relays config (tryCompleteProtectionDecode config connection reading) := by
  have hearly := (h.staged.decoding (by rw [hprotocol]; exact Option.some_ne_none _)).early
  rw [TcpRelay.tryCompleteProtectionDecode]
  split
  case isTrue => exact h
  case isFalse hwaits =>
    simp only [queuedByDecode, if_neg hwaits] at hroom
    simp only [hprotocol]
    split
    case isTrue hdone =>
      rw [if_pos hdone] at hroom
      exact h.finishProtectionDecode hearly fun _ _ => hroom
    case isFalse => exact h

theorem Relays.handleProtectionDecodeChunk (h : Relays config connection) {protocol : List Char}
    (hprotocol : connection.protectionDecodeProtocol = some protocol)
    (hroom : Room config connection
      (queuedByDecode config (connection.push data) protocol reading)) :
    Relays config (handleProtectionDecodeChunk config (connection.sending .upstream data) data
      reading) := by
  rw [TcpRelay.handleProtectionDecodeChunk]
  cases hclosed : connection.closed with
  | true =>
      have hstill : (connection.sending .upstream data).closed = true := hclosed
      rw [if_pos hstill]
      exact ⟨h.kept.sending, h.staged.sending, fun hopen => by rw [hstill] at hopen; cases hopen⟩
  | false =>
      have hpushed : Relays config ((connection.sending .upstream data).push data) :=
        h.pushed hclosed (by rw [hprotocol]; exact Option.some_ne_none _)
      have hstill : (connection.sending .upstream data).closed = false := hclosed
      rw [if_neg (by rw [hstill]; exact Bool.false_ne_true)]
      simp only
      split
      case isTrue => exact hpushed
      case isFalse => exact hpushed.tryCompleteProtectionDecode hprotocol hroom

theorem Relays.beginProtectionDecode (h : Relays config connection)
    (hopen : connection.closed = false) (hearly : Early connection.stage)
    (hprotocol : connection.protectionDecodeProtocol = none) (protocol : List Char)
    (maxBytes : Nat) : Relays config (beginProtectionDecode connection protocol maxBytes) := by
  have hflows := h.flows hopen
  have hchunks := h.staged.chunks hprotocol
  rw [TcpRelay.beginProtectionDecode, if_neg (by rw [hopen]; exact Bool.false_ne_true)]
  refine ⟨⟨h.kept.carried, h.kept.counted, h.kept.header_first, h.kept.queued⟩,
    ⟨fun hthere => ?_, h.staged.unopened, fun _ => h.staged.early hearly, fun _ => ?_,
      fun _ => rfl, h.staged.ended, ?_⟩,
    fun _ => ⟨fun d => ?_, hflows.paused, hflows.written⟩⟩
  · exact absurd (h.staged.opened hthere) hearly.2
  · exact Or.inl rfl
  · rintro (hthere | ⟨hstage, -⟩)
    · exact h.staged.headed (Or.inl hthere)
    · cases hstage
  · cases d with
    | upstream =>
        have horder := hflows.order .upstream
        rw [Ordered, buffered, hchunks] at horder
        exact horder
    | client => exact hflows.order .client

theorem Relays.admitTcp (h : Relays config connection) (hearly : Early connection.stage)
    (hprotocol : connection.protectionDecodeProtocol = none) (blocked : Bool) (reading : R) :
    Relays config (admitTcp config connection blocked reading) := by
  rw [TcpRelay.admitTcp]
  split
  case isTrue => exact h
  case isFalse hclosed =>
    have hopen : connection.closed = false := by simpa using hclosed
    split
    case isTrue => exact Relays.finished h.kept h.staged
    case isFalse =>
      split
      · exact h.openTcpUpstream hopen hearly hprotocol
      · exact h.beginProtectionDecode hopen hearly hprotocol _ _
      · exact h.evaluateProtectionAndProceed hearly fun hsome => absurd hprotocol hsome

/-! ## The upstream opens, and a side ends -/

/-- What writing to a socket leaves alone. -/
structure SameCourse (connection next : TcpConnection R) : Prop where
  upstream : next.upstream = connection.upstream
  clientEnded : next.clientEnded = connection.clientEnded
  stage : next.stage = connection.stage

theorem SameCourse.finishTcp {next : TcpConnection R} (h : SameCourse connection next) :
    SameCourse connection next.finishTcp := by
  rw [TcpConnection.finishTcp]
  split
  · exact h
  · exact ⟨h.upstream, h.clientEnded, h.stage⟩

theorem flushQueue_course (connection : TcpConnection R) (direction : StreamDirection)
    (answers : List (Option Nat)) :
    SameCourse connection (flushQueue connection direction answers) := by
  obtain ⟨taken, queue, paused, -, -, hflush⟩ := flushQueue_cases connection direction answers
  have hsame : SameCourse connection (connection.withLane direction
      ((connection.lane direction).relayed taken queue paused)
      (connection.queuedBytes - taken.length)) := by
    cases direction with
    | upstream => exact ⟨rfl, rfl, rfl⟩
    | client => exact ⟨rfl, rfl, rfl⟩
  rcases hflush with hflush | hflush
  · rw [hflush]
    exact hsame
  · rw [hflush]
    exact hsame.finishTcp

theorem flushTcp_course (connection : TcpConnection R) (direction : StreamDirection)
    (answers : List (Option Nat)) :
    SameCourse connection (flushTcp connection direction answers) := by
  have hrefl : SameCourse connection connection := ⟨rfl, rfl, rfl⟩
  rw [flushTcp.eq_def]
  split
  · exact hrefl
  · split
    · exact hrefl
    · split
      · simp only
        split
        · exact hrefl.finishTcp
        · split
          · exact ⟨rfl, rfl, rfl⟩
          · have hnext := @flushQueue_course R
            obtain ⟨hupstream, hended, hstage⟩ := hnext _ .upstream answers.tail
            exact ⟨hupstream, hended, hstage⟩
      · exact flushQueue_course _ _ _

/-- A flush of a queue that takes no chunk in part leaves nothing of it, unless it fails. -/
theorem flushQueue_drains (hopen : (connection.lane direction).ended = false)
    {answers : List (Option Nat)} (h : Drains (connection.lane direction).queue answers) :
    (flushQueue connection direction answers).closed = true ∨
      ((flushQueue connection direction answers).lane direction).queue = [] := by
  rw [flushQueue]
  simp only
  split
  case isTrue => exact Or.inl (finishTcp_closed _)
  case isFalse hwrote =>
    have hrest := flush_of_drains h (by simpa using hwrote)
    rw [if_pos hrest, setPaused]
    right
    split
    · rw [lane_setLane]
      cases direction with
      | upstream => exact hrest
      | client => exact hrest
    · cases direction with
      | upstream => exact hrest
      | client => exact hrest

theorem flushQueue_proxyHeader (connection : TcpConnection R) (direction : StreamDirection)
    (answers : List (Option Nat)) :
    (flushQueue connection direction answers).proxyHeader = connection.proxyHeader := by
  obtain ⟨taken, queue, paused, -, -, hflush | hflush⟩ :=
    flushQueue_cases connection direction answers
  · rw [hflush]
    cases direction with
    | upstream => rfl
    | client => rfl
  · rw [hflush, TcpConnection.finishTcp]
    cases direction with
    | upstream => split <;> rfl
    | client => split <;> rfl

/-- With the header out of the way, a flush that drains leaves nothing for the upstream. -/
theorem flushQueue_idle (hheader : connection.proxyHeader = none)
    (hended : connection.toUpstream.ended = false) {answers : List (Option Nat)}
    (h : Drains connection.toUpstream.queue answers) :
    (flushQueue connection .upstream answers).closed = true ∨
      Idle (flushQueue connection .upstream answers) .upstream := by
  have hdrains := @flushQueue_drains R connection .upstream hended _ h
  refine hdrains.imp id fun hqueue => ⟨?_, ?_⟩
  · rw [headerLeft, flushQueue_proxyHeader, hheader, Option.elim_none]
  · rw [hqueue, List.flatten_nil]

theorem flushTcp_drains (hopen : connection.closed = false)
    (hthere : connection.upstream = true) (hended : connection.toUpstream.ended = false)
    {answers : List (Option Nat)} (h : Drains connection.pending answers) :
    (flushTcp connection .upstream answers).closed = true ∨
      Idle (flushTcp connection .upstream answers) .upstream := by
  have hdestination : ¬ connection.destination .upstream = false := by
    rw [destination, hthere]
    exact Bool.noConfusion
  rw [flushTcp.eq_def, if_neg (by rw [hopen]; exact Bool.false_ne_true), if_neg hdestination]
  cases hheader : connection.proxyHeader with
  | none =>
      rw [pending, hheader] at h
      exact flushQueue_idle hheader hended h
  | some header =>
      rw [pending, hheader] at h
      simp only
      split
      · exact Or.inl (finishTcp_closed _)
      case h_2 written hwritten =>
        obtain ⟨count, hcount, hle⟩ := write_eq_some hwritten
        obtain ⟨hlength, hqueue⟩ := h count hcount
        rw [List.length_drop] at hle hlength
        rw [if_neg (by omega)]
        apply flushQueue_idle
        · rfl
        · exact hended
        · exact hqueue

/-- `end()` on a destination for which nothing waits. -/
theorem Flows.written_of_idle (h : Flows connection) (hidle : Idle connection direction)
    (hbuffered : connection.buffered direction = []) :
    (connection.lane direction).received =
      connection.headerOf direction ++ (connection.lane direction).sent := by
  rw [h.order direction, hidle.1, hidle.2, hbuffered, List.append_nil, List.append_nil,
    List.append_nil]

theorem Relays.end_upstream (h : Relays config connection) (hthere : connection.upstream = true)
    (hidle : connection.closed = false → Idle connection .upstream) :
    Relays config { connection with
      clientEnded := true, toUpstream := { connection.toUpstream with ended := true } } := by
  have hprotocol : connection.protectionDecodeProtocol = none := by
    by_contra hsome
    exact (h.staged.decoding hsome).early.2 (h.staged.opened hthere)
  have hlanes : Kept (connection.withLane .upstream
      { connection.toUpstream with ended := true } connection.queuedBytes) :=
    h.kept.withLane (h.kept.carried .upstream) (h.kept.counted .upstream)
      (h.kept.header_first .upstream) rfl
  refine ⟨⟨hlanes.carried, hlanes.counted, hlanes.header_first, hlanes.queued⟩,
    ⟨h.staged.opened, fun hnone => ?_, h.staged.early, h.staged.decoding, h.staged.chunks,
      fun _ => rfl, h.staged.headed⟩, fun hopen => ?_⟩
  · exact absurd hthere (by rw [hnone]; exact Bool.false_ne_true)
  · have hflows := h.flows hopen
    have hwritten := hflows.written_of_idle (hidle hopen) (by
      rw [buffered, h.staged.chunks hprotocol, List.flatten_nil])
    have hnext : Flows (connection.withLane .upstream
        { connection.toUpstream with ended := true } connection.queuedBytes) :=
      hflows.withLane (hflows.order .upstream) (hflows.paused .upstream) fun _ => hwritten
    exact ⟨hnext.order, hnext.paused, hnext.written⟩

theorem Relays.upstreamEnd (h : Relays config connection)
    (hidle : connection.closed = false → Idle connection .client) :
    Relays config (upstreamEnd connection) := by
  have heq : TcpRelay.upstreamEnd connection = connection.withLane .client
      { connection.toClient with ended := true } connection.queuedBytes := rfl
  rw [heq]
  refine ⟨h.kept.withLane (h.kept.carried .client) (h.kept.counted .client)
    (h.kept.header_first .client) rfl, ?_, fun hopen => ?_⟩
  · exact ⟨h.staged.opened, h.staged.unopened, h.staged.early, h.staged.decoding,
      h.staged.chunks, h.staged.ended, h.staged.headed⟩
  · have hflows := h.flows hopen
    exact hflows.withLane (hflows.order .client) (hflows.paused .client)
      fun _ => hflows.written_of_idle (hidle hopen) rfl

theorem Relays.clientEnd (h : Relays config connection)
    (hidle : connection.closed = false → connection.upstream = true →
      Idle connection .upstream) : Relays config (clientEnd connection) := by
  rw [TcpRelay.clientEnd]
  split
  case isTrue hthere => exact h.end_upstream hthere fun hopen => hidle hopen hthere
  case isFalse hthere =>
    exact ⟨⟨h.kept.carried, h.kept.counted, h.kept.header_first, h.kept.queued⟩,
      ⟨h.staged.opened, h.staged.unopened, h.staged.early, h.staged.decoding, h.staged.chunks,
        fun _ => rfl, h.staged.headed⟩,
      fun hopen => ⟨(h.flows hopen).order, (h.flows hopen).paused, (h.flows hopen).written⟩⟩

theorem Relays.upstreamOpen (h : Relays config connection) (hstage : connection.stage = .connecting)
    {answers : List (Option Nat)}
    (hdrains : connection.closed = false → connection.clientEnded = true →
      Drains connection.pending answers) : Relays config (upstreamOpen connection answers) := by
  have hprotocol : connection.protectionDecodeProtocol = none := by
    by_contra hsome
    exact (h.staged.decoding hsome).early.1 hstage
  have hupstream : connection.upstream = false := by
    cases hthere : connection.upstream with
    | false => rfl
    | true => rw [h.staged.opened hthere] at hstage; cases hstage
  rw [TcpRelay.upstreamOpen]
  split
  case isTrue hclosed =>
    refine ⟨⟨h.kept.carried, h.kept.counted, h.kept.header_first, h.kept.queued⟩,
      ⟨fun _ => rfl, h.staged.unopened, fun hearly => absurd rfl hearly.2,
        fun hsome => absurd hprotocol hsome, h.staged.chunks, h.staged.ended, ?_⟩,
      fun hopen => ?_⟩
    · rintro (hthere | ⟨hstage, -⟩)
      · exact h.staged.headed (Or.inl hthere)
      · cases hstage
    rw [show connection.closed = false from hopen] at hclosed
    cases hclosed
  case isFalse hclosed =>
    have hopen : connection.closed = false := by simpa using hclosed
    have hflows := h.flows hopen
    have hopened : Relays config { connection with upstream := true, stage := .opened } :=
      ⟨⟨h.kept.carried, h.kept.counted, h.kept.header_first, h.kept.queued⟩,
        ⟨fun _ => rfl, Bool.noConfusion, fun hearly => absurd rfl hearly.2,
          fun hsome => absurd hprotocol hsome, h.staged.chunks, h.staged.ended,
          fun _ => h.staged.headed (Or.inr ⟨hstage, hopen⟩)⟩,
        fun _ => ⟨hflows.order, hflows.paused, hflows.written⟩⟩
    have hflushed := hopened.flushTcp .upstream answers
    have hcourse := flushTcp_course { connection with upstream := true, stage := .opened }
      .upstream answers
    simp only
    split
    case isTrue hclient =>
      have hsame : ∀ next : TcpConnection R, next.clientEnded = true →
          { next with toUpstream := { next.toUpstream with ended := true } } =
            { next with
              clientEnded := true, toUpstream := { next.toUpstream with ended := true } } := by
        intro next hnext
        rw [← hnext]
      rw [hsame _ hclient]
      refine hflushed.end_upstream hcourse.upstream fun hstill => ?_
      have hended : connection.clientEnded = true := hcourse.clientEnded.symm.trans hclient
      have hidle := @flushTcp_drains R { connection with upstream := true, stage := .opened }
        hopen rfl (h.staged.unopened hupstream).2 _ (hdrains hopen hended)
      exact hidle.resolve_left (by rw [hstill]; exact Bool.false_ne_true)
    case isFalse => exact hflushed

/-! ## Runs -/

theorem Relays.clientData (h : Relays config connection) (hclient : connection.clientEnded = false)
    (hidle : connection.toUpstream.paused = false)
    (hroom : Room config connection
      (connection.protectionDecodeProtocol.elim
        (queuedByWrite connection .upstream data answer)
        (queuedByDecode config (connection.push data) · reading))) :
    Relays config
      (clientData config (connection.sending .upstream data) data answer reading) := by
  cases hprotocol : connection.protectionDecodeProtocol with
  | some protocol =>
      rw [hprotocol, Option.elim_some] at hroom
      have hsome : (connection.sending .upstream data).protectionDecodeProtocol = some protocol :=
        hprotocol
      rw [TcpRelay.clientData, hsome, Option.isSome_some, if_pos rfl]
      exact h.handleProtectionDecodeChunk hprotocol hroom
  | none =>
      rw [hprotocol, Option.elim_none] at hroom
      have hnone : (connection.sending .upstream data).protectionDecodeProtocol = none := hprotocol
      rw [TcpRelay.clientData, hnone, Option.isSome_none, if_neg Bool.false_ne_true]
      refine h.write rfl hroom hidle ?_ ?_
      · rw [buffered, h.staged.chunks hprotocol, List.flatten_nil]
      · cases hended : connection.toUpstream.ended with
        | false => exact hended
        | true =>
            rw [h.staged.ended hended] at hclient
            cases hclient

theorem relays_step {next : TcpConnection R} {a : RelayAction R} (h : Relays config connection)
    (hdrained : Drained config connection a) (hs : relayStep config connection a = some next) :
    Relays config next := by
  cases a with
  | admitted blocked reading =>
      obtain ⟨hstage, rfl⟩ := of_guard hs
      refine h.admitTcp ?_ ?_ blocked reading
      · rw [hstage]
        exact ⟨Stage.noConfusion, Stage.noConfusion⟩
      · by_contra hsome
        rcases h.staged.decoding hsome with hdecoding | hbanning
        · exact Stage.noConfusion (hstage.symm.trans hdecoding)
        · exact Stage.noConfusion (hstage.symm.trans hbanning)
  | clientData data answer reading =>
      obtain ⟨⟨hidle, hclient⟩, rfl⟩ := of_guard hs
      exact h.clientData hclient hidle hdrained
  | clientDrain answers =>
      obtain rfl := Option.some.inj hs
      exact h.flushTcp .client answers
  | clientEnd =>
      obtain ⟨-, rfl⟩ := of_guard hs
      exact h.clientEnd hdrained
  | timerExpired reading =>
      obtain ⟨-, rfl⟩ := of_guard hs
      exact h.timerExpired hdrained
  | banned =>
      obtain ⟨-, rfl⟩ := of_guard hs
      exact Relays.finished h.kept h.staged
  | upstreamOpened answers =>
      obtain ⟨hstage, rfl⟩ := of_guard hs
      exact h.upstreamOpen hstage hdrained
  | upstreamData data answer =>
      obtain ⟨⟨hthere, hidle, hended⟩, rfl⟩ := of_guard hs
      exact h.write hthere hdrained hidle rfl hended
  | upstreamDrain answers =>
      obtain ⟨-, rfl⟩ := of_guard hs
      exact h.flushTcp .upstream answers
  | upstreamEnd =>
      obtain ⟨-, rfl⟩ := of_guard hs
      exact h.upstreamEnd hdrained
  | finish =>
      obtain rfl := Option.some.inj hs
      exact Relays.finished h.kept h.staged

theorem relays_start (config : RelayConfig R F) : Relays config (.start R) := by
  refine ⟨⟨fun d => ?_, fun d => ?_, fun d => ?_, rfl⟩,
    ⟨Bool.noConfusion, fun _ => ⟨rfl, rfl⟩, fun _ => ⟨rfl, rfl⟩, fun hsome => absurd rfl hsome,
      fun _ => rfl, Bool.noConfusion, ?_⟩, fun _ => ⟨fun d => ?_, fun d => ?_, fun d => ?_⟩⟩
  · cases d with
    | upstream => exact List.nil_prefix
    | client => exact List.nil_prefix
  · cases d with
    | upstream => rfl
    | client => rfl
  · cases d with
    | upstream => exact fun _ => rfl
    | client => exact fun _ => rfl
  · rintro (hthere | ⟨hstage, -⟩)
    · cases hthere
    · cases hstage
  · cases d with
    | upstream => rfl
    | client => rfl
  · cases d with
    | upstream => exact fun hne => absurd rfl hne
    | client => exact fun hne => absurd rfl hne
  · cases d with
    | upstream => exact Bool.noConfusion
    | client => exact Bool.noConfusion

theorem relays_of_reach
    (h : Reach (relayStep config) (Drained config) (· = .start R) connection) :
    Relays config connection := by
  refine h.invariant ?_ ?_
  · rintro _ rfl
    exact relays_start config
  · intro connection a next _ hrelays hdrained hs
    exact relays_step hrelays hdrained hs

/-- The counter of a direction is the length of the accepted payload. -/
theorem Kept.payload (h : Kept connection) (direction : StreamDirection) :
    (connection.lane direction).bytes = ((connection.lane direction).received.drop
      (connection.headerOf direction).length).length := by
  have hcounted := h.counted direction
  rw [List.length_drop]
  by_cases hleft : connection.headerLeft direction = []
  · rw [hleft, List.length_nil] at hcounted
    omega
  · have hfirst := h.header_first direction hleft
    omega

/-- The relay is faithful in every run in which a side is ended only when nothing waits for it
and what is queued has room. -/
theorem tcp_relay_faithful
    (h : Reach (relayStep config) (Drained config) (· = .start R) connection) :
    connection.toUpstream.received <+: connection.header ++ connection.toUpstream.sent ∧
    (connection.upstream = true → config.outgoingHeader = .ok connection.header) ∧
    connection.toClient.received <+: connection.toClient.sent ∧
    connection.queuedBytes =
      connection.toUpstream.queue.flatten.length + connection.toClient.queue.flatten.length ∧
    connection.toUpstream.bytes =
      (connection.toUpstream.received.drop connection.header.length).length ∧
    connection.toClient.bytes = connection.toClient.received.length ∧
    (connection.closed = false → connection.toUpstream.ended = true →
      connection.toUpstream.received = connection.header ++ connection.toUpstream.sent) ∧
    (connection.closed = false → connection.toClient.ended = true →
      connection.toClient.received = connection.toClient.sent) := by
  obtain ⟨hkept, hstaged, hflows⟩ := relays_of_reach h
  exact ⟨hkept.carried .upstream, fun hthere => hstaged.headed (Or.inl hthere),
    hkept.carried .client, hkept.queued, hkept.payload .upstream, hkept.payload .client,
    fun hopen => (hflows hopen).written .upstream, fun hopen => (hflows hopen).written .client⟩

/-! ## A half-close while bytes wait -/

/-- A stream whose decoder waits for four bytes. -/
def fourByteDecoder (proxyProtocol : Option StreamProxyProtocol) : RelayConfig Unit Unit where
  maxBufferedBytes := 1024
  protection := .decode "four-byte".toList 64
  decoder := fun _ => some fun buffer => ⟨if 4 ≤ buffer.length then .done else .incomplete, ()⟩
  noFields := ()
  inspect := fun _ _ => .clean
  proxyProtocol
  endpoints := ⟨"192.0.2.1".toList, "10.0.0.1".toList, some 4000, some 443⟩

/-- Partial writes on both sides, and both sides end after their last byte. -/
def drainedRun : List (RelayAction Unit) :=
  [ .admitted false (), .clientData [1] none (), .clientData [2, 3, 4] none (),
    .upstreamOpened [some 10], .upstreamDrain [some 100, some 2], .upstreamDrain [some 5],
    .clientData [5, 6] (some 1) (), .upstreamData [9, 8] (some 1), .clientDrain [some 1],
    .upstreamDrain [some 1], .clientEnd, .upstreamEnd ]

theorem tcp_relay_faithful_drained : ∃ connection,
    Reach (relayStep (fourByteDecoder (some .v1))) (Drained (fourByteDecoder (some .v1)))
      (· = .start Unit) connection ∧
    connection.closed = false ∧ connection.toUpstream.ended = true ∧
    connection.toClient.ended = true ∧ connection.toUpstream.bytes = 6 ∧
    connection.toUpstream.received <+: connection.header ++ connection.toUpstream.sent ∧
    (connection.upstream = true →
      (fourByteDecoder (some .v1)).outgoingHeader = .ok connection.header) ∧
    connection.toClient.received <+: connection.toClient.sent ∧
    connection.queuedBytes =
      connection.toUpstream.queue.flatten.length + connection.toClient.queue.flatten.length ∧
    connection.toUpstream.bytes =
      (connection.toUpstream.received.drop connection.header.length).length ∧
    connection.toClient.bytes = connection.toClient.received.length ∧
    (connection.closed = false → connection.toUpstream.ended = true →
      connection.toUpstream.received = connection.header ++ connection.toUpstream.sent) ∧
    (connection.closed = false → connection.toClient.ended = true →
      connection.toClient.received = connection.toClient.sent) := by
  obtain ⟨s, hs, hfacts⟩ := (Option.any_eq_true ..).mp
    (show (execIf (relayStep (fourByteDecoder (some .v1))) (Drained (fourByteDecoder (some .v1)))
      (.start Unit) drainedRun).any
      (fun s => decide (s.closed = false ∧ s.toUpstream.ended = true ∧ s.toClient.ended = true ∧
        s.toUpstream.bytes = 6)) = true by decide +kernel)
  have hreach : Reach (relayStep (fourByteDecoder (some .v1)))
      (Drained (fourByteDecoder (some .v1))) (· = .start Unit) s := execIf_reach (.start rfl) hs
  obtain ⟨hopen, hupstream, hclient, hbytes⟩ := of_decide_eq_true hfacts
  exact ⟨s, hreach, hopen, hupstream, hclient, hbytes, tcp_relay_faithful hreach⟩

/-- The client sends three bytes and half-closes while the decoder waits for a fourth one. When
the upstream opens it takes two of them, and is ended at once. -/
theorem half_close_drops_bytes : ∃ connection,
    Reach (relayStep (fourByteDecoder none)) Any (· = .start Unit) connection ∧
    connection.closed = false ∧ connection.toUpstream.ended = true ∧
    connection.toUpstream.sent = [1, 2, 3] ∧ connection.header = [] ∧
    connection.toUpstream.received = [1, 2] := by
  obtain ⟨s, hs, hfacts⟩ := (Option.any_eq_true ..).mp
    (show (exec (relayStep (fourByteDecoder none)) (.start Unit) [.admitted false (), .clientData
      [1, 2, 3] none (), .clientEnd, .timerExpired (), .upstreamOpened [some 2]]).any
      (fun s => decide (s.closed = false ∧ s.toUpstream.ended = true ∧ s.toUpstream.sent = [1, 2, 3]
        ∧ s.header = [] ∧ s.toUpstream.received = [1, 2])) = true by decide +kernel)
  exact ⟨s, exec_reach (.start rfl) hs, of_decide_eq_true hfacts⟩

end BurrowGate.TcpRelay
