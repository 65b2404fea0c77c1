import BurrowGate.TcpRelay.TcpConnection

/-!
# What the relay keeps of the bytes

The bytes of one direction are at every moment those that its destination accepted, then the
rest of a header, the queue and the decode buffer. A write and a flush only move bytes from one
of these places to the one before it.
-/

namespace BurrowGate.TcpRelay

open Lib.PartialWrite
open ProxyProtocol

variable {R F : Type} {config : RelayConfig R F} {connection : TcpConnection R}
  {direction : StreamDirection} {data : Bytes} {answer : Option Nat} {reading : R} {lane : Lane}
  {n : Nat}

namespace TcpConnection

/-- The header that goes before the bytes of a direction. -/
def headerOf (connection : TcpConnection R) : StreamDirection → Bytes
  | .upstream => connection.header
  | .client => []

/-- What of the header is not accepted yet. -/
def headerLeft (connection : TcpConnection R) : StreamDirection → Bytes
  | .upstream => connection.proxyHeader.elim [] (·.drop connection.proxyHeaderOffset)
  | .client => []

/-- The bytes that wait for a verdict. -/
def buffered (connection : TcpConnection R) : StreamDirection → Bytes
  | .upstream => connection.protectionDecodeChunks.flatten
  | .client => []

/-- One direction and the count of the queued bytes replaced. -/
def withLane (connection : TcpConnection R) (direction : StreamDirection) (lane : Lane)
    (queuedBytes : Nat) : TcpConnection R :=
  { connection.setLane direction lane with queuedBytes }

end TcpConnection

open TcpConnection

/-- A direction after `taken` was accepted. -/
def Lane.relayed (lane : Lane) (taken : Bytes) (queue : List Bytes) (paused : Bool) : Lane :=
  { lane with
    queue, paused, bytes := lane.bytes + taken.length, received := lane.received ++ taken }

/-! ## What a write queues -/

/-- The bytes that `writeTcp` puts into the queue. -/
def queuedByWrite (connection : TcpConnection R) (direction : StreamDirection) (data : Bytes)
    (answer : Option Nat) : Nat :=
  if connection.closed then 0
  else if connection.destination direction = false ∨
      (direction = .upstream ∧ connection.proxyHeader.isSome) then data.length
  else (write (connection.lane direction).ended answer data).elim 0 (data.length - ·)

/-- There is room in the queues for so many bytes. -/
def Room (config : RelayConfig R F) (connection : TcpConnection R) (count : Nat) : Prop :=
  connection.queuedBytes + count ≤ config.maxBufferedBytes
  deriving Decidable

/-! ## The invariant -/

/-- The bytes of a direction are those accepted, those of its header and its queue, and
`rest`. -/
def Ordered (connection : TcpConnection R) (direction : StreamDirection) (rest : Bytes) : Prop :=
  connection.headerOf direction ++ (connection.lane direction).sent =
    (connection.lane direction).received ++
      (connection.headerLeft direction ++
        ((connection.lane direction).queue.flatten ++ rest))

/-- What holds of the counters and the accepted bytes, also when the connection is closed. -/
structure Kept (connection : TcpConnection R) : Prop where
  carried : ∀ direction, (connection.lane direction).received <+:
    connection.headerOf direction ++ (connection.lane direction).sent
  counted : ∀ direction, (connection.lane direction).received.length +
      (connection.headerLeft direction).length =
    (connection.headerOf direction).length + (connection.lane direction).bytes
  header_first : ∀ direction, connection.headerLeft direction ≠ [] →
    (connection.lane direction).bytes = 0
  queued : connection.queuedBytes =
    connection.toUpstream.queue.flatten.length + connection.toClient.queue.flatten.length

/-- What holds while the connection is open. -/
structure Flows (connection : TcpConnection R) : Prop where
  order : ∀ direction, Ordered connection direction (connection.buffered direction)
  paused : ∀ direction, (connection.lane direction).queue ≠ [] →
    (connection.lane direction).paused = true
  written : ∀ direction, (connection.lane direction).ended = true →
    (connection.lane direction).received =
      connection.headerOf direction ++ (connection.lane direction).sent

/-- The header of the stream's PROXY protocol mode. -/
def RelayConfig.outgoingHeader (config : RelayConfig R F) : Except (List Char) Bytes :=
  config.proxyProtocol.elim (.ok []) fun mode => proxyProtocolHeader mode .tcp config.endpoints

/-- Neither a header nor an upstream is there before `openTcpUpstream`. -/
def Early (stage : Stage) : Prop := stage ≠ .connecting ∧ stage ≠ .opened

/-- The decode buffer is in use. -/
def Decoding (stage : Stage) : Prop := stage = .decoding ∨ stage = .banning

theorem Decoding.early {stage : Stage} (h : Decoding stage) : Early stage := by
  rcases h with rfl | rfl
  · exact ⟨Stage.noConfusion, Stage.noConfusion⟩
  · exact ⟨Stage.noConfusion, Stage.noConfusion⟩

structure Staged (config : RelayConfig R F) (connection : TcpConnection R) : Prop where
  opened : connection.upstream = true → connection.stage = .opened
  unopened : connection.upstream = false →
    connection.toUpstream.received = [] ∧ connection.toUpstream.ended = false
  early : Early connection.stage → connection.proxyHeader = none ∧ connection.header = []
  decoding : connection.protectionDecodeProtocol ≠ none → Decoding connection.stage
  chunks : connection.protectionDecodeProtocol = none → connection.protectionDecodeChunks = []
  ended : connection.toUpstream.ended = true → connection.clientEnded = true
  headed : connection.upstream = true ∨
    connection.stage = .connecting ∧ connection.closed = false →
      config.outgoingHeader = .ok connection.header

structure Relays (config : RelayConfig R F) (connection : TcpConnection R) : Prop where
  kept : Kept connection
  staged : Staged config connection
  flows : connection.closed = false → Flows connection

/-! ## One direction replaced -/

theorem lane_setLane (connection : TcpConnection R) (direction : StreamDirection) (lane : Lane) :
    (connection.setLane direction lane).lane direction = lane := by
  cases direction with
  | upstream => rfl
  | client => rfl

theorem Kept.withLane (h : Kept connection)
    (hcarried : lane.received <+: connection.headerOf direction ++ lane.sent)
    (hcounted : lane.received.length + (connection.headerLeft direction).length =
      (connection.headerOf direction).length + lane.bytes)
    (hfirst : connection.headerLeft direction ≠ [] → lane.bytes = 0)
    (hn : n + (connection.lane direction).queue.flatten.length =
      connection.queuedBytes + lane.queue.flatten.length) :
    Kept (connection.withLane direction lane n) := by
  have hqueued := h.queued
  cases direction with
  | upstream =>
      simp only [TcpConnection.lane] at hn
      refine ⟨fun d => ?_, fun d => ?_, fun d => ?_, ?_⟩
      · cases d with
        | upstream => exact hcarried
        | client => exact h.carried .client
      · cases d with
        | upstream => exact hcounted
        | client => exact h.counted .client
      · cases d with
        | upstream => exact hfirst
        | client => exact h.header_first .client
      · change n = lane.queue.flatten.length + connection.toClient.queue.flatten.length
        omega
  | client =>
      simp only [TcpConnection.lane] at hn
      refine ⟨fun d => ?_, fun d => ?_, fun d => ?_, ?_⟩
      · cases d with
        | upstream => exact h.carried .upstream
        | client => exact hcarried
      · cases d with
        | upstream => exact h.counted .upstream
        | client => exact hcounted
      · cases d with
        | upstream => exact h.header_first .upstream
        | client => exact hfirst
      · change n = connection.toUpstream.queue.flatten.length + lane.queue.flatten.length
        omega

theorem Flows.withLane (h : Flows connection)
    (horder : connection.headerOf direction ++ lane.sent =
      lane.received ++ (connection.headerLeft direction ++
        (lane.queue.flatten ++ connection.buffered direction)))
    (hpaused : lane.queue ≠ [] → lane.paused = true)
    (hwritten : lane.ended = true → lane.received = connection.headerOf direction ++ lane.sent) :
    Flows (connection.withLane direction lane n) := by
  cases direction with
  | upstream =>
      refine ⟨fun d => ?_, fun d => ?_, fun d => ?_⟩
      · cases d with
        | upstream => exact horder
        | client => exact h.order .client
      · cases d with
        | upstream => exact hpaused
        | client => exact h.paused .client
      · cases d with
        | upstream => exact hwritten
        | client => exact h.written .client
  | client =>
      refine ⟨fun d => ?_, fun d => ?_, fun d => ?_⟩
      · cases d with
        | upstream => exact h.order .upstream
        | client => exact horder
      · cases d with
        | upstream => exact h.paused .upstream
        | client => exact hpaused
      · cases d with
        | upstream => exact h.written .upstream
        | client => exact hwritten

/-! ## What a write and a flush do -/

theorem queueTcp_eq (hsource : connection.source direction = true)
    (hroom : Room config connection data.length) :
    queueTcp config connection direction data =
      connection.withLane direction
        { connection.lane direction with
          queue := (connection.lane direction).queue ++ [data], paused := true }
        (connection.queuedBytes + data.length) := by
  have hfits : ¬ config.maxBufferedBytes < connection.queuedBytes + data.length := by
    rw [Room] at hroom
    omega
  rw [queueTcp, if_neg hfits]
  cases direction with
  | upstream => rfl
  | client => exact if_pos hsource

/-- A write hands over a first part of the data and queues the rest, unless the socket fails. -/
theorem writeTcp_cases (hopen : connection.closed = false)
    (hsource : connection.source direction = true)
    (hroom : Room config connection (queuedByWrite connection direction data answer)) :
    writeTcp config connection direction data answer = connection.finishTcp ∨
      ∃ taken rest paused,
        writeTcp config connection direction data answer =
          connection.withLane direction
            ((connection.lane direction).relayed taken
              ((connection.lane direction).queue ++ rest) paused)
            (connection.queuedBytes + rest.flatten.length) ∧
        taken ++ rest.flatten = data ∧
        (taken ≠ [] → connection.destination direction = true ∧
          connection.headerLeft direction = []) ∧
        (rest ≠ [] → paused = true) ∧
        (rest = [] → paused = (connection.lane direction).paused) := by
  rw [writeTcp, if_neg (by simp [hopen])]
  rw [queuedByWrite, if_neg (by simp [hopen])] at hroom
  split
  case isTrue hwait =>
    rw [if_pos hwait] at hroom
    refine Or.inr ⟨[], [data], true, ?_, by simp, by simp, fun _ => rfl, by simp⟩
    rw [queueTcp_eq hsource hroom]
    cases direction with
    | upstream => simp [Lane.relayed]
    | client => simp [Lane.relayed]
  case isFalse hdirect =>
    rw [if_neg hdirect] at hroom
    obtain ⟨hdestination, hheader⟩ := not_or.mp hdirect
    have hleft : connection.headerLeft direction = [] := by
      cases direction with
      | upstream =>
          have hnone : connection.proxyHeader = none := by simpa using hheader
          rw [headerLeft, hnone, Option.elim_none]
      | client => rfl
    split
    · exact Or.inl rfl
    case h_2 written hwritten =>
      rw [hwritten, Option.elim_some] at hroom
      have htaken : (data.take written).length = written := by
        obtain ⟨count, -, rfl⟩ := write_eq_some hwritten
        simp
      split
      case isTrue hpart =>
        refine Or.inr ⟨data.take written, [data.drop written], true, ?_, by simp, fun _ =>
          ⟨by simpa using hdestination, hleft⟩, fun _ => rfl, by simp⟩
        rw [queueTcp_eq]
        · cases direction with
          | upstream => simp [Lane.relayed, withLane, setLane, TcpConnection.lane, recordTcpBytes]
          | client => simp [Lane.relayed, withLane, setLane, TcpConnection.lane, recordTcpBytes]
        · cases direction with
          | upstream => rfl
          | client => exact hsource
        · rw [List.length_drop]
          cases direction with
          | upstream => exact hroom
          | client => exact hroom
      case isFalse hwhole =>
        have hall : data.take written = data := List.take_of_length_le (by omega)
        refine Or.inr ⟨data, [], (connection.lane direction).paused, ?_, by simp, fun _ =>
          ⟨by simpa using hdestination, hleft⟩, by simp, fun _ => rfl⟩
        rw [hall]
        cases direction with
        | upstream => simp [Lane.relayed, withLane, setLane, TcpConnection.lane, recordTcpBytes]
        | client => simp [Lane.relayed, withLane, setLane, TcpConnection.lane, recordTcpBytes]

/-- A flush of the queue hands over a first part of it. -/
theorem flushQueue_cases (connection : TcpConnection R) (direction : StreamDirection)
    (answers : List (Option Nat)) :
    ∃ taken queue paused,
      taken ++ queue.flatten = (connection.lane direction).queue.flatten ∧
      (queue ≠ [] → (connection.lane direction).queue ≠ [] ∧
        paused = (connection.lane direction).paused) ∧
      (flushQueue connection direction answers =
          connection.withLane direction ((connection.lane direction).relayed taken queue paused)
            (connection.queuedBytes - taken.length) ∨
        flushQueue connection direction answers =
          (connection.withLane direction ((connection.lane direction).relayed taken queue paused)
            (connection.queuedBytes - taken.length)).finishTcp) := by
  have htaken := flush_taken_append (connection.lane direction).ended
    (connection.lane direction).queue answers
  have hqueue : (flush (connection.lane direction).ended (connection.lane direction).queue
      answers).rest ≠ [] → (connection.lane direction).queue ≠ [] := by
    intro hrest hnil
    rw [hnil] at hrest
    exact hrest rfl
  simp only [flushQueue]
  generalize flush (connection.lane direction).ended (connection.lane direction).queue answers =
    flushed at htaken hqueue ⊢
  split
  · refine ⟨flushed.taken, flushed.rest, (connection.lane direction).paused, htaken,
      fun h => ⟨hqueue h, rfl⟩, Or.inr ?_⟩
    cases direction with
    | upstream => rfl
    | client => rfl
  · split
    case isTrue hrest =>
      refine ⟨flushed.taken, flushed.rest,
        if connection.source direction then false else (connection.lane direction).paused,
        htaken, fun h => absurd hrest h, Or.inl ?_⟩
      cases direction with
      | upstream => rfl
      | client =>
          cases hupstream : connection.upstream with
          | true => simp [setPaused, TcpConnection.source, setLane, hupstream, withLane,
              Lane.relayed, TcpConnection.lane, recordTcpBytes]
          | false => simp [setPaused, TcpConnection.source, setLane, hupstream, withLane,
              Lane.relayed, TcpConnection.lane, recordTcpBytes]
    case isFalse hrest =>
      refine ⟨flushed.taken, flushed.rest, (connection.lane direction).paused, htaken,
        fun h => ⟨hqueue h, rfl⟩, Or.inl ?_⟩
      cases direction with
      | upstream => rfl
      | client => rfl

/-! ## The invariant across writes -/

theorem Kept.finishTcp (h : Kept connection) : Kept connection.finishTcp := by
  rw [TcpConnection.finishTcp]
  split
  · exact h
  · exact ⟨h.carried, h.counted, h.header_first, h.queued⟩

theorem Staged.finishTcp (h : Staged config connection) :
    Staged config connection.finishTcp := by
  rw [TcpConnection.finishTcp]
  split
  · exact h
  · refine ⟨h.opened, h.unopened, h.early, h.decoding, h.chunks, h.ended, ?_⟩
    rintro (hthere | ⟨-, hopen⟩)
    · exact h.headed (Or.inl hthere)
    · cases hopen

theorem finishTcp_closed (connection : TcpConnection R) : connection.finishTcp.closed = true := by
  rw [TcpConnection.finishTcp]
  split
  · assumption
  · rfl

theorem Relays.finished (hkept : Kept connection) (hstaged : Staged config connection) :
    Relays config connection.finishTcp :=
  ⟨hkept.finishTcp, hstaged.finishTcp,
    fun hopen => absurd (finishTcp_closed connection) (by rw [hopen]; exact Bool.false_ne_true)⟩

theorem Staged.withLane (h : Staged config connection)
    (hreceived : direction = .upstream → connection.upstream = false →
      lane.received = [] ∧ lane.ended = false)
    (hended : lane.ended = (connection.lane direction).ended) :
    Staged config (connection.withLane direction lane n) := by
  cases direction with
  | upstream =>
      refine ⟨h.opened, hreceived rfl, h.early, h.decoding, h.chunks, fun hend => ?_, h.headed⟩
      exact h.ended (hended.symm.trans hend)
  | client => exact ⟨h.opened, h.unopened, h.early, h.decoding, h.chunks, h.ended, h.headed⟩

/-- After the end of a direction nothing of it is left. -/
theorem Flows.nothing_left (h : Flows connection)
    (hended : (connection.lane direction).ended = true) :
    connection.headerLeft direction = [] ∧ (connection.lane direction).queue.flatten = [] ∧
      connection.buffered direction = [] := by
  have horder := h.order direction
  rw [Ordered, ← h.written direction hended] at horder
  have hnil := List.self_eq_append_right.mp horder
  simpa only [List.append_eq_nil_iff] using hnil

/-- Bytes of a direction handed over, after `data` more arrived for it. -/
theorem Relays.handed (h : Relays config connection) (hopen : connection.closed = false)
    {taken : Bytes} {queue : List Bytes} {paused : Bool}
    (hbuffered : data = [] ∨ connection.buffered direction = [])
    (htaken : taken ++ queue.flatten = (connection.lane direction).queue.flatten ++ data)
    (hleft : taken ≠ [] → connection.destination direction = true ∧
      connection.headerLeft direction = [])
    (hpaused : queue ≠ [] → paused = true)
    (hended : (connection.lane direction).ended = true → taken = [] ∧ data = [])
    (hn : n + (connection.lane direction).queue.flatten.length =
      connection.queuedBytes + queue.flatten.length) :
    Relays config ((connection.sending direction data).withLane direction
      (((connection.sending direction data).lane direction).relayed taken queue paused) n) := by
  obtain ⟨hkept, hstaged, hflows⟩ := h
  obtain hflows := hflows hopen
  have horder := hflows.order direction
  have hlane : ((connection.sending direction data).lane direction).relayed taken queue paused =
      { (connection.lane direction).relayed taken queue paused with
        sent := (connection.lane direction).sent ++ data } := by
    cases direction with
    | upstream => rfl
    | client => rfl
  have hwith : ∀ lane, (connection.sending direction data).withLane direction lane n =
      connection.withLane direction lane n := by
    intro lane
    cases direction with
    | upstream => rfl
    | client => rfl
  have hsent : connection.headerOf direction ++ ((connection.lane direction).sent ++ data) =
      ((connection.lane direction).received ++ taken) ++ (connection.headerLeft direction ++
        (queue.flatten ++ connection.buffered direction)) := by
    have hnext : (connection.lane direction).queue.flatten ++
        (connection.buffered direction ++ data) =
          taken ++ (queue.flatten ++ connection.buffered direction) := by
      rcases hbuffered with rfl | hnil
      · rw [List.append_nil] at htaken ⊢
        rw [← htaken, List.append_assoc]
      · rw [hnil, List.nil_append, List.append_nil, htaken]
    rw [← List.append_assoc, horder, List.append_assoc, List.append_assoc, List.append_assoc,
      hnext, List.append_assoc]
    by_cases hnil : taken = []
    · rw [hnil, List.nil_append, List.nil_append]
    · rw [(hleft hnil).2, List.nil_append, List.nil_append]
  have hwrote : connection.headerLeft direction ≠ [] → taken = [] := by
    intro hne
    by_contra hnil
    exact hne (hleft hnil).2
  rw [hlane, hwith]
  refine ⟨?_, ?_, fun _ => ?_⟩
  · have hcounted := hkept.counted direction
    refine hkept.withLane ?_ ?_ ?_ hn
    · change (connection.lane direction).received ++ taken <+:
        connection.headerOf direction ++ ((connection.lane direction).sent ++ data)
      rw [hsent]
      exact List.prefix_append _ _
    · change ((connection.lane direction).received ++ taken).length + _ =
        _ + ((connection.lane direction).bytes + taken.length)
      rw [List.length_append]
      omega
    · intro hne
      change (connection.lane direction).bytes + taken.length = 0
      rw [hkept.header_first direction hne, hwrote hne, List.length_nil]
  · refine hstaged.withLane ?_ rfl
    rintro rfl hupstream
    have hnil : taken = [] := by
      by_contra hne
      exact Bool.false_ne_true (hupstream.symm.trans (hleft hne).1)
    obtain ⟨hreceived, hend⟩ := hstaged.unopened hupstream
    exact ⟨List.append_eq_nil_iff.mpr ⟨hreceived, hnil⟩, hend⟩
  · refine hflows.withLane hsent hpaused fun hend => ?_
    obtain ⟨rfl, rfl⟩ := hended hend
    change (connection.lane direction).received ++ [] =
      connection.headerOf direction ++ ((connection.lane direction).sent ++ [])
    rw [List.append_nil, List.append_nil]
    exact hflows.written direction hend

theorem sending_eq (connection : TcpConnection R) (direction : StreamDirection) (data : Bytes) :
    connection.sending direction data =
      connection.withLane direction
        { connection.lane direction with sent := (connection.lane direction).sent ++ data }
        connection.queuedBytes := by
  cases direction with
  | upstream => rfl
  | client => rfl

theorem Kept.sending (h : Kept connection) : Kept (connection.sending direction data) := by
  rw [sending_eq]
  refine h.withLane ?_ (h.counted direction) (h.header_first direction) rfl
  change (connection.lane direction).received <+:
    connection.headerOf direction ++ ((connection.lane direction).sent ++ data)
  rw [← List.append_assoc]
  exact (h.carried direction).trans (List.prefix_append _ _)

theorem Staged.sending (h : Staged config connection) :
    Staged config (connection.sending direction data) := by
  rw [sending_eq]
  refine h.withLane ?_ rfl
  rintro rfl hupstream
  exact h.unopened hupstream

section Sending

variable (connection : TcpConnection R) (direction : StreamDirection) (data : Bytes)

theorem sending_closed : (connection.sending direction data).closed = connection.closed := by
  cases direction with
  | upstream => rfl
  | client => rfl

theorem sending_source :
    (connection.sending direction data).source direction = connection.source direction := by
  cases direction with
  | upstream => rfl
  | client => rfl

theorem sending_destination :
    (connection.sending direction data).destination direction =
      connection.destination direction := by
  cases direction with
  | upstream => rfl
  | client => rfl

theorem sending_headerLeft :
    (connection.sending direction data).headerLeft direction =
      connection.headerLeft direction := by
  cases direction with
  | upstream => rfl
  | client => rfl

theorem sending_queue : ((connection.sending direction data).lane direction).queue =
    (connection.lane direction).queue := by
  cases direction with
  | upstream => rfl
  | client => rfl

theorem sending_queuedBytes :
    (connection.sending direction data).queuedBytes = connection.queuedBytes := by
  cases direction with
  | upstream => rfl
  | client => rfl

theorem sending_queuedByWrite (answer : Option Nat) :
    queuedByWrite (connection.sending direction data) direction data answer =
      queuedByWrite connection direction data answer := by
  cases direction with
  | upstream => rfl
  | client => rfl

end Sending

/-- A data event whose bytes go straight to `writeTcp`. -/
theorem Relays.write (h : Relays config connection) (hsource : connection.source direction = true)
    (hroom : Room config connection (queuedByWrite connection direction data answer))
    (hidle : (connection.lane direction).paused = false)
    (hbuffered : connection.buffered direction = [])
    (hended : (connection.lane direction).ended = false) :
    Relays config (writeTcp config (connection.sending direction data) direction data answer) := by
  cases hclosed : connection.closed with
  | true =>
      have hstill : (connection.sending direction data).closed = true :=
        (sending_closed _ _ _).trans hclosed
      rw [writeTcp, if_pos hstill]
      exact ⟨h.kept.sending, h.staged.sending, fun hopen => by rw [hstill] at hopen; cases hopen⟩
  | false =>
      have hqueue : (connection.lane direction).queue = [] := by
        by_contra hne
        rw [(h.flows hclosed).paused direction hne] at hidle
        cases hidle
      have hwrites := @writeTcp_cases R F config (connection.sending direction data) direction
        data answer
        ((sending_closed connection direction data).trans hclosed)
        ((sending_source connection direction data).trans hsource)
        (by rw [Room, sending_queuedByWrite, sending_queuedBytes]; exact hroom)
      obtain hfinish | ⟨taken, rest, paused, hwrite, htaken, hleft, hpaused, hstill⟩ := hwrites
      · rw [hfinish]
        exact Relays.finished h.kept.sending h.staged.sending
      · rw [hwrite, sending_queue, hqueue, List.nil_append, sending_queuedBytes]
        refine h.handed hclosed (Or.inr hbuffered) ?_ ?_ hpaused ?_ ?_
        · rw [htaken, hqueue]
          rfl
        · rw [sending_destination, sending_headerLeft] at hleft
          exact hleft
        · intro hend
          rw [hended] at hend
          cases hend
        · rw [hqueue]
          rfl

theorem sending_nil (connection : TcpConnection R) (direction : StreamDirection) :
    connection.sending direction [] = connection := by
  cases direction with
  | upstream =>
      rw [TcpConnection.sending, List.append_nil]
      rfl
  | client =>
      rw [TcpConnection.sending, List.append_nil]
      rfl

theorem Kept.queue_le (h : Kept connection) (direction : StreamDirection) :
    (connection.lane direction).queue.flatten.length ≤ connection.queuedBytes := by
  rw [h.queued]
  cases direction with
  | upstream => exact Nat.le_add_right _ _
  | client => exact Nat.le_add_left _ _

theorem Relays.flushQueue (h : Relays config connection) (hopen : connection.closed = false)
    (hdestination : connection.destination direction = true)
    (hleft : connection.headerLeft direction = []) (answers : List (Option Nat)) :
    Relays config (flushQueue connection direction answers) := by
  obtain ⟨taken, queue, paused, htaken, hqueue, hflush⟩ :=
    flushQueue_cases connection direction answers
  have hflows := h.flows hopen
  have hlength : taken.length + queue.flatten.length =
      (connection.lane direction).queue.flatten.length := by
    rw [← htaken, List.length_append]
  have hle := h.kept.queue_le direction
  have hnext : Relays config (connection.withLane direction
      ((connection.lane direction).relayed taken queue paused)
      (connection.queuedBytes - taken.length)) := by
    have hhanded := @Relays.handed R F config connection direction []
      (connection.queuedBytes - taken.length) h hopen taken queue paused (Or.inl rfl)
      (by rw [htaken, List.append_nil]) (fun _ => ⟨hdestination, hleft⟩)
      (fun hne => (hqueue hne).2.trans (hflows.paused direction (hqueue hne).1)) ?_ (by omega)
    · rw [sending_nil] at hhanded
      exact hhanded
    · intro hend
      rw [(hflows.nothing_left hend).2.1] at htaken
      exact ⟨(List.append_eq_nil_iff.mp htaken).1, rfl⟩
  rcases hflush with hflush | hflush
  · rw [hflush]
    exact hnext
  · rw [hflush]
    exact Relays.finished hnext.kept hnext.staged

/-- A part of the header was accepted. -/
theorem Relays.header (h : Relays config connection) (hopen : connection.closed = false)
    (hupstream : connection.upstream = true) (hended : connection.toUpstream.ended = false)
    {taken : Bytes} {proxyHeader : Option Bytes} {offset : Nat}
    (hleft : taken ++ proxyHeader.elim [] (·.drop offset) = connection.headerLeft .upstream) :
    Relays config { connection with
      toUpstream := { connection.toUpstream with
        received := connection.toUpstream.received ++ taken }
      proxyHeader := proxyHeader
      proxyHeaderOffset := offset } := by
  have hflows := h.flows hopen
  have horder : connection.header ++ connection.toUpstream.sent =
      (connection.toUpstream.received ++ taken) ++ (proxyHeader.elim [] (·.drop offset) ++
        (connection.toUpstream.queue.flatten ++ connection.buffered .upstream)) := by
    rw [List.append_assoc, ← List.append_assoc taken, hleft]
    exact hflows.order .upstream
  refine ⟨⟨fun d => ?_, fun d => ?_, fun d => ?_, h.kept.queued⟩, ?_,
    fun _ => ⟨fun d => ?_, fun d => ?_, fun d => ?_⟩⟩
  · cases d with
    | upstream =>
        change connection.toUpstream.received ++ taken <+:
          connection.header ++ connection.toUpstream.sent
        rw [horder]
        exact List.prefix_append _ _
    | client => exact h.kept.carried .client
  · cases d with
    | upstream =>
        have hcounted := h.kept.counted .upstream
        rw [← hleft, List.length_append] at hcounted
        change (connection.toUpstream.received ++ taken).length +
          (proxyHeader.elim [] (·.drop offset)).length = _
        rw [List.length_append, Nat.add_assoc]
        exact hcounted
    | client => exact h.kept.counted .client
  · cases d with
    | upstream =>
        intro hne
        refine h.kept.header_first .upstream fun hnil => hne ?_
        rw [← hleft] at hnil
        exact (List.append_eq_nil_iff.mp hnil).2
    | client => exact h.kept.header_first .client
  · refine ⟨h.staged.opened, fun hnone => ?_, fun hearly => ?_, h.staged.decoding,
      h.staged.chunks, h.staged.ended, h.staged.headed⟩
    · exact absurd hupstream (by rw [hnone]; exact Bool.false_ne_true)
    · exact absurd (h.staged.opened hupstream) hearly.2
  · cases d with
    | upstream => exact horder
    | client => exact hflows.order .client
  · cases d with
    | upstream => exact hflows.paused .upstream
    | client => exact hflows.paused .client
  · cases d with
    | upstream => exact fun hend => Bool.noConfusion (hended.symm.trans hend)
    | client => exact hflows.written .client

theorem headerLeft_eq_nil (hother : ∀ header, direction = .upstream →
    connection.proxyHeader = some header → False) : connection.headerLeft direction = [] := by
  cases direction with
  | upstream =>
      cases hheader : connection.proxyHeader with
      | some header => exact (hother header rfl hheader).elim
      | none => rw [headerLeft, hheader, Option.elim_none]
  | client => rfl

theorem Relays.flushTcp (h : Relays config connection) (direction : StreamDirection)
    (answers : List (Option Nat)) : Relays config (flushTcp connection direction answers) := by
  rw [TcpRelay.flushTcp.eq_def]
  split
  case isTrue => exact h
  case isFalse hclosed =>
    have hopen : connection.closed = false := by simpa using hclosed
    split
    case isTrue => exact h
    case isFalse hthere =>
      have hdestination : connection.destination direction = true := by simpa using hthere
      split
      case h_1 header hheader =>
        simp only
        split
        · exact Relays.finished h.kept h.staged
        case h_2 written hwritten =>
          have hended := open_of_write hwritten
          have hleft : connection.headerLeft .upstream =
              header.drop connection.proxyHeaderOffset := by
            rw [headerLeft, hheader, Option.elim_some]
          split
          case isTrue =>
            refine @Relays.header R F config connection h hopen hdestination hended _
              connection.proxyHeader _ ?_
            rw [hleft, hheader, Option.elim_some, ← List.drop_drop, List.take_append_drop]
          case isFalse hwhole =>
            have hheader := @Relays.header R F config connection h hopen hdestination hended
              ((header.drop connection.proxyHeaderOffset).take written) none 0 (by
                rw [hleft, Option.elim_none, List.append_nil]
                refine List.take_of_length_le ?_
                rw [List.length_drop]
                omega)
            exact @Relays.flushQueue R F config _ .upstream hheader hopen hdestination rfl _
      case h_2 hother => exact h.flushQueue hopen hdestination (headerLeft_eq_nil hother) answers

end BurrowGate.TcpRelay
