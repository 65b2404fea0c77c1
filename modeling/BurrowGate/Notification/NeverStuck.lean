import BurrowGate.Lib.Run
import BurrowGate.Notification.Outbox
import Mathlib.Data.List.Nodup
import Mathlib.Data.List.Perm.Subperm

/-!
# No notification destination gets stuck

The query picks the oldest pending row of a destination and joins its event, but the
retention of events does not look for pending rows. When it takes the event of such a
row, the destination is never served again. On runs where it does not, where no row is
inserted behind one that is settled or being delivered, and where the outcome of a request
is stored, every destination is served in order.
-/

namespace BurrowGate.Notification

open Lib.Run

variable {ι : Type} [LinearOrder ι]

/-! ## What the stages hold -/

/-- The rows that the worker still has to settle. -/
def WorkerStage.batch : WorkerStage ι → List (NotificationOutboxRecord ι)
  | .idle | .reading _ => []
  | .deliveries rest => rest
  | .resolving row rest | .attempting row rest | .storing row _ _ rest => row :: rest

/-- The row of the request whose outcome is not stored yet. -/
def WorkerStage.attempted : WorkerStage ι → Option ι
  | .attempting row _ | .storing row _ true _ => some row.id
  | _ => none

/-- A row goes back to the queue only after a request that was not the last one. -/
def WorkerStage.Ok : WorkerStage ι → Prop
  | .storing row update attempted _ =>
      (update.status = .pending → attempted = true ∧ update.attempts = row.attempts + 1 ∧
        update.attempts < maxAlertAttempts) ∧ (update.status = .delivered → attempted = true)
  | _ => True

/-- The event that rows of the call refer to. -/
def RecordStage.eventId? : RecordStage ι → Option ι
  | .insertingEvent _ _ => none
  | .queueing eventId _ => some eventId
  | .insertingOutbox row _ => some row.eventId

def RecordStage.newRow? : RecordStage ι → Option (NotificationOutboxRecord ι)
  | .insertingOutbox row _ => some row
  | _ => none

/-- The rows of the outbox and those being inserted. -/
def rows (s : OutboxSystem ι) : List (NotificationOutboxRecord ι) :=
  s.outbox ++ s.recordings.filterMap RecordStage.newRow?

/-! ## The condition -/

/-- Retention takes no event that a pending row or a running call refers to; a row is inserted after
all rows of its destination that are settled or in the worker's batch; the outcome of a
request is stored, and the process is not stopped before. -/
def orderly (s : OutboxSystem ι) : OutboxAction ι → Bool
  | .pruneEvents scope cutoff ids =>
      s.events.all fun event => !prunesEvent scope cutoff ids event ||
        (s.outbox.all (fun row => row.status ≠ .pending || row.eventId ≠ event.id) &&
          s.recordings.all fun recording => recording.eventId? ≠ some event.id)
  | .outboxInserted i =>
      (s.recordings[i]?.bind RecordStage.newRow?).all fun row =>
        (s.settled ++ s.worker.batch).all fun x =>
          x.destination ≠ row.destination || key x < key row
  | .storeFails _ _ =>
      match s.worker with
      | .storing _ update true _ => update.status = .delivered
      | _ => true
  | .restart => s.worker.attempted.isNone
  | _ => true

def Orderly (s : OutboxSystem ι) (a : OutboxAction ι) : Prop := orderly s a = true

/-! ## The invariant -/

structure Flowing (s : OutboxSystem ι) : Prop where
  ids : ((rows s).map (·.id)).Nodup
  issued : (∀ r ∈ rows s, r.id ∈ s.issued) ∧ (∀ x ∈ s.settled, x.id ∈ s.issued) ∧
    ∀ id ∈ s.tried, id ∈ s.issued
  attempts : ∀ r ∈ rows s, r.status = .pending → r.attempts < maxAlertAttempts ∧
    s.tried.count r.id = r.attempts + if s.worker.attempted = some r.id then 1 else 0
  unsettled : ∀ x ∈ s.settled, ∀ r ∈ rows s, r.status = .pending → r.id ≠ x.id
  events : ∀ r ∈ s.outbox, r.status = .pending → ∃ e ∈ s.events, e.id = r.eventId
  recordings : ∀ recording ∈ s.recordings, ∀ id ∈ recording.eventId?, ∃ e ∈ s.events, e.id = id
  batch : ∀ r ∈ s.worker.batch, r ∈ s.outbox ∧ r.status = .pending ∧
    ∀ y ∈ s.outbox, y.status = .pending → y.destination = r.destination → key r ≤ key y
  batchIds : (s.worker.batch.map (·.id)).Nodup
  stage : s.worker.Ok
  settledFirst : ∀ x ∈ s.settled, ∀ y ∈ s.outbox, y.status = .pending →
    y.destination = x.destination → key x < key y
  sorted : s.settled.Pairwise fun x y => x.destination = y.destination → key y < key x
  tries : ∀ x ∈ s.settled, s.tried.count x.id ≤ maxAlertAttempts

theorem flowing_start {s : OutboxSystem ι} (h : s.Initial) : Flowing s := by
  obtain ⟨hevents, houtbox, hrecordings, hworker, hissued, hsettled, htried⟩ := h
  have hrows : rows s = [] := by rw [rows, houtbox, hrecordings]; rfl
  refine ⟨?_, ?_, ?_, ?_, ?_, ?_, ?_, ?_, ?_, ?_, ?_, ?_⟩ <;>
    simp [hrows, houtbox, hrecordings, hworker, hsettled, htried, WorkerStage.batch,
      WorkerStage.Ok]

variable {s s' : OutboxSystem ι}

section

omit [LinearOrder ι]

theorem attempted_mem {w : WorkerStage ι} {id : ι} (h : w.attempted = some id) :
    ∃ r ∈ w.batch, r.id = id := by
  cases w with
  | attempting row rest => exact ⟨row, List.mem_cons_self, Option.some.inj h⟩
  | storing row update attempted rest =>
      cases attempted with
      | false => cases h
      | true => exact ⟨row, List.mem_cons_self, Option.some.inj h⟩
  | idle | reading | deliveries | resolving => cases h

theorem mem_rows_of_outbox {r : NotificationOutboxRecord ι} (h : r ∈ s.outbox) : r ∈ rows s :=
  List.mem_append_left _ h

end

theorem row_unique (hs : Flowing s) {a b : NotificationOutboxRecord ι} (ha : a ∈ rows s)
    (hb : b ∈ rows s) (hid : a.id = b.id) : a = b :=
  List.inj_on_of_nodup_map hs.ids ha hb hid

/-- Keys of different rows differ. -/
theorem key_lt_of_le {a b : NotificationOutboxRecord ι} (hle : key a ≤ key b) (hid : a.id ≠ b.id) :
    key a < key b :=
  lt_of_le_of_ne hle fun h => hid (congrArg Prod.snd (toLex.injective h))

/-! ## Retention -/

/-- Rows that are not pending, or events that nothing refers to, are gone. -/
theorem flowing_pruned (hs : Flowing s) (hworker : s'.worker = s.worker)
    (hissued : s'.issued = s.issued) (hsettled : s'.settled = s.settled)
    (htried : s'.tried = s.tried) (hrecordings : s'.recordings = s.recordings)
    (houtbox : s'.outbox.Sublist s.outbox)
    (hpending : ∀ r ∈ s.outbox, r.status = .pending → r ∈ s'.outbox)
    (hevents : ∀ r ∈ s'.outbox, r.status = .pending → ∃ e ∈ s'.events, e.id = r.eventId)
    (hrefs : ∀ recording ∈ s.recordings, ∀ id ∈ recording.eventId?, ∃ e ∈ s'.events, e.id = id) :
    Flowing s' := by
  have hrows : (rows s').Sublist (rows s) := by
    rw [rows, rows, hrecordings]
    exact houtbox.append (.refl _)
  have hmem : ∀ r ∈ rows s', r ∈ rows s := fun r hr => hrows.subset hr
  refine ⟨hs.ids.sublist (hrows.map _), ?_, ?_, ?_, hevents, ?_, ?_, ?_, ?_, ?_, ?_, ?_⟩
  · rw [hissued, hsettled, htried]
    exact ⟨fun r hr => hs.issued.1 r (hmem r hr), hs.issued.2⟩
  · rw [htried, hworker]
    exact fun r hr => hs.attempts r (hmem r hr)
  · rw [hsettled]
    exact fun x hx r hr => hs.unsettled x hx r (hmem r hr)
  · rw [hrecordings]
    exact hrefs
  · rw [hworker]
    intro r hr
    obtain ⟨hin, hstatus, hleast⟩ := hs.batch r hr
    exact ⟨hpending r hin hstatus, hstatus, fun y hy => hleast y (houtbox.subset hy)⟩
  · rw [hworker]
    exact hs.batchIds
  · rw [hworker]
    exact hs.stage
  · rw [hsettled]
    exact fun x hx y hy => hs.settledFirst x hx y (houtbox.subset hy)
  · rw [hsettled]
    exact hs.sorted
  · rw [hsettled, htried]
    exact hs.tries

/-! ## Recording -/

/-- A step of a call that inserts no row and draws no row id. -/
theorem flowing_recording (hs : Flowing s) (hworker : s'.worker = s.worker)
    (hissued : ∀ id ∈ s.issued, id ∈ s'.issued) (hsettled : s'.settled = s.settled)
    (htried : s'.tried = s.tried) (houtbox : s'.outbox = s.outbox)
    (hevents : ∀ e ∈ s.events, e ∈ s'.events)
    (hnew : (s'.recordings.filterMap RecordStage.newRow?).Sublist
      (s.recordings.filterMap RecordStage.newRow?))
    (hrefs : ∀ recording ∈ s'.recordings, ∀ id ∈ recording.eventId?,
      ∃ e ∈ s'.events, e.id = id) : Flowing s' := by
  have hrows : (rows s').Sublist (rows s) := by
    rw [rows, rows, houtbox]
    exact (List.Sublist.refl _).append hnew
  have hmem : ∀ r ∈ rows s', r ∈ rows s := fun r hr => hrows.subset hr
  refine ⟨hs.ids.sublist (hrows.map _), ?_, ?_, ?_, ?_, hrefs, ?_, ?_, ?_, ?_, ?_, ?_⟩
  · rw [hsettled, htried]
    exact ⟨fun r hr => hissued _ (hs.issued.1 r (hmem r hr)),
      fun x hx => hissued _ (hs.issued.2.1 x hx), fun id hid => hissued _ (hs.issued.2.2 id hid)⟩
  · rw [htried, hworker]
    exact fun r hr => hs.attempts r (hmem r hr)
  · rw [hsettled]
    exact fun x hx r hr => hs.unsettled x hx r (hmem r hr)
  · rw [houtbox]
    intro r hr hstatus
    obtain ⟨e, he, hid⟩ := hs.events r hr hstatus
    exact ⟨e, hevents e he, hid⟩
  · rw [hworker, houtbox]
    exact hs.batch
  · rw [hworker]
    exact hs.batchIds
  · rw [hworker]
    exact hs.stage
  · rw [hsettled, houtbox]
    exact hs.settledFirst
  · rw [hsettled]
    exact hs.sorted
  · rw [hsettled, htried]
    exact hs.tries

/-- The row of a running call is built, under a new id. -/
theorem flowing_queued (row : NotificationOutboxRecord ι) (hs : Flowing s)
    (hid : row.id ∉ s.issued) (hattempts : row.attempts = 0)
    (hissued : s'.issued = row.id :: s.issued) (hworker : s'.worker = s.worker)
    (hsettled : s'.settled = s.settled) (htried : s'.tried = s.tried)
    (houtbox : s'.outbox = s.outbox) (hevents : s'.events = s.events)
    (hnew : (s'.recordings.filterMap RecordStage.newRow?).Perm
      (row :: s.recordings.filterMap RecordStage.newRow?))
    (hrefs : ∀ recording ∈ s'.recordings, ∀ id ∈ recording.eventId?,
      ∃ e ∈ s'.events, e.id = id) : Flowing s' := by
  have hrows : (rows s').Perm (row :: rows s) := by
    rw [rows, rows, houtbox]
    exact (hnew.append_left _).trans List.perm_middle
  have hmem : ∀ r ∈ rows s', r = row ∨ r ∈ rows s := fun r hr =>
    List.mem_cons.mp (hrows.mem_iff.mp hr)
  have hnotTried : row.id ∉ s.tried := fun h => hid (hs.issued.2.2 _ h)
  -- a row in the worker has an id that was drawn before
  have hnotAttempted : s.worker.attempted ≠ some row.id := by
    intro h
    obtain ⟨r, hr, hrid⟩ := attempted_mem h
    exact hid (hrid ▸ hs.issued.1 r (mem_rows_of_outbox (hs.batch r hr).1))
  refine ⟨?_, ?_, ?_, ?_, ?_, hrefs, ?_, ?_, ?_, ?_, ?_, ?_⟩
  · rw [(hrows.map _).nodup_iff, List.map_cons, List.nodup_cons]
    refine ⟨fun h => ?_, hs.ids⟩
    obtain ⟨r, hr, hrid⟩ := List.mem_map.mp h
    exact hid (hrid ▸ hs.issued.1 r hr)
  · rw [hissued, hsettled, htried]
    refine ⟨fun r hr => ?_, fun x hx => List.mem_cons_of_mem _ (hs.issued.2.1 x hx),
      fun id h => List.mem_cons_of_mem _ (hs.issued.2.2 id h)⟩
    rcases hmem r hr with rfl | hr
    · exact List.mem_cons_self
    · exact List.mem_cons_of_mem _ (hs.issued.1 r hr)
  · rw [htried, hworker]
    intro r hr hstatus
    rcases hmem r hr with rfl | hr
    · rw [hattempts, if_neg hnotAttempted, List.count_eq_zero_of_not_mem hnotTried]
      exact ⟨by decide, rfl⟩
    · exact hs.attempts r hr hstatus
  · rw [hsettled]
    intro x hx r hr hstatus
    rcases hmem r hr with rfl | hr
    · exact fun h => hid (h ▸ hs.issued.2.1 x hx)
    · exact hs.unsettled x hx r hr hstatus
  · rw [houtbox, hevents]
    exact hs.events
  · rw [hworker, houtbox]
    exact hs.batch
  · rw [hworker]
    exact hs.batchIds
  · rw [hworker]
    exact hs.stage
  · rw [hsettled, houtbox]
    exact hs.settledFirst
  · rw [hsettled]
    exact hs.sorted
  · rw [hsettled, htried]
    exact hs.tries

/-- The row takes its place behind what is settled or being delivered. -/
theorem flowing_inserted {row : NotificationOutboxRecord ι} (hs : Flowing s)
    (hlast : ∀ x ∈ s.settled ++ s.worker.batch, x.destination = row.destination → key x < key row)
    (hevent : ∃ e ∈ s.events, e.id = row.eventId) (hissued : s'.issued = s.issued)
    (hworker : s'.worker = s.worker) (hsettled : s'.settled = s.settled)
    (htried : s'.tried = s.tried) (houtbox : s'.outbox = s.outbox ++ [row])
    (hevents : s'.events = s.events)
    (hnew : (s.recordings.filterMap RecordStage.newRow?).Perm
      (row :: s'.recordings.filterMap RecordStage.newRow?))
    (hrefs : ∀ recording ∈ s'.recordings, ∀ id ∈ recording.eventId?,
      ∃ e ∈ s'.events, e.id = id) : Flowing s' := by
  have hrows : (rows s').Perm (rows s) := by
    rw [rows, rows, houtbox, List.append_assoc]
    exact hnew.symm.append_left _
  have hmem : ∀ r ∈ rows s', r ∈ rows s := fun r hr => hrows.mem_iff.mp hr
  have houtboxMem : ∀ r ∈ s'.outbox, r ∈ s.outbox ∨ r = row := by
    intro r hr
    rw [houtbox] at hr
    exact (List.mem_append.mp hr).imp_right List.mem_singleton.mp
  refine ⟨(hrows.map _).nodup_iff.mpr hs.ids, ?_, ?_, ?_, ?_, hrefs, ?_, ?_, ?_, ?_, ?_, ?_⟩
  · rw [hissued, hsettled, htried]
    exact ⟨fun r hr => hs.issued.1 r (hmem r hr), hs.issued.2⟩
  · rw [htried, hworker]
    exact fun r hr => hs.attempts r (hmem r hr)
  · rw [hsettled]
    exact fun x hx r hr => hs.unsettled x hx r (hmem r hr)
  · rw [hevents]
    intro r hr hstatus
    rcases houtboxMem r hr with hr | rfl
    · exact hs.events r hr hstatus
    · exact hevent
  · rw [hworker]
    intro r hr
    obtain ⟨hin, hstatus, hleast⟩ := hs.batch r hr
    refine ⟨by rw [houtbox]; exact List.mem_append_left _ hin, hstatus, fun y hy hpending hd => ?_⟩
    rcases houtboxMem y hy with hy | rfl
    · exact hleast y hy hpending hd
    · exact (hlast r (List.mem_append_right _ hr) hd.symm).le
  · rw [hworker]
    exact hs.batchIds
  · rw [hworker]
    exact hs.stage
  · rw [hsettled]
    intro x hx y hy hpending hd
    rcases houtboxMem y hy with hy | rfl
    · exact hs.settledFirst x hx y hy hpending hd
    · exact hlast x (List.mem_append_left _ hx) hd.symm
  · rw [hsettled]
    exact hs.sorted
  · rw [hsettled, htried]
    exact hs.tries

/-! ## Delivering -/

/-- The worker goes on without a change of the tables. -/
theorem flowing_worker {w : WorkerStage ι} (hs : Flowing s)
    (hbatch : w.batch.Sublist s.worker.batch) (hattempted : w.attempted = s.worker.attempted)
    (hok : w.Ok) : Flowing { s with worker := w } := by
  refine ⟨hs.ids, hs.issued, ?_, hs.unsettled, hs.events, hs.recordings, ?_, ?_, hok,
    hs.settledFirst, hs.sorted, hs.tries⟩
  · intro r hr hstatus
    rw [hattempted]
    exact hs.attempts r hr hstatus
  · exact fun r hr => hs.batch r (hbatch.subset hr)
  · exact hs.batchIds.sublist (hbatch.map _)

/-- The oldest pending row of its destination. -/
theorem oldestPending_spec {outbox : List (NotificationOutboxRecord ι)} {d : Destination}
    {row : NotificationOutboxRecord ι} (h : oldestPending outbox d = some row) :
    row ∈ outbox ∧ row.status = .pending ∧ row.destination = d ∧
      ∀ y ∈ outbox, y.status = .pending → y.destination = d → key row ≤ key y := by
  have hmem := List.mem_filter.mp (List.argmin_mem (Option.mem_def.mpr h))
  obtain ⟨hstatus, hd⟩ := Bool.and_eq_true_iff.mp hmem.2
  refine ⟨hmem.1, of_decide_eq_true hstatus, of_decide_eq_true hd, fun y hy hpending hyd => ?_⟩
  exact List.le_of_mem_argmin
    (List.mem_filter.mpr ⟨hy, by simp [hpending, hyd]⟩) (Option.mem_def.mpr h)

/-- What the query returns is pending and the oldest of its destination. -/
theorem deliverable_spec (hs : Flowing s) {now : Nat} {row : NotificationOutboxRecord ι}
    (hmem : row ∈ s.outbox) (h : deliverable s.outbox s.events now row = true) :
    row.status = .pending ∧ row.nextAttemptAt ≤ now ∧
      oldestPending s.outbox row.destination = some row := by
  simp only [deliverable, Bool.and_eq_true] at h
  obtain ⟨⟨⟨hstatus, hnow⟩, -⟩, holdest⟩ := h
  refine ⟨of_decide_eq_true hstatus, of_decide_eq_true hnow, ?_⟩
  cases hfirst : oldestPending s.outbox row.destination with
  | none => rw [hfirst] at holdest; cases holdest
  | some first =>
      rw [hfirst] at holdest
      have hid : first.id = row.id := of_decide_eq_true holdest
      rw [row_unique hs (mem_rows_of_outbox (oldestPending_spec hfirst).1)
        (mem_rows_of_outbox hmem) hid]

theorem pendingAnswer_spec {now limit : Nat} {answer : List (NotificationOutboxRecord ι)}
    (h : pendingAnswer s.outbox s.events now limit answer = true) :
    (∀ r ∈ answer, r ∈ s.outbox ∧ deliverable s.outbox s.events now r = true) ∧
      answer.length = min limit (s.outbox.filter (deliverable s.outbox s.events now)).length ∧
        (answer.map (·.id)).Nodup := by
  simp only [pendingAnswer, Bool.and_eq_true] at h
  obtain ⟨⟨⟨hall, hlength⟩, hpairs⟩, -⟩ := h
  refine ⟨fun r hr => ?_, of_decide_eq_true hlength, ?_⟩
  · exact List.mem_filter.mp (List.contains_iff_mem.mp (List.all_eq_true.mp hall r hr))
  · exact List.pairwise_map.mpr ((of_decide_eq_true hpairs).imp fun hab => hab.1)

theorem flowing_read {now limit : Nat} {answer : List (NotificationOutboxRecord ι)}
    (hs : Flowing s) (hworker : s.worker = .reading now)
    (h : pendingAnswer s.outbox s.events now limit answer = true) :
    Flowing { s with worker := .deliveries answer } := by
  obtain ⟨hall, -, hids⟩ := pendingAnswer_spec h
  refine ⟨hs.ids, hs.issued, ?_, hs.unsettled, hs.events, hs.recordings, ?_, hids, trivial,
    hs.settledFirst, hs.sorted, hs.tries⟩
  · have hattempts := hs.attempts
    rw [hworker] at hattempts
    exact hattempts
  · intro r hr
    obtain ⟨hmem, hdeliverable⟩ := hall r hr
    obtain ⟨hstatus, -, holdest⟩ := deliverable_spec hs hmem hdeliverable
    exact ⟨hmem, hstatus, (oldestPending_spec holdest).2.2.2⟩

/-- The request is made. -/
theorem flowing_attempt {row : NotificationOutboxRecord ι}
    {rest : List (NotificationOutboxRecord ι)} (hs : Flowing s)
    (hworker : s.worker = .resolving row rest) :
    Flowing { s with worker := .attempting row rest, tried := row.id :: s.tried } := by
  have hrow : row ∈ s.worker.batch := by rw [hworker]; exact List.mem_cons_self
  obtain ⟨hin, hpending, -⟩ := hs.batch row hrow
  refine ⟨hs.ids, ⟨hs.issued.1, hs.issued.2.1, ?_⟩, ?_, hs.unsettled, hs.events, hs.recordings,
    ?_, ?_, trivial, hs.settledFirst, hs.sorted, ?_⟩
  · intro id hid
    rcases List.mem_cons.mp hid with rfl | hid
    · exact hs.issued.1 row (mem_rows_of_outbox hin)
    · exact hs.issued.2.2 id hid
  · intro r hr hstatus
    obtain ⟨hlt, hcount⟩ := hs.attempts r hr hstatus
    rw [hworker] at hcount
    refine ⟨hlt, ?_⟩
    change (row.id :: s.tried).count r.id = r.attempts + if some row.id = some r.id then 1 else 0
    rw [List.count_cons, hcount]
    by_cases hid : row.id = r.id <;> simp [hid, WorkerStage.attempted]
  · have hbatch := hs.batch
    rw [hworker] at hbatch
    exact hbatch
  · have hids := hs.batchIds
    rw [hworker] at hids
    exact hids
  · intro x hx
    have hne := hs.unsettled x hx row (mem_rows_of_outbox hin) hpending
    have htries := hs.tries x hx
    rw [List.count_cons_of_ne hne]
    exact htries

/-! ## Storing an outcome -/

section Stored

variable {row : NotificationOutboxRecord ι} {update : DeliveryUpdate}

/-- A row after the update of `row`. -/
def afterUpdate (row : NotificationOutboxRecord ι) (update : DeliveryUpdate)
    (r : NotificationOutboxRecord ι) : NotificationOutboxRecord ι :=
  if r.id = row.id then r.updated update else r

theorem afterUpdate_id (r : NotificationOutboxRecord ι) : (afterUpdate row update r).id = r.id := by
  rw [afterUpdate]
  split <;> rfl

theorem afterUpdate_key (r : NotificationOutboxRecord ι) :
    key (afterUpdate row update r) = key r := by
  rw [afterUpdate]
  split <;> rfl

theorem afterUpdate_ne {r : NotificationOutboxRecord ι} (h : r.id ≠ row.id) :
    afterUpdate row update r = r := if_neg h

theorem afterUpdate_destination (r : NotificationOutboxRecord ι) :
    (afterUpdate row update r).destination = r.destination := by
  rw [afterUpdate]
  split <;> rfl

theorem afterUpdate_eventId (r : NotificationOutboxRecord ι) :
    (afterUpdate row update r).eventId = r.eventId := by
  rw [afterUpdate]
  split <;> rfl

/-- A row that is pending after the update of a pending row was pending before. -/
theorem afterUpdate_pending (hs : Flowing s) (hrow : row ∈ rows s) (hpending : row.status = .pending)
    {r : NotificationOutboxRecord ι} (hr : r ∈ rows s)
    (h : (afterUpdate row update r).status = .pending) :
    r.status = .pending ∧ (r.id = row.id → r = row ∧ update.status = .pending) := by
  by_cases hid : r.id = row.id
  · obtain rfl := row_unique hs hr hrow hid
    rw [afterUpdate, if_pos rfl] at h
    exact ⟨hpending, fun _ => ⟨rfl, h⟩⟩
  · rw [afterUpdate_ne hid] at h
    exact ⟨h, fun h => absurd h hid⟩

theorem flowing_stored {attempted : Bool} {rest : List (NotificationOutboxRecord ι)}
    (hs : Flowing s) (hworker : s.worker = .storing row update attempted rest) :
    Flowing { s with
      outbox := updateNotificationOutboxDelivery s.outbox row.id update
      settled := if update.status = .pending then s.settled else row.updated update :: s.settled
      worker := .deliveries rest } := by
  have hbatch := hs.batch
  have hbatchIds := hs.batchIds
  have hok := hs.stage
  have hattempts := hs.attempts
  rw [hworker] at hbatch hbatchIds hok hattempts
  obtain ⟨hin, hpending, hleast⟩ := hbatch row List.mem_cons_self
  have hrow : row ∈ rows s := mem_rows_of_outbox hin
  obtain ⟨hnotRest, hrest⟩ := List.nodup_cons.mp hbatchIds
  -- a row that is being inserted has another id
  have hnew : ∀ r ∈ s.recordings.filterMap RecordStage.newRow?, r.id ≠ row.id := by
    have hids := hs.ids
    rw [rows, List.map_append, List.nodup_append] at hids
    exact fun r hr h => hids.2.2 row.id (List.mem_map_of_mem hin) r.id (List.mem_map_of_mem hr) h.symm
  have hrows : s.outbox.map (afterUpdate row update) ++ s.recordings.filterMap RecordStage.newRow? =
      (rows s).map (afterUpdate row update) := by
    rw [rows, List.map_append]
    congr 1
    refine (List.map_id _).symm.trans (List.map_congr_left fun r hr => ?_)
    exact (afterUpdate_ne (hnew r hr)).symm
  have hlt : ∀ y ∈ s.outbox, (afterUpdate row update y).status = .pending → y.id ≠ row.id →
      y.destination = row.destination → key row < key y := by
    intro y hy hstatus hid hd
    obtain ⟨hy', -⟩ := afterUpdate_pending hs hrow hpending (mem_rows_of_outbox hy) hstatus
    exact key_lt_of_le (hleast y hy hy' hd) (Ne.symm hid)
  refine ⟨?_, ⟨?_, ?_, hs.issued.2.2⟩, ?_, ?_, ?_, hs.recordings, ?_, hrest, trivial, ?_, ?_, ?_⟩
  · change ((s.outbox.map (afterUpdate row update) ++
      s.recordings.filterMap RecordStage.newRow?).map (·.id)).Nodup
    rw [hrows, List.map_map]
    have hsame : (rows s).map ((·.id) ∘ afterUpdate row update) = (rows s).map (·.id) :=
      List.map_congr_left fun r _ => afterUpdate_id r
    rw [hsame]
    exact hs.ids
  · intro r hr
    change r ∈ s.outbox.map (afterUpdate row update) ++ _ at hr
    rw [hrows] at hr
    obtain ⟨q, hq, rfl⟩ := List.mem_map.mp hr
    rw [afterUpdate_id]
    exact hs.issued.1 q hq
  · intro x hx
    dsimp only at hx
    split at hx
    · exact hs.issued.2.1 x hx
    · rcases List.mem_cons.mp hx with rfl | hx
      · exact hs.issued.1 row hrow
      · exact hs.issued.2.1 x hx
  · intro r hr hstatus
    change r ∈ s.outbox.map (afterUpdate row update) ++ _ at hr
    rw [hrows] at hr
    obtain ⟨q, hq, rfl⟩ := List.mem_map.mp hr
    obtain ⟨hbefore, hsame⟩ := afterUpdate_pending hs hrow hpending hq hstatus
    obtain ⟨hmax, hcount⟩ := hattempts q hq hbefore
    by_cases hid : q.id = row.id
    · obtain ⟨rfl, hagain⟩ := hsame hid
      obtain ⟨rfl, hnext, hless⟩ := hok.1 hagain
      rw [afterUpdate, if_pos rfl]
      refine ⟨hless, ?_⟩
      simpa [WorkerStage.attempted, NotificationOutboxRecord.updated, hnext] using hcount
    · rw [afterUpdate_ne hid]
      refine ⟨hmax, ?_⟩
      cases attempted <;> simpa [WorkerStage.attempted, Ne.symm hid] using hcount
  · intro x hx r hr hstatus
    change r ∈ s.outbox.map (afterUpdate row update) ++ _ at hr
    rw [hrows] at hr
    obtain ⟨q, hq, rfl⟩ := List.mem_map.mp hr
    obtain ⟨hbefore, hsame⟩ := afterUpdate_pending hs hrow hpending hq hstatus
    rw [afterUpdate_id]
    dsimp only at hx
    split at hx
    · exact hs.unsettled x hx q hq hbefore
    · next hfinal =>
      rcases List.mem_cons.mp hx with rfl | hx
      · exact fun hid => hfinal (hsame hid).2
      · exact hs.unsettled x hx q hq hbefore
  · intro r hr hstatus
    obtain ⟨q, hq, rfl⟩ := List.mem_map.mp (show r ∈ s.outbox.map (afterUpdate row update) from hr)
    obtain ⟨hbefore, -⟩ :=
      afterUpdate_pending hs hrow hpending (mem_rows_of_outbox hq) hstatus
    rw [afterUpdate_eventId]
    exact hs.events q hq hbefore
  · intro r hr
    obtain ⟨hmem, hstatus, hfirst⟩ := hbatch r (List.mem_cons_of_mem _ hr)
    have hid : r.id ≠ row.id := fun h => hnotRest (List.mem_map.mpr ⟨r, hr, h⟩)
    refine ⟨List.mem_map.mpr ⟨r, hmem, afterUpdate_ne hid⟩, hstatus, fun y hy hpendingY hd => ?_⟩
    obtain ⟨z, hz, rfl⟩ := List.mem_map.mp (show y ∈ s.outbox.map (afterUpdate row update) from hy)
    obtain ⟨hbefore, -⟩ :=
      afterUpdate_pending hs hrow hpending (mem_rows_of_outbox hz) hpendingY
    rw [afterUpdate_destination] at hd
    rw [afterUpdate_key]
    exact hfirst z hz hbefore hd
  · intro x hx y hy hstatus hd
    obtain ⟨z, hz, rfl⟩ := List.mem_map.mp (show y ∈ s.outbox.map (afterUpdate row update) from hy)
    obtain ⟨hbefore, hsame⟩ :=
      afterUpdate_pending hs hrow hpending (mem_rows_of_outbox hz) hstatus
    rw [afterUpdate_destination] at hd
    rw [afterUpdate_key]
    dsimp only at hx
    split at hx
    · exact hs.settledFirst x hx z hz hbefore hd
    · next hfinal =>
      rcases List.mem_cons.mp hx with rfl | hx
      · exact hlt z hz hstatus (fun hid => hfinal (hsame hid).2) hd
      · exact hs.settledFirst x hx z hz hbefore hd
  · dsimp only
    split
    · exact hs.sorted
    · refine List.pairwise_cons.mpr ⟨fun x hx hd => ?_, hs.sorted⟩
      exact hs.settledFirst x hx row hin hpending hd
  · intro x hx
    dsimp only at hx
    split at hx
    · exact hs.tries x hx
    · rcases List.mem_cons.mp hx with rfl | hx
      · obtain ⟨hmax, hcount⟩ := hattempts row hrow hpending
        change s.tried.count row.id ≤ _
        rw [hcount]
        split <;> omega
      · exact hs.tries x hx

end Stored

/-! ## The steps -/

omit [LinearOrder ι] in
theorem failureUpdate_ok {now jitter : Nat} {row : NotificationOutboxRecord ι} {message : List Char}
    {rest : List (NotificationOutboxRecord ι)} :
    (WorkerStage.storing row (failureUpdate now jitter row message) true rest).Ok := by
  refine ⟨fun hagain => ⟨rfl, rfl, ?_⟩, fun _ => rfl⟩
  by_contra hlast
  have hfailed : (failureUpdate now jitter row message).status = .failed :=
    if_pos (Nat.not_lt.mp hlast)
  rw [hfailed] at hagain
  cases hagain

theorem workerStep_flowing {a : OutboxAction ι} (hs : Flowing s) (hcond : Orderly s a)
    (h : workerStep s a s.worker = some s') : Flowing s' := by
  have hok := hs.stage
  cases hworker : s.worker with
  | idle =>
      rw [hworker] at h
      cases a <;> simp only [workerStep, reduceCtorEq] at h
      obtain rfl := Option.some.inj h
      exact flowing_worker hs (by rw [hworker]; exact .refl _) (by rw [hworker]; rfl) trivial
  | reading now =>
      rw [hworker] at h
      cases a <;> simp only [workerStep, reduceCtorEq] at h
      case poll =>
          obtain rfl := Option.some.inj h
          exact hs
      case pendingRead answer =>
          split at h
          · next hanswer =>
            obtain rfl := Option.some.inj h
            exact flowing_read hs hworker hanswer
          · cases h
      case readFails =>
          obtain rfl := Option.some.inj h
          exact flowing_worker hs (by rw [hworker]; exact .refl _) (by rw [hworker]; rfl) trivial
  | deliveries rest =>
      rw [hworker] at h
      cases rest <;> cases a <;> simp only [workerStep, reduceCtorEq] at h
      case nil.poll | cons.poll =>
          obtain rfl := Option.some.inj h
          exact hs
      case nil.deliverNext | cons.deliverNext =>
          obtain rfl := Option.some.inj h
          exact flowing_worker hs (by rw [hworker]; exact .refl _) (by rw [hworker]; rfl) trivial
  | resolving row rest =>
      rw [hworker] at h
      cases a
      case resolved enabled =>
          cases enabled <;> obtain rfl := Option.some.inj h
          · refine flowing_worker hs (by rw [hworker]; exact .refl _) (by rw [hworker]; rfl) ?_
            exact ⟨(fun hagain => by cases hagain), (fun hdelivered => by cases hdelivered)⟩
          · exact flowing_attempt hs hworker
      all_goals simp only [workerStep, reduceCtorEq] at h
      case poll =>
          obtain rfl := Option.some.inj h
          exact hs
      case readFails =>
          obtain rfl := Option.some.inj h
          exact flowing_worker hs (List.nil_sublist _) (by rw [hworker]; rfl) trivial
  | attempting row rest =>
      rw [hworker] at h
      cases a <;> simp only [workerStep, reduceCtorEq] at h
      case poll =>
          obtain rfl := Option.some.inj h
          exact hs
      case replied ok jitter message =>
          obtain rfl := Option.some.inj h
          refine flowing_worker hs (by rw [hworker]; exact .refl _) (by rw [hworker]; rfl) ?_
          cases ok
          · exact failureUpdate_ok
          · exact ⟨(fun hagain => by cases hagain), fun _ => rfl⟩
  | storing row update attempted rest =>
      rw [hworker] at h hok
      cases a <;> simp only [workerStep, reduceCtorEq] at h
      case poll =>
          obtain rfl := Option.some.inj h
          exact hs
      case stored =>
          obtain rfl := Option.some.inj h
          exact flowing_stored hs hworker
      case storeFails jitter message =>
          split at h <;> obtain rfl := Option.some.inj h
          · next hdelivered =>
            obtain rfl := hok.2 hdelivered
            exact flowing_worker hs (by rw [hworker]; exact .refl _) (by rw [hworker]; rfl)
              failureUpdate_ok
          · next hfinal =>
            cases attempted with
            | true => simp [Orderly, orderly, hworker, hfinal] at hcond
            | false =>
                exact flowing_worker hs (List.nil_sublist _) (by rw [hworker]; rfl) trivial

section Recording

variable {i : Nat} {stage n : RecordStage ι}

section

omit [LinearOrder ι]

theorem newRows_erase (hi : s.recordings[i]? = some stage) :
    (s.recordings.filterMap RecordStage.newRow?).Perm
      (stage.newRow?.toList ++ (s.recordings.eraseIdx i).filterMap RecordStage.newRow?) := by
  obtain ⟨hlt, rfl⟩ := List.getElem?_eq_some_iff.mp hi
  refine ((List.getElem_cons_eraseIdx_perm hlt).symm.filterMap _).trans (.of_eq ?_)
  rw [List.filterMap_cons]
  cases RecordStage.newRow? s.recordings[i] <;> rfl

theorem newRows_set (hi : s.recordings[i]? = some stage) :
    ((s.recordings.set i n).filterMap RecordStage.newRow?).Perm
      (n.newRow?.toList ++ (s.recordings.eraseIdx i).filterMap RecordStage.newRow?) := by
  obtain ⟨hlt, -⟩ := List.getElem?_eq_some_iff.mp hi
  refine ((List.set_perm_cons_eraseIdx hlt n).filterMap _).trans (.of_eq ?_)
  rw [List.filterMap_cons]
  cases n.newRow? <;> rfl

theorem newRows_same (hi : s.recordings[i]? = some stage) (h : n.newRow? = stage.newRow?) :
    (s.recordings.set i n).filterMap RecordStage.newRow? =
      s.recordings.filterMap RecordStage.newRow? := by
  obtain ⟨hlt, rfl⟩ := List.getElem?_eq_some_iff.mp hi
  have hmap : (s.recordings.set i n).map RecordStage.newRow? =
      s.recordings.map RecordStage.newRow? := by
    have hlt' : i < (s.recordings.map RecordStage.newRow?).length := by
      rw [List.length_map]
      exact hlt
    have hget : (s.recordings.map RecordStage.newRow?)[i] = n.newRow? := by
      rw [List.getElem_map, h]
    rw [List.map_set, ← hget]
    exact List.set_getElem_self hlt'
  have hfilter := congrArg (List.filterMap id) hmap
  rwa [List.filterMap_map, List.filterMap_map] at hfilter

end

theorem recordStep_flowing {a : OutboxAction ι} (hs : Flowing s)
    (hi : s.recordings[i]? = some stage)
    (hcond : ∀ row ∈ stage.newRow?, ∀ j, a = .outboxInserted j →
      ∀ x ∈ s.settled ++ s.worker.batch, x.destination = row.destination → key x < key row)
    (h : recordStep s i a stage = some s') : Flowing s' := by
  have hrefs : ∀ id ∈ stage.eventId?, ∃ e ∈ s.events, e.id = id :=
    hs.recordings stage (List.mem_of_getElem? hi)
  have herase : ∀ recording ∈ s.recordings.eraseIdx i, ∀ id ∈ recording.eventId?,
      ∃ e ∈ s.events, e.id = id :=
    fun recording hr => hs.recordings recording (List.mem_of_mem_eraseIdx hr)
  have hset : ∀ next : RecordStage ι, (∀ id ∈ next.eventId?, ∃ e ∈ s.events, e.id = id) →
      ∀ recording ∈ s.recordings.set i next, ∀ id ∈ recording.eventId?,
        ∃ e ∈ s.events, e.id = id := by
    intro next hnext recording hr
    rcases List.mem_or_eq_of_mem_set hr with hr | rfl
    · exact hs.recordings recording hr
    · exact hnext
  have hended : Flowing { s with recordings := s.recordings.eraseIdx i } :=
    flowing_recording hs rfl (fun _ h => h) rfl rfl rfl (fun _ h => h)
      ((List.eraseIdx_sublist _ _).filterMap _) herase
  cases stage with
  | insertingEvent event targets =>
      cases a <;> simp only [recordStep, reduceCtorEq] at h
      case eventInserted j =>
          obtain rfl := Option.some.inj h
          refine flowing_recording hs rfl (fun _ h => h) rfl rfl rfl
            (fun _ h => List.mem_append_left _ h) ?_ ?_
          · exact (newRows_same (n := .queueing event.id targets) hi rfl) ▸ .refl _
          · intro recording hr id hid
            rcases List.mem_or_eq_of_mem_set hr with hr | rfl
            · obtain ⟨e, he, heq⟩ := hs.recordings recording hr id hid
              exact ⟨e, List.mem_append_left _ he, heq⟩
            · exact ⟨event, List.mem_append_right _ List.mem_cons_self, Option.some.inj hid⟩
      case recordFails j =>
          obtain rfl := Option.some.inj h
          exact hended
  | queueing eventId targets =>
      cases targets <;> cases a <;> simp only [recordStep, reduceCtorEq] at h
      case nil.queueNext j id =>
          obtain rfl := Option.some.inj h
          exact hended
      case nil.recordFails | cons.recordFails =>
          obtain rfl := Option.some.inj h
          exact hended
      case cons.queueNext target targets j id =>
          split at h
          · cases h
          · next hfresh =>
            obtain rfl := Option.some.inj h
            have hnew := newRows_erase hi
            exact flowing_queued (insertOutbox s.clock id eventId target) hs
              (fun h => hfresh (List.contains_iff_mem.mpr h)) rfl rfl rfl rfl rfl rfl rfl
              ((newRows_set hi).trans (hnew.symm.cons _)) (hset _ hrefs)
  | insertingOutbox row targets =>
      cases a <;> simp only [recordStep, reduceCtorEq] at h
      case outboxInserted j =>
          obtain rfl := Option.some.inj h
          have hnew := newRows_set (n := .queueing row.eventId targets) hi
          exact flowing_inserted hs (hcond row rfl j rfl) (hrefs _ rfl) rfl rfl rfl rfl rfl rfl
            ((newRows_erase hi).trans (hnew.symm.cons row)) (hset _ hrefs)
      case recordFails j =>
          obtain rfl := Option.some.inj h
          exact hended

end Recording

theorem outboxStep_flowing {a : OutboxAction ι} (hs : Flowing s) (hcond : Orderly s a)
    (h : outboxStep s a = some s') : Flowing s' := by
  cases a
  case setClock now =>
    obtain rfl := Option.some.inj h
    exact ⟨hs.ids, hs.issued, hs.attempts, hs.unsettled, hs.events, hs.recordings, hs.batch,
      hs.batchIds, hs.stage, hs.settledFirst, hs.sorted, hs.tries⟩
  case record id scope targets =>
    simp only [outboxStep] at h
    split at h
    case isTrue => cases h
    case isFalse =>
      obtain rfl := Option.some.inj h
      refine flowing_recording hs rfl (fun _ h => List.mem_cons_of_mem _ h) rfl rfl rfl
        (fun _ h => h) ?_ fun recording hr x hx => ?_
      · have hnone : [RecordStage.insertingEvent
            (NotificationEventRecord.mk id scope s.clock) targets].filterMap
              RecordStage.newRow? = [] := rfl
        rw [List.filterMap_append, hnone, List.append_nil]
      · rcases List.mem_snoc.mp hr with hr | rfl
        · exact hs.recordings recording hr x hx
        · cases hx
  case eventInserted | queueNext | recordFails =>
    obtain ⟨stage, hi, hstep⟩ := Option.bind_eq_some_iff.mp h
    refine recordStep_flowing hs hi (fun row _ j hj => ?_) hstep
    cases hj
  case outboxInserted i =>
    obtain ⟨stage, hi, hstep⟩ := Option.bind_eq_some_iff.mp h
    refine recordStep_flowing hs hi (fun row hrow j _ x hx hd => ?_) hstep
    have hall : (s.recordings[i]?.bind RecordStage.newRow?).all (fun row =>
        (s.settled ++ s.worker.batch).all fun x =>
          x.destination ≠ row.destination || key x < key row) = true := hcond
    rw [hi, Option.bind_some, Option.mem_def.mp hrow] at hall
    simpa [hd] using List.all_eq_true.mp hall x hx
  case pruneOutbox d cutoff ids =>
    obtain rfl := Option.some.inj h
    refine flowing_pruned hs rfl rfl rfl rfl rfl List.filter_sublist (fun r hr hstatus => ?_)
      (fun r hr => hs.events r (List.mem_filter.mp hr).1) hs.recordings
    exact List.mem_filter.mpr ⟨hr, by simp [prunesRow, hstatus]⟩
  case pruneEvents scope cutoff ids =>
    obtain rfl := Option.some.inj h
    -- an event that something refers to is not in the batch
    have hkept : ∀ e ∈ s.events, (∃ r ∈ s.outbox, r.status = .pending ∧ e.id = r.eventId) ∨
        (∃ recording ∈ s.recordings, recording.eventId? = some e.id) →
          e ∈ s.events.filter fun event => !prunesEvent scope cutoff ids event := by
      intro e he href
      refine List.mem_filter.mpr ⟨he, ?_⟩
      have hall := List.all_eq_true.mp hcond e he
      cases hpruned : prunesEvent scope cutoff ids e with
      | false => rfl
      | true =>
          rw [hpruned] at hall
          obtain ⟨hrows, hcalls⟩ := Bool.and_eq_true_iff.mp hall
          rcases href with ⟨r, hr, hstatus, hid⟩ | ⟨recording, hr, hid⟩
          · simpa [hstatus, hid] using List.all_eq_true.mp hrows r hr
          · simpa [hid] using List.all_eq_true.mp hcalls recording hr
    refine flowing_pruned hs rfl rfl rfl rfl rfl (.refl _) (fun _ hr _ => hr)
      (fun r hr hstatus => ?_) fun recording hr id hid => ?_
    · obtain ⟨e, he, heq⟩ := hs.events r hr hstatus
      exact ⟨e, hkept e he (.inl ⟨r, hr, hstatus, heq⟩), heq⟩
    · obtain ⟨e, he, rfl⟩ := hs.recordings recording hr id hid
      exact ⟨e, hkept e he (.inr ⟨recording, hr, Option.mem_def.mp hid⟩), rfl⟩
  case restart =>
    obtain rfl := Option.some.inj h
    have hnone : s.worker.attempted = none := Option.isNone_iff_eq_none.mp hcond
    have hstopped : Flowing { s with worker := .idle } :=
      flowing_worker hs (List.nil_sublist _) hnone.symm trivial
    exact flowing_recording hstopped rfl (fun _ h => h) rfl rfl rfl (fun _ h => h)
      (List.nil_sublist _) fun recording hr => by cases hr
  all_goals exact workerStep_flowing hs hcond h

/-! ## Every run -/

/-- With room for every row the query returns the oldest pending row of a destination that is due,
and no other row of it. -/
theorem answer_of_destination (hs : Flowing s) {d : Destination}
    {row : NotificationOutboxRecord ι} {now limit : Nat}
    {answer : List (NotificationOutboxRecord ι)} (holdest : oldestPending s.outbox d = some row)
    (hdue : row.nextAttemptAt ≤ now) (hlimit : s.outbox.length ≤ limit)
    (h : pendingAnswer s.outbox s.events now limit answer = true) :
    answer.filter (·.destination = d) = [row] := by
  obtain ⟨hall, hlength, hids⟩ := pendingAnswer_spec h
  obtain ⟨hin, hpending, hd, -⟩ := oldestPending_spec holdest
  obtain ⟨e, he, heq⟩ := hs.events row hin hpending
  have hdeliverable : deliverable s.outbox s.events now row = true := by
    have hevent : s.events.any (·.id = row.eventId) = true :=
      List.any_eq_true.mpr ⟨e, he, decide_eq_true heq⟩
    simp [deliverable, hpending, hdue, hevent, hd, holdest]
  have hrows : ∀ r ∈ answer, r ∈ s.outbox.filter (deliverable s.outbox s.events now) := fun r hr =>
    List.mem_filter.mpr (hall r hr)
  have hle := List.length_filter_le (deliverable s.outbox s.events now) s.outbox
  rw [Nat.min_eq_right (hle.trans hlimit)] at hlength
  have hperm : answer.Perm (s.outbox.filter (deliverable s.outbox s.events now)) :=
    (List.subperm_of_subset hids.of_map hrows).perm_of_length_le hlength.ge
  have hmem : row ∈ answer.filter (·.destination = d) :=
    List.mem_filter.mpr ⟨hperm.mem_iff.mpr (List.mem_filter.mpr ⟨hin, hdeliverable⟩),
      decide_eq_true hd⟩
  have honly : ∀ r ∈ answer.filter (·.destination = d), r = row := by
    intro r hr
    obtain ⟨hr, hrd⟩ := List.mem_filter.mp hr
    obtain ⟨hrin, hrdeliverable⟩ := hall r hr
    obtain ⟨-, -, hfirst⟩ := deliverable_spec hs hrin hrdeliverable
    rw [of_decide_eq_true hrd, holdest] at hfirst
    exact (Option.some.inj hfirst).symm
  have hnodup : (answer.filter (·.destination = d)).Nodup := hids.of_map.filter _
  exact List.perm_singleton.mp ((List.perm_ext_iff_of_nodup hnodup (List.nodup_singleton row)).mpr
    fun r => ⟨fun hr => List.mem_singleton.mpr (honly r hr),
      fun hr => List.mem_singleton.mp hr ▸ hmem⟩)

/-- On an orderly run the query serves every destination that is due, the rows of a destination are
settled in the order of `created_at` and id, and each after at most eight requests. -/
theorem no_destination_stuck (h : Reach outboxStep Orderly OutboxSystem.Initial s) :
    (∀ d row now limit answer, oldestPending s.outbox d = some row → row.nextAttemptAt ≤ now →
      s.outbox.length ≤ limit → pendingAnswer s.outbox s.events now limit answer = true →
        answer.filter (·.destination = d) = [row]) ∧
      (s.settled.Pairwise fun later x => later.destination = x.destination → key x < key later) ∧
        ∀ x ∈ s.settled, s.tried.count x.id ≤ maxAlertAttempts := by
  have hs : Flowing s := h.invariant (fun _ hinit => flowing_start hinit)
    fun _ _ _ _ hs hcond hstep => outboxStep_flowing hs hcond hstep
  refine ⟨fun d row now limit answer holdest hdue hlimit hanswer => ?_, hs.sorted, hs.tries⟩
  exact answer_of_destination hs holdest hdue hlimit hanswer

section Retention

def shop : Destination := .site "shop".toList

def OutboxSystem.empty : OutboxSystem ℕ :=
  { clock := 1000, events := [], outbox := [], recordings := [], worker := .idle, issued := [],
    settled := [], tried := [] }

theorem empty_initial : OutboxSystem.empty.Initial := ⟨rfl, rfl, rfl, rfl, rfl, rfl, rfl⟩

/-- `recordSiteEvent` with the event `2 * n` and the row `2 * n + 1`. -/
def recordShopEvent (n : Nat) : List (OutboxAction ℕ) :=
  [.record (2 * n) (some shop) [shop], .eventInserted 0, .queueNext 0 (2 * n + 1),
    .outboxInserted 0, .queueNext 0 0]

def shopRow (n now : Nat) : NotificationOutboxRecord ℕ := insertOutbox now (2 * n + 1) (2 * n) shop

/-- One round of the worker for a row. -/
def deliver (row : NotificationOutboxRecord ℕ) (ok : Bool) : List (OutboxAction ℕ) :=
  [.poll, .pendingRead [row], .deliverNext, .resolved true, .replied ok 0 "HTTP 503".toList, .stored,
    .deliverNext]

/-- The first event is retried once; then retention takes it, and the second one is delivered. -/
def retriedThenPruned : List (OutboxAction ℕ) :=
  recordShopEvent 1 ++ [OutboxAction.setClock 2000] ++ recordShopEvent 2 ++
    deliver (shopRow 1 1000) false ++
    [OutboxAction.setClock 9000] ++ deliver ((shopRow 1 1000).updated
      (failureUpdate 2000 0 (shopRow 1 1000) "HTTP 503".toList)) true ++
    [OutboxAction.pruneEvents (some shop) 1500 [2], .pruneOutbox shop 1500 [3]] ++
      deliver (shopRow 2 2000) true

/-- Retention takes the event of the row that waits for its second attempt. -/
def prunedWhilePending : List (OutboxAction ℕ) :=
  recordShopEvent 1 ++ deliver (shopRow 1 1000) false ++
    [OutboxAction.pruneEvents (some shop) 1500 [2]]

/-- The insert of the older row takes effect after the younger row was delivered. -/
def insertedLate : List (OutboxAction ℕ) :=
  [OutboxAction.record 2 (some shop) [shop], .eventInserted 0, .queueNext 0 3, .setClock 2000,
    .record 4 (some shop) [shop], .eventInserted 1, .queueNext 1 5, .outboxInserted 1] ++
    deliver (shopRow 2 2000) true ++ [OutboxAction.outboxInserted 0] ++
      deliver (shopRow 1 1000) true

instance : ∀ (s : OutboxSystem ℕ) a, Decidable (Orderly s a) := fun s a =>
  inferInstanceAs (Decidable (orderly s a = true))

theorem no_destination_stuck_retried :
    ∃ s, execIf outboxStep Orderly .empty retriedThenPruned = some s ∧
      s.settled.map (·.id) = [5, 3] ∧
      (∀ d row now limit answer, oldestPending s.outbox d = some row → row.nextAttemptAt ≤ now →
        s.outbox.length ≤ limit → pendingAnswer s.outbox s.events now limit answer = true →
          answer.filter (·.destination = d) = [row]) ∧
        (s.settled.Pairwise fun later x => later.destination = x.destination → key x < key later) ∧
          ∀ x ∈ s.settled, s.tried.count x.id ≤ maxAlertAttempts := by
  obtain ⟨s, hs, hsettled⟩ := (Option.any_eq_true ..).mp
    (show (execIf outboxStep Orderly .empty retriedThenPruned).any
      (fun s => s.settled.map (·.id) = [5, 3]) = true by decide +kernel)
  exact ⟨s, hs, of_decide_eq_true hsettled,
    no_destination_stuck (execIf_reach (.start empty_initial) hs)⟩

/-- Without the condition a destination is never served again, and rows are settled out of
order. -/
theorem pruned_event_blocks_destination :
    (¬ ∀ s : OutboxSystem ℕ, Reach outboxStep Any OutboxSystem.Initial s →
      ∀ d row now limit answer, oldestPending s.outbox d = some row → row.nextAttemptAt ≤ now →
        s.outbox.length ≤ limit → pendingAnswer s.outbox s.events now limit answer = true →
          answer.filter (·.destination = d) = [row]) ∧
    ¬ ∀ s : OutboxSystem ℕ, Reach outboxStep Any OutboxSystem.Initial s →
      s.settled.Pairwise fun later x => later.destination = x.destination → key x < key later := by
  constructor
  · intro h
    let row := (shopRow 1 1000).updated (failureUpdate 1000 0 (shopRow 1 1000) "HTTP 503".toList)
    obtain ⟨s, hs, hblocked⟩ := (Option.any_eq_true ..).mp
      (show (exec outboxStep .empty prunedWhilePending).any
        (fun s => oldestPending s.outbox shop = some row && s.outbox.length = 1 && pendingAnswer
          s.outbox s.events 9000 1 []) = true by decide +kernel)
    obtain ⟨hrow, hanswer⟩ := Bool.and_eq_true_iff.mp hblocked
    obtain ⟨holdest, hlength⟩ := Bool.and_eq_true_iff.mp hrow
    have hserved := h s (exec_reach (.start empty_initial) hs) shop row 9000 1 []
      (of_decide_eq_true holdest) (by decide) (of_decide_eq_true hlength).le hanswer
    cases hserved
  · intro h
    obtain ⟨s, hs, hlate⟩ := (Option.any_eq_true ..).mp
      (show (exec outboxStep .empty insertedLate).any
        (fun s => s.settled = [(shopRow 1 1000).updated (deliveredUpdate 2000 (shopRow 1 1000)),
          (shopRow 2 2000).updated (deliveredUpdate 2000 (shopRow 2 2000))])
          = true by decide +kernel)
    have hsorted := h s (exec_reach (.start empty_initial) hs)
    rw [of_decide_eq_true hlate] at hsorted
    have hfirst := (List.pairwise_cons.mp hsorted).1 _ List.mem_cons_self rfl
    exact absurd hfirst (by decide)

end Retention

end BurrowGate.Notification
