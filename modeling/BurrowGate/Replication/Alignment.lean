import BurrowGate.Replication.Replica

/-!
# A replica that follows a log

The replica's tables are those the log `committed` prescribes at the number the
replica has reached, and whatever a handler holds is a window of that log. A
handler of which `fresh` does not hold may hold anything, as long as it applies
nothing.
-/

namespace BurrowGate.Replication

open Lib.Log

variable {E V O : Type*} [DecidableEq E] {pageSize : Nat} {base : Tables E V}
  {fresh : Option O → Prop}

/-- A suspended handler's rows are a window of the log, and its snapshot is the log's state. -/
def StageOk (base : Tables E V) (committed : List (ReplicationChangelogRow E V))
    (watermark cursor : Nat) (fresh : Prop) : Stage E V → Prop
  | .fetchLatest rows | .page rows _ =>
      fresh → ∀ first ∈ rows.head?, Window rowSeq committed (first.seq - 1) rows
  | .apply rows _ => fresh → Window rowSeq committed cursor rows
  | .applying row rest _ => (fresh → Window rowSeq committed cursor (row :: rest)) ∧ cursor < row.seq
  | .applied row rest _ => (fresh → Window rowSeq committed row.seq rest) ∧ cursor < row.seq
  | .reconcile s _ =>
      fresh → s.tables = replay base (upTo rowSeq s.seq committed) ∧ s.seq ≤ watermark
  | _ => True

structure ReplicaOk (base : Tables E V) (committed : List (ReplicationChangelogRow E V))
    (watermark : Nat) (fresh : Option O → Prop) (r : Replica E V O) : Prop where
  single : r.handlers.length ≤ 1
  tables : r.store.tables = replay base (upTo rowSeq r.position committed)
  position : r.position ≤ watermark
  stage : ∀ h ∈ r.handlers, StageOk base committed watermark r.cursor (fresh h.origin) h.stage

/-- The handler is about to commit a row or a snapshot. -/
def Stage.writes : Stage E V → Bool
  | .applying _ _ _ | .reconcile _ _ => true
  | _ => false

section Handlers

variable {committed : List (ReplicationChangelogRow E V)} {watermark removed : Nat}
  {primary : Store E V} {origin : O} {r r' : Replica E V O} {h : Handler E V O}

section

omit [DecidableEq E]

theorem position_of_idle (hr : r.handlers = []) : r.position = r.cursor := by
  simp [Replica.position, hr]

theorem position_of_single {generation : Nat} {purpose : Purpose} {stage : Stage E V}
    {o : Option O} (hr : r.handlers = [{ generation, purpose, stage, origin := o }]) :
    r.position = stage.unrecorded.getD r.cursor := by
  simp only [Replica.position, hr, List.findSome?_cons, List.findSome?_nil]
  cases stage.unrecorded <;> rfl

end

/-- The one handler that runs. -/
theorem ReplicaOk.running (hr : ReplicaOk base committed watermark fresh r) {i : Nat}
    (hh : r.handlers[i]? = some h) : r.handlers = [h] ∧ r.handlers.eraseIdx i = [] := by
  have hsingle := hr.single
  match hl : r.handlers with
  | [] => rw [hl] at hh; cases hh
  | [a] =>
      rw [hl] at hh
      cases i with
      | zero => obtain rfl := Option.some.inj hh; exact ⟨rfl, rfl⟩
      | succ i => cases hh
  | _ :: _ :: _ => rw [hl] at hsingle; simp at hsingle

/-- A replica with one handler. -/
theorem ReplicaOk.of_stage {generation : Nat} {purpose : Purpose} {stage : Stage E V}
    {o : Option O} (hr : r'.handlers = [{ generation, purpose, stage, origin := o }])
    (htables : r'.store.tables =
      replay base (upTo rowSeq (stage.unrecorded.getD r'.cursor) committed))
    (hposition : stage.unrecorded.getD r'.cursor ≤ watermark)
    (hstage : StageOk base committed watermark r'.cursor (fresh o) stage) :
    ReplicaOk base committed watermark fresh r' := by
  have hpos := position_of_single hr
  refine ⟨by simp [hr], by rw [hpos]; exact htables, by rw [hpos]; exact hposition, ?_⟩
  intro h hm
  rw [hr] at hm
  obtain rfl := List.mem_singleton.mp hm
  exact hstage

theorem ReplicaOk.stopped (htables : r.store.tables = replay base (upTo rowSeq r.cursor committed))
    (hposition : r.cursor ≤ watermark) (hr : r.handlers = []) :
    ReplicaOk base committed watermark fresh r := by
  refine ⟨by simp [hr], ?_, ?_, by simp [hr]⟩
  · rw [position_of_idle hr]; exact htables
  · rw [position_of_idle hr]; exact hposition

/-- A page read now is a window from just before its first row. -/
theorem page_window (hl : primary.Logged base committed removed) (since limit : Nat) :
    ∀ first ∈ (changelogSince primary since limit).head?,
      Window rowSeq committed (first.seq - 1) (changelogSince primary since limit) := by
  intro first hfirst
  unfold changelogSince at hfirst ⊢
  rw [hl.changelog] at hfirst ⊢
  refine window_of_page hl.sorted fun r hr => ?_
  have hsame : r = first := by
    cases limit with
    | zero => cases hfirst
    | succ limit =>
        rw [List.head?_take] at hfirst
        simp only [Nat.add_one_ne_zero, if_false] at hfirst
        exact Option.some.inj (hr.symm.trans hfirst)
  subst hsame
  simp only [rowSeq]
  omega

omit [DecidableEq E] in
/-- Rows that show no gap leave out nothing after the cursor. -/
theorem window_of_no_gap {rows : List (ReplicationChangelogRow E V)} {cursor latestSeq : Nat}
    (hrows : ∀ first ∈ rows.head?, Window rowSeq committed (first.seq - 1) rows)
    (hgap : hitsGap cursor rows latestSeq = false) : Window rowSeq committed cursor rows := by
  cases rows with
  | nil => exact Window.nil
  | cons first rest =>
      refine (hrows first rfl).mono ?_
      simp only [hitsGap, decide_eq_false_iff_not, not_lt] at hgap
      omega

/-- The handler's request is about to be answered with rows or a snapshot. -/
def Stage.asks : Stage E V → Bool
  | .requested _ | .snapshot _ => true
  | _ => false

theorem resumeHandler_ok (hs : Sorted rowSeq committed) (hw : ∀ x ∈ committed, x.seq ≤ watermark)
    (hask : h.stage.asks = true →
      (∃ removed, primary.Logged base committed removed) ∧ primary.highWatermark ≤ watermark)
    (hwrite : h.stage.writes = true → fresh h.origin)
    (htables : r.store.tables =
      replay base (upTo rowSeq (h.stage.unrecorded.getD r.cursor) committed))
    (hposition : h.stage.unrecorded.getD r.cursor ≤ watermark)
    (hstage : StageOk base committed watermark r.cursor (fresh h.origin) h.stage)
    (hr : r.handlers = []) (hres : resumeHandler pageSize primary origin r h = some r') :
    ReplicaOk base committed watermark fresh r' := by
  obtain ⟨generation, purpose, stage, o⟩ := h
  have hquiet : r.bootstrapInFlight = false := by simp [Replica.bootstrapInFlight, hr]
  simp only [resumeHandler, hr] at hres
  cases stage with
  | fetch => obtain rfl := Option.some.inj hres; exact .of_stage rfl htables hposition trivial
  | requested since =>
      obtain ⟨⟨removed, hl⟩, -⟩ := hask rfl
      obtain rfl := Option.some.inj hres
      exact .of_stage rfl htables hposition fun _ => page_window hl since pageSize
  | fetchLatest rows =>
      obtain rfl := Option.some.inj hres
      exact .of_stage rfl htables hposition hstage
  | page rows latestSeq =>
      dsimp only at hres
      split at hres <;> obtain rfl := Option.some.inj hres
      · simp only [bootstrapSnapshot, hquiet]
        exact .of_stage rfl htables hposition trivial
      · rename_i hgap
        exact .of_stage rfl htables hposition fun hf =>
          window_of_no_gap (hstage hf) (by simpa using hgap)
  | apply rows more =>
      cases rows with
      | nil =>
          obtain rfl := Option.some.inj hres
          cases more <;> exact .of_stage rfl htables hposition trivial
      | cons row rest =>
          dsimp only at hres
          split at hres <;> obtain rfl := Option.some.inj hres
          · rename_i hle
            exact .of_stage rfl htables hposition fun hf => Window.skip (hstage hf) hle
          · rename_i hlt
            exact .of_stage rfl htables hposition ⟨hstage, Nat.lt_of_not_le hlt⟩
  | applying row rest more =>
      obtain ⟨hwindow, hlt⟩ := hstage
      have hrows := hwindow (hwrite rfl)
      obtain rfl := Option.some.inj hres
      refine .of_stage rfl ?_ (hw row (hrows.mem row List.mem_cons_self))
        ⟨fun _ => Window.tail hrows hlt.le, hlt⟩
      have hnext : upTo rowSeq row.seq committed = upTo rowSeq r.cursor committed ++ [row] :=
        Window.upTo_head hs hrows hlt
      simp only [Stage.unrecorded, Option.getD_some, Option.getD_none] at htables ⊢
      rw [hnext, replay_concat, ← htables]
      rfl
  | applied row rest more =>
      obtain ⟨hwindow, hlt⟩ := hstage
      obtain rfl := Option.some.inj hres
      have hmax : max r.cursor row.seq = row.seq := max_eq_right hlt.le
      refine .of_stage rfl ?_ ?_ ?_
      · simpa [Stage.unrecorded, updateReplicationCursor, hmax] using htables
      · simpa [Stage.unrecorded, hmax] using hposition
      · simpa [StageOk, hmax] using hwindow
  | snapshot b =>
      obtain ⟨⟨removed, hl⟩, hle⟩ := hask rfl
      obtain rfl := Option.some.inj hres
      refine .of_stage rfl htables hposition fun _ => ⟨?_, hle⟩
      simp only [fullSnapshot]
      rw [upTo_eq_self hl.watermark, hl.tables]
  | reconcile s b =>
      obtain ⟨hs, hle⟩ := hstage (hwrite rfl)
      obtain rfl := Option.some.inj hres
      exact .of_stage rfl (by simpa [Stage.unrecorded, reconcileToSnapshot] using hs) hle trivial
  | reconciled seq b =>
      obtain rfl := Option.some.inj hres
      cases b <;> exact .of_stage rfl htables hposition trivial
  | awaitSnapshot b =>
      simp only [hquiet] at hres
      obtain rfl := Option.some.inj hres
      cases b <;> exact .of_stage rfl htables hposition trivial
  | finish =>
      obtain rfl := Option.some.inj hres
      cases purpose with
      | heartbeat latestSeq =>
          simp only [finishHandler]
          split
          · exact .stopped htables hposition hr
          · exact .stopped htables hposition hr
      | _ => exact .stopped htables hposition hr

/-- A failed call leaves the replica where it was, unless its transaction has committed. -/
theorem failHandler_ok {force : Bool} (hrec : h.stage.unrecorded = none)
    (htables : r.store.tables = replay base (upTo rowSeq r.cursor committed))
    (hposition : r.cursor ≤ watermark) (hr : r.handlers = [])
    (hres : failHandler r h force = some r') :
    ReplicaOk base committed watermark fresh r' := by
  obtain ⟨generation, purpose, stage, o⟩ := h
  cases stage with
  | applying row rest more =>
      obtain rfl := Option.some.inj hres
      cases force <;> exact .stopped htables hposition hr
  | requested _ | fetchLatest _ | page _ _ | snapshot _ | reconcile _ _ =>
      obtain rfl := Option.some.inj hres
      exact .stopped htables hposition hr
  | applied _ _ _ | reconciled _ _ => cases hrec
  | fetch | apply _ _ | awaitSnapshot _ | finish => cases hres

/-! ### Starting a handler -/

theorem ReplicaOk.start (h : ReplicaOk base committed watermark fresh r) (hr : r.handlers = [])
    (purpose : Purpose) {stage : Stage E V} (o : Option O) (hnone : stage.unrecorded = none)
    (hstage : StageOk base committed watermark r.cursor (fresh o) stage) :
    ReplicaOk base committed watermark fresh (r.start purpose stage o) := by
  have htables := h.tables
  have hposition := h.position
  rw [position_of_idle hr] at htables hposition
  have hone : (r.start purpose stage o).handlers =
      [{ generation := r.connectionGeneration, purpose, stage, origin := o }] := by
    simp [Replica.start, hr]
  refine .of_stage hone ?_ ?_ hstage
  · rw [hnone]; exact htables
  · rw [hnone]; exact hposition

theorem proceedAfterKeyVerified_ok (hr : r.handlers = [])
    (h : ReplicaOk base committed watermark fresh r) :
    ReplicaOk base committed watermark fresh (proceedAfterKeyVerified r) := by
  have hquiet : r.bootstrapInFlight = false := by simp [Replica.bootstrapInFlight, hr]
  unfold proceedAfterKeyVerified
  split
  · exact h.start hr _ none rfl trivial
  · simp only [bootstrapSnapshot, hquiet, Bool.false_eq_true, if_false]
    exact h.start hr _ none rfl trivial

theorem handleHeartbeat_ok (hr : r.handlers = [])
    (h : ReplicaOk base committed watermark fresh r) (latestSeq : Nat) :
    ReplicaOk base committed watermark fresh (handleHeartbeat r latestSeq) := by
  unfold handleHeartbeat
  split
  · exact h.start hr _ none rfl trivial
  · exact h

/-- A pushed row is applied at once only when it carries the next number. -/
theorem handleChange_ok (hs : Sorted rowSeq committed) (hr : r.handlers = [])
    (h : ReplicaOk base committed watermark fresh r) {row : ReplicationChangelogRow E V}
    (hrow : fresh (some origin) → row ∈ committed) :
    ReplicaOk base committed watermark fresh (handleChange r row origin) := by
  unfold handleChange
  split
  · exact h
  · split
    · exact h.start hr _ none rfl trivial
    · rename_i hnext
      exact h.start hr _ (some origin) rfl fun hf =>
        Window.succ hs (hrow hf) (Nat.le_of_not_lt hnext)

/-! ### The log grows -/

theorem StageOk.concat {cursor watermark' : Nat} {stage : Stage E V} {f : Prop}
    {r : ReplicationChangelogRow E V} (h : StageOk base committed watermark cursor f stage)
    (hnew : ∀ x ∈ committed, x.seq < r.seq) (hlt : watermark < r.seq) (hle : r.seq ≤ watermark') :
    StageOk base (committed ++ [r]) watermark' cursor f stage := by
  cases stage with
  | fetchLatest rows => exact fun hf first hfirst => (h hf first hfirst).concat hnew
  | page rows latestSeq => exact fun hf first hfirst => (h hf first hfirst).concat hnew
  | apply rows more => exact fun hf => (h hf).concat hnew
  | applying row rest more => exact ⟨fun hf => (h.1 hf).concat hnew, h.2⟩
  | applied row rest more => exact ⟨fun hf => (h.1 hf).concat hnew, h.2⟩
  | reconcile s b =>
      intro hf
      obtain ⟨hs, hsw⟩ := h hf
      exact ⟨by rw [upTo_concat (hsw.trans_lt hlt)]; exact hs, by omega⟩
  | fetch | requested _ | snapshot _ | reconciled _ _ | awaitSnapshot _ | finish => trivial

theorem ReplicaOk.concat {watermark' : Nat} {row : ReplicationChangelogRow E V}
    (h : ReplicaOk base committed watermark fresh r) (hnew : ∀ x ∈ committed, x.seq < row.seq)
    (hlt : watermark < row.seq) (hle : row.seq ≤ watermark') :
    ReplicaOk base (committed ++ [row]) watermark' fresh r := by
  have hposition := h.position
  refine ⟨h.single, ?_, by omega, fun x hx => (h.stage x hx).concat hnew hlt hle⟩
  rw [upTo_concat (show r.position < rowSeq row by simp only [rowSeq]; omega)]
  exact h.tables

end Handlers

/-- No handler is between a transaction and the cursor it is about to write. -/
def Replica.Recorded (r : Replica E V O) : Prop := ∀ h ∈ r.handlers, h.stage.unrecorded = none

omit [DecidableEq E] in
theorem position_of_recorded {r : Replica E V O} (h : r.Recorded) : r.position = r.cursor := by
  have hnone : (r.handlers.findSome? fun h => h.stage.unrecorded) = none :=
    List.findSome?_eq_none_iff.mpr h
  rw [Replica.position, hnone]
  rfl

end BurrowGate.Replication
