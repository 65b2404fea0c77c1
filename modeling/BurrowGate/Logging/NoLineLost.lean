import BurrowGate.Logging.DailyFiles

/-!
# No line is lost

Each step moves the lines of a day from one place to the next, adds one at the end, or releases
those of one file. The maintenance writes an archive only for a day that has none.
-/

namespace BurrowGate.Logging

open Lib Lib.Run

variable {localDay : LocalDay} {s t : LogState} {day : Int}

/-! ## Batches by path -/

theorem linesOf_append (lines lines' : List LogEntry) : linesOf localDay day (lines ++ lines') =
    linesOf localDay day lines ++ linesOf localDay day lines' :=
  List.filter_append ..

theorem batchLines_append (batches batches' : List PendingFileBatch) :
    batchLines day (batches ++ batches') = batchLines day batches ++ batchLines day batches' := by
  rw [batchLines, List.filter_append, List.flatMap_append]
  rfl

theorem batchLines_cons (batch : PendingFileBatch) (batches : List PendingFileBatch) :
    batchLines day (batch :: batches) =
      (if batch.day = day then batch.lines else []) ++ batchLines day batches := by
  rw [batchLines, List.filter_cons]
  by_cases h : batch.day = day
  · rw [if_pos (decide_eq_true h), if_pos h, List.flatMap_cons]
    rfl
  · rw [if_neg (by simpa using h), if_neg h]
    rfl

/-- The path of a day collects the lines of that day. -/
theorem get?_byPath (data : List LogEntry) :
    ((byPath localDay data).get? day).getD [] = linesOf localDay day data := by
  -- by induction on the lines still to come
  have hfold : ∀ (data : List LogEntry) (paths : OrderedMap Int (List LogEntry)),
      ((data.foldl (fun paths line => paths.set (localDay line.timestamp)
        ((paths.get? (localDay line.timestamp)).getD [] ++ [line])) paths).get? day).getD [] =
          (paths.get? day).getD [] ++ linesOf localDay day data := by
    intro data
    induction data with
    | nil => exact fun paths => (List.append_nil _).symm
    | cons line data ih =>
        intro paths
        rw [List.foldl_cons, ih, OrderedMap.get?_set, linesOf, linesOf, List.filter_cons]
        by_cases h : day = localDay line.timestamp
        · rw [if_pos h, if_pos (decide_eq_true h.symm), Option.getD_some, ← h, List.append_assoc]
          rfl
        · rw [if_neg h, if_neg (by simpa using Ne.symm h)]
  rw [byPath, hfold, OrderedMap.get?_empty]
  rfl

/-- A map has one batch for a path. -/
theorem batchLines_entries (paths : OrderedMap Int (List LogEntry)) :
    batchLines day (paths.entries.map fun e => ⟨e.1, e.2⟩) = (paths.get? day).getD [] := by
  have hlist : ∀ entries : List (Int × List LogEntry), (entries.map Prod.fst).Nodup →
      batchLines day (entries.map fun e => (⟨e.1, e.2⟩ : PendingFileBatch)) =
        ((entries.find? fun e => e.1 = day).map Prod.snd).getD [] := by
    intro entries
    induction entries with
    | nil => exact fun _ => rfl
    | cons e entries ih =>
        intro hnodup
        obtain ⟨hnot, hrest⟩ := List.nodup_cons.mp hnodup
        rw [List.map_cons, batchLines_cons, ih hrest]
        by_cases h : e.1 = day
        · have hnone : entries.find? (fun e => e.1 = day) = none := by
            refine List.find?_eq_none.mpr fun other hother heq => hnot ?_
            rw [h, ← of_decide_eq_true heq]
            exact List.mem_map_of_mem hother
          rw [if_pos h, hnone, List.find?_cons,
            show decide (e.1 = day) = true from decide_eq_true h]
          exact List.append_nil _
        · rw [if_neg h, List.find?_cons, show decide (e.1 = day) = false from decide_eq_false h]
          rfl
  exact hlist paths.entries paths.nodup

/-! ## The invariant -/

/-- What holds apart from where the running task is. -/
structure Kept (localDay : LocalDay) (s : LogState) : Prop where
  keeps : KeepsLines localDay s
  fresh : ∀ line ∈ s.accepted, line.id < s.nextId
  releasedFresh : ∀ id ∈ s.released, id < s.nextId

/-- What the running task has read of its files is still so. -/
def TaskFits (s : LogState) : Prop :=
  match s.task with
  | some (.expire file retentionDays loop) => (retentionDays : Int) ≤ loop.today - file.day
  | some (.gzip day _) => s.archive day = none
  | some (.rename day lines _) => s.archive day = none ∧ s.text day = some lines
  | _ => True

/-- The task does not leave a text file behind that its archive stands for. -/
def Settled (s : LogState) : Prop := ∀ day, s.leaving day = true → s.text day = none

theorem Kept.setTask (h : Kept localDay s) (hsettled : Settled s) {task : Option LogTask}
    (htask : ∀ day, ({ s with task } : LogState).leaving day = false) :
    Kept localDay { s with task } := by
  refine ⟨⟨h.keeps.ids, fun day => ?_, h.keeps.released⟩, h.fresh, h.releasedFresh⟩
  rw [← h.keeps.held day, LogState.held, LogState.held, htask]
  cases hleaving : s.leaving day with
  | false => rfl
  | true =>
      change (s.archive day).getD [] ++ (s.text day).getD [] ++ _ ++ _ = _
      rw [hsettled day hleaving]
      rfl

/-- Only the places of the lines change. -/
theorem Kept.move (h : Kept localDay s) (hheld : ∀ day, t.held localDay day = s.held localDay day)
    (haccepted : t.accepted = s.accepted) (hreleased : t.released = s.released)
    (hreleases : t.releases = s.releases) (hnext : t.nextId = s.nextId) : Kept localDay t := by
  refine ⟨⟨?_, fun day => ?_, ?_⟩, ?_, ?_⟩
  · rw [haccepted]
    exact h.keeps.ids
  · rw [hheld, haccepted, hreleased]
    exact h.keeps.held day
  · rw [haccepted, hreleased, hreleases]
    exact h.keeps.released
  · rw [haccepted, hnext]
    exact h.fresh
  · rw [hreleased, hnext]
    exact h.releasedFresh

theorem Kept.addLine (h : Kept localDay s) (timestamp : Nat) :
    Kept localDay (addLine s timestamp) := by
  have hnew : s.nextId ∉ s.accepted.map (·.id) := by
    intro hin
    obtain ⟨line, hline, heq⟩ := List.mem_map.mp hin
    exact Nat.lt_irrefl _ (heq ▸ h.fresh line hline)
  have hfree : s.released.contains s.nextId = false := by
    rw [Bool.eq_false_iff]
    intro hin
    exact Nat.lt_irrefl _ (h.releasedFresh _ (List.contains_iff_mem.mp hin))
  refine ⟨⟨?_, fun day => ?_, fun line hline hreleased => ?_⟩, fun line hline => ?_,
    fun id hid => ?_⟩
  · change ((s.accepted ++ [(⟨s.nextId, timestamp⟩ : LogEntry)]).map LogEntry.id).Nodup
    rw [List.map_append]
    refine List.nodup_append.mpr ⟨h.keeps.ids, List.nodup_singleton _, fun a ha b hb => ?_⟩
    rw [List.mem_singleton.mp hb]
    rintro rfl
    exact hnew ha
  · have hline : (linesOf localDay day [⟨s.nextId, timestamp⟩]).filter
        (fun line => !s.released.contains line.id) =
          linesOf localDay day [⟨s.nextId, timestamp⟩] := by
      refine List.filter_eq_self.mpr fun line hline => ?_
      rw [List.mem_singleton.mp (List.mem_of_mem_filter hline)]
      change (!s.released.contains s.nextId) = true
      rw [hfree]
      rfl
    change (s.archive day).getD [] ++ (if s.leaving day then [] else (s.text day).getD []) ++
      batchLines day s.pendingBatches ++ linesOf localDay day (s.buffer ++ [_]) =
        (linesOf localDay day (s.accepted ++ [_])).filter
          fun line => !s.released.contains line.id
    rw [linesOf_append, linesOf_append, List.filter_append, hline, ← h.keeps.held day,
      ← List.append_assoc]
    rfl
  · rcases List.mem_snoc.mp hline with hold | hlast
    · exact h.keeps.released line hold hreleased
    · rw [hlast] at hreleased
      exact absurd (hreleased.symm.trans hfree) Bool.true_eq_false.mp
  · rcases List.mem_snoc.mp hline with hold | hlast
    · exact Nat.lt_succ_of_lt (h.fresh line hold)
    · rw [hlast]
      exact Nat.lt_succ_self _
  · exact Nat.lt_succ_of_lt (h.releasedFresh id hid)

theorem Kept.queueCurrentBatch (h : Kept localDay s) :
    Kept localDay (queueCurrentBatch localDay s) := by
  refine h.move (fun day => ?_) rfl rfl rfl rfl
  change _ ++ batchLines day (s.pendingBatches ++ (byPath localDay s.buffer).entries.map _) ++
    linesOf localDay day [] = _
  rw [batchLines_append, batchLines_entries, get?_byPath, ← List.append_assoc]
  exact List.append_nil _

theorem Kept.bufferInternalLog (h : Kept localDay s) (level : LogLevelName) :
    Kept localDay (bufferInternalLog localDay s level) := by
  rw [Logging.bufferInternalLog]
  split
  · exact h
  · exact (h.addLine s.now).queueCurrentBatch

/-! ## Released lines -/

theorem filter_middle {before lines after : List LogEntry}
    (h : ((before ++ lines ++ after).map (·.id)).Nodup) :
    (before ++ lines ++ after).filter (fun line => !(lines.map (·.id)).contains line.id) =
      before ++ after := by
  rw [List.map_append, List.map_append] at h
  obtain ⟨hleft, -, hafter⟩ := List.nodup_append.mp h
  obtain ⟨-, -, hbefore⟩ := List.nodup_append.mp hleft
  have hkeep : ∀ side : List LogEntry, (∀ line ∈ side, line.id ∉ lines.map (·.id)) →
      side.filter (fun line => !(lines.map (·.id)).contains line.id) = side := by
    intro side hside
    refine List.filter_eq_self.mpr fun line hline => ?_
    rw [Bool.not_eq_true', Bool.eq_false_iff]
    exact fun hin => hside line hline (List.contains_iff_mem.mp hin)
  have hdrop : lines.filter (fun line => !(lines.map (·.id)).contains line.id) = [] := by
    refine List.filter_eq_nil_iff.mpr fun line hline => ?_
    rw [Bool.not_eq_true', Bool.not_eq_false]
    exact List.contains_iff_mem.mpr (List.mem_map_of_mem hline)
  rw [List.filter_append, List.filter_append, hdrop, List.append_nil,
    hkeep before fun line hline hin =>
      hbefore _ (List.mem_map_of_mem hline) _ hin rfl,
    hkeep after fun line hline hin =>
      hafter _ (List.mem_append_right _ hin) _ (List.mem_map_of_mem hline) rfl]

theorem Kept.mem_held (h : Kept localDay s) {line : LogEntry} (hline : line ∈ s.held localDay day) :
    line ∈ s.accepted ∧ localDay line.timestamp = day := by
  rw [h.keeps.held day] at hline
  obtain ⟨hin, hday⟩ := List.mem_filter.mp (List.mem_of_mem_filter hline)
  exact ⟨hin, of_decide_eq_true hday⟩

theorem Kept.nodup_held (h : Kept localDay s) (day : Int) :
    ((s.held localDay day).map (·.id)).Nodup := by
  rw [h.keeps.held day]
  exact h.keeps.ids.sublist ((List.filter_sublist.trans List.filter_sublist).map _)

/-- The lines held after the release of some lines of one day. -/
theorem Kept.released (h : Kept localDay s) (lines : List LogEntry) :
    (linesOf localDay day s.accepted).filter
        (fun line => !(s.released ++ lines.map (·.id)).contains line.id) =
      (s.held localDay day).filter fun line => !(lines.map (·.id)).contains line.id := by
  rw [h.keeps.held day, List.filter_filter]
  refine List.filter_congr fun line _ => ?_
  rw [List.contains_append, Bool.not_or, Bool.and_comm]

/-- Lines of another day stay. -/
theorem Kept.filter_other (h : Kept localDay s) {lines : List LogEntry} {other : Int}
    (hlines : ∀ line ∈ lines, line ∈ s.held localDay other) (hne : day ≠ other) :
    (s.held localDay day).filter (fun line => !(lines.map (·.id)).contains line.id) =
      s.held localDay day := by
  refine List.filter_eq_self.mpr fun line hline => ?_
  rw [Bool.not_eq_true', Bool.eq_false_iff]
  intro hin
  obtain ⟨released, hreleased, hid⟩ := List.mem_map.mp (List.contains_iff_mem.mp hin)
  obtain ⟨haccepted, hday⟩ := h.mem_held hline
  obtain ⟨haccepted', hday'⟩ := h.mem_held (hlines released hreleased)
  obtain rfl := List.inj_on_of_nodup_map h.keeps.ids haccepted' haccepted hid
  exact hne (hday.symm.trans hday')

theorem removeFile_held_ne (file : LogFile) (hne : day ≠ file.day) :
    (removeFile s file).held localDay day = s.held localDay day := by
  rw [removeFile]
  split
  · change ((Function.update s.archive file.day none day).getD []) ++ _ ++ _ ++ _ = _
    rw [Function.update_of_ne hne]
    rfl
  · change _ ++ (if s.leaving day then [] else (Function.update s.text file.day none day).getD []) ++
      _ ++ _ = _
    rw [Function.update_of_ne hne]
    rfl

/-- The lines of a file stand together among those of its day. -/
theorem held_file {file : LogFile} {lines : List LogEntry} (hlines : fileLines s file = some lines)
    (hleaving : file.archived = true ∨ s.leaving file.day = false) :
    ∃ before after, s.held localDay file.day = before ++ lines ++ after ∧
      (removeFile s file).held localDay file.day = before ++ after := by
  cases harchived : file.archived with
  | true =>
      rw [fileLines, if_pos harchived] at hlines
      refine ⟨[], (if s.leaving file.day then [] else (s.text file.day).getD []) ++
        batchLines file.day s.pendingBatches ++ linesOf localDay file.day s.buffer, ?_, ?_⟩
      · rw [LogState.held, hlines, List.nil_append, Option.getD_some, List.append_assoc,
          List.append_assoc, List.append_assoc]
      · rw [removeFile, if_pos harchived]
        change ((Function.update s.archive file.day none file.day).getD []) ++ _ ++ _ ++ _ = _
        rw [Function.update_self]
        rfl
  | false =>
      have hstays : s.leaving file.day = false := hleaving.resolve_left (by
        rw [harchived]
        exact Bool.false_ne_true)
      have htext : ¬file.archived = true := by
        rw [harchived]
        exact Bool.false_ne_true
      rw [fileLines, if_neg htext] at hlines
      refine ⟨(s.archive file.day).getD [], batchLines file.day s.pendingBatches ++
        linesOf localDay file.day s.buffer, ?_, ?_⟩
      · rw [LogState.held, hlines, hstays, List.append_assoc]
        rfl
      · rw [removeFile, if_neg htext]
        change _ ++ (if s.leaving file.day then []
          else (Function.update s.text file.day none file.day).getD []) ++ _ ++ _ = _
        rw [Function.update_self, hstays, ← List.append_assoc]
        exact congrArg (· ++ _) (congrArg (· ++ _) (List.append_nil _))

/-- A file is deleted past its retention, or an archive as the administrator asks. -/
theorem Kept.release (h : Kept localDay s) {file : LogFile} {lines : List LogEntry}
    (hlines : fileLines s file = some lines)
    (hleaving : file.archived = true ∨ s.leaving file.day = false)
    {maintenance : Option (Int × Nat)} (hdue : Release.due ⟨file.day, maintenance⟩) :
    Kept localDay (releaseFile s file lines maintenance) := by
  obtain ⟨before, after, hheld, hremoved⟩ : ∃ before after,
      s.held localDay file.day = before ++ lines ++ after ∧
        (removeFile s file).held localDay file.day = before ++ after := held_file hlines hleaving
  have hin : ∀ line ∈ lines, line ∈ s.held localDay file.day := by
    intro line hline
    rw [hheld]
    exact List.mem_append_left _ (List.mem_append_right _ hline)
  have haccepted : (releaseFile s file lines maintenance).accepted = s.accepted := by
    rw [releaseFile, removeFile]
    split
    · rfl
    · rfl
  have hnext : (releaseFile s file lines maintenance).nextId = s.nextId := by
    rw [releaseFile, removeFile]
    split
    · rfl
    · rfl
  refine ⟨⟨?_, fun day => ?_, ?_⟩, ?_, fun id hid => ?_⟩
  · rw [haccepted]
    exact h.keeps.ids
  · rw [haccepted]
    change (removeFile s file).held localDay day = (linesOf localDay day s.accepted).filter
      fun line => !(s.released ++ lines.map (·.id)).contains line.id
    rw [h.released]
    by_cases hday : day = file.day
    · subst hday
      have hnodup := h.nodup_held file.day
      rw [hheld] at hnodup
      rw [hremoved, hheld, filter_middle hnodup]
    · rw [removeFile_held_ne file hday, h.filter_other hin hday]
  · rw [haccepted]
    intro line hline hreleased
    change (s.released ++ lines.map (·.id)).contains line.id = true at hreleased
    change ∃ r ∈ s.releases ++ [⟨file.day, maintenance⟩], _
    rw [List.contains_append, Bool.or_eq_true] at hreleased
    rcases hreleased with hold | hnew
    · obtain ⟨r, hr, hday, hdue⟩ := h.keeps.released line hline hold
      exact ⟨r, List.mem_append_left _ hr, hday, hdue⟩
    · -- an id of the file is that of one of its lines, and these are of the file's day
      obtain ⟨held, hheld, hid⟩ := List.mem_map.mp (List.contains_iff_mem.mp hnew)
      obtain ⟨haccepted', hday⟩ := h.mem_held (hin held hheld)
      obtain rfl := List.inj_on_of_nodup_map h.keeps.ids haccepted' hline hid
      exact ⟨_, List.mem_append_right _ (List.mem_singleton_self _), hday.symm, hdue⟩
  · rw [haccepted, hnext]
    exact h.fresh
  · rw [hnext]
    rcases List.mem_append.mp hid with hold | hnew
    · exact h.releasedFresh id hold
    · obtain ⟨line, hline, rfl⟩ := List.mem_map.mp hnew
      exact h.fresh line (h.mem_held (hin line hline)).1

/-! ## The tasks -/

theorem Settled.of_task (h : ∀ day loop, s.task ≠ some (.unlinkText day loop)) : Settled s := by
  intro day hleaving
  rw [LogState.leaving.eq_def] at hleaving
  split at hleaving
  · rename_i other loop htask
    exact absurd htask (h other loop)
  · cases hleaving

/-- Where a task may stop: the invariant, and what it has read of its files. -/
structure KeptTask (localDay : LocalDay) (s : LogState) : Prop where
  kept : Kept localDay s
  fits : TaskFits s

theorem kept_idle (h : Kept localDay s) (hsettled : Settled s) :
    KeptTask localDay { s with task := none } :=
  ⟨h.setTask hsettled fun _ => rfl, trivial⟩

theorem bufferInternalLog_task (level : LogLevelName) :
    (bufferInternalLog localDay s level).task = s.task := by
  rw [bufferInternalLog]
  split
  · rfl
  · rfl

theorem fits_of_none (h : s.task = none) : TaskFits s := by
  rw [TaskFits, h]
  exact trivial

theorem kept_maintenanceLoop (h : Kept localDay s) (hsettled : Settled s) (today : Int)
    (deleted compressed : Nat) (files : List LogFile) :
    KeptTask localDay (maintenanceLoop localDay s today deleted compressed files) := by
  induction files with
  | nil =>
      have hidle := kept_idle h hsettled
      rw [maintenanceLoop]
      split
      · exact ⟨hidle.kept.bufferInternalLog .info, fits_of_none (bufferInternalLog_task .info)⟩
      · exact hidle
  | cons file rest ih =>
      rw [maintenanceLoop]
      split
      · rename_i hold
        exact ⟨h.setTask hsettled fun _ => rfl, hold⟩
      · split
        · split
          · exact ⟨h.setTask hsettled fun _ => rfl, trivial⟩
          · rename_i hnone
            exact ⟨h.setTask hsettled fun _ => rfl, Option.not_isSome_iff_eq_none.mp hnone⟩
        · exact ih

theorem kept_persistLoop (h : Kept localDay s) (hsettled : Settled s) (recovering : Bool) :
    KeptTask localDay (persistLoop localDay s recovering) := by
  rw [persistLoop]
  split
  · exact ⟨h.setTask hsettled fun _ => rfl, trivial⟩
  · split
    · exact kept_idle h hsettled
    · have hcleared : Kept localDay { s with writeFailureStartedAt := none } :=
        h.move (fun _ => rfl) rfl rfl rfl rfl
      have hlogged := hcleared.bufferInternalLog .info
      have hsettled' : Settled
          (bufferInternalLog localDay { s with writeFailureStartedAt := none } .info) := by
        rw [bufferInternalLog]
        split
        · exact hsettled
        · exact hsettled
      dsimp only
      split
      · exact ⟨hlogged.setTask hsettled' fun _ => rfl, trivial⟩
      · exact kept_idle hlogged hsettled'

theorem kept_persistFailed (h : Kept localDay s) (hsettled : Settled s) :
    KeptTask localDay (persistFailed localDay s) := by
  have hidle := kept_idle h hsettled
  rw [persistFailed]
  dsimp only
  split
  · have hfailed : Kept localDay { s with task := none, writeFailureStartedAt := some s.now } :=
      hidle.kept.move (fun _ => rfl) rfl rfl rfl rfl
    exact ⟨hfailed.bufferInternalLog .error, fits_of_none (bufferInternalLog_task .error)⟩
  · exact hidle

/-! ## One step -/

/-- The first batch joins the lines of its text file. -/
theorem Kept.append (h : Kept localDay s) (hsettled : ∀ day, s.leaving day = false)
    {batch : PendingFileBatch} {rest : List PendingFileBatch}
    (hbatches : s.pendingBatches = batch :: rest) :
    Kept localDay { s with
      text := Function.update s.text batch.day (some ((s.text batch.day).getD [] ++ batch.lines))
      pendingBatches := rest } := by
  refine h.move (fun day => ?_) rfl rfl rfl rfl
  change (s.archive day).getD [] ++ (if s.leaving day then []
    else (Function.update s.text batch.day _ day).getD []) ++ batchLines day rest ++ _ = _
  rw [LogState.held, hbatches, batchLines_cons, hsettled day]
  by_cases hday : day = batch.day
  · subst hday
    rw [Function.update_self, if_pos rfl, Option.getD_some]
    simp only [Bool.false_eq_true, if_false, List.append_assoc]
  · rw [Function.update_of_ne hday, if_neg (Ne.symm hday), List.nil_append]

/-- The archive takes the place of the text file it was written from. -/
theorem Kept.archived (h : Kept localDay s) (hsettled : ∀ day, s.leaving day = false) {other : Int}
    {lines : List LogEntry} (harchive : s.archive other = none) (htext : s.text other = some lines)
    (loop : Maintenance) :
    Kept localDay { s with
      archive := Function.update s.archive other (some lines)
      task := some (.unlinkText other loop) } := by
  refine h.move (fun day => ?_) rfl rfl rfl rfl
  change (Function.update s.archive other (some lines) day).getD [] ++
    (if decide (other = day) then [] else (s.text day).getD []) ++ _ ++ _ = _
  rw [LogState.held, hsettled day]
  by_cases hday : day = other
  · subst hday
    rw [Function.update_self, harchive, htext, decide_eq_true rfl]
    exact congrArg (· ++ _) (congrArg (· ++ _) (List.append_nil _))
  · rw [Function.update_of_ne hday, decide_eq_false (Ne.symm hday)]

/-- The text file that was archived is unlinked. -/
theorem Kept.unlinkText (h : Kept localDay s) {other : Int} {loop : Maintenance}
    (htask : s.task = some (.unlinkText other loop)) :
    Kept localDay (removeFile s ⟨other, false⟩) ∧ Settled (removeFile s ⟨other, false⟩) := by
  have hleaving : ∀ day, s.leaving day = decide (other = day) := by
    intro day
    rw [LogState.leaving, htask]
  refine ⟨h.move (fun day => ?_) rfl rfl rfl rfl, fun day hday => ?_⟩
  · by_cases hday : day = other
    · subst hday
      change _ ++ (if s.leaving day then [] else _) ++ _ ++ _ = _
      rw [LogState.held, hleaving, decide_eq_true rfl]
      rfl
    · exact removeFile_held_ne ⟨other, false⟩ hday
  · have hother : other = day := of_decide_eq_true ((hleaving day).symm.trans hday)
    change Function.update s.text other none day = none
    rw [hother, Function.update_self]

theorem kept_taskSucceeds {task : LogTask} (h : KeptTask localDay s) (htask : s.task = some task)
    (honce : task.archivesOnce true = true) (hstep : taskSucceeds localDay s task = some t) :
    KeptTask localDay t := by
  obtain ⟨hkept, hfits⟩ := h
  rw [TaskFits, htask] at hfits
  have hsettled : (∀ day loop, task ≠ .unlinkText day loop) → Settled s := by
    intro hne
    refine Settled.of_task fun day loop heq => hne day loop ?_
    exact Option.some.inj (htask.symm.trans heq)
  have hstays : (∀ day loop, task ≠ .unlinkText day loop) → ∀ day, s.leaving day = false := by
    intro hne day
    rw [LogState.leaving, htask]
    cases task with
    | unlinkText other loop => exact absurd rfl (hne other loop)
    | _ => rfl
  cases task with
  | persistMkdir =>
      obtain rfl := Option.some.inj hstep
      exact kept_persistLoop hkept (hsettled fun _ _ => LogTask.noConfusion) false
  | append recovering =>
      rw [taskSucceeds] at hstep
      split at hstep
      · cases hstep
      · rename_i batch rest hbatches
        obtain rfl := Option.some.inj hstep
        have hstays := hstays fun _ _ => LogTask.noConfusion
        refine kept_persistLoop (hkept.append hstays hbatches) (fun day hleaving => ?_) recovering
        have hleaving : s.leaving day = true := hleaving
        rw [hstays day] at hleaving
        cases hleaving
  | maintenanceMkdir =>
      obtain rfl := Option.some.inj hstep
      exact ⟨hkept.setTask (hsettled fun _ _ => LogTask.noConfusion) fun _ => rfl, trivial⟩
  | readdir today => cases hstep
  | expire file retentionDays loop =>
      obtain ⟨lines, hlines, rfl⟩ := Option.map_eq_some_iff.mp hstep
      have hstays := hstays fun _ _ => LogTask.noConfusion
      have hdue : Release.due ⟨file.day, some (loop.today, retentionDays)⟩ := by
        rintro compared ⟨⟩
        exact hfits
      refine kept_maintenanceLoop (hkept.release hlines (.inr (hstays file.day)) hdue)
        (fun day hleaving => ?_) ..
      have hleaving : (releaseFile s file lines (some (loop.today, retentionDays))).leaving day =
          s.leaving day := by
        rw [releaseFile, removeFile]
        split
        · rfl
        · rfl
      rename_i htrue
      rw [hleaving, hstays day] at htrue
      cases htrue
  | leftover day loop => cases honce
  | gzip day loop =>
      obtain ⟨lines, hlines, rfl⟩ := Option.map_eq_some_iff.mp hstep
      exact ⟨hkept.setTask (hsettled fun _ _ => LogTask.noConfusion) fun _ => rfl, hfits, hlines⟩
  | rename day lines loop =>
      obtain rfl := Option.some.inj hstep
      exact ⟨hkept.archived (hstays fun _ _ => LogTask.noConfusion) hfits.1 hfits.2 loop, trivial⟩
  | unlinkText day loop =>
      obtain ⟨lines, -, rfl⟩ := Option.map_eq_some_iff.mp hstep
      obtain ⟨hremoved, hsettled⟩ := hkept.unlinkText htask
      exact kept_maintenanceLoop hremoved hsettled ..

theorem kept_taskThrows {task : LogTask} (h : KeptTask localDay s) (htask : s.task = some task)
    (honce : task.archivesOnce false = true) : KeptTask localDay (taskThrows localDay s task) := by
  have hsettled : Settled s := by
    refine Settled.of_task fun day loop heq => ?_
    obtain rfl := Option.some.inj (htask.symm.trans heq)
    cases honce
  cases task with
  | persistMkdir => exact kept_persistFailed h.kept hsettled
  | append recovering => exact kept_persistFailed h.kept hsettled
  | _ => exact kept_idle h.kept hsettled

/-- A step outside of the task leaves what the task has read. -/
theorem KeptTask.outside (h : KeptTask localDay s) (hkept : Kept localDay t)
    (htask : t.task = s.task) (htext : t.text = s.text)
    (harchive : ∀ day, s.archive day = none → t.archive day = none) : KeptTask localDay t := by
  refine ⟨hkept, ?_⟩
  have hfits := h.fits
  rw [TaskFits.eq_def] at hfits ⊢
  rw [htask]
  split
  · rename_i file retentionDays loop hexpire
    rw [hexpire] at hfits
    exact hfits
  · rename_i day loop hgzip
    rw [hgzip] at hfits
    exact harchive day hfits
  · rename_i day lines loop hrename
    rw [hrename] at hfits
    refine ⟨harchive day hfits.1, ?_⟩
    rw [htext]
    exact hfits.2
  · exact trivial

theorem KeptTask.step {a : LogAction} (h : KeptTask localDay s) (ha : ArchivesOnce s a)
    (hstep : logStep localDay s a = some t) : KeptTask localDay t := by
  cases a with
  | clock now =>
      obtain rfl := Option.some.inj hstep
      exact h.outside (h.kept.move (fun _ => rfl) rfl rfl rfl rfl) rfl rfl fun _ hnone => hnone
  | log timestamp =>
      obtain rfl := Option.some.inj hstep
      split
      · exact h.outside (h.kept.addLine timestamp) rfl rfl fun _ hnone => hnone
      · exact h
  | flush =>
      obtain rfl := Option.some.inj hstep
      have hqueued := h.kept.queueCurrentBatch
      rw [persistBufferedLogs]
      split
      · exact h.outside hqueued rfl rfl fun _ hnone => hnone
      · exact h.outside (hqueued.move (fun _ => rfl) rfl rfl rfl rfl) rfl rfl fun _ hnone => hnone
  | runMaintenance =>
      obtain rfl := Option.some.inj hstep
      exact h.outside (h.kept.move (fun _ => rfl) rfl rfl rfl rfl) rfl rfl fun _ hnone => hnone
  | updateSettings next =>
      obtain rfl := Option.some.inj hstep
      exact h.outside (h.kept.move (fun _ => rfl) rfl rfl rfl rfl) rfl rfl fun _ hnone => hnone
  | deleteArchive day =>
      obtain ⟨lines, hlines, rfl⟩ := Option.map_eq_some_iff.mp hstep
      have hfile : fileLines s ⟨day, true⟩ = some lines := hlines
      refine h.outside (h.kept.release hfile (.inl rfl) fun _ hnone => (by cases hnone)) rfl rfl
        fun other hnone => ?_
      change Function.update s.archive day none other = none
      by_cases hother : other = day
      · rw [hother, Function.update_self]
      · rw [Function.update_of_ne hother]
        exact hnone
  | start =>
      have hidle : s.task = none → ∀ (queue : List TaskKind) (task : LogTask),
          (∀ day loop, task ≠ .unlinkText day loop) →
          (∀ u : LogState, u.task = some task → TaskFits u) →
          KeptTask localDay { s with task := some task, queue } := by
        intro htask queue task hne hfits
        have hsettled : Settled s := Settled.of_task fun day loop heq => by
          rw [htask] at heq
          cases heq
        have hset : Kept localDay { s with task := some task } :=
          h.kept.setTask hsettled fun day => by
            cases task with
            | unlinkText other loop => exact absurd rfl (hne other loop)
            | _ => rfl
        exact ⟨hset.move (fun _ => rfl) rfl rfl rfl rfl, hfits _ rfl⟩
      rw [logStep] at hstep
      split at hstep
      · rename_i htask _
        obtain rfl := Option.some.inj hstep
        exact hidle htask _ _ (fun _ _ => LogTask.noConfusion) fun u hu => by
          rw [TaskFits, hu]
          exact trivial
      · rename_i htask _
        obtain rfl := Option.some.inj hstep
        exact hidle htask _ _ (fun _ _ => LogTask.noConfusion) fun u hu => by
          rw [TaskFits, hu]
          exact trivial
      · cases hstep
  | proceed succeeds =>
      obtain ⟨task, htask, hstep⟩ := Option.bind_eq_some_iff.mp hstep
      rw [ArchivesOnce, htask, Option.all_some] at ha
      cases succeeds with
      | true =>
          rw [if_pos rfl] at hstep
          exact kept_taskSucceeds h htask ha hstep
      | false =>
          obtain rfl := Option.some.inj hstep
          exact kept_taskThrows h htask ha
  | listed files =>
      rw [logStep] at hstep
      split at hstep
      · rename_i today htask
        split at hstep
        · obtain rfl := Option.some.inj hstep
          refine kept_maintenanceLoop h.kept (Settled.of_task fun day loop heq => ?_) ..
          rw [htask] at heq
          cases heq
        · cases hstep
      · cases hstep

/-- While no text file is unlinked for the archive that was there before it, and none is left
behind by the one it was archived to, no line is lost, doubled or moved before another. -/
theorem no_line_lost (localDay : LocalDay)
    (h : Reach (logStep localDay) ArchivesOnce StartsLog s) : KeepsLines localDay s := by
  have hkept : KeptTask localDay s := by
    refine h.invariant (fun s hstart => ?_) fun s a t _ hs ha hstep => hs.step ha hstep
    obtain ⟨⟨hbuffer, hpending⟩, ⟨htext, harchive⟩, htask, haccepted, hreleased, -⟩ := hstart
    refine ⟨⟨⟨?_, fun day => ?_, ?_⟩, ?_, ?_⟩, fits_of_none htask⟩
    · rw [haccepted]
      exact List.nodup_nil
    · rw [LogState.held, harchive, htext, hbuffer, hpending, haccepted, LogState.leaving, htask]
      rfl
    · rw [haccepted]
      exact fun _ hline => (by cases hline)
    · rw [haccepted]
      exact fun _ hline => (by cases hline)
    · rw [hreleased]
      exact fun _ hid => (by cases hid)
  exact hkept.kept.keeps

/-! ## Runs -/

def utcDay (timestamp : Nat) : Int := timestamp / 86400000

theorem one_le_compressAfterDays : 1 ≤ 1 := Nat.le_refl 1

def exampleSettings : FileLogSettings where
  fileEnabled := true
  level := .info
  compressAfterDays := 1
  retentionDays := 30
  compress_pos := one_le_compressAfterDays
  retention_le := @Nat.le_of_ble_eq_true 30 3650 rfl
  compress_lt := @Nat.le_of_ble_eq_true 2 30 rfl

def exampleLog : LogState where
  now := 0
  settings := exampleSettings
  buffer := []
  pendingBatches := []
  text _ := none
  archive _ := none
  task := none
  queue := []
  writeFailureStartedAt := none
  nextId := 0
  accepted := []
  released := []
  releases := []

theorem exampleLog_starts : StartsLog exampleLog :=
  ⟨⟨rfl, rfl⟩, ⟨fun _ => rfl, fun _ => rfl⟩, rfl, rfl, rfl, rfl⟩

/-- The next task runs to the end of its first `operations` suspensions. -/
def taskRuns (operations : Nat) : List LogAction :=
  .start :: List.replicate operations (.proceed true)

/-- A line is persisted and archived on the next day. -/
def archivedDay : List LogAction :=
  [LogAction.log 1000, .flush] ++ taskRuns 2 ++ [LogAction.clock 86400000, .runMaintenance] ++
    taskRuns 1 ++ [LogAction.listed [⟨0, false⟩]] ++ List.replicate 3 (LogAction.proceed true)

theorem no_line_lost_archived :
    ∃ s, execIf (logStep utcDay) ArchivesOnce exampleLog archivedDay = some s ∧
      s.archive 0 = some [⟨0, 1000⟩] ∧ s.text 0 = none ∧ KeepsLines utcDay s := by
  have hrun : (execIf (logStep utcDay) ArchivesOnce exampleLog archivedDay).any (fun s =>
      s.archive 0 = some [⟨0, 1000⟩] ∧ s.text 0 = none) = true := by decide +kernel
  obtain ⟨s, hs, hfiles⟩ := (Option.any_eq_true ..).mp hrun
  obtain ⟨harchive, htext⟩ := of_decide_eq_true hfiles
  exact ⟨s, hs, harchive, htext, no_line_lost utcDay (execIf_reach (.start exampleLog_starts) hs)⟩

/-- A line of the last second is persisted after the maintenance of midnight, and lost in the
next one. -/
def lateLine : List LogAction :=
  [LogAction.log 1000, .flush] ++ taskRuns 2 ++
    [LogAction.log 86399999, .clock 86400000, .runMaintenance] ++ taskRuns 1 ++
      [LogAction.listed [⟨0, false⟩]] ++ List.replicate 3 (LogAction.proceed true) ++
      [LogAction.flush] ++ taskRuns 3 ++ [LogAction.clock 90000000, .runMaintenance] ++ taskRuns 1 ++
        [LogAction.listed [⟨0, false⟩, ⟨0, true⟩], .proceed true]

theorem late_line_lost :
    ¬ ∀ (localDay : LocalDay) (s : LogState), Reach (logStep localDay) Any StartsLog s →
      KeepsLines localDay s := by
  intro h
  have hrun : (exec (logStep utcDay) exampleLog lateLine).any (fun s =>
      s.held utcDay 0 = [⟨0, 1000⟩] ∧ s.released = [] ∧
        linesOf utcDay 0 s.accepted = [⟨0, 1000⟩, ⟨1, 86399999⟩]) = true := by decide +kernel
  obtain ⟨s, hs, hfacts⟩ := (Option.any_eq_true ..).mp hrun
  obtain ⟨hheld, hreleased, haccepted⟩ := of_decide_eq_true hfacts
  have hkeeps := (h utcDay s (exec_reach (.start exampleLog_starts) hs)).held 0
  rw [hheld, hreleased, haccepted] at hkeeps
  exact absurd (congrArg List.length hkeeps) (by decide)

end BurrowGate.Logging
