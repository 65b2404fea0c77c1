import BurrowGate.Lib.OrderedMap
import BurrowGate.Lib.Run
import Mathlib.Logic.Function.Basic

/-!
# `daily-file-log-service.ts`: where the lines of a day are

The buffer, the pending batches, the text file and the archive of each day, and the tasks of
the service's queue: one that persists the batches, one that compresses and deletes files. A
task is suspended at every file operation, which succeeds or throws as a whole.
-/

namespace BurrowGate.Logging

open Lib Lib.Run

inductive LogLevelName
  | error
  | warn
  | audit
  | info
  | http
  | debug
  | verbose
  | silly
  deriving DecidableEq

/-- `Levels`: the more verbose a level, the greater. -/
def LogLevelName.rank : LogLevelName → Nat
  | .error => 0
  | .warn => 1
  | .audit => 2
  | .info => 3
  | .http => 4
  | .debug => 5
  | .verbose => 6
  | .silly => 7

/-- Settings that `validatedSettings` accepts. -/
structure FileLogSettings where
  fileEnabled : Bool
  level : LogLevelName
  compressAfterDays : Nat
  retentionDays : Nat
  compress_pos : 1 ≤ compressAfterDays
  retention_le : retentionDays ≤ 3650
  compress_lt : compressAfterDays < retentionDays

/-- A line; `id` tells equal lines apart. -/
structure LogEntry where
  id : Nat
  timestamp : Nat
  deriving DecidableEq

/-- `day` is the date of the path. -/
structure PendingFileBatch where
  day : Int
  lines : List LogEntry
  deriving DecidableEq

/-- A file of the directory: the text file of a day, or its archive. -/
structure LogFile where
  day : Int
  archived : Bool
  deriving DecidableEq

/-- The loop of `runMaintenance`: the date it has read, the names left, what it has done. -/
structure Maintenance where
  today : Int
  rest : List LogFile
  deleted : Nat
  compressed : Nat
  deriving DecidableEq

/-- Where the running task is suspended. -/
inductive LogTask
  | persistMkdir
  /-- `appendFile` of the first pending batch, in the loop that follows a recovery or not. -/
  | append (recovering : Bool)
  | maintenanceMkdir
  | readdir (today : Int)
  /-- `unlink` of a file past its retention. -/
  | expire (file : LogFile) (retentionDays : Nat) (loop : Maintenance)
  /-- `unlink` of the text file of a day that has an archive. -/
  | leftover (day : Int) (loop : Maintenance)
  | gzip (day : Int) (loop : Maintenance)
  | rename (day : Int) (lines : List LogEntry) (loop : Maintenance)
  /-- `unlink` of the text file that has just been archived. -/
  | unlinkText (day : Int) (loop : Maintenance)
  deriving DecidableEq

inductive TaskKind
  | persist
  | maintenance
  deriving DecidableEq

/-- A file whose lines are given up: by the maintenance, with the date and the retention it has
compared, or as an archive that is deleted on request. -/
structure Release where
  day : Int
  maintenance : Option (Int × Nat)
  deriving DecidableEq

/-- `accepted` are the lines logged while file logging was enabled, `released` those of the
files in `releases`. -/
structure LogState where
  now : Nat
  settings : FileLogSettings
  buffer : List LogEntry
  pendingBatches : List PendingFileBatch
  text : Int → Option (List LogEntry)
  archive : Int → Option (List LogEntry)
  task : Option LogTask
  queue : List TaskKind
  writeFailureStartedAt : Option Nat
  nextId : Nat
  accepted : List LogEntry
  released : List Nat
  releases : List Release

inductive LogAction
  /-- The clock is read; it may have gone back. -/
  | clock (now : Nat)
  | log (timestamp : Nat)
  /-- `persistBufferedLogs`, by `flush`, the timer or a full buffer. -/
  | flush
  | runMaintenance
  /-- `updateSettings` has written the file. -/
  | updateSettings (next : FileLogSettings)
  | deleteArchive (day : Int)
  /-- The next task of the queue starts. -/
  | start
  /-- What the running task waits for succeeds or throws. -/
  | proceed (succeeds : Bool)
  | listed (files : List LogFile)

/-! ## The buffer -/

/-- `localDateKey` as a number of days, in the time zone of the process. -/
abbrev LocalDay : Type := Nat → Int

/-- `byPath` in `queueCurrentBatch`. -/
def byPath (localDay : LocalDay) (data : List LogEntry) : OrderedMap Int (List LogEntry) :=
  data.foldl (fun paths line =>
    paths.set (localDay line.timestamp)
      ((paths.get? (localDay line.timestamp)).getD [] ++ [line])) .empty

def queueCurrentBatch (localDay : LocalDay) (s : LogState) : LogState :=
  { s with
    buffer := []
    pendingBatches := s.pendingBatches ++
      (byPath localDay s.buffer).entries.map fun e => ⟨e.1, e.2⟩ }

/-- `ndjson.log` -/
def addLine (s : LogState) (timestamp : Nat) : LogState :=
  { s with
    buffer := s.buffer ++ [⟨s.nextId, timestamp⟩]
    nextId := s.nextId + 1
    accepted := s.accepted ++ [⟨s.nextId, timestamp⟩] }

def bufferInternalLog (localDay : LocalDay) (s : LogState) (level : LogLevelName) : LogState :=
  if !s.settings.fileEnabled || s.settings.level.rank < level.rank then s
  else queueCurrentBatch localDay (addLine s s.now)

def persistBufferedLogs (localDay : LocalDay) (s : LogState) : LogState :=
  let s := queueCurrentBatch localDay s
  if s.pendingBatches = [] then s else { s with queue := s.queue ++ [TaskKind.persist] }

/-! ## The tasks -/

/-- The loops of the persisting task from one check of the queue to the next suspension. -/
def persistLoop (localDay : LocalDay) (s : LogState) (recovering : Bool) : LogState :=
  if s.pendingBatches ≠ [] then { s with task := some (.append recovering) }
  else if recovering || s.writeFailureStartedAt = none then { s with task := none }
  else
    let s := bufferInternalLog localDay { s with writeFailureStartedAt := none } .info
    if s.pendingBatches ≠ [] then { s with task := some (.append true) }
    else { s with task := none }

/-- The batches are retained for a retry. -/
def persistFailed (localDay : LocalDay) (s : LogState) : LogState :=
  let s := { s with task := none }
  if s.writeFailureStartedAt = none then
    bufferInternalLog localDay { s with writeFailureStartedAt := some s.now } .error
  else s

/-- The loop over the names up to its next suspension. -/
def maintenanceLoop (localDay : LocalDay) (s : LogState) (today : Int) (deleted compressed : Nat) :
    List LogFile → LogState
  | [] =>
      let s := { s with task := none }
      if 0 < deleted || 0 < compressed then bufferInternalLog localDay s .info else s
  | file :: rest =>
      let ageDays := today - file.day
      let loop : Maintenance := ⟨today, rest, deleted, compressed⟩
      if s.settings.retentionDays ≤ ageDays then
        { s with task := some (.expire file s.settings.retentionDays loop) }
      else if !file.archived && s.settings.compressAfterDays ≤ ageDays then
        if (s.archive file.day).isSome then { s with task := some (.leftover file.day loop) }
        else { s with task := some (.gzip file.day loop) }
      else maintenanceLoop localDay s today deleted compressed rest

def fileLines (s : LogState) (file : LogFile) : Option (List LogEntry) :=
  if file.archived then s.archive file.day else s.text file.day

def removeFile (s : LogState) (file : LogFile) : LogState :=
  if file.archived then { s with archive := Function.update s.archive file.day none }
  else { s with text := Function.update s.text file.day none }

def releaseFile (s : LogState) (file : LogFile) (lines : List LogEntry)
    (maintenance : Option (Int × Nat)) : LogState :=
  { removeFile s file with
    released := s.released ++ lines.map (·.id)
    releases := s.releases ++ [⟨file.day, maintenance⟩] }

/-- What the running task waits for succeeds; a file that is not there cannot be unlinked. -/
def taskSucceeds (localDay : LocalDay) (s : LogState) : LogTask → Option LogState
  | .persistMkdir => some (persistLoop localDay s false)
  | .append recovering =>
      match s.pendingBatches with
      | [] => none
      | batch :: rest =>
          let lines := (s.text batch.day).getD [] ++ batch.lines
          some (persistLoop localDay
            { s with text := Function.update s.text batch.day (some lines), pendingBatches := rest }
            recovering)
  | .maintenanceMkdir => some { s with task := some (.readdir (localDay s.now)) }
  | .readdir _ => none
  | .expire file retentionDays loop =>
      (fileLines s file).map fun lines =>
        maintenanceLoop localDay (releaseFile s file lines (some (loop.today, retentionDays)))
          loop.today (loop.deleted + 1) loop.compressed loop.rest
  | .leftover day loop | .unlinkText day loop =>
      (s.text day).map fun _ =>
        maintenanceLoop localDay (removeFile s ⟨day, false⟩) loop.today loop.deleted
          (loop.compressed + 1) loop.rest
  | .gzip day loop =>
      (s.text day).map fun lines => { s with task := some (.rename day lines loop) }
  | .rename day lines loop =>
      some { s with
        archive := Function.update s.archive day (some lines)
        task := some (.unlinkText day loop) }

/-- It throws: the task ends. -/
def taskThrows (localDay : LocalDay) (s : LogState) : LogTask → LogState
  | .persistMkdir | .append _ => persistFailed localDay s
  | _ => { s with task := none }

def logStep (localDay : LocalDay) (s : LogState) : LogAction → Option LogState
  | .clock now => some { s with now }
  | .log timestamp => some (if s.settings.fileEnabled then addLine s timestamp else s)
  | .flush => some (persistBufferedLogs localDay s)
  | .runMaintenance => some { s with queue := s.queue ++ [TaskKind.maintenance] }
  | .updateSettings next => some { s with settings := next, queue := s.queue ++ [TaskKind.maintenance] }
  | .deleteArchive day =>
      (s.archive day).map fun lines => releaseFile s ⟨day, true⟩ lines none
  | .start =>
      match s.task, s.queue with
      | none, .persist :: rest => some { s with task := some .persistMkdir, queue := rest }
      | none, .maintenance :: rest => some { s with task := some .maintenanceMkdir, queue := rest }
      | _, _ => none
  | .proceed succeeds =>
      s.task.bind fun task =>
        if succeeds then taskSucceeds localDay s task else some (taskThrows localDay s task)
  | .listed files =>
      match s.task with
      | some (.readdir today) =>
          if files.all fun file => (fileLines s file).isSome then
            some (maintenanceLoop localDay s today 0 0 files)
          else none
      | _ => none

/-- No line yet. -/
structure StartsLog (s : LogState) : Prop where
  memory : s.buffer = [] ∧ s.pendingBatches = []
  files : (∀ day, s.text day = none) ∧ ∀ day, s.archive day = none
  idle : s.task = none
  history : s.accepted = [] ∧ s.released = [] ∧ s.releases = []

/-! ## The law -/

def linesOf (localDay : LocalDay) (day : Int) (lines : List LogEntry) : List LogEntry :=
  lines.filter fun line => localDay line.timestamp = day

def batchLines (day : Int) (batches : List PendingFileBatch) : List LogEntry :=
  (batches.filter (·.day = day)).flatMap (·.lines)

/-- The text file has been archived and is about to be unlinked. -/
def LogState.leaving (s : LogState) (day : Int) : Bool :=
  match s.task with
  | some (.unlinkText other _) => other = day
  | _ => false

/-- The lines of a day: its archive, its text file unless that has just been archived, the
batches and the buffer. -/
def LogState.held (localDay : LocalDay) (s : LogState) (day : Int) : List LogEntry :=
  (s.archive day).getD [] ++ (if s.leaving day then [] else (s.text day).getD []) ++
    batchLines day s.pendingBatches ++ linesOf localDay day s.buffer

/-- The day was at least `retentionDays` old, or its archive was deleted on request. -/
def Release.due (r : Release) : Prop :=
  ∀ compared ∈ r.maintenance, (compared.2 : Int) ≤ compared.1 - r.day

/-- Every accepted line that is not released is held once, and in the order of the log. -/
structure KeepsLines (localDay : LocalDay) (s : LogState) : Prop where
  ids : (s.accepted.map (·.id)).Nodup
  held : ∀ day, s.held localDay day =
    (linesOf localDay day s.accepted).filter fun line => !s.released.contains line.id
  released : ∀ line ∈ s.accepted, s.released.contains line.id = true →
    ∃ r ∈ s.releases, r.day = localDay line.timestamp ∧ r.due

/-! ## The condition -/

/-- A text file whose day has an archive already is not unlinked, and one that has just been
archived is unlinked without an error. -/
def LogTask.archivesOnce (succeeds : Bool) : LogTask → Bool
  | .leftover .. => !succeeds
  | .unlinkText .. => succeeds
  | _ => true

def ArchivesOnce (s : LogState) : LogAction → Prop
  | .proceed succeeds => (s.task.all (·.archivesOnce succeeds)) = true
  | _ => True

instance (s : LogState) : ∀ a, Decidable (ArchivesOnce s a)
  | .proceed _ => inferInstanceAs (Decidable (_ = true))
  | .clock _ | .log _ | .flush | .runMaintenance | .updateSettings _ | .deleteArchive _ | .start
  | .listed _ => isTrue trivial

end BurrowGate.Logging
