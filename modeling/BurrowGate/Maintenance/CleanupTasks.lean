import BurrowGate.Lib.RoundRobin
import BurrowGate.Lib.Run
import Mathlib.Algebra.BigOperators.Group.List.Basic
import Mathlib.Algebra.Ring.Nat

/-!
# `maintenance-service.ts`: retention cleanup

`cleanupTasks` lists one task for every table with a retention time, rotated from run to run.
`runCleanupTasks` runs one batch of each task before it returns to one that has more to delete,
and stops when nothing is left or its time is over. What a batch deletes, whether it throws and
what the clock shows come with the turn.
-/

namespace BurrowGate.Maintenance

open Lib Lib.Run

def DAY_MS : Int := 86400000

inductive NodeKind
  | expiredChallengeArtifacts
  | expiredAdminSessions
  | expiredAcmeChallenges
  | connectivityPing
  | systemMetrics
  | globalNotificationEvents
  | replicationChangelog
  | deadLetteredRelays
  deriving DecidableEq

inductive SiteKind
  | requestEvents
  | bandwidth
  | sessions
  | challengeFlows
  | expiredRules
  | certificateEvents
  | originHealthEvents
  | backendHealthEvents
  | originLatency
  | notificationOutbox
  | notificationEvents
  deriving DecidableEq

inductive StreamKind
  | streamEvents
  | bandwidth
  | originLatency
  | expiredRules
  | notificationOutbox
  | notificationEvents
  deriving DecidableEq

/-- The repository call of a task, with the id of its site or stream. -/
inductive CleanupKind
  | node (kind : NodeKind)
  | site (kind : SiteKind) (siteId : String)
  | stream (kind : StreamKind) (streamId : String)
  deriving DecidableEq

/-- `cutoff` is the time before which rows are deleted. -/
structure CleanupTask where
  kind : CleanupKind
  cutoff : Int
  deriving DecidableEq

/-- `site.event_retention_days`, when the column is set. -/
structure RetainedSite where
  id : String
  eventRetentionDays : Option Nat

structure RetainedStream where
  id : String
  eventRetentionDays : Nat

/-- What `config` says of retention; `primary` is an enabled node with that role. -/
structure RetentionConfig where
  eventRetentionDays : Nat
  connectivityRetentionDays : Nat
  systemMetricsRetentionDays : Nat
  changelogRetentionDays : Nat
  primary : Bool

def SITE_KINDS : List SiteKind :=
  [.requestEvents, .bandwidth, .sessions, .challengeFlows, .expiredRules, .certificateEvents,
    .originHealthEvents, .backendHealthEvents, .originLatency, .notificationOutbox,
    .notificationEvents]

def STREAM_KINDS : List StreamKind :=
  [.streamEvents, .bandwidth, .originLatency, .expiredRules, .notificationOutbox,
    .notificationEvents]

def siteTasks (config : RetentionConfig) (now : Int) (site : RetainedSite) : List CleanupTask :=
  SITE_KINDS.map fun kind => ⟨.site kind site.id,
    now - (site.eventRetentionDays.getD config.eventRetentionDays) * DAY_MS⟩

def streamTasks (now : Int) (stream : RetainedStream) : List CleanupTask :=
  STREAM_KINDS.map fun kind => ⟨.stream kind stream.id, now - stream.eventRetentionDays * DAY_MS⟩

/-- The tasks in the order in which `cleanupTasks` lists them, before it rotates them. -/
def listedTasks (config : RetentionConfig) (sites : List RetainedSite)
    (streams : List RetainedStream) (now : Int) : List CleanupTask :=
  [⟨.node .expiredChallengeArtifacts, now⟩, ⟨.node .expiredAdminSessions, now⟩,
      ⟨.node .expiredAcmeChallenges, now⟩] ++
    sites.flatMap (siteTasks config now) ++
    [⟨.node .connectivityPing, now - config.connectivityRetentionDays * DAY_MS⟩,
      ⟨.node .systemMetrics, now - config.systemMetricsRetentionDays * DAY_MS⟩,
      ⟨.node .globalNotificationEvents, now - config.eventRetentionDays * DAY_MS⟩] ++
    (if config.primary then
      [⟨.node .replicationChangelog, now - config.changelogRetentionDays * DAY_MS⟩,
        ⟨.node .deadLetteredRelays, now - config.changelogRetentionDays * DAY_MS⟩] else []) ++
    streams.flatMap (streamTasks now)

/-- `Math.max(1, Math.ceil(length / 3))` -/
def rotationStep (length : Nat) : Nat := max 1 ((length + 2) / 3)

/-- The end of `cleanupTasks`: the tasks of this run, and `cleanupRotation` after it. -/
def rotateTasks {τ : Type*} (cleanupRotation : Nat) (tasks : List τ) : List τ × Nat :=
  if tasks.length > 1 then
    let offset := cleanupRotation % tasks.length
    (tasks.drop offset ++ tasks.take offset,
      (cleanupRotation + rotationStep tasks.length) % tasks.length)
  else (tasks, cleanupRotation)

def cleanupTasks (config : RetentionConfig) (sites : List RetainedSite)
    (streams : List RetainedStream) (now : Int) (cleanupRotation : Nat) : List CleanupTask × Nat :=
  rotateTasks cleanupRotation (listedTasks config sites streams now)

theorem rotateTasks_fst {τ : Type*} (cleanupRotation : Nat) (tasks : List τ) :
    (rotateTasks cleanupRotation tasks).1 = tasks.rotate cleanupRotation := by
  unfold rotateTasks
  split
  · exact List.rotate_eq_drop_append_take_mod.symm
  · rename_i hlength
    rcases tasks with _ | ⟨t, _ | ⟨u, rest⟩⟩
    · rfl
    · exact (List.rotate_singleton t cleanupRotation).symm
    · simp at hlength

/-! ## The loop -/

structure CleanupRunOptions where
  batchSize : Nat
  pauseMs : Nat
  timeBudgetMs : Int

/-- One iteration: `clock() - startedAt` when the loop checks it, and the rows that `task.run()`
deletes, or that it rejects. -/
structure CleanupTurn where
  elapsedMs : Int
  count : Option Nat

/-- `attempts` are the calls of `run` with their outcomes, `waits` the pauses. -/
structure CleanupRun (τ : Type*) where
  queue : List τ
  deleted : Nat
  attemptedBatches : Nat
  errors : Nat
  waits : Nat
  attempts : List (τ × Option Nat)

variable {τ : Type*} {options : CleanupRunOptions} {tasks : List τ} {s s' : CleanupRun τ}
  {turn : CleanupTurn} {t u : τ}

def CleanupRun.start (tasks : List τ) : CleanupRun τ := ⟨tasks, 0, 0, 0, 0, []⟩

/-- The condition of the loop. -/
def continues (options : CleanupRunOptions) (s : CleanupRun τ) (elapsedMs : Int) : Bool :=
  s.attemptedBatches == 0 || elapsedMs < options.timeBudgetMs

/-- One iteration of `runCleanupTasks`; `none` where the loop ends. -/
def cleanupStep (options : CleanupRunOptions) (s : CleanupRun τ) (turn : CleanupTurn) :
    Option (CleanupRun τ) :=
  match s.queue with
  | [] => none
  | task :: rest =>
      if continues options s turn.elapsedMs then
        match turn.count with
        | none =>
            some { s with
              queue := rest
              attemptedBatches := s.attemptedBatches + 1
              errors := s.errors + 1
              attempts := s.attempts ++ [(task, none)] }
        | some count =>
            let queue := if count ≥ options.batchSize then rest ++ [task] else rest
            some { s with
              queue
              attemptedBatches := s.attemptedBatches + 1
              deleted := s.deleted + count
              waits := if count > 0 && options.pauseMs > 0 && queue.length > 0 then s.waits + 1
                else s.waits
              attempts := s.attempts ++ [(task, some count)] }
      else none

/-- A batch that may have left rows to delete. -/
def Full (options : CleanupRunOptions) (count : Option Nat) : Prop :=
  ∃ n ∈ count, options.batchSize ≤ n

instance : DecidablePred (Full options) := fun count =>
  match count with
  | none => isFalse fun ⟨_, hn, _⟩ => by cases hn
  | some n => decidable_of_iff (options.batchSize ≤ n) ⟨fun h => ⟨n, rfl, h⟩, fun ⟨_, hn, h⟩ => by
      cases hn; exact h⟩

/-- What an iteration does to the queue and the attempts. -/
theorem cleanupStep_cases (h : cleanupStep options s turn = some s') :
    ∃ task rest, s.queue = task :: rest ∧ continues options s turn.elapsedMs = true ∧
      s'.queue = RoundRobin.requeue (decide (Full options turn.count)) task rest ∧
      s'.attempts = s.attempts ++ [(task, turn.count)] ∧
      s'.attemptedBatches = s.attemptedBatches + 1 ∧
      s'.deleted = s.deleted + turn.count.getD 0 ∧
      s'.errors = s.errors + (if turn.count = none then 1 else 0) := by
  unfold cleanupStep at h
  split at h
  · cases h
  rename_i task rest hqueue
  split at h
  · rename_i hcontinues
    refine ⟨task, rest, hqueue, hcontinues, ?_⟩
    split at h
    · rename_i hcount
      obtain rfl := Option.some.inj h
      rw [hcount]
      have hfull : ¬ Full options none := fun ⟨_, hn, _⟩ => by cases hn
      simp [RoundRobin.requeue, hfull]
    · rename_i count hcount
      obtain rfl := Option.some.inj h
      rw [hcount]
      have hfull : Full options (some count) ↔ options.batchSize ≤ count :=
        ⟨fun ⟨_, hn, h⟩ => by cases hn; exact h, fun h => ⟨count, rfl, h⟩⟩
      simp [RoundRobin.requeue, hfull]
  · cases h

/-- The loop ends with an empty queue, or after a batch when its time is over. -/
theorem cleanupStep_eq_none :
    cleanupStep options s turn = none ↔
      s.queue = [] ∨ (s.attemptedBatches ≠ 0 ∧ options.timeBudgetMs ≤ turn.elapsedMs) := by
  unfold cleanupStep
  cases hqueue : s.queue with
  | nil => simp
  | cons task rest =>
      have hcontinues : continues options s turn.elapsedMs = false ↔
          s.attemptedBatches ≠ 0 ∧ options.timeBudgetMs ≤ turn.elapsedMs := by
        simp [continues]
      rw [← hcontinues]
      cases hc : continues options s turn.elapsedMs with
      | false => simp
      | true => cases hcount : turn.count <;> simp

theorem mem_requeue {again : Bool} {rest : List τ} :
    u ∈ RoundRobin.requeue again t rest ↔ u ∈ rest ∨ (again = true ∧ u = t) := by
  cases again <;> simp [RoundRobin.requeue]

/-! ## Every task gets its turn -/

/-- The tasks in the order of their attempts. -/
def CleanupRun.turns (s : CleanupRun τ) : List τ := s.attempts.map Prod.fst

variable [DecidableEq τ]

/-- The outcomes of the attempts of one task, first to last. -/
def CleanupRun.outcomes (s : CleanupRun τ) (t : τ) : List (Option Nat) :=
  (s.attempts.filter (·.1 = t)).map Prod.snd

/-- What a task has been told of its rows: a task waits as long as each of its batches was
full, and has left with its first batch that was not. -/
def Drained (options : CleanupRunOptions) (s : CleanupRun τ) (t : τ) : Prop :=
  ∃ full last, s.outcomes t = full ++ [last] ∧ (∀ count ∈ full, Full options count) ∧
    ¬ Full options last

structure FairRun (options : CleanupRunOptions) (tasks : List τ) (s : CleanupRun τ) : Prop where
  rounds : RoundRobin.Rounds tasks s.queue s.turns
  firstPass : RoundRobin.FirstPass tasks s.queue s.turns
  waiting : ∀ t ∈ s.queue, ∀ count ∈ s.outcomes t, Full options count
  left : ∀ t ∈ tasks, t ∉ s.queue → Drained options s t
  batches : s.attemptedBatches = s.attempts.length
  rows : s.deleted = (s.attempts.map fun a => a.2.getD 0).sum
  failures : s.errors = s.attempts.countP (·.2 = none)

theorem fairRun_start : FairRun options tasks (.start tasks) where
  rounds := RoundRobin.rounds_start tasks
  firstPass := RoundRobin.firstPass_start tasks
  waiting t _ count hcount := by cases hcount
  left t ht hleft := absurd ht hleft
  batches := rfl
  rows := rfl
  failures := rfl

theorem FairRun.step (htasks : tasks.Nodup) (h : FairRun options tasks s)
    (hs : cleanupStep options s turn = some s') : FairRun options tasks s' := by
  obtain ⟨task, rest, hqueue, -, hqueue', hattempts, hbatches, hdeleted, herrors⟩ :=
    cleanupStep_cases hs
  have hturns : s'.turns = s.turns ++ [task] := by
    rw [CleanupRun.turns, hattempts, List.map_append]
    rfl
  have hself : s'.outcomes task = s.outcomes task ++ [turn.count] := by
    simp [CleanupRun.outcomes, hattempts]
  have hother : ∀ u, u ≠ task → s'.outcomes u = s.outcomes u := by
    intro u hu
    simp [CleanupRun.outcomes, hattempts, hu.symm]
  have hrounds := h.rounds
  have hfirst := h.firstPass
  rw [hqueue] at hrounds hfirst
  have hrest : task ∉ rest := by
    obtain ⟨ahead, behind, round, rfl, hround⟩ := hrounds.head
    have hnodup := hround.nodup htasks
    rw [List.nodup_append] at hnodup
    intro hmem
    rcases List.mem_append.mp hmem with hmem | hmem
    · exact (List.nodup_cons.mp hnodup.2.1).1 hmem
    · exact hnodup.2.2 task hmem task List.mem_cons_self rfl
  constructor
  · rw [hqueue', hturns]
    exact hrounds.serve htasks _
  · rw [hqueue', hturns]
    exact hfirst.serve _
  · intro u hu count hcount
    rw [hqueue', mem_requeue] at hu
    by_cases htask : u = task
    · subst htask
      obtain ⟨hagain, -⟩ := hu.resolve_left hrest
      rw [hself, List.mem_append, List.mem_singleton] at hcount
      rcases hcount with hcount | rfl
      · exact h.waiting u (hqueue ▸ List.mem_cons_self) count hcount
      · exact of_decide_eq_true hagain
    · rw [hother u htask] at hcount
      have hmem : u ∈ s.queue := hqueue ▸ List.mem_cons_of_mem task (hu.resolve_right fun h => htask h.2)
      exact h.waiting u hmem count hcount
  · intro u hu hleft
    rw [hqueue', mem_requeue, not_or] at hleft
    by_cases htask : u = task
    · subst htask
      refine ⟨s.outcomes u, turn.count, hself, h.waiting u (hqueue ▸ List.mem_cons_self), ?_⟩
      intro hfull
      exact hleft.2 ⟨decide_eq_true hfull, rfl⟩
    · have hmem : u ∉ s.queue := by
        rw [hqueue, List.mem_cons, not_or]
        exact ⟨htask, hleft.1⟩
      unfold Drained
      rw [hother u htask]
      exact h.left u hu hmem
  · rw [hbatches, hattempts, List.length_append, h.batches]
    rfl
  · rw [hdeleted, hattempts, List.map_append, List.sum_append, h.rows]
    simp
  · rw [herrors, hattempts, List.countP_append, h.failures]
    congr 1
    by_cases hnone : turn.count = none <;> simp [hnone]

theorem fairRun_reach (htasks : tasks.Nodup)
    (h : Reach (cleanupStep options) Any (· = .start tasks) s) : FairRun options tasks s :=
  h.invariant (fun _ h0 => h0 ▸ fairRun_start) fun _ _ _ _ hfair _ hs => hfair.step htasks hs

/-! ## The tasks of a run -/

def nodeKinds (kinds : List NodeKind) : List CleanupKind := kinds.map .node

def siteKinds (siteIds : List String) : List CleanupKind :=
  siteIds.flatMap fun id => SITE_KINDS.map (.site · id)

def streamKinds (streamIds : List String) : List CleanupKind :=
  streamIds.flatMap fun id => STREAM_KINDS.map (.stream · id)

/-- The kinds of the tasks, which depend on the ids and on the role only. -/
def listedKinds (primary : Bool) (siteIds streamIds : List String) : List CleanupKind :=
  nodeKinds [.expiredChallengeArtifacts, .expiredAdminSessions, .expiredAcmeChallenges] ++
    siteKinds siteIds ++
    nodeKinds [.connectivityPing, .systemMetrics, .globalNotificationEvents] ++
    nodeKinds (if primary then [.replicationChangelog, .deadLetteredRelays] else []) ++
    streamKinds streamIds

theorem listedTasks_kinds (config : RetentionConfig) (sites : List RetainedSite)
    (streams : List RetainedStream) (now : Int) :
    (listedTasks config sites streams now).map CleanupTask.kind =
      listedKinds config.primary (sites.map (·.id)) (streams.map (·.id)) := by
  have hsites : (sites.flatMap (siteTasks config now)).map CleanupTask.kind =
      siteKinds (sites.map (·.id)) := by
    simp [siteKinds, List.map_flatMap, List.flatMap_map, siteTasks, Function.comp_def]
  have hstreams : (streams.flatMap (streamTasks now)).map CleanupTask.kind =
      streamKinds (streams.map (·.id)) := by
    simp [streamKinds, List.map_flatMap, List.flatMap_map, streamTasks, Function.comp_def]
  unfold listedTasks listedKinds
  rw [List.map_append, List.map_append, List.map_append, List.map_append, hsites, hstreams]
  cases config.primary <;> rfl

theorem siteKinds_nodup {siteIds : List String} (h : siteIds.Nodup) :
    (siteKinds siteIds).Nodup := by
  refine List.nodup_flatMap.mpr ⟨fun id _ => ?_, h.imp fun {id id'} hne => ?_⟩
  · exact (show SITE_KINDS.Nodup by decide).map fun _ _ heq => (CleanupKind.site.inj heq).1
  · intro kind hkind hkind'
    obtain ⟨_, -, rfl⟩ := List.mem_map.mp hkind
    obtain ⟨_, -, heq⟩ := List.mem_map.mp hkind'
    exact hne (CleanupKind.site.inj heq).2.symm

theorem streamKinds_nodup {streamIds : List String} (h : streamIds.Nodup) :
    (streamKinds streamIds).Nodup := by
  refine List.nodup_flatMap.mpr ⟨fun id _ => ?_, h.imp fun {id id'} hne => ?_⟩
  · exact (show STREAM_KINDS.Nodup by decide).map fun _ _ heq => (CleanupKind.stream.inj heq).1
  · intro kind hkind hkind'
    obtain ⟨_, -, rfl⟩ := List.mem_map.mp hkind
    obtain ⟨_, -, heq⟩ := List.mem_map.mp hkind'
    exact hne (CleanupKind.stream.inj heq).2.symm

theorem listedKinds_nodup (primary : Bool) {siteIds streamIds : List String}
    (hsites : siteIds.Nodup) (hstreams : streamIds.Nodup) :
    (listedKinds primary siteIds streamIds).Nodup := by
  have hperm : (listedKinds primary siteIds streamIds).Perm
      (nodeKinds ([.expiredChallengeArtifacts, .expiredAdminSessions, .expiredAcmeChallenges,
        .connectivityPing, .systemMetrics, .globalNotificationEvents] ++
          if primary then [.replicationChangelog, .deadLetteredRelays] else []) ++
        (siteKinds siteIds ++ streamKinds streamIds)) := by
    rw [List.perm_iff_count]
    intro kind
    cases primary
    all_goals
      simp only [listedKinds, nodeKinds, List.map_cons, List.map_nil, List.map_append,
        List.count_append, List.count_cons, List.count_nil, if_true, Bool.false_eq_true, if_false]
      omega
  rw [hperm.nodup_iff, List.nodup_append, List.nodup_append]
  refine ⟨by cases primary <;> decide, ⟨siteKinds_nodup hsites, streamKinds_nodup hstreams, ?_⟩, ?_⟩
  · intro kind hkind other hother heq
    simp only [siteKinds, streamKinds, List.mem_flatMap, List.mem_map] at hkind hother
    obtain ⟨_, _, _, _, rfl⟩ := hkind
    obtain ⟨_, _, _, _, rfl⟩ := hother
    cases heq
  · intro kind hkind other hother heq
    simp only [nodeKinds, siteKinds, streamKinds, List.mem_append, List.mem_flatMap,
      List.mem_map] at hkind hother
    obtain ⟨_, _, rfl⟩ := hkind
    rcases hother with ⟨_, _, _, _, rfl⟩ | ⟨_, _, _, _, rfl⟩
    · cases heq
    · cases heq

/-- The tasks of a run are tasks for different rows. -/
theorem cleanupTasks_nodup (config : RetentionConfig) {sites : List RetainedSite}
    {streams : List RetainedStream} (hsites : (sites.map (·.id)).Nodup)
    (hstreams : (streams.map (·.id)).Nodup) (now : Int) (cleanupRotation : Nat) :
    (cleanupTasks config sites streams now cleanupRotation).1.Nodup := by
  have hlisted : (listedTasks config sites streams now).Nodup := by
    apply List.Nodup.of_map CleanupTask.kind
    rw [listedTasks_kinds]
    exact listedKinds_nodup config.primary hsites hstreams
  rw [cleanupTasks, rotateTasks_fst]
  exact List.nodup_rotate.mpr hlisted

/-- What holds of a run on `tasks`, wherever it stands. -/
structure InTurn (options : CleanupRunOptions) (tasks : List CleanupTask)
    (s : CleanupRun CleanupTask) : Prop where
  /-- No task is ahead of one that still waits by more than one batch. -/
  turns : ∀ t, ∀ u ∈ s.queue, s.turns.count t ≤ s.turns.count u + 1
  /-- The first pass keeps the order of the tasks. -/
  order : s.turns <+: tasks ∨ tasks <+: s.turns
  /-- A task waits as long as its batches were full, and leaves with the first that was not. -/
  again : ∀ t ∈ tasks, if t ∈ s.queue then ∀ count ∈ s.outcomes t, Full options count
    else Drained options s t
  batches : s.attemptedBatches = s.attempts.length
  rows : s.deleted = (s.attempts.map fun a => a.2.getD 0).sum
  failures : s.errors = s.attempts.countP (·.2 = none)
  /-- The loop stops when every task has left, or after a batch when its time is over. -/
  stops : ∀ turn, cleanupStep options s turn = none →
    (∀ t ∈ tasks, Drained options s t) ∨
      s.attempts ≠ [] ∧ options.timeBudgetMs ≤ turn.elapsedMs

theorem FairRun.inTurn {tasks : List CleanupTask} {s : CleanupRun CleanupTask}
    (h : FairRun options tasks s) : InTurn options tasks s where
  turns t u hu := h.rounds.count_le hu t
  order := by
    rcases h.firstPass with ⟨hturns, -⟩ | hpast
    · rw [hturns]
      exact .inl (List.take_prefix _ _)
    · exact .inr hpast
  again t ht := by
    split
    · rename_i hwaits
      exact h.waiting t hwaits
    · rename_i hleft
      exact h.left t ht hleft
  batches := h.batches
  rows := h.rows
  failures := h.failures
  stops turn hstop := by
    rcases cleanupStep_eq_none.mp hstop with hempty | ⟨hbatches, hover⟩
    · left
      intro t ht
      exact h.left t ht (by simp [hempty])
    · refine .inr ⟨?_, hover⟩
      intro hnone
      rw [h.batches, hnone] at hbatches
      exact hbatches rfl

/-- A retention run deletes in turns, whatever its batches delete and however long they take. -/
theorem cleanup_round_robin (config : RetentionConfig) (sites : List RetainedSite)
    (streams : List RetainedStream) (hsites : (sites.map (·.id)).Nodup)
    (hstreams : (streams.map (·.id)).Nodup) (now : Int) (cleanupRotation : Nat)
    (options : CleanupRunOptions) (s : CleanupRun CleanupTask)
    (h : Reach (cleanupStep options) Any
      (· = .start (cleanupTasks config sites streams now cleanupRotation).1) s) :
    InTurn options (cleanupTasks config sites streams now cleanupRotation).1 s :=
  (fairRun_reach (cleanupTasks_nodup config hsites hstreams now cleanupRotation) h).inTurn

def exampleConfig : RetentionConfig := ⟨30, 7, 7, 14, false⟩

def exampleOptions : CleanupRunOptions := ⟨2, 10, 100⟩

/-- The first task has two full batches and a third one; another one throws. -/
def exampleTurns : List CleanupTurn :=
  [⟨0, some 2⟩, ⟨5, some 0⟩, ⟨9, none⟩, ⟨12, some 1⟩, ⟨20, some 0⟩, ⟨21, some 0⟩, ⟨40, some 2⟩,
    ⟨99, some 1⟩]

theorem cleanup_round_robin_drained : ∃ s,
    exec (cleanupStep exampleOptions)
      (.start (cleanupTasks exampleConfig [] [] 86400000 4).1) exampleTurns = some s ∧
    s.queue = [] ∧ s.deleted = 6 ∧ s.errors = 1 ∧
    InTurn exampleOptions (cleanupTasks exampleConfig [] [] 86400000 4).1 s := by
  have hrun : (exec (cleanupStep exampleOptions)
      (.start (cleanupTasks exampleConfig [] [] 86400000 4).1) exampleTurns).any (fun s =>
        s.queue = [] ∧ s.deleted = 6 ∧ s.errors = 1) = true := by decide +kernel
  obtain ⟨s, hs, hfacts⟩ := (Option.any_eq_true ..).mp hrun
  obtain ⟨hqueue, hdeleted, herrors⟩ := of_decide_eq_true hfacts
  exact ⟨s, hs, hqueue, hdeleted, herrors,
    cleanup_round_robin exampleConfig [] [] List.nodup_nil List.nodup_nil 86400000 4
      exampleOptions s (exec_reach (.start rfl) hs)⟩

end BurrowGate.Maintenance
