import BurrowGate.Maintenance.CleanupTasks
import Mathlib.Data.Nat.ModEq

/-!
# Which tables a sequence of retention runs reaches

A run attempts at least one batch, and its time may be over after that. The rotation of the
tasks is there to let every table have its turn: it does when every run attempts a third of the
tasks, and it may not when the runs attempt fewer.
-/

namespace BurrowGate.Maintenance

open Lib Lib.Run

/-- What one call of `runRetentionCleanup` finds. -/
structure RetentionRun where
  config : RetentionConfig
  sites : List RetainedSite
  streams : List RetainedStream
  now : Int
  options : CleanupRunOptions

namespace RetentionRun

def kinds (run : RetentionRun) : List CleanupKind :=
  listedKinds run.config.primary (run.sites.map (·.id)) (run.streams.map (·.id))

/-- The tasks of the run, and `cleanupRotation` after it. -/
def tasks (run : RetentionRun) (cleanupRotation : Nat) : List CleanupTask × Nat :=
  cleanupTasks run.config run.sites run.streams run.now cleanupRotation

end RetentionRun

/-- `cleanupRotation` when the `i`-th of the runs begins. -/
def rotationBefore (runs : Nat → RetentionRun) (cleanupRotation : Nat) : Nat → Nat
  | 0 => cleanupRotation
  | i + 1 => ((runs i).tasks (rotationBefore runs cleanupRotation i)).2

/-- `s` is a state of the run `run`. -/
def RunState (run : RetentionRun) (cleanupRotation : Nat) (s : CleanupRun CleanupTask) : Prop :=
  Reach (cleanupStep run.options) Any (· = .start (run.tasks cleanupRotation).1) s

/-- The kinds of the tasks that a run has attempted. -/
def attemptedKinds (s : CleanupRun CleanupTask) : List CleanupKind :=
  s.turns.map CleanupTask.kind

variable {run : RetentionRun} {runs : Nat → RetentionRun} {kinds : List CleanupKind}
  {cleanupRotation r m n : Nat} {s : CleanupRun CleanupTask}

/-! ## One run -/

theorem RetentionRun.map_kind_tasks (run : RetentionRun) (r : Nat) :
    (run.tasks r).1.map CleanupTask.kind = run.kinds.rotate r := by
  rw [RetentionRun.tasks, cleanupTasks, rotateTasks_fst, List.map_rotate, listedTasks_kinds]
  rfl

theorem RetentionRun.length_listedTasks (run : RetentionRun) :
    (listedTasks run.config run.sites run.streams run.now).length = run.kinds.length := by
  rw [RetentionRun.kinds, ← listedTasks_kinds run.config run.sites run.streams run.now,
    List.length_map]

/-- The node has six tasks of its own. -/
theorem RetentionRun.six_le_length_kinds (run : RetentionRun) : 6 ≤ run.kinds.length := by
  unfold RetentionRun.kinds listedKinds
  simp only [List.length_append, nodeKinds, List.length_map, List.length_cons, List.length_nil]
  omega

theorem RetentionRun.tasks_snd (run : RetentionRun) (r : Nat) :
    (run.tasks r).2 = (r + rotationStep run.kinds.length) % run.kinds.length := by
  have hlength := run.six_le_length_kinds
  rw [RetentionRun.tasks, cleanupTasks, rotateTasks, if_pos, run.length_listedTasks]
  rw [run.length_listedTasks]
  omega

theorem firstPass_of_runState (h : RunState run r s) :
    RoundRobin.FirstPass (run.tasks r).1 s.queue s.turns ∧
      s.turns.length = s.attemptedBatches := by
  refine h.invariant (I := fun s => RoundRobin.FirstPass (run.tasks r).1 s.queue s.turns ∧
    s.turns.length = s.attemptedBatches) ?_ ?_
  · intro s h0
    subst h0
    exact ⟨RoundRobin.firstPass_start _, rfl⟩
  · intro s turn s' _ ⟨hfirst, hlength⟩ _ hs
    obtain ⟨task, rest, hqueue, -, hqueue', hattempts, hbatches, -⟩ := cleanupStep_cases hs
    have hturns : s'.turns = s.turns ++ [task] := by
      rw [CleanupRun.turns, hattempts, List.map_append]
      rfl
    rw [hqueue] at hfirst
    rw [hqueue', hturns, hbatches, List.length_append, hlength]
    exact ⟨hfirst.serve _, rfl⟩

/-- A run attempts its first tasks first. -/
theorem mem_attemptedKinds (h : RunState run r s) (hm : m < s.attemptedBatches) {kind : CleanupKind}
    (hkind : (run.kinds.rotate r)[m]? = some kind) : kind ∈ attemptedKinds s := by
  obtain ⟨hfirst, hlength⟩ := firstPass_of_runState h
  rw [← run.map_kind_tasks, List.getElem?_map] at hkind
  obtain ⟨task, htask, rfl⟩ := Option.map_eq_some_iff.mp hkind
  apply List.mem_map_of_mem
  rcases hfirst with ⟨hturns, -⟩ | hpast
  · apply List.mem_of_getElem?
    rw [hturns, List.getElem?_take_of_lt (hm.trans_eq hlength.symm)]
    exact htask
  · exact hpast.subset (List.mem_of_getElem? htask)

/-- As long as a run has not attempted all of its tasks, it has attempted the first ones only. -/
theorem attemptedKinds_eq_take (h : RunState run r s)
    (hbatches : s.attemptedBatches < run.kinds.length) :
    attemptedKinds s = (run.kinds.rotate r).take s.attemptedBatches := by
  obtain ⟨hfirst, hlength⟩ := firstPass_of_runState h
  rcases hfirst with ⟨hturns, -⟩ | hpast
  · rw [attemptedKinds, hturns, List.map_take, run.map_kind_tasks, hlength]
  · have hle := hpast.length_le
    have htasks := congrArg List.length (run.map_kind_tasks r)
    rw [List.length_map, List.length_rotate] at htasks
    omega

/-! ## Many runs -/

theorem rotationBefore_modEq (hkinds : ∀ i, (runs i).kinds = kinds) (cleanupRotation i j : Nat) :
    rotationBefore runs cleanupRotation (i + j) ≡
      rotationBefore runs cleanupRotation i + j * rotationStep kinds.length
        [MOD kinds.length] := by
  induction j with
  | zero => rw [Nat.zero_mul]; rfl
  | succ j ih =>
      have hnext : rotationBefore runs cleanupRotation (i + (j + 1)) =
          ((runs (i + j)).tasks (rotationBefore runs cleanupRotation (i + j))).2 := rfl
      rw [hnext, RetentionRun.tasks_snd, hkinds]
      calc _ ≡ rotationBefore runs cleanupRotation (i + j) + rotationStep kinds.length
              [MOD kinds.length] := Nat.mod_modEq _ _
        _ ≡ rotationBefore runs cleanupRotation i + j * rotationStep kinds.length +
              rotationStep kinds.length [MOD kinds.length] := ih.add_right _
        _ = rotationBefore runs cleanupRotation i + (j + 1) * rotationStep kinds.length := by
            rw [Nat.succ_mul, Nat.add_assoc]

theorem le_three_mul_rotationStep (n : Nat) : n ≤ 3 * rotationStep n := by
  unfold rotationStep
  omega

/-- Where the same tables are listed and each run attempts a third of its tasks, three runs one
after the other attempt every task. -/
theorem three_runs_reach_every_table (runs : Nat → RetentionRun) (kinds : List CleanupKind)
    (hkinds : ∀ i, (runs i).kinds = kinds) (cleanupRotation : Nat)
    (ends : Nat → CleanupRun CleanupTask)
    (hends : ∀ i, RunState (runs i) (rotationBefore runs cleanupRotation i) (ends i))
    (hbatches : ∀ i, rotationStep kinds.length ≤ (ends i).attemptedBatches) :
    ∀ i, ∀ kind ∈ kinds, ∃ j, i ≤ j ∧ j < i + 3 ∧ kind ∈ attemptedKinds (ends j) := by
  intro i kind hkind
  obtain ⟨p, hp, rfl⟩ := List.getElem_of_mem hkind
  have hstep : 0 < rotationStep kinds.length := by
    unfold rotationStep
    omega
  -- the distance from the first task of the run `i` to the task at `p`
  obtain ⟨d, hd, hdp⟩ : ∃ d, d < kinds.length ∧
      rotationBefore runs cleanupRotation i + d ≡ p [MOD kinds.length] := by
    refine ⟨(p + (kinds.length - rotationBefore runs cleanupRotation i % kinds.length)) %
      kinds.length, Nat.mod_lt _ (by omega), ?_⟩
    have hle := (Nat.mod_lt (rotationBefore runs cleanupRotation i)
      (show 0 < kinds.length by omega)).le
    calc _ ≡ rotationBefore runs cleanupRotation i % kinds.length +
            (p + (kinds.length - rotationBefore runs cleanupRotation i % kinds.length))
            [MOD kinds.length] := (Nat.mod_modEq _ _).symm.add (Nat.mod_modEq _ _)
      _ = p + kinds.length := by omega
      _ ≡ p [MOD kinds.length] := Nat.add_modEq_right
  have hj : d / rotationStep kinds.length < 3 := by
    rw [Nat.div_lt_iff_lt_mul hstep]
    exact hd.trans_le (le_three_mul_rotationStep _)
  refine ⟨i + d / rotationStep kinds.length, Nat.le_add_right _ _, by omega, ?_⟩
  apply mem_attemptedKinds (hends _) ((Nat.mod_lt d hstep).trans_le (hbatches _))
  rw [hkinds, List.getElem?_rotate ((Nat.mod_lt d hstep).trans_le ?_)]
  · rw [List.getElem?_eq_some_iff]
    have hindex : (d % rotationStep kinds.length +
        rotationBefore runs cleanupRotation (i + d / rotationStep kinds.length)) %
          kinds.length = p := by
      have hmod : d % rotationStep kinds.length +
          rotationBefore runs cleanupRotation (i + d / rotationStep kinds.length) ≡ p
            [MOD kinds.length] := by
        calc _ ≡ d % rotationStep kinds.length + (rotationBefore runs cleanupRotation i +
                d / rotationStep kinds.length * rotationStep kinds.length) [MOD kinds.length] :=
              (rotationBefore_modEq hkinds cleanupRotation i _).add_left _
          _ = rotationBefore runs cleanupRotation i + d := by
              have hdiv := Nat.mod_add_div' d (rotationStep kinds.length)
              omega
          _ ≡ p [MOD kinds.length] := hdp
      exact Eq.trans hmod (Nat.mod_eq_of_lt hp)
    exact ⟨hindex ▸ hp, by simp only [hindex]⟩
  · unfold rotationStep
    omega

/-- A third is needed: where the runs attempt fewer tasks, the same tasks come first over and
over, and one in each third is never attempted. -/
theorem fewer_batches_starve (runs : Nat → RetentionRun) (kinds : List CleanupKind)
    (hnodup : kinds.Nodup) (hkinds : ∀ i, (runs i).kinds = kinds) (m : Nat)
    (hlength : kinds.length = 3 * m) (cleanupRotation : Nat)
    (ends : Nat → CleanupRun CleanupTask)
    (hends : ∀ i, RunState (runs i) (rotationBefore runs cleanupRotation i) (ends i))
    (hbatches : ∀ i, (ends i).attemptedBatches < m) :
    ∃ kind ∈ kinds, ∀ i, kind ∉ attemptedKinds (ends i) := by
  have hsix := (runs 0).six_le_length_kinds
  rw [hkinds] at hsix
  have hstep : rotationStep kinds.length = m := by
    unfold rotationStep
    omega
  have hplace : (cleanupRotation + (m - 1)) % kinds.length < kinds.length :=
    Nat.mod_lt _ (by omega)
  refine ⟨kinds[(cleanupRotation + (m - 1)) % kinds.length], List.getElem_mem hplace,
    fun i hmem => ?_⟩
  have hi := hbatches i
  rw [attemptedKinds_eq_take (hends i) (by rw [hkinds]; omega), hkinds] at hmem
  obtain ⟨k, hk, hget⟩ := List.getElem_of_mem hmem
  rw [List.length_take, List.length_rotate] at hk
  rw [List.getElem_take, List.getElem_rotate, hnodup.getElem_inj_iff] at hget
  -- both places have the same distance from the last one of a third
  have hrotation := rotationBefore_modEq hkinds cleanupRotation 0 i
  rw [Nat.zero_add, hstep] at hrotation
  have hmod : k + (cleanupRotation + i * m) ≡ cleanupRotation + (m - 1) [MOD m] := by
    have hdvd : m ∣ kinds.length := ⟨3, by omega⟩
    exact ((hrotation.add_left k).symm.trans hget).of_dvd hdvd
  have hcancel : k ≡ m - 1 [MOD m] := by
    apply Nat.ModEq.add_right_cancel' cleanupRotation
    calc k + cleanupRotation ≡ k + cleanupRotation + i * m [MOD m] :=
          (Nat.add_mul_mod_self_right _ i m).symm
      _ = k + (cleanupRotation + i * m) := Nat.add_assoc k _ _
      _ ≡ cleanupRotation + (m - 1) [MOD m] := hmod
      _ = m - 1 + cleanupRotation := Nat.add_comm _ _
  have heq := Nat.ModEq.eq_of_lt_of_lt hcancel (by omega) (by omega)
  omega

/-! ## Runs of a node without sites -/

/-- There are runs that attempt so many tasks. -/
theorem exists_runState (run : RetentionRun) (r : Nat) : ∀ count ≤ run.kinds.length,
    ∃ s, RunState run r s ∧ s.attemptedBatches = count ∧
      s.queue.length + count = run.kinds.length
  | 0, _ => by
      refine ⟨_, .start rfl, rfl, ?_⟩
      have hlength := congrArg List.length (run.map_kind_tasks r)
      rw [List.length_map, List.length_rotate] at hlength
      exact hlength
  | count + 1, hcount => by
      obtain ⟨s, hs, hbatches, hqueue⟩ := exists_runState run r count (by omega)
      cases hstep : cleanupStep run.options s ⟨run.options.timeBudgetMs - 1, none⟩ with
      | none =>
          rcases cleanupStep_eq_none.mp hstep with hempty | ⟨-, hover⟩
          · rw [hempty, List.length_nil] at hqueue
            omega
          · dsimp only at hover
            omega
      | some s' =>
          obtain ⟨task, rest, heq, -, hrest, -, hnext, -⟩ := cleanupStep_cases hstep
          have hleft : ¬ Full run.options none := fun ⟨_, hn, _⟩ => by cases hn
          refine ⟨s', .next hs trivial hstep, by omega, ?_⟩
          rw [hrest, RoundRobin.requeue, decide_eq_false hleft]
          rw [heq, List.length_cons] at hqueue
          simp only [Bool.false_eq_true, if_false]
          omega

def exampleRun : RetentionRun := ⟨exampleConfig, [], [], 86400000, exampleOptions⟩

theorem three_runs_reach_every_table_six : ∃ ends : Nat → CleanupRun CleanupTask,
    (∀ i, (ends i).attemptedBatches = 2) ∧
      ∀ i, ∀ kind ∈ exampleRun.kinds, ∃ j, i ≤ j ∧ j < i + 3 ∧ kind ∈ attemptedKinds (ends j) := by
  have hlength : exampleRun.kinds.length = 6 := by decide
  choose ends hends hbatches _ using fun i =>
    exists_runState exampleRun (rotationBefore (fun _ => exampleRun) 4 i) 2 (by omega)
  refine ⟨ends, hbatches, ?_⟩
  apply three_runs_reach_every_table (fun _ => exampleRun) exampleRun.kinds (fun _ => rfl) 4 ends
    hends
  intro i
  rw [hlength, hbatches i]
  decide

theorem fewer_batches_starve_six : ∃ ends : Nat → CleanupRun CleanupTask,
    (∀ i, (ends i).attemptedBatches = 1) ∧
      ∃ kind ∈ exampleRun.kinds, ∀ i, kind ∉ attemptedKinds (ends i) := by
  have hlength : exampleRun.kinds.length = 6 := by decide
  choose ends hends hbatches _ using fun i =>
    exists_runState exampleRun (rotationBefore (fun _ => exampleRun) 4 i) 1 (by omega)
  refine ⟨ends, hbatches, ?_⟩
  apply fewer_batches_starve (fun _ => exampleRun) exampleRun.kinds (by decide) (fun _ => rfl) 2
    hlength 4 ends hends
  intro i
  rw [hbatches i]
  decide

end BurrowGate.Maintenance
