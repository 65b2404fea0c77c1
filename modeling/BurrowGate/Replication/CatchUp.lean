import BurrowGate.Replication.Alignment
import BurrowGate.Lib.Run

/-!
# One primary and one replica

The primary commits mutations and prunes its changelog; the replica takes rows
from pushes, heartbeats and connect-time catch-up. `committed` is the history of
all entries ever committed; no handler reads it.
-/

namespace BurrowGate.Replication

open Lib.Log
open Lib.Run

structure System (E V : Type*) where
  primary : Store E V
  committed : List (ReplicationChangelogRow E V)
  pushed : List (ReplicationChangelogRow E V)
  replica : Replica E V Unit

inductive Action (E V : Type*)
  | commit (skipped createdAt : Nat) (entity : E) (payload : Option V)
  | prune (cutoff limit : Nat)
  | push (row : ReplicationChangelogRow E V)
  | connect
  | close
  | hello
  | heartbeat (latestSeq : Nat)
  | change (row : ReplicationChangelogRow E V)
  | resume (i : Nat)
  | fail (i : Nat) (force : Bool)

variable {E V : Type*} [DecidableEq E] [DecidableEq V] {pageSize : Nat} {base : Tables E V}

def step (pageSize : Nat) (s : System E V) : Action E V → Option (System E V)
  | .commit skipped createdAt entity payload =>
      let r := appendChangelogEntry s.primary skipped createdAt entity payload
      some { s with primary := r.1, committed := s.committed ++ [r.2] }
  | .prune cutoff limit =>
      some { s with primary := deleteReplicationChangelogBeforeBatch s.primary cutoff limit }
  | .push row =>
      if row ∈ s.primary.changelog then some { s with pushed := row :: s.pushed } else none
  | .connect => some { s with replica := connectToPrimary s.replica }
  | .close => some { s with replica := handleReplicaClose s.replica }
  | .hello =>
      if s.replica.idle then some { s with replica := proceedAfterKeyVerified s.replica } else none
  | .heartbeat latestSeq =>
      if s.replica.idle ∧ latestSeq ≤ latestChangelogSeq s.primary then
        some { s with replica := handleHeartbeat s.replica latestSeq }
      else none
  | .change row =>
      if s.replica.idle ∧ row ∈ s.pushed then
        some { s with replica := handleChange s.replica row () }
      else none
  | .resume i =>
      match s.replica.handlers[i]? with
      | some h =>
          (resumeHandler pageSize s.primary ()
            { s.replica with handlers := s.replica.handlers.eraseIdx i } h).map
              fun replica => { s with replica }
      | none => none
  | .fail i force =>
      match s.replica.handlers[i]? with
      | some h =>
          (failHandler { s.replica with handlers := s.replica.handlers.eraseIdx i } h force).map
            fun replica => { s with replica }
      | none => none

/-- Both databases hold the same tables and no entry has been logged. -/
def initial (base : Tables E V) (watermark cursor : Nat) (bootstrapped : Bool) : System E V :=
  { primary :=
      { tables := base
        changelog := []
        highWatermark := watermark
        lastAppliedSeq := 0
        bootstrapped := true }
    committed := []
    pushed := []
    replica :=
      { store :=
          { tables := base
            changelog := []
            highWatermark := 0
            lastAppliedSeq := cursor
            bootstrapped := bootstrapped }
        cursor := cursor
        connectionGeneration := 0
        connected := false
        handlers := [] } }

def Initial (base : Tables E V) (s : System E V) : Prop :=
  ∃ watermark cursor bootstrapped, cursor ≤ watermark ∧
    s = initial base watermark cursor bootstrapped

/-! ## The condition on a run -/

/-- The action starts a handler. -/
def Action.startsHandler : Action E V → Bool
  | .hello | .heartbeat _ | .change _ => true
  | _ => false

/-- A batch is pruned only when no surviving row precedes an expired one. A handler starts only
when no handler of an earlier connection is still running. The cursor is always written once
the transaction before it has committed. -/
def InOrder (s : System E V) (a : Action E V) : Prop :=
  (a.startsHandler = true → s.replica.handlers = []) ∧
  match a with
  | .prune cutoff _ =>
      ∀ x ∈ s.primary.changelog, ∀ y ∈ s.primary.changelog, x.seq < y.seq →
        y.createdAt < cutoff → x.createdAt < cutoff
  | .fail i _ => ∀ h ∈ s.replica.handlers[i]?, h.stage.unrecorded = none
  | _ => True

structure Faithful (base : Tables E V) (s : System E V) : Prop where
  logged : ∃ removed, s.primary.Logged base s.committed removed
  pushed : ∀ r ∈ s.pushed, r ∈ s.committed
  replica : ReplicaOk base s.committed s.primary.highWatermark (fun _ => True) s.replica

/-! ## Runs -/

omit [DecidableEq V] in
theorem faithful_initial {s : System E V} (h : Initial base s) : Faithful base s := by
  obtain ⟨watermark, cursor, bootstrapped, hle, rfl⟩ := h
  refine ⟨⟨watermark, ?_⟩, by simp [initial], ?_⟩
  · exact ⟨List.Pairwise.nil, rfl, rfl, by simp [initial], le_rfl⟩
  · exact .stopped rfl hle rfl

theorem step_faithful {s s' : System E V} {a : Action E V} (hs : Faithful base s)
    (hc : InOrder s a) (h : step pageSize s a = some s') : Faithful base s' := by
  obtain ⟨⟨removed, hl⟩, hpushed, hreplica⟩ := hs
  obtain ⟨hstart, hprune⟩ := hc
  cases a with
  | commit skipped createdAt entity payload =>
      obtain rfl := Option.some.inj h
      have hlt := appendChangelogEntry_seq s.primary skipped createdAt entity payload
      refine ⟨⟨removed, hl.append skipped createdAt entity payload⟩,
        fun r hr => List.mem_append_left _ (hpushed r hr), ?_⟩
      exact hreplica.concat (fun x hx => (hl.watermark x hx).trans_lt hlt) hlt le_rfl
  | prune cutoff limit =>
      obtain rfl := Option.some.inj h
      exact ⟨hl.prune hprune, hpushed, hreplica⟩
  | push row =>
      obtain ⟨hmem, rfl⟩ := of_guard h
      refine ⟨⟨removed, hl⟩, fun r hr => ?_, hreplica⟩
      rcases List.mem_cons.mp hr with rfl | hr
      · rw [hl.changelog] at hmem
        exact List.mem_of_mem_filter hmem
      · exact hpushed r hr
  | connect =>
      obtain rfl := Option.some.inj h
      exact ⟨⟨removed, hl⟩, hpushed, ⟨hreplica.1, hreplica.2, hreplica.3, hreplica.4⟩⟩
  | close =>
      obtain rfl := Option.some.inj h
      exact ⟨⟨removed, hl⟩, hpushed, ⟨hreplica.1, hreplica.2, hreplica.3, hreplica.4⟩⟩
  | hello =>
      obtain ⟨-, rfl⟩ := of_guard h
      exact ⟨⟨removed, hl⟩, hpushed, proceedAfterKeyVerified_ok (hstart rfl) hreplica⟩
  | heartbeat latestSeq =>
      obtain ⟨-, rfl⟩ := of_guard h
      exact ⟨⟨removed, hl⟩, hpushed, handleHeartbeat_ok (hstart rfl) hreplica latestSeq⟩
  | change row =>
      obtain ⟨⟨-, hrow⟩, rfl⟩ := of_guard h
      exact ⟨⟨removed, hl⟩, hpushed,
        handleChange_ok hl.sorted (hstart rfl) hreplica fun _ => hpushed row hrow⟩
  | resume i =>
      simp only [step] at h
      split at h
      · rename_i k hk
        obtain ⟨r', hr', rfl⟩ := Option.map_eq_some_iff.mp h
        obtain ⟨hone, hrest⟩ := hreplica.running hk
        have hpos : s.replica.position = k.stage.unrecorded.getD s.replica.cursor :=
          position_of_single hone
        refine ⟨⟨removed, hl⟩, hpushed, resumeHandler_ok hl.sorted hl.watermark
          (fun _ => ⟨⟨removed, hl⟩, le_rfl⟩) (fun _ => trivial) ?_ ?_ ?_ hrest hr'⟩
        · exact hpos ▸ hreplica.tables
        · exact hpos ▸ hreplica.position
        · exact hreplica.stage k (by rw [hone]; exact List.mem_cons_self)
      · cases h
  | fail i force =>
      simp only [step] at h
      split at h
      · rename_i k hk
        obtain ⟨r', hr', rfl⟩ := Option.map_eq_some_iff.mp h
        obtain ⟨hone, hrest⟩ := hreplica.running hk
        have hrec : k.stage.unrecorded = none := hprune k hk
        have hpos : s.replica.position = s.replica.cursor :=
          position_of_recorded (by rw [Replica.Recorded, hone]; simpa using hrec)
        refine ⟨⟨removed, hl⟩, hpushed, failHandler_ok hrec ?_ ?_ hrest hr'⟩
        · exact hpos ▸ hreplica.tables
        · exact hpos ▸ hreplica.position
      · cases h

/-- The invariant of every run that prunes in order and overlaps no handlers. -/
theorem reach_faithful {s : System E V} (h : Reach (step pageSize) InOrder (Initial base) s) :
    Faithful base s :=
  h.invariant (fun _ => faithful_initial) fun _ _ _ _ hs hc hstep => step_faithful hs hc hstep

/-- The replica's tables are what the log prescribes at the number it has reached, and at its
cursor except between a transaction and its cursor write. -/
theorem catchUp_skips_nothing {s : System E V}
    (h : Reach (step pageSize) InOrder (Initial base) s) :
    s.replica.store.tables = replay base (upTo rowSeq s.replica.position s.committed) ∧
      (s.replica.Recorded →
        s.replica.store.tables = replay base (upTo rowSeq s.replica.cursor s.committed)) := by
  have htables := (reach_faithful h).replica.tables
  exact ⟨htables, fun hrec => position_of_recorded hrec ▸ htables⟩

/-! ### Runs on three entries -/

instance (s : System E V) : ∀ a, Decidable (InOrder s a)
  | .prune _ _ => inferInstanceAs (Decidable ((_ → _) ∧ ∀ _ ∈ _, ∀ _ ∈ _, _ → _ → _))
  | .fail i _ => inferInstanceAs (Decidable ((_ → _) ∧ ∀ _ ∈ s.replica.handlers[i]?, _))
  | .commit _ _ _ _ | .push _ | .connect | .close | .hello | .heartbeat _ | .change _ |
    .resume _ => inferInstanceAs (Decidable ((_ → _) ∧ True))

/-- One catch-up that finds at most one page of `n` rows. -/
def catchesUp (n : Nat) : List (Action Nat Nat) :=
  [Action.connect, .hello] ++ List.replicate (6 + 3 * n) (Action.resume 0)

/-- Three entries, of which the second was written while the clock was set back. -/
def commits : List (Action Nat Nat) :=
  [.commit 0 100 0 (some 7), .commit 0 50 1 (some 7), .commit 0 100 2 (some 7)]

theorem catchUp_skips_nothing_pushed : ∃ s : System Nat Nat,
    Reach (step 500) InOrder (Initial fun _ => none) s ∧ s.replica.cursor = 3 ∧
      s.replica.store.tables = replay (fun _ => none) (upTo rowSeq 3 s.committed) := by
  have hrun : ((execIf (step 500) InOrder (initial (fun _ => none) 0 0 true)
      (catchesUp 0 ++ [Action.commit 0 50 0 (some 7), .push ⟨1, 0, some 7, 50⟩, .close,
        .commit 0 100 1 (some 7)] ++ catchesUp 2 ++ [Action.prune 60 10, .change ⟨1, 0, some 7, 50⟩,
          .commit 0 100 2 (some 7), .heartbeat 3] ++ List.replicate 9 (Action.resume 0))).map fun s =>
            (s.replica.cursor, s.replica.handlers.isEmpty)) = some (3, true) := by
    decide +kernel
  obtain ⟨s, hexec, hval⟩ := Option.map_eq_some_iff.mp hrun
  obtain ⟨hcursor, hidle⟩ := Prod.mk.inj hval
  have hstart : Reach (step 500) InOrder (Initial fun _ => none)
      (initial (fun _ => none) 0 0 true : System Nat Nat) :=
    .start ⟨0, 0, true, le_rfl, rfl⟩
  have hreach := execIf_reach hstart hexec
  have hrec : s.replica.Recorded := by
    intro h hh
    rw [List.isEmpty_iff.mp hidle] at hh
    cases hh
  refine ⟨s, hreach, hcursor, ?_⟩
  rw [← hcursor]
  exact (catchUp_skips_nothing hreach).2 hrec

/-- The replica is away while three entries are committed and the second one expires: the page
starts with the next number it needs, and its hole goes unnoticed. -/
theorem catchUp_skips_pruned : ¬ ∀ s : System Nat Nat,
    Reach (step 500) Any (Initial fun _ => none) s → s.replica.Recorded →
      s.replica.store.tables =
        replay (fun _ => none) (upTo rowSeq s.replica.cursor s.committed) := by
  intro hclaim
  have hrun : ((exec (step 500) (initial (fun _ => none) 0 0 true)
      (catchesUp 0 ++ [Action.close] ++ commits ++ [Action.prune 60 10] ++ catchesUp 2)).map fun s =>
        (s.replica.handlers.isEmpty, s.replica.store.tables 1,
          replay (fun _ => none) (upTo rowSeq s.replica.cursor s.committed) 1)) =
            some (true, none, some 7) := by
    decide +kernel
  obtain ⟨s, hexec, hval⟩ := Option.map_eq_some_iff.mp hrun
  obtain ⟨hidle, hpair⟩ := Prod.mk.inj hval
  obtain ⟨hlacks, hlogged⟩ := Prod.mk.inj hpair
  have hstart : Reach (step 500) Any (Initial fun _ => none)
      (initial (fun _ => none) 0 0 true : System Nat Nat) :=
    .start ⟨0, 0, true, le_rfl, rfl⟩
  have hrec : s.replica.Recorded := by
    intro h hh
    rw [List.isEmpty_iff.mp hidle] at hh
    cases hh
  have hsame := congrFun (hclaim s (exec_reach hstart hexec) hrec) 1
  rw [hlacks, hlogged] at hsame
  cases hsame

end BurrowGate.Replication
