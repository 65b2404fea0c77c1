import BurrowGate.Lib.Log

/-!
# A node's replicated tables and its changelog

The single-writer tables are a partial map from an entity (its type and id) to
its row, and a changelog row deletes the entity's row and inserts the new one,
if there is one. `changelog` is kept in order of `seq`, the order every query
asks for.
-/

namespace BurrowGate.Replication

open Lib.Log

/-- `replication_changelog`; a `none` payload is a delete. -/
structure ReplicationChangelogRow (E V : Type*) where
  seq : Nat
  entity : E
  payload : Option V
  createdAt : Nat
  deriving DecidableEq

abbrev Tables (E V : Type*) := E → Option V

/-- The tables of one database that replication reads or writes: the replicated tables,
`replication_changelog`, `replication_changelog_state` and `replication_cursor`. -/
structure Store (E V : Type*) where
  tables : Tables E V
  changelog : List (ReplicationChangelogRow E V)
  highWatermark : Nat
  lastAppliedSeq : Nat
  bootstrapped : Bool

structure Snapshot (E V : Type*) where
  seq : Nat
  tables : Tables E V

variable {E V : Type*} [DecidableEq E]

def applyChangelogRow (t : Tables E V) (row : ReplicationChangelogRow E V) : Tables E V :=
  Function.update t row.entity row.payload

/-- A mutation of the primary and the changelog entry of its transaction. `skipped` numbers
were lost to rolled-back transactions. -/
def appendChangelogEntry (st : Store E V) (skipped createdAt : Nat) (entity : E)
    (payload : Option V) : Store E V × ReplicationChangelogRow E V :=
  let row := { seq := st.highWatermark + 1 + skipped, entity, payload, createdAt }
  ({ st with
      tables := applyChangelogRow st.tables row
      changelog := st.changelog ++ [row]
      highWatermark := row.seq },
    row)

def changelogSince (st : Store E V) (seq limit : Nat) : List (ReplicationChangelogRow E V) :=
  (st.changelog.filter fun r => seq < r.seq).take limit

def latestChangelogSeq (st : Store E V) : Nat := st.highWatermark

/-- `DELETE … WHERE created_at < cutoff ORDER BY seq LIMIT limit`. -/
def deleteBefore (cutoff : Nat) :
    Nat → List (ReplicationChangelogRow E V) → List (ReplicationChangelogRow E V)
  | _, [] => []
  | 0, rows => rows
  | limit + 1, r :: rows =>
      if r.createdAt < cutoff then deleteBefore cutoff limit rows
      else r :: deleteBefore cutoff (limit + 1) rows

def deleteReplicationChangelogBeforeBatch (st : Store E V) (cutoff limit : Nat) : Store E V :=
  { st with changelog := deleteBefore cutoff limit st.changelog }

/-- `fullSnapshot` and `streamFullSnapshot` read in one consistent transaction. -/
def fullSnapshot (st : Store E V) : Snapshot E V :=
  { seq := st.highWatermark, tables := st.tables }

/-- `reconcileToSnapshot` and `reconcileStagedSnapshot` on the single-writer tables. -/
def reconcileToSnapshot (st : Store E V) (snapshot : Snapshot E V) : Store E V :=
  { st with tables := snapshot.tables }

def applyReplicatedChange (st : Store E V) (row : ReplicationChangelogRow E V) : Store E V :=
  { st with tables := applyChangelogRow st.tables row }

def updateReplicationCursor (st : Store E V) (seq : Nat) : Store E V :=
  { st with lastAppliedSeq := seq }

def markBootstrapped (st : Store E V) (seq : Nat) : Store E V :=
  { st with lastAppliedSeq := seq, bootstrapped := true }

def forceRebootstrap (st : Store E V) : Store E V := { st with bootstrapped := false }

/-! ## Histories -/

/-- The tables after applying `rows` in order. -/
def replay (base : Tables E V) (rows : List (ReplicationChangelogRow E V)) : Tables E V :=
  rows.foldl applyChangelogRow base

abbrev rowSeq (r : ReplicationChangelogRow E V) : Nat := r.seq

@[simp] theorem replay_concat (base : Tables E V) (rows : List (ReplicationChangelogRow E V))
    (r : ReplicationChangelogRow E V) :
    replay base (rows ++ [r]) = applyChangelogRow (replay base rows) r := by
  simp [replay]

/-- A database whose tables and changelog come from the entries `committed`, of which those
numbered at most `removed` have been pruned. -/
structure Store.Logged (base : Tables E V) (committed : List (ReplicationChangelogRow E V))
    (removed : Nat) (st : Store E V) : Prop where
  sorted : Sorted rowSeq committed
  tables : st.tables = replay base committed
  changelog : st.changelog = committed.filter fun r => removed < r.seq
  watermark : ∀ r ∈ committed, r.seq ≤ st.highWatermark
  removed_le : removed ≤ st.highWatermark

section Logged

variable {base : Tables E V} {committed : List (ReplicationChangelogRow E V)} {removed : Nat}
  {st : Store E V}

theorem appendChangelogEntry_seq (st : Store E V) (skipped createdAt : Nat) (entity : E)
    (payload : Option V) :
    st.highWatermark < (appendChangelogEntry st skipped createdAt entity payload).2.seq := by
  simp only [appendChangelogEntry]
  omega

theorem Store.Logged.append (h : st.Logged base committed removed) (skipped createdAt : Nat)
    (entity : E) (payload : Option V) :
    let r := appendChangelogEntry st skipped createdAt entity payload
    r.1.Logged base (committed ++ [r.2]) removed := by
  intro r
  have hseq : st.highWatermark < r.2.seq := appendChangelogEntry_seq st skipped createdAt entity _
  have hnew : ∀ x ∈ committed, x.seq < r.2.seq := fun x hx => (h.watermark x hx).trans_lt hseq
  constructor
  · exact h.sorted.concat hnew
  · rw [replay_concat, ← h.tables]
    rfl
  · have hkeep : removed < r.2.seq := h.removed_le.trans_lt hseq
    simp only [List.filter_append, List.filter_cons, hkeep, decide_true, if_true,
      List.filter_nil, ← h.changelog]
    rfl
  · intro x hx
    rcases List.mem_snoc.mp hx with hx | rfl
    · exact (hnew x hx).le
    · exact le_rfl
  · exact h.removed_le.trans hseq.le

omit [DecidableEq E] in
/-- The rows a batch deletes come before all that it keeps. -/
theorem deleteBefore_drop {cutoff : Nat} :
    ∀ {limit : Nat} {rows : List (ReplicationChangelogRow E V)}, Sorted rowSeq rows →
      (∀ x ∈ rows, ∀ y ∈ rows, x.seq < y.seq → y.createdAt < cutoff → x.createdAt < cutoff) →
      ∃ n, n ≤ rows.length ∧ deleteBefore cutoff limit rows = rows.drop n := by
  intro limit rows hs hmono
  induction rows generalizing limit with
  | nil => exact ⟨0, le_rfl, by cases limit <;> rfl⟩
  | cons r rows ih =>
      obtain ⟨hr, hrows⟩ := List.pairwise_cons.mp hs
      have hrest : ∀ x ∈ rows, ∀ y ∈ rows, x.seq < y.seq → y.createdAt < cutoff →
          x.createdAt < cutoff := fun x hx y hy =>
        hmono x (List.mem_cons_of_mem _ hx) y (List.mem_cons_of_mem _ hy)
      cases limit with
      | zero => exact ⟨0, Nat.zero_le _, rfl⟩
      | succ limit =>
          simp only [deleteBefore]
          split
          · obtain ⟨n, hn, heq⟩ := @ih limit hrows hrest
            exact ⟨n + 1, Nat.succ_le_succ hn, by rw [heq]; rfl⟩
          · rename_i hkeep
            -- nothing after a row that is kept has expired
            have hnone : ∀ y ∈ rows, ¬ y.createdAt < cutoff := fun y hy hexp =>
              hkeep (hmono r List.mem_cons_self y (List.mem_cons_of_mem _ hy) (hr y hy) hexp)
            have hsame : ∀ (m : Nat) (l : List (ReplicationChangelogRow E V)),
                (∀ y ∈ l, ¬ y.createdAt < cutoff) → deleteBefore cutoff m l = l := by
              intro m l
              induction l with
              | nil => intro _; cases m <;> rfl
              | cons a l ih =>
                  intro hl
                  cases m with
                  | zero => rfl
                  | succ m =>
                      simp only [deleteBefore, hl a List.mem_cons_self, if_false]
                      rw [ih fun y hy => hl y (List.mem_cons_of_mem _ hy)]
            exact ⟨0, Nat.zero_le _, by rw [hsame _ rows hnone]; rfl⟩

/-- Pruning removes a prefix of the log when rows expire in order of their numbers. -/
theorem Store.Logged.prune (h : st.Logged base committed removed) {cutoff limit : Nat}
    (hmono : ∀ x ∈ st.changelog, ∀ y ∈ st.changelog, x.seq < y.seq → y.createdAt < cutoff →
      x.createdAt < cutoff) :
    ∃ removed', (deleteReplicationChangelogBeforeBatch st cutoff limit).Logged base committed
      removed' := by
  have hsorted : Sorted rowSeq st.changelog := by
    rw [h.changelog]; exact h.sorted.filter _
  obtain ⟨n, -, hdrop⟩ := @deleteBefore_drop E V cutoff limit _ hsorted hmono
  obtain ⟨m, -, hm, heq⟩ := h.sorted.drop_filter removed n
  refine ⟨m, h.sorted, h.tables, ?_, h.watermark, ?_⟩
  · simp only [deleteReplicationChangelogBeforeBatch, hdrop]
    rw [h.changelog]
    exact heq
  · rcases hm with rfl | ⟨r, hr, rfl⟩
    · exact h.removed_le
    · exact h.watermark r hr

end Logged

end BurrowGate.Replication
