import Mathlib.Data.List.Perm.Basic
import BurrowGate.Lib.Run

/-!
# Read, compute, write: interleaved scripts over one store

A script awaits queries and ends with one write computed from their answers. Scripts of
several clients interleave at every query. The store has no locks and a write is not
validated, so the last writer wins.

`Undisturbed` is the condition that optimistic validation would enforce: a commit leaves
every answer that an open script has been given as it is. Under it the store is what the
completed scripts produce one after the other in the order of their writes.
-/

namespace BurrowGate.Lib.Optimistic

open Lib.Run

/-- Find a row, insert a fresh one when there is none. -/
structure GetOrCreate (σ β : Type) where
  find : σ → Option β
  insert : σ → σ
  fresh : β

/-- A client's work; every node but `fail` is an awaited statement. -/
inductive Script (σ ε : Type) : Type 1
  | fail (error : ε)
  | read {β : Type} (eq : DecidableEq β) (query : σ → β) (next : β → Script σ ε)
  | getOrCreate {β : Type} (eq : DecidableEq β) (g : GetOrCreate σ β) (next : β → Script σ ε)
  | write (update : σ → σ)

/-- Where a `getOrCreate` is: before the query, before the insert, or before the query that
follows an insert refused because the row is there by then. -/
inductive Phase
  | finding
  | inserting
  | refetching

variable {σ ε α : Type}

/-- The script run in one go. -/
def Script.exec : Script σ ε → σ → Except ε σ
  | .fail error, _ => .error error
  | .read _ query next, db => (next (query db)).exec db
  | .getOrCreate _ g next, db =>
      match g.find db with
      | some row => (next row).exec db
      | none => (next g.fresh).exec (g.insert db)
  | .write update, db => .ok (update db)

/-- A started operation: what is left of its script, none after the write, and whether a
store would give the answers that it has been given so far. -/
structure Flight (σ ε α : Type) where
  op : α
  rest : Option (Script σ ε)
  phase : Phase
  agrees : σ → Bool

/-- The operation has neither failed nor written. -/
def Flight.isOpen (f : Flight σ ε α) : Bool :=
  match f.rest with
  | none | some (.fail _) => false
  | some _ => true

/-- A commit: a created row, or the write that completes an operation. -/
inductive Commit (σ α : Type)
  | created (insert : σ → σ)
  | completed (op : α)

structure System (σ ε α : Type) where
  db : σ
  flights : List (Flight σ ε α)
  log : List (Commit σ α)

inductive Action (α : Type)
  | start (op : α)
  | advance (i : Nat)

/-- The answer to `query`, remembered; the flight goes on with `rest`. -/
def Flight.learn {β : Type} (f : Flight σ ε α) (eq : DecidableEq β) (query : σ → β) (answer : β)
    (rest : Script σ ε) : Flight σ ε α :=
  { f with
    rest := some rest
    phase := .finding
    agrees := fun db => f.agrees db && decide (query db = answer) }

/-- One awaited statement of a flight: the flight after it, the store and what it commits. -/
def Flight.advance (db : σ) (f : Flight σ ε α) :
    Option (Flight σ ε α × σ × List (Commit σ α)) :=
  match f.rest, f.phase with
  | none, _ | some (.fail _), _ => none
  | some (.read eq query next), _ =>
      some (f.learn eq query (query db) (next (query db)), db, [])
  | some (.getOrCreate _ g next), .finding =>
      match g.find db with
      | some row => some (f.learn inferInstance g.find (some row) (next row), db, [])
      | none => some ({ f with phase := .inserting }, db, [])
  | some (.getOrCreate _ g next), .inserting =>
      match g.find db with
      | some _ => some ({ f with phase := .refetching }, db, [])
      | none =>
          some (f.learn inferInstance g.find (some g.fresh) (next g.fresh), g.insert db,
            [.created g.insert])
  | some (.getOrCreate _ g next), .refetching =>
      let row := (g.find db).getD g.fresh
      some (f.learn inferInstance g.find (some row) (next row), db, [])
  | some (.write update), _ => some ({ f with rest := none }, update db, [.completed f.op])

def step (script : α → Script σ ε) (s : System σ ε α) : Action α → Option (System σ ε α)
  | .start op => some { s with flights := s.flights ++ [⟨op, some (script op), .finding, fun _ => true⟩] }
  | .advance i =>
      (s.flights[i]?.bind (·.advance s.db)).map fun (f, db, commits) =>
        { db, flights := s.flights.set i f, log := s.log ++ commits }

/-- After the step the store would still give every open flight the answers it has. -/
def Undisturbed (script : α → Script σ ε) (s : System σ ε α) (a : Action α) : Prop :=
  (step script s a).all fun s => s.flights.all fun f => !f.isOpen || f.agrees s.db

instance (script : α → Script σ ε) (s : System σ ε α) (a : Action α) :
    Decidable (Undisturbed script s a) :=
  inferInstanceAs (Decidable (_ = true))

/-- The commits one after the other, each operation run in one go. -/
def replay (script : α → Script σ ε) : List (Commit σ α) → σ → Option σ
  | [], db => some db
  | .created insert :: log, db => replay script log (insert db)
  | .completed op :: log, db => ((script op).exec db).toOption.bind (replay script log)

/-- The operations that a log completes. -/
def completed : List (Commit σ α) → List α
  | [] => []
  | .created _ :: log => completed log
  | .completed op :: log => op :: completed log

/-- The operations whose write is done. -/
def System.finished (s : System σ ε α) : List α :=
  (s.flights.filter (·.rest.isNone)).map (·.op)

/-- Every insert of the script meets `Q`. -/
def Script.Creates (Q : (σ → σ) → Prop) : Script σ ε → Prop
  | .fail _ | .write _ => True
  | .read _ _ next => ∀ answer, (next answer).Creates Q
  | .getOrCreate _ g next => Q g.insert ∧ ∀ row, (next row).Creates Q

/-- If the script completes on `db`, then with a store that meets `post`. -/
def Script.Leads (db : σ) (post : σ → Prop) (script : Script σ ε) : Prop :=
  ∀ db', script.exec db = .ok db' → post db'

variable {script : α → Script σ ε} {f f' : Flight σ ε α} {db db' : σ} {log : List (Commit σ α)}
  {Q : (σ → σ) → Prop} {post : σ → Prop}

/-! ## One script -/

theorem leads_fail (error : ε) : (Script.fail error : Script σ ε).Leads db post := by
  intro db' h
  cases h

theorem leads_read {β : Type} {eq : DecidableEq β} {query : σ → β} {next : β → Script σ ε}
    (h : (next (query db)).Leads db post) : (Script.read eq query next).Leads db post := h

theorem leads_write {update : σ → σ} (h : post (update db)) :
    (Script.write update : Script σ ε).Leads db post := by
  intro db' hexec
  obtain rfl := Except.ok.inj hexec
  exact h

theorem leads_getOrCreate {β : Type} {eq : DecidableEq β} {g : GetOrCreate σ β}
    {next : β → Script σ ε} (hfound : ∀ row, g.find db = some row → (next row).Leads db post)
    (hfresh : g.find db = none → (next g.fresh).Leads (g.insert db) post) :
    (Script.getOrCreate eq g next).Leads db post := by
  intro db' hexec
  rw [Script.exec] at hexec
  split at hexec
  · rename_i row hrow
    exact hfound row hrow db' hexec
  · rename_i hnone
    exact hfresh hnone db' hexec

theorem replay_completed {op : α} : replay script (.completed op :: log) db = some db' ↔
    ∃ t, (script op).exec db = .ok t ∧ replay script log t = some db' := by
  cases hexec : (script op).exec db with
  | error e => simp [replay, hexec, Except.toOption]
  | ok t => simp [replay, hexec, Except.toOption]

/-- What the inserts and the completed operations of a log keep is kept by its replay. -/
theorem replay_invariant (hinsert : ∀ insert, .created insert ∈ log → ∀ t, post t → post (insert t))
    (hop : ∀ op ∈ completed log, ∀ t, post t → (script op).Leads t post)
    (hreplay : replay script log db = some db') (h : post db) : post db' := by
  induction log generalizing db with
  | nil =>
      obtain rfl := Option.some.inj hreplay
      exact h
  | cons c log ih =>
      have hinsert' := fun insert hmem => hinsert insert (List.mem_cons_of_mem c hmem)
      cases c with
      | created insert => exact ih hinsert' hop hreplay (hinsert insert List.mem_cons_self db h)
      | completed op =>
          obtain ⟨t, hexec, hrest⟩ := replay_completed.mp hreplay
          exact ih hinsert' (fun o ho => hop o (List.mem_cons_of_mem op ho)) hrest
            (hop op List.mem_cons_self db h t hexec)

/-! ## One flight -/

/-- An open flight's answers are those of the store, and from a store that gives them its
script comes to what is left of it. -/
structure Flight.Sound (script : α → Script σ ε) (db : σ) (f : Flight σ ε α) : Prop where
  agrees : f.isOpen → f.agrees db
  resumes : ∀ rest, f.rest = some rest → ∀ t, f.agrees t → (script f.op).exec t = rest.exec t

@[simp] theorem learn_agrees {β : Type} {eq : DecidableEq β} {query : σ → β} {answer : β}
    {rest : Script σ ε} (t : σ) :
    (f.learn eq query answer rest).agrees t ↔ f.agrees t ∧ query t = answer := by
  simp [Flight.learn]

/-- A flight stays sound when what it learns decides what is left of its script. -/
theorem Flight.Sound.learn {β : Type} {eq : DecidableEq β} {query : σ → β} {answer : β}
    {rest next : Script σ ε} (h : f.Sound script db) (hrest : f.rest = some rest)
    (hagrees : (f.learn eq query answer next).isOpen → (f.learn eq query answer next).agrees db')
    (hnext : ∀ t, query t = answer → rest.exec t = next.exec t) :
    (f.learn eq query answer next).Sound script db' where
  agrees := hagrees
  resumes := by
    intro r hr t ht
    obtain rfl := Option.some.inj hr
    obtain ⟨hf, hq⟩ := (learn_agrees t).mp ht
    exact (h.resumes rest hrest t hf).trans (hnext t hq)

/-- A statement learns something, perhaps by creating a row, or waits, or writes. -/
theorem advance_cases (hstep : f.advance db = some (f', db', log)) :
    (∃ (β : Type) (eq : DecidableEq β) (query : σ → β) (answer : β) (rest next : Script σ ε),
      f.rest = some rest ∧ f' = f.learn eq query answer next ∧
        (∀ t, query t = answer → rest.exec t = next.exec t) ∧
        (∀ Q, rest.Creates Q → next.Creates Q) ∧
        (db' = db ∧ log = [] ∨ ∃ insert, (∀ Q, rest.Creates Q → Q insert) ∧ db' = insert db ∧
          log = [.created insert])) ∨
    (∃ phase, f.rest.isSome ∧ f' = { f with phase } ∧ db' = db ∧ log = []) ∨
    (∃ update, f.rest = some (.write update) ∧ f' = { f with rest := none } ∧ db' = update db ∧
      log = [.completed f.op]) := by
  rcases hrest : f.rest with _ | ⟨error⟩ | ⟨eq, query, next⟩ | ⟨eq, g, next⟩ | ⟨update⟩
  · simp [Flight.advance, hrest] at hstep
  · simp [Flight.advance, hrest] at hstep
  · simp only [Flight.advance, hrest, Option.some.injEq, Prod.mk.injEq] at hstep
    obtain ⟨rfl, rfl, rfl⟩ := hstep
    refine .inl ⟨_, eq, query, query db, _, _, rfl, rfl, fun t ht => ?_, (fun Q h => h _),
      .inl ⟨rfl, rfl⟩⟩
    rw [Script.exec, ht]
  · have hfound : ∀ row t, g.find t = some row →
        (Script.getOrCreate eq g next).exec t = (next row).exec t := by
      intro row t ht
      rw [Script.exec, ht]
    cases hphase : f.phase with
    | finding =>
        simp only [Flight.advance, hrest, hphase] at hstep
        split at hstep
        · rename_i row hrow
          simp only [Option.some.injEq, Prod.mk.injEq] at hstep
          obtain ⟨rfl, rfl, rfl⟩ := hstep
          exact .inl ⟨_, _, g.find, some row, _, _, rfl, rfl, hfound row, (fun Q h => h.2 row),
            .inl ⟨rfl, rfl⟩⟩
        · simp only [Option.some.injEq, Prod.mk.injEq] at hstep
          obtain ⟨rfl, rfl, rfl⟩ := hstep
          exact .inr (.inl ⟨.inserting, rfl, rfl, rfl, rfl⟩)
    | inserting =>
        simp only [Flight.advance, hrest, hphase] at hstep
        split at hstep
        · simp only [Option.some.injEq, Prod.mk.injEq] at hstep
          obtain ⟨rfl, rfl, rfl⟩ := hstep
          exact .inr (.inl ⟨.refetching, rfl, rfl, rfl, rfl⟩)
        · simp only [Option.some.injEq, Prod.mk.injEq] at hstep
          obtain ⟨rfl, rfl, rfl⟩ := hstep
          exact .inl ⟨_, _, g.find, some g.fresh, _, _, rfl, rfl, hfound g.fresh,
            (fun Q h => h.2 g.fresh), .inr ⟨g.insert, (fun Q h => h.1), rfl, rfl⟩⟩
    | refetching =>
        simp only [Flight.advance, hrest, hphase, Option.some.injEq, Prod.mk.injEq] at hstep
        obtain ⟨rfl, rfl, rfl⟩ := hstep
        exact .inl ⟨_, _, g.find, some _, _, _, rfl, rfl, hfound _, (fun Q h => h.2 _),
          .inl ⟨rfl, rfl⟩⟩
  · simp only [Flight.advance, hrest, Option.some.injEq, Prod.mk.injEq] at hstep
    obtain ⟨rfl, rfl, rfl⟩ := hstep
    exact .inr (.inr ⟨update, rfl, rfl, rfl, rfl⟩)

/-- One statement of a sound flight: the commit replayed is what it did to the store, and
the flight stays sound if its answers do. -/
theorem Flight.Sound.advance (h : f.Sound script db) (hstep : f.advance db = some (f', db', log))
    (hagrees : f'.isOpen → f'.agrees db') :
    f'.op = f.op ∧ f'.Sound script db' ∧ replay script log db = some db' ∧
      f.rest.isSome ∧ completed log = if f'.rest.isNone then [f.op] else [] := by
  rcases advance_cases hstep with ⟨β, eq, query, answer, rest, next, hrest, rfl, hnext, -, hlog⟩ |
    ⟨phase, hsome, rfl, rfl, rfl⟩ | ⟨update, hrest, rfl, rfl, rfl⟩
  · have hsound := h.learn hrest hagrees hnext
    have hsome : f.rest.isSome := by rw [hrest]; rfl
    rcases hlog with ⟨rfl, rfl⟩ | ⟨insert, -, rfl, rfl⟩
    · exact ⟨rfl, hsound, rfl, hsome, rfl⟩
    · exact ⟨rfl, hsound, rfl, hsome, rfl⟩
  · have hnone : f.rest.isNone = false := Option.isNone_eq_false_iff.mpr hsome
    refine ⟨rfl, ⟨hagrees, h.resumes⟩, rfl, hsome, ?_⟩
    rw [hnone]
    rfl
  · have hopen : f.isOpen := by rw [Flight.isOpen, hrest]
    have hexec := h.resumes _ hrest db (h.agrees hopen)
    refine ⟨rfl, ⟨(fun ho => by cases ho), (fun _ hr => by cases hr)⟩, ?_, ?_, rfl⟩
    · rw [replay, hexec]
      rfl
    · rw [hrest]
      rfl

/-! ## All flights -/

/-- What an undisturbed run keeps. -/
structure System.Serial (script : α → Script σ ε) (db₀ : σ) (s : System σ ε α) : Prop where
  replayed : replay script s.log db₀ = some s.db
  sound : ∀ f ∈ s.flights, f.Sound script s.db
  finished : (completed s.log).Perm s.finished

theorem replay_append (log log' : List (Commit σ α)) (db : σ) :
    replay script (log ++ log') db = (replay script log db).bind (replay script log') := by
  induction log generalizing db with
  | nil => rfl
  | cons c log ih =>
      cases c with
      | created insert => exact ih (insert db)
      | completed op =>
          simp only [List.cons_append, replay, Option.bind_assoc]
          congr 1
          funext t
          exact ih t

theorem completed_append (log log' : List (Commit σ α)) :
    completed (log ++ log') = completed log ++ completed log' := by
  induction log with
  | nil => rfl
  | cons c log ih =>
      cases c with
      | created insert => exact ih
      | completed op => exact congrArg (op :: ·) ih

/-- Replacing an element which the filter drops: the filter gains the new one if it takes it. -/
theorem filter_set_perm {β : Type*} {p : β → Bool} {b b' : β} (hb : p b = false) :
    ∀ {l : List β} {i : Nat}, l[i]? = some b →
      ((l.set i b').filter p).Perm ((if p b' then [b'] else []) ++ l.filter p)
  | [], i, h => by simp at h
  | a :: l, 0, h => by
      obtain rfl := Option.some.inj h
      rw [List.set_cons_zero, List.filter_cons, List.filter_cons, hb]
      split <;> rfl
  | a :: l, i + 1, h => by
      have ih := @filter_set_perm _ p b b' hb l i h
      rw [List.set_cons_succ, List.filter_cons, List.filter_cons]
      split
      · exact (ih.cons a).trans List.perm_middle.symm
      · exact ih

/-- An undisturbed step keeps the account. -/
theorem System.Serial.step {db₀ : σ} {s s' : System σ ε α} {a : Action α}
    (h : s.Serial script db₀) (hc : Undisturbed script s a)
    (hstep : Optimistic.step script s a = some s') : s'.Serial script db₀ := by
  rw [Undisturbed, hstep] at hc
  have hagrees : ∀ f ∈ s'.flights, f.isOpen → f.agrees s'.db := by
    intro f hf hopen
    have := List.all_eq_true.mp hc f hf
    simpa [hopen] using this
  cases a with
  | start op =>
      obtain rfl := Option.some.inj hstep
      refine ⟨h.replayed, fun f hf => ?_, ?_⟩
      · rcases List.mem_snoc.mp hf with hf | rfl
        · exact h.sound f hf
        · refine ⟨fun _ => rfl, fun rest hrest t _ => ?_⟩
          obtain rfl := Option.some.inj hrest
          rfl
      · have hsame : System.finished { s with flights := s.flights ++
            [⟨op, some (script op), .finding, fun _ => true⟩] } = s.finished := by
          simp [System.finished]
        rw [hsame]
        exact h.finished
  | advance i =>
      simp only [Optimistic.step, Option.map_eq_some_iff, Option.bind_eq_some_iff] at hstep
      obtain ⟨⟨f', db', commits⟩, ⟨f, hf, hadvance⟩, rfl⟩ := hstep
      have hmem := List.mem_of_getElem? hf
      have hlt := (List.getElem?_eq_some_iff.mp hf).1
      obtain ⟨hop, hsound, hreplay, hsome, hcompleted⟩ :=
        (h.sound f hmem).advance hadvance (hagrees f' (List.mem_set hlt f'))
      refine ⟨?_, fun g hg => ?_, ?_⟩
      · show replay script (s.log ++ commits) db₀ = some db'
        rw [replay_append, h.replayed]
        exact hreplay
      · rcases List.mem_or_eq_of_mem_set hg with hold | rfl
        · exact ⟨hagrees g hg, (h.sound g hold).resumes⟩
        · exact hsound
      · have hunfinished : f.rest.isNone = false := by
          rw [Option.isNone_eq_false_iff]
          exact hsome
        have hfinished := (@filter_set_perm _ (fun g : Flight σ ε α => g.rest.isNone) _ f'
          hunfinished _ _ hf).map Flight.op
        show (completed (s.log ++ commits)).Perm
          (((s.flights.set i f').filter (·.rest.isNone)).map (·.op))
        refine List.Perm.trans ?_ hfinished.symm
        rw [completed_append, hcompleted, List.map_append]
        refine List.perm_append_comm.trans (List.Perm.append ?_ h.finished)
        split
        · rw [List.map_singleton, hop]
        · exact .nil

/-- What is left of the flights and what was created meets `Q` when the scripts do. -/
def System.Creates (Q : (σ → σ) → Prop) (s : System σ ε α) : Prop :=
  (∀ f ∈ s.flights, ∀ rest, f.rest = some rest → rest.Creates Q) ∧
    ∀ insert, .created insert ∈ s.log → Q insert

theorem Flight.creates_advance (h : ∀ rest, f.rest = some rest → rest.Creates Q)
    (hstep : f.advance db = some (f', db', log)) :
    (∀ rest, f'.rest = some rest → rest.Creates Q) ∧
      ∀ insert, .created insert ∈ log → Q insert := by
  rcases advance_cases hstep with ⟨β, eq, query, answer, rest, next, hrest, rfl, -, hnext, hlog⟩ |
    ⟨phase, hsome, rfl, rfl, rfl⟩ | ⟨update, hrest, rfl, rfl, rfl⟩
  · refine ⟨fun r hr => ?_, fun insert hinsert => ?_⟩
    · obtain rfl := Option.some.inj hr
      exact hnext Q (h rest hrest)
    · rcases hlog with ⟨-, rfl⟩ | ⟨made, hmade, -, rfl⟩
      · cases hinsert
      · obtain rfl := Commit.created.inj (List.mem_singleton.mp hinsert)
        exact hmade Q (h rest hrest)
  · exact ⟨h, (fun _ hinsert => by cases hinsert)⟩
  · exact ⟨(fun _ hr => by cases hr), (fun _ hinsert => by cases List.mem_singleton.mp hinsert)⟩

theorem creates_of_reach {C : System σ ε α → Action α → Prop} {db₀ : σ} {s : System σ ε α}
    (hscript : ∀ op, (script op).Creates Q)
    (h : Reach (step script) C (· = ⟨db₀, [], []⟩) s) : s.Creates Q := by
  refine h.invariant (I := fun s => s.Creates Q) ?_ ?_
  · rintro s rfl
    exact ⟨(fun _ hf => by cases hf), (fun _ hinsert => by cases hinsert)⟩
  · rintro s (op | i) s' - ⟨hflights, hlog⟩ - hstep
    · obtain rfl := Option.some.inj hstep
      refine ⟨fun f hf rest hrest => ?_, hlog⟩
      rcases List.mem_snoc.mp hf with hf | rfl
      · exact hflights f hf rest hrest
      · obtain rfl := Option.some.inj hrest
        exact hscript op
    · simp only [step, Option.map_eq_some_iff, Option.bind_eq_some_iff] at hstep
      obtain ⟨⟨f', db', commits⟩, ⟨f, hf, hadvance⟩, rfl⟩ := hstep
      obtain ⟨hrest', hcommits⟩ :=
        Flight.creates_advance (hflights f (List.mem_of_getElem? hf)) hadvance
      refine ⟨fun g hg rest hrest => ?_, fun insert hinsert => ?_⟩
      · rcases List.mem_or_eq_of_mem_set hg with hold | rfl
        · exact hflights g hold rest hrest
        · exact hrest' rest hrest
      · rcases List.mem_append.mp hinsert with hold | hnew
        · exact hlog insert hold
        · exact hcommits insert hnew

/-- Undisturbed runs are serial: the store is what the completed operations produce one
after the other, each exactly once, in the order of their writes. -/
theorem serial_of_undisturbed {db₀ : σ} {s : System σ ε α}
    (h : Reach (step script) (Undisturbed script) (· = ⟨db₀, [], []⟩) s) :
    s.Serial script db₀ := by
  refine h.invariant (I := fun s => s.Serial script db₀) ?_ ?_
  · rintro s rfl
    exact ⟨rfl, (fun _ hf => by cases hf), .nil⟩
  · intro s a s' _ hs hc hstep
    exact hs.step hc hstep

end BurrowGate.Lib.Optimistic
