import Mathlib.Data.List.Basic

/-!
# Cooperative programs over a set of locks

A program runs without interruption up to its next call of the world around it, and waits there for
the answer, which may be an error. `settle` is one such stretch. What the answers may be is a
parameter of the rules, so that one rule serves every run and the runs where some calls do not fail.
-/

namespace BurrowGate.Lib.Async

variable {κ ε C : Type} {R : C → Type} {α β : Type}

inductive Process (κ ε C : Type) (R : C → Type) (α : Type) : Type
  | done (outcome : Except ε α)
  | call (c : C) (next : Except ε (R c) → Process κ ε C R α)
  | has (x : κ) (next : Bool → Process κ ε C R α)
  | add (x : κ) (next : Process κ ε C R α)
  | delete (x : κ) (next : Process κ ε C R α)

namespace Process

/-- The second program goes on with the outcome of the first one, an error or not. -/
def andThen (f : Except ε α → Process κ ε C R β) : Process κ ε C R α → Process κ ε C R β
  | done outcome => f outcome
  | call c next => call c fun r => (next r).andThen f
  | has x next => has x fun b => (next b).andThen f
  | add x next => add x (next.andThen f)
  | delete x next => delete x (next.andThen f)

def andDo (f : α → Process κ ε C R β) : Except ε α → Process κ ε C R β
  | .ok a => f a
  | .error e => done (.error e)

instance : Monad (Process κ ε C R) where
  pure a := done (.ok a)
  bind p f := p.andThen (andDo f)

def throw (e : ε) : Process κ ε C R α := done (.error e)

def await (c : C) : Process κ ε C R (R c) := call c done

def orCatch (handler : ε → Process κ ε C R α) : Except ε α → Process κ ε C R α
  | .ok a => done (.ok a)
  | .error e => handler e

def tryCatch (p : Process κ ε C R α) (handler : ε → Process κ ε C R α) : Process κ ε C R α :=
  p.andThen (orCatch handler)

/-- An error of the last program takes the place of the outcome. -/
def andFinally (last : Process κ ε C R Unit) (outcome : Except ε α) : Process κ ε C R α :=
  last.andThen fun
    | .ok () => done outcome
    | .error e => done (.error e)

def tryFinally (p : Process κ ε C R α) (last : Process κ ε C R Unit) : Process κ ε C R α :=
  p.andThen (andFinally last)

def isDone : Process κ ε C R α → Bool
  | done _ => true
  | _ => false

/-! ## Programs that leave the locks alone -/

variable (allowed : ∀ c, Except ε (R c) → Prop)

def Lockless : Process κ ε C R α → Prop
  | done _ => True
  | call c next => ∀ r, allowed c r → (next r).Lockless
  | has _ next => ∀ b, (next b).Lockless
  | add _ _ | delete _ _ => False

/-- The program has the lock, and gives it back as the last thing that it does. `leaks` tells
whether it may also come to its end with the lock. -/
def Holds (leaks : Prop) (x : κ) : Process κ ε C R α → Prop
  | done _ => leaks
  | call c next => ∀ r, allowed c r → (next r).Holds leaks x
  | has _ next => ∀ b, (next b).Holds leaks x
  | add _ _ => False
  | delete y next => y = x ∧ next.isDone

variable {allowed} {p : Process κ ε C R α} {f : Except ε α → Process κ ε C R β} {leaks : Prop} {x : κ}

theorem Lockless.andThen (h : p.Lockless allowed) (hf : ∀ outcome, (f outcome).Lockless allowed) :
    (p.andThen f).Lockless allowed := by
  induction p with
  | done outcome => exact hf outcome
  | call c next ih => exact fun r hr => ih r (h r hr)
  | has x next ih => exact fun b => ih b (h b)
  | add x next ih => exact h.elim
  | delete x next ih => exact h.elim

theorem Lockless.bind {f : α → Process κ ε C R β} (h : p.Lockless allowed)
    (hf : ∀ a, (f a).Lockless allowed) : (p >>= f).Lockless allowed := by
  refine h.andThen fun outcome => ?_
  cases outcome with
  | ok a => exact hf a
  | error e => exact trivial

theorem Lockless.tryCatch {handler : ε → Process κ ε C R α} (h : p.Lockless allowed)
    (hf : ∀ e, (handler e).Lockless allowed) : (p.tryCatch handler).Lockless allowed := by
  refine h.andThen fun outcome => ?_
  cases outcome with
  | ok a => exact trivial
  | error e => exact hf e

theorem lockless_await (c : C) : (await c : Process κ ε C R (R c)).Lockless allowed :=
  fun _ _ => trivial

theorem Lockless.holds_andThen (h : p.Lockless allowed)
    (hf : ∀ outcome, (f outcome).Holds allowed leaks x) : (p.andThen f).Holds allowed leaks x := by
  induction p with
  | done outcome => exact hf outcome
  | call c next ih => exact fun r hr => ih r (h r hr)
  | has x next ih => exact fun b => ih b (h b)
  | add x next ih => exact h.elim
  | delete x next ih => exact h.elim

/-- An error ahead of what gives the lock back is a leak. -/
theorem holds_done_bind {outcome : Except ε α} {f : α → Process κ ε C R β}
    (h : ∀ e, outcome = .error e → leaks) (hf : ∀ a, (f a).Holds allowed leaks x) :
    ((done outcome : Process κ ε C R α) >>= f).Holds allowed leaks x := by
  cases outcome with
  | ok a => exact hf a
  | error e => exact h e rfl

theorem holds_await_bind {c : C} {f : R c → Process κ ε C R β}
    (h : ∀ e, allowed c (.error e) → leaks) (hf : ∀ a, (f a).Holds allowed leaks x) :
    ((await c : Process κ ε C R (R c)) >>= f).Holds allowed leaks x := by
  intro r hr
  cases r with
  | ok a => exact hf a
  | error e => exact h e hr

/-! ## One stretch -/

structure Stretch (κ ε C : Type) (R : C → Type) (α : Type) where
  locks : List κ
  looked : List (κ × Bool)
  rest : Process κ ε C R α

section Settle

variable [DecidableEq κ]

def settle (locks : List κ) : Process κ ε C R α → Stretch κ ε C R α
  | done outcome => ⟨locks, [], done outcome⟩
  | call c next => ⟨locks, [], call c next⟩
  | has x next =>
      let stretch := settle locks (next (decide (x ∈ locks)))
      { stretch with looked := (x, decide (x ∈ locks)) :: stretch.looked }
  | add x next => settle (if x ∈ locks then locks else locks ++ [x]) next
  | delete x next => settle (locks.filter (· ≠ x)) next

theorem settle_has_of_mem {locks : List κ} (h : x ∈ locks) (next : Bool → Process κ ε C R α) :
    settle locks (has x next) =
      { settle locks (next true) with looked := (x, true) :: (settle locks (next true)).looked } := by
  rw [settle, decide_eq_true h]

theorem settle_has_of_not_mem {locks : List κ} (h : x ∉ locks)
    (next : Bool → Process κ ε C R α) :
    settle locks (has x next) =
      { settle locks (next false) with
        looked := (x, false) :: (settle locks (next false)).looked } := by
  rw [settle, decide_eq_false h]

theorem settle_add_of_not_mem {locks : List κ} (h : x ∉ locks) (next : Process κ ε C R α) :
    settle locks (add x next) = settle (locks ++ [x]) next := by
  rw [settle, if_neg h]

theorem Lockless.settle_locks (h : p.Lockless allowed) (locks : List κ) :
    (settle locks p).locks = locks := by
  induction p with
  | done outcome => rfl
  | call c next => rfl
  | has x next ih => exact ih _ (h _)
  | add x next ih => exact h.elim
  | delete x next ih => exact h.elim

theorem Lockless.settle_rest (h : p.Lockless allowed) (locks : List κ) :
    (settle locks p).rest.Lockless allowed := by
  induction p with
  | done outcome => exact h
  | call c next => exact h
  | has x next ih => exact ih _ (h _)
  | add x next ih => exact h.elim
  | delete x next ih => exact h.elim

/-- A program with the lock goes on to wait with it, or comes to its end; there the lock is gone, or
it leaks. -/
theorem Holds.settle (h : p.Holds allowed leaks x) (locks : List κ) :
    ((settle locks p).rest.isDone = false ∧ (settle locks p).locks = locks ∧
        (settle locks p).rest.Holds allowed leaks x) ∨
      ((settle locks p).rest.isDone = true ∧
        ((settle locks p).locks = locks.filter (· ≠ x) ∨
          leaks ∧ (settle locks p).locks = locks)) := by
  induction p with
  | done outcome => exact .inr ⟨rfl, .inr ⟨h, rfl⟩⟩
  | call c next => exact .inl ⟨rfl, rfl, h⟩
  | has y next ih => exact ih _ (h _)
  | add y next ih => exact h.elim
  | delete y next ih =>
      obtain ⟨rfl, hdone⟩ := h
      cases next with
      | done outcome => exact .inr ⟨rfl, .inl rfl⟩
      | call c next => cases hdone
      | has z next => cases hdone
      | add z next => cases hdone
      | delete z next => cases hdone

end Settle

/-! ## The history of a program -/

inductive Entry (κ ε C : Type) (R : C → Type)
  | answered (c : C) (r : Except ε (R c))
  | looked (x : κ) (active : Bool)

def Entry.Allowed (allowed : ∀ c, Except ε (R c) → Prop) : Entry κ ε C R → Prop
  | .answered c r => allowed c r
  | .looked _ _ => True

/-- With these answers, and with these findings about the locks, the program comes to that one. -/
inductive Path : Process κ ε C R α → List (Entry κ ε C R) → Process κ ε C R α → Prop
  | refl (p : Process κ ε C R α) : Path p [] p
  | call {c : C} {next : Except ε (R c) → Process κ ε C R α} {r : Except ε (R c)}
      {history : List (Entry κ ε C R)} {q : Process κ ε C R α} :
      Path (next r) history q → Path (.call c next) (.answered c r :: history) q
  | has {x : κ} {next : Bool → Process κ ε C R α} {b : Bool} {history : List (Entry κ ε C R)}
      {q : Process κ ε C R α} :
      Path (next b) history q → Path (.has x next) (.looked x b :: history) q
  | add {x : κ} {next : Process κ ε C R α} {history : List (Entry κ ε C R)} {q : Process κ ε C R α} :
      Path next history q → Path (.add x next) history q
  | delete {x : κ} {next : Process κ ε C R α} {history : List (Entry κ ε C R)}
      {q : Process κ ε C R α} : Path next history q → Path (.delete x next) history q

theorem Path.trans {p q r : Process κ ε C R α} {first second : List (Entry κ ε C R)}
    (h : Path p first q) (h' : Path q second r) : Path p (first ++ second) r := by
  induction h with
  | refl p => exact h'
  | call _ ih => exact .call (ih h')
  | has _ ih => exact .has (ih h')
  | add _ ih => exact .add (ih h')
  | delete _ ih => exact .delete (ih h')

section Inversion

variable {history : List (Entry κ ε C R)} {outcome : Except ε α}

theorem path_done {found : Except ε α} (h : Path (done found) history (.done outcome)) :
    outcome = found ∧ history = [] := by
  cases h
  exact ⟨rfl, rfl⟩

theorem path_call {c : C} {next : Except ε (R c) → Process κ ε C R α}
    (h : Path (call c next) history (.done outcome)) :
    ∃ r tail, history = .answered c r :: tail ∧ Path (next r) tail (.done outcome) := by
  cases h with
  | call h => exact ⟨_, _, rfl, h⟩

theorem path_has {next : Bool → Process κ ε C R α}
    (h : Path (has x next) history (.done outcome)) :
    ∃ b tail, history = .looked x b :: tail ∧ Path (next b) tail (.done outcome) := by
  cases h with
  | has h => exact ⟨_, _, rfl, h⟩

end Inversion

theorem Lockless.path {p q : Process κ ε C R α} {history : List (Entry κ ε C R)}
    (h : p.Lockless allowed) (hpath : Path p history q)
    (hallowed : ∀ e ∈ history, e.Allowed allowed) : q.Lockless allowed := by
  induction hpath with
  | refl p => exact h
  | call _ ih =>
      rw [List.forall_mem_cons] at hallowed
      exact ih (h _ hallowed.1) hallowed.2
  | has _ ih =>
      rw [List.forall_mem_cons] at hallowed
      exact ih (h _) hallowed.2
  | add _ ih => exact h.elim
  | delete _ ih => exact h.elim

def Stretch.entries (stretch : Stretch κ ε C R α) : List (Entry κ ε C R) :=
  stretch.looked.map fun l => .looked l.1 l.2

theorem Stretch.entries_allowed (stretch : Stretch κ ε C R α) :
    ∀ e ∈ stretch.entries, e.Allowed allowed := by
  intro e he
  obtain ⟨l, -, rfl⟩ := List.mem_map.mp he
  exact trivial

theorem path_settle [DecidableEq κ] (p : Process κ ε C R α) (locks : List κ) :
    Path p (settle locks p).entries (settle locks p).rest := by
  induction p generalizing locks with
  | done outcome => exact .refl _
  | call c next => exact .refl _
  | has x next ih => exact .has (ih _ locks)
  | add x next ih => exact .add (ih _)
  | delete x next ih => exact .delete (ih _)

end Process

end BurrowGate.Lib.Async
