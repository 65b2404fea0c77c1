import BurrowGate.Lib.Lists
import Mathlib.Data.List.Count
import Mathlib.Data.List.Nodup
import Mathlib.Data.List.Rotate

/-!
# A queue served in turns

The head of the queue is served; it then comes back at the end, or leaves. `Rounds`
says what the order of service is, whatever comes back: the queue is cut into those still to
be served in the current round and those already served in it, both in the original order.
-/

namespace BurrowGate.Lib.RoundRobin

variable {τ : Type*} {tasks waiting turns : List τ} {t u : τ}

/-- The queue after its head `t` has been served. -/
def requeue (again : Bool) (t : τ) (rest : List τ) : List τ :=
  if again then rest ++ [t] else rest

/-! ## The first pass -/

/-- As long as not every task has been served, the turns are the first tasks, in order. -/
def FirstPass (tasks waiting turns : List τ) : Prop :=
  (turns = tasks.take turns.length ∧ ∃ back, waiting = tasks.drop turns.length ++ back) ∨
    tasks <+: turns

theorem firstPass_start (tasks : List τ) : FirstPass tasks tasks [] :=
  .inl ⟨rfl, [], by simp⟩

theorem FirstPass.serve {rest : List τ} (h : FirstPass tasks (t :: rest) turns) (again : Bool) :
    FirstPass tasks (requeue again t rest) (turns ++ [t]) := by
  rcases h with ⟨hturns, back, hqueue⟩ | hpast
  · cases hdrop : tasks.drop turns.length with
    | nil =>
        have htake : tasks.take turns.length = tasks :=
          List.take_of_length_le (List.drop_eq_nil_iff.mp hdrop)
        right
        rw [hturns, htake]
        exact List.prefix_append tasks [t]
    | cons a remaining =>
        rw [hdrop] at hqueue
        obtain ⟨rfl, rfl⟩ := List.cons.inj hqueue
        have htasks : tasks = (turns ++ [t]) ++ remaining := by
          calc tasks = tasks.take turns.length ++ tasks.drop turns.length :=
                (List.take_append_drop _ _).symm
            _ = turns ++ t :: remaining := by rw [← hturns, hdrop]
            _ = (turns ++ [t]) ++ remaining := by simp
        refine .inl ⟨?_, if again then back ++ [t] else back, ?_⟩
        · rw [htasks, List.take_left]
        · rw [htasks, List.drop_left]
          cases again
          · rfl
          · exact List.append_assoc remaining back [t]
  · right
    exact hpast.trans (List.prefix_append turns [t])

/-! ## Rounds -/

variable [DecidableEq τ]

/-- `ahead` waits for its turn in this round, `behind` has had it. -/
structure Round (tasks turns ahead behind : List τ) (round : Nat) : Prop where
  order : (behind ++ ahead).Sublist tasks
  due : ∀ t ∈ ahead, turns.count t = round
  served : ∀ t ∈ behind, turns.count t = round + 1
  bound : ∀ t, turns.count t ≤ round + 1

/-- The queue `waiting` of `tasks` after the heads `turns` have been served. -/
def Rounds (tasks waiting turns : List τ) : Prop :=
  ∃ ahead behind round, waiting = ahead ++ behind ∧ Round tasks turns ahead behind round

theorem rounds_start (tasks : List τ) : Rounds tasks tasks [] :=
  ⟨tasks, [], 0, (List.append_nil tasks).symm, List.Sublist.refl tasks, by simp, by simp, by simp⟩

/-- When everybody has been served, the next round begins. -/
theorem Round.next {round : Nat} {behind : List τ} (h : Round tasks turns [] behind round) :
    Round tasks turns behind [] (round + 1) where
  order := by simpa using h.order
  due := h.served
  served t ht := absurd ht List.not_mem_nil
  bound t := (h.bound t).trans (Nat.le_succ _)

/-- A round can always be chosen whose first one to serve is the head of the queue. -/
theorem Rounds.head {rest : List τ} (h : Rounds tasks (t :: rest) turns) :
    ∃ ahead behind round, rest = ahead ++ behind ∧ Round tasks turns (t :: ahead) behind round := by
  obtain ⟨ahead, behind, round, hqueue, hround⟩ := h
  cases ahead with
  | nil =>
      obtain rfl : behind = t :: rest := hqueue.symm
      exact ⟨rest, [], round + 1, (List.append_nil rest).symm, hround.next⟩
  | cons a ahead =>
      obtain ⟨rfl, rfl⟩ := List.cons.inj hqueue
      exact ⟨ahead, behind, round, rfl, hround⟩

theorem Round.nodup {round : Nat} {ahead behind : List τ} (htasks : tasks.Nodup)
    (h : Round tasks turns ahead behind round) : (behind ++ ahead).Nodup :=
  h.order.nodup htasks

/-- Serving the head keeps the rounds, whether it comes back or not. -/
theorem Rounds.serve {rest : List τ} (htasks : tasks.Nodup)
    (h : Rounds tasks (t :: rest) turns) (again : Bool) :
    Rounds tasks (requeue again t rest) (turns ++ [t]) := by
  obtain ⟨ahead, behind, round, rfl, hround⟩ := h.head
  have hnodup := hround.nodup htasks
  have hahead : t ∉ ahead := by
    intro ht
    exact (List.nodup_cons.mp (List.nodup_append.mp hnodup).2.1).1 ht
  have hbehind : t ∉ behind := by
    intro ht
    exact (List.nodup_append.mp hnodup).2.2 t ht t List.mem_cons_self rfl
  have hother : ∀ u, u ≠ t → (turns ++ [t]).count u = turns.count u := by
    intro u hu
    rw [List.count_append, List.count_singleton, if_neg (by simpa using hu.symm), Nat.add_zero]
  have hself : (turns ++ [t]).count t = round + 1 := by
    rw [List.count_append, List.count_singleton_self, hround.due t List.mem_cons_self]
  have hdue : ∀ u ∈ ahead, (turns ++ [t]).count u = round := by
    intro u hu
    rw [hother u (ne_of_mem_of_not_mem hu hahead)]
    exact hround.due u (List.mem_cons_of_mem t hu)
  have hserved : ∀ u ∈ behind, (turns ++ [t]).count u = round + 1 := by
    intro u hu
    rw [hother u (ne_of_mem_of_not_mem hu hbehind)]
    exact hround.served u hu
  have hbound : ∀ u, (turns ++ [t]).count u ≤ round + 1 := by
    intro u
    by_cases hu : u = t
    · rw [hu, hself]
    · rw [hother u hu]
      exact hround.bound u
  cases again with
  | false =>
      refine ⟨ahead, behind, round, rfl, ?_, hdue, hserved, hbound⟩
      exact ((List.Sublist.refl behind).append (List.sublist_cons_self t ahead)).trans hround.order
  | true =>
      refine ⟨ahead, behind ++ [t], round, List.append_assoc ahead behind [t], ?_, hdue, ?_, hbound⟩
      · rw [List.append_assoc]
        exact hround.order
      · intro u hu
        rcases List.mem_snoc.mp hu with hu | hu
        · exact hserved u hu
        · rw [hu]
          exact hself

/-- Nobody is ahead of one that still waits by more than one turn. -/
theorem Rounds.count_le (h : Rounds tasks waiting turns) (hu : u ∈ waiting) (t : τ) :
    turns.count t ≤ turns.count u + 1 := by
  obtain ⟨ahead, behind, round, rfl, hround⟩ := h
  have ht := hround.bound t
  rcases List.mem_append.mp hu with hu | hu
  · rw [hround.due u hu]
    exact ht
  · rw [hround.served u hu]
    omega

end BurrowGate.Lib.RoundRobin
