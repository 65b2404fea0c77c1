import BurrowGate.Lib.Lists
import Mathlib.Data.List.Perm.Basic

/-!
# Jobs that several workers may run

A job is in a table, where it waits or is done, or it is gone from it. A worker that
calls a job holds it until the outcome is stored. The rule of `Step` is that a job is
called only while it waits and nobody holds it, and that the outcome of a job that
succeeded is stored before the job is let go. Then every job succeeds at most once,
and no job is called after it was withdrawn.
-/

namespace BurrowGate.Lib.ClaimedJobs

variable {ι : Type*}

inductive JobStatus
  | absent
  | waiting
  | done
  deriving DecidableEq

inductive JobEvent (ι : Type*)
  | called (id : ι)
  | succeeded (id : ι)
  | withdrawn (id : ι)
  deriving DecidableEq

/-- `held` has the jobs that a worker holds, with whether they succeeded; a job is `gone` when
a withdrawal removed it from the table. -/
structure Ledger (ι : Type*) where
  status : ι → JobStatus
  held : List (ι × Bool)
  gone : ι → Prop
  history : List (JobEvent ι)

/-- What one step may do. A job that is absent stays so. -/
inductive Step (l l' : Ledger ι) : Prop
  | same : l'.status = l.status → l'.held.Perm l.held → (∀ x, l'.gone x ↔ l.gone x) →
      l'.history = l.history → Step l l'
  | call (id : ι) : l.status id = .waiting → id ∉ l.held.map Prod.fst →
      l'.status = l.status → l'.held.Perm ((id, false) :: l.held) → (∀ x, l'.gone x ↔ l.gone x) →
        l'.history = l.history ++ [JobEvent.called id] → Step l l'
  | succeed (id : ι) (rest : List (ι × Bool)) : l.held.Perm ((id, false) :: rest) →
      l'.status = l.status → l'.held.Perm ((id, true) :: rest) → (∀ x, l'.gone x ↔ l.gone x) →
        l'.history = l.history ++ [JobEvent.succeeded id] → Step l l'
  | release (id : ι) (rest : List (ι × Bool)) : l.held.Perm ((id, false) :: rest) →
      (∀ x, x ≠ id → l'.status x = l.status x) → (l.status id = .absent → l'.status id = .absent) →
        l'.held.Perm rest → (∀ x, l'.gone x ↔ l.gone x) → l'.history = l.history → Step l l'
  | store (id : ι) (rest : List (ι × Bool)) : l.held.Perm ((id, true) :: rest) →
      (∀ x, x ≠ id → l'.status x = l.status x) → (l.status id = .absent → l'.status id = .absent) →
        l'.status id ≠ .waiting → l'.held.Perm rest → (∀ x, l'.gone x ↔ l.gone x) →
          l'.history = l.history → Step l l'
  | withdraw (id : ι) : (∀ x, x ≠ id → l'.status x = l.status x) → l'.status id = .absent →
      l'.held.Perm l.held → (∀ x, l'.gone x ↔ x = id ∨ l.gone x) → l'.history = l.history → Step l l'
  | withdrawn (id : ι) : l.gone id → l'.status = l.status → l'.held.Perm l.held →
      (∀ x, l'.gone x ↔ l.gone x) → l'.history = l.history ++ [JobEvent.withdrawn id] → Step l l'

/-- No job succeeds twice. -/
def AtMostOnce [DecidableEq ι] (history : List (JobEvent ι)) : Prop :=
  ∀ id, history.count (.succeeded id) ≤ 1

/-- No job is called after its withdrawal. -/
def NeverAfterWithdrawal (history : List (JobEvent ι)) : Prop :=
  ∀ before after id, history = before ++ .withdrawn id :: after → .called id ∉ after

variable [DecidableEq ι]

/-- What every step preserves. -/
structure Sound (l : Ledger ι) : Prop where
  unique : (l.held.map Prod.fst).Nodup
  unfinished : ∀ id, (id, false) ∈ l.held → .succeeded id ∉ l.history
  finished : ∀ id, .succeeded id ∈ l.history → (id, true) ∈ l.held ∨ l.status id ≠ .waiting
  once : AtMostOnce l.history
  gone : ∀ id, l.gone id → l.status id = .absent
  withdrawn : ∀ id, .withdrawn id ∈ l.history → l.gone id
  ordered : NeverAfterWithdrawal l.history

theorem sound_start {l : Ledger ι} (hheld : l.held = []) (hgone : ∀ x, ¬l.gone x)
    (hhistory : l.history = []) : Sound l := by
  refine ⟨by simp [hheld], by simp [hheld], by simp [hhistory], ?_, fun id hid => absurd hid (hgone id),
    by simp [hhistory], ?_⟩
  · intro id
    simp [hhistory]
  · intro before after id h
    simp [hhistory] at h

/-! ## Adding an event -/

theorem atMostOnce_concat {history : List (JobEvent ι)} {e : JobEvent ι} (h : AtMostOnce history)
    (hnew : ∀ id, e = .succeeded id → .succeeded id ∉ history) : AtMostOnce (history ++ [e]) := by
  intro id
  rw [List.count_append, List.count_singleton]
  by_cases he : e = .succeeded id
  · rw [List.count_eq_zero.mpr (hnew id he)]
    split <;> omega
  · have hother : (e == .succeeded id) = false := by simpa using he
    rw [hother]
    exact h id

omit [DecidableEq ι] in
theorem neverAfterWithdrawal_concat {history : List (JobEvent ι)} {e : JobEvent ι}
    (h : NeverAfterWithdrawal history) (hnew : ∀ id, e = .called id → .withdrawn id ∉ history) :
    NeverAfterWithdrawal (history ++ [e]) := by
  intro before after id hsplit hcalled
  rcases List.eq_nil_or_concat' after with rfl | ⟨rest, x, rfl⟩
  · cases hcalled
  · have hsplit' : history ++ [e] = (before ++ .withdrawn id :: rest) ++ [x] := by
      simpa using hsplit
    obtain ⟨hprior, hlast⟩ := List.append_inj' hsplit' rfl
    obtain rfl := (List.cons.inj hlast).1
    rcases List.mem_snoc.mp hcalled with hrest | hx
    · exact h before rest id hprior hrest
    · refine hnew id hx.symm ?_
      rw [hprior]
      simp

/-! ## Steps -/

variable {l l' : Ledger ι}

theorem Sound.same (hs : Sound l) (hstatus : l'.status = l.status) (hheld : l'.held.Perm l.held)
    (hgone : ∀ x, l'.gone x ↔ l.gone x) (hhistory : l'.history = l.history) : Sound l' where
  unique := (hheld.map Prod.fst).nodup_iff.mpr hs.unique
  unfinished id hid := hhistory ▸ hs.unfinished id (hheld.mem_iff.mp hid)
  finished id hid := by
    rw [hheld.mem_iff, hstatus]
    exact hs.finished id (hhistory ▸ hid)
  once := hhistory ▸ hs.once
  gone id hid := by
    rw [hstatus]
    exact hs.gone id ((hgone id).mp hid)
  withdrawn id hid := (hgone id).mpr (hs.withdrawn id (hhistory ▸ hid))
  ordered := hhistory ▸ hs.ordered

theorem Sound.call (hs : Sound l) {id : ι} (hwaiting : l.status id = .waiting)
    (hfree : id ∉ l.held.map Prod.fst) (hstatus : l'.status = l.status)
    (hheld : l'.held.Perm ((id, false) :: l.held)) (hgone : ∀ x, l'.gone x ↔ l.gone x)
    (hhistory : l'.history = l.history ++ [JobEvent.called id]) : Sound l' := by
  have hfresh : .succeeded id ∉ l.history := by
    intro hsucceeded
    rcases hs.finished id hsucceeded with hheld | hdone
    · exact hfree (List.mem_map_of_mem hheld)
    · exact hdone hwaiting
  have hold : ∀ x, .succeeded x ∈ l'.history → .succeeded x ∈ l.history := by
    intro x hx
    simpa [hhistory] using hx
  refine ⟨?_, fun x hx hsucceeded => ?_, fun x hx => ?_, ?_, ?_, fun x hx => ?_, ?_⟩
  · exact (hheld.map Prod.fst).nodup_iff.mpr (List.nodup_cons.mpr ⟨hfree, hs.unique⟩)
  · rcases List.mem_cons.mp (hheld.mem_iff.mp hx) with heq | hx
    · obtain rfl := (Prod.mk.inj heq).1
      exact hfresh (hold x hsucceeded)
    · exact hs.unfinished x hx (hold x hsucceeded)
  · rw [hstatus, hheld.mem_iff]
    exact (hs.finished x (hold x hx)).imp_left (List.mem_cons_of_mem _)
  · exact hhistory ▸ atMostOnce_concat hs.once (by simp)
  · rw [hstatus]
    exact fun x hx => hs.gone x ((hgone x).mp hx)
  · exact (hgone x).mpr (hs.withdrawn x (by simpa [hhistory] using hx))
  · rw [hhistory]
    refine neverAfterWithdrawal_concat hs.ordered fun x hx hwithdrawn => ?_
    obtain rfl := JobEvent.called.inj hx
    have habsent := hs.gone _ (hs.withdrawn _ hwithdrawn)
    rw [hwaiting] at habsent
    cases habsent

theorem Sound.succeed (hs : Sound l) {id : ι} {rest : List (ι × Bool)}
    (hbefore : l.held.Perm ((id, false) :: rest)) (hstatus : l'.status = l.status)
    (hheld : l'.held.Perm ((id, true) :: rest)) (hgone : ∀ x, l'.gone x ↔ l.gone x)
    (hhistory : l'.history = l.history ++ [JobEvent.succeeded id]) : Sound l' := by
  have hunique : (id :: rest.map Prod.fst).Nodup := (hbefore.map Prod.fst).nodup_iff.mp hs.unique
  obtain ⟨hother, -⟩ := List.nodup_cons.mp hunique
  have hfresh := hs.unfinished id (hbefore.mem_iff.mpr List.mem_cons_self)
  refine ⟨?_, fun x hx hsucceeded => ?_, fun x hx => ?_, ?_, ?_, fun x hx => ?_, ?_⟩
  · exact (hheld.map Prod.fst).nodup_iff.mpr hunique
  · rcases List.mem_cons.mp (hheld.mem_iff.mp hx) with heq | hx
    · cases heq
    · have hne : x ≠ id := by
        rintro rfl
        exact hother (List.mem_map_of_mem hx)
      refine hs.unfinished x (hbefore.mem_iff.mpr (List.mem_cons_of_mem _ hx)) ?_
      simpa [hhistory, hne] using hsucceeded
  · by_cases heq : x = id
    · exact .inl (heq ▸ hheld.mem_iff.mpr List.mem_cons_self)
    · have hx' : .succeeded x ∈ l.history := by simpa [hhistory, heq] using hx
      rw [hstatus]
      refine (hs.finished x hx').imp_left fun hmem => ?_
      rcases List.mem_cons.mp (hbefore.mem_iff.mp hmem) with heq' | hmem
      · exact absurd (Prod.mk.inj heq').1 heq
      · exact hheld.mem_iff.mpr (List.mem_cons_of_mem _ hmem)
  · rw [hhistory]
    refine atMostOnce_concat hs.once fun x hx => ?_
    obtain rfl := JobEvent.succeeded.inj hx
    exact hfresh
  · rw [hstatus]
    exact fun x hx => hs.gone x ((hgone x).mp hx)
  · exact (hgone x).mpr (hs.withdrawn x (by simpa [hhistory] using hx))
  · exact hhistory ▸ neverAfterWithdrawal_concat hs.ordered (by simp)

/-- A holder lets go of its job; if the job had succeeded it no longer waits. -/
theorem Sound.letGo (hs : Sound l) {id : ι} {b : Bool} {rest : List (ι × Bool)}
    (hbefore : l.held.Perm ((id, b) :: rest)) (hothers : ∀ x, x ≠ id → l'.status x = l.status x)
    (habsent : l.status id = .absent → l'.status id = .absent)
    (hstored : b = true → l'.status id ≠ .waiting) (hheld : l'.held.Perm rest)
    (hgone : ∀ x, l'.gone x ↔ l.gone x) (hhistory : l'.history = l.history) : Sound l' := by
  have hunique : (id :: rest.map Prod.fst).Nodup := (hbefore.map Prod.fst).nodup_iff.mp hs.unique
  obtain ⟨-, hrest⟩ := List.nodup_cons.mp hunique
  refine ⟨(hheld.map Prod.fst).nodup_iff.mpr hrest, fun x hx => ?_, fun x hx => ?_, ?_,
    fun x hx => ?_, ?_, ?_⟩
  · rw [hhistory]
    exact hs.unfinished x (hbefore.mem_iff.mpr (List.mem_cons_of_mem _ (hheld.mem_iff.mp hx)))
  · rw [hhistory] at hx
    by_cases heq : x = id
    · subst heq
      cases b with
      | true => exact .inr (hstored rfl)
      | false => exact absurd hx (hs.unfinished x (hbefore.mem_iff.mpr List.mem_cons_self))
    · rw [hothers x heq]
      refine (hs.finished x hx).imp_left fun hmem => ?_
      rcases List.mem_cons.mp (hbefore.mem_iff.mp hmem) with heq' | hmem
      · exact absurd (Prod.mk.inj heq').1 heq
      · exact hheld.mem_iff.mpr hmem
  · exact hhistory ▸ hs.once
  · have hx' := (hgone x).mp hx
    by_cases heq : x = id
    · subst heq
      exact habsent (hs.gone x hx')
    · rw [hothers x heq]
      exact hs.gone x hx'
  · rw [hhistory]
    exact fun x hx => (hgone x).mpr (hs.withdrawn x hx)
  · exact hhistory ▸ hs.ordered

theorem Sound.withdraw (hs : Sound l) {id : ι} (hothers : ∀ x, x ≠ id → l'.status x = l.status x)
    (habsent : l'.status id = .absent) (hheld : l'.held.Perm l.held) (hgone : ∀ x, l'.gone x ↔ x = id ∨ l.gone x)
    (hhistory : l'.history = l.history) : Sound l' := by
  refine ⟨(hheld.map Prod.fst).nodup_iff.mpr hs.unique, fun x hx => ?_, fun x hx => ?_, ?_,
    fun x hx => ?_, fun x hx => ?_, ?_⟩
  · rw [hhistory]
    exact hs.unfinished x (hheld.mem_iff.mp hx)
  · by_cases heq : x = id
    · subst heq
      right
      rw [habsent]
      decide
    · rw [hheld.mem_iff, hothers x heq]
      exact hs.finished x (hhistory ▸ hx)
  · exact hhistory ▸ hs.once
  · by_cases heq : x = id
    · exact heq ▸ habsent
    · rw [hothers x heq]
      exact hs.gone x (((hgone x).mp hx).resolve_left heq)
  · exact (hgone x).mpr (.inr (hs.withdrawn x (hhistory ▸ hx)))
  · exact hhistory ▸ hs.ordered

theorem Sound.withdrawn_step (hs : Sound l) {id : ι} (hid : l.gone id)
    (hstatus : l'.status = l.status) (hheld : l'.held.Perm l.held) (hgone : ∀ x, l'.gone x ↔ l.gone x)
    (hhistory : l'.history = l.history ++ [JobEvent.withdrawn id]) : Sound l' := by
  have hold : ∀ x, .succeeded x ∈ l'.history → .succeeded x ∈ l.history := by
    intro x hx
    simpa [hhistory] using hx
  refine ⟨(hheld.map Prod.fst).nodup_iff.mpr hs.unique, fun x hx hsucceeded => ?_, fun x hx => ?_,
    hhistory ▸ atMostOnce_concat hs.once (by simp), ?_, fun x hx => ?_,
    hhistory ▸ neverAfterWithdrawal_concat hs.ordered (by simp)⟩
  · exact hs.unfinished x (hheld.mem_iff.mp hx) (hold x hsucceeded)
  · rw [hheld.mem_iff, hstatus]
    exact hs.finished x (hold x hx)
  · rw [hstatus]
    exact fun x hx => hs.gone x ((hgone x).mp hx)
  · have hx' : .withdrawn x ∈ l.history ∨ x = id := by simpa [hhistory] using hx
    rcases hx' with hx | rfl
    · exact (hgone x).mpr (hs.withdrawn x hx)
    · exact (hgone x).mpr hid

/-- The step rule of `Sound`. -/
theorem sound_step (hs : Sound l) (h : Step l l') : Sound l' := by
  cases h with
  | same hstatus hheld hgone hhistory => exact hs.same hstatus hheld hgone hhistory
  | call id hwaiting hfree hstatus hheld hgone hhistory =>
      exact hs.call hwaiting hfree hstatus hheld hgone hhistory
  | succeed id rest hbefore hstatus hheld hgone hhistory =>
      exact hs.succeed hbefore hstatus hheld hgone hhistory
  | release id rest hbefore hothers habsent hheld hgone hhistory =>
      exact hs.letGo hbefore hothers habsent (by simp) hheld hgone hhistory
  | store id rest hbefore hothers habsent hstored hheld hgone hhistory =>
      exact hs.letGo hbefore hothers habsent (fun _ => hstored) hheld hgone hhistory
  | withdraw id hothers habsent hheld hgone hhistory =>
      exact hs.withdraw hothers habsent hheld hgone hhistory
  | withdrawn id hid hstatus hheld hgone hhistory =>
      exact hs.withdrawn_step hid hstatus hheld hgone hhistory

end BurrowGate.Lib.ClaimedJobs
