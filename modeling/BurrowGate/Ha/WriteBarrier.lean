import BurrowGate.Ha.Process
import BurrowGate.Lib.Run
import Mathlib.Data.List.Basic

/-!
# `ha-write-barrier.ts`: `HaPrimaryWriteBarrier`

Writes enter through `runPrimaryWrite` and leave in its `finally`; between the two
anything may happen, so both are actions of their own. A lease is the context that
`leaseStorage.run` gives an operation and all work started inside it, so a caller
is known by the lease it inherits, if any; the work may outlive the lease.
`beginPromotion` suspends on a promise; the timer, the last write's `finally` and
the continuation after the promise has settled are separate actions.
-/

namespace BurrowGate.Ha

open Lib.Run


/-- An `operation()` that a call of `runPrimaryWrite` awaits. -/
structure PrimaryWrite where
  lease : Nat
  outermost : Bool

/-- The promise a draining `beginPromotion` awaits. -/
inductive DrainPromise
  | pending
  | resolved
  | rejected
  deriving DecidableEq

def DrainPromise.resolve : DrainPromise → DrainPromise
  | .pending => .resolved
  | p => p

def DrainPromise.reject : DrainPromise → DrainPromise
  | .pending => .rejected
  | p => p

/-- `leases` are the `WriteLeaseContext`s made so far, `promotions` the calls of
`beginPromotion` that wait, and `drainWaiters` the promises among them that a drain
resolves. `promoted` is a history variable: a `beginPromotion` has resolved and
`endPromotion` has not been called since. -/
structure HaPrimaryWriteBarrier (N : Type*) where
  ha : HaConfig N
  now : Nat
  leases : List Bool
  activeWrites : Int
  drainWaiters : List Nat
  writes : List PrimaryWrite
  promotions : List (Nat × DrainPromise)
  promotionsStarted : Nat
  promoted : Bool

variable {N : Type*}

namespace HaPrimaryWriteBarrier

/-- `hasActiveLease`, for a caller with the given store. -/
def hasActiveLease (s : HaPrimaryWriteBarrier N) (store : Option Nat) : Bool :=
  store.any fun l => s.leases[l]? = some true

def runPrimaryWrite (s : HaPrimaryWriteBarrier N) (store : Option Nat) :
    Except WriteFence (HaPrimaryWriteBarrier N) :=
  match store.filter fun l => s.leases[l]? = some true with
  | some inherited =>
      .ok { s with writes := { lease := inherited, outermost := false } :: s.writes }
  | none =>
      (Ha.runPrimaryWrite s.ha s.now).map fun _ =>
        { s with
          leases := s.leases ++ [true]
          activeWrites := s.activeWrites + 1
          writes := { lease := s.leases.length, outermost := true } :: s.writes }

/-- `for (const resolve of this.drainWaiters) resolve(); this.drainWaiters.clear();` -/
def resolveDrainWaiters (s : HaPrimaryWriteBarrier N) : HaPrimaryWriteBarrier N :=
  { s with
    drainWaiters := []
    promotions := s.promotions.map fun q =>
      if q.1 ∈ s.drainWaiters then (q.1, q.2.resolve) else q }

/-- The `finally` of `runPrimaryWrite`. -/
def releaseLease (s : HaPrimaryWriteBarrier N) (lease : Nat) : HaPrimaryWriteBarrier N :=
  let s := { s with leases := s.leases.set lease false, activeWrites := s.activeWrites - 1 }
  if s.activeWrites = 0 then s.resolveDrainWaiters else s

/-- The operation of write `i` returns or throws. -/
def operationSettled (s : HaPrimaryWriteBarrier N) (i : Nat) : Option (HaPrimaryWriteBarrier N) :=
  s.writes[i]?.map fun w =>
    let s := { s with writes := s.writes.eraseIdx i }
    if w.outermost then s.releaseLease w.lease else s

/-- `beginPromotion` up to the promise it awaits; `none` when it refuses. -/
def beginPromotion (s : HaPrimaryWriteBarrier N) : Option (HaPrimaryWriteBarrier N) :=
  (Ha.beginPromotion s.ha s.now).map fun ha =>
    if s.activeWrites = 0 then { s with ha := ha, promoted := true }
    else
      { s with
        ha := ha
        drainWaiters := s.promotionsStarted :: s.drainWaiters
        promotions := (s.promotionsStarted, .pending) :: s.promotions
        promotionsStarted := s.promotionsStarted + 1 }

/-- The drain timer of a `beginPromotion` fires. -/
def drainTimeout (s : HaPrimaryWriteBarrier N) (id : Nat) : HaPrimaryWriteBarrier N :=
  { s with promotions := s.promotions.map fun q => if q.1 = id then (q.1, q.2.reject) else q }

/-- `beginPromotion` after its promise has settled: it returns, or rethrows the timeout. -/
def promotionSettled (s : HaPrimaryWriteBarrier N) (id : Nat) : Option (HaPrimaryWriteBarrier N) :=
  let done :=
    { s with
      drainWaiters := s.drainWaiters.filter (· ≠ id)
      promotions := s.promotions.filter (·.1 ≠ id) }
  match s.promotions.find? (·.1 = id) with
  | some (_, .resolved) => some { done with promoted := true }
  | some (_, .rejected) => some { done with ha := Ha.endPromotion s.ha }
  | _ => none

def endPromotion (s : HaPrimaryWriteBarrier N) : HaPrimaryWriteBarrier N :=
  { s with ha := Ha.endPromotion s.ha, promoted := false }

end HaPrimaryWriteBarrier

/-! ## Interleavings -/

/-- `configure` is any other writer of `config.ha`: it may raise and clear the other fences,
but `fencedForPromotion` is the barrier's own. -/
inductive BarrierAction (N : Type*)
  | advance (ms : Nat)
  | configure (ha : HaConfig N)
  | runPrimaryWrite (store : Option Nat)
  | operationSettled (i : Nat)
  | beginPromotion
  | drainTimeout (id : Nat)
  | promotionSettled (id : Nat)
  | endPromotion

/-- A call that is refused leaves the barrier as it is. -/
def barrierStep (s : HaPrimaryWriteBarrier N) : BarrierAction N → Option (HaPrimaryWriteBarrier N)
  | .advance ms => some { s with now := s.now + ms }
  | .configure ha =>
      if ha.fencedForPromotion = s.ha.fencedForPromotion then some { s with ha := ha } else none
  | .runPrimaryWrite store =>
      match s.runPrimaryWrite store with
      | .ok s' => some s'
      | .error _ => some s
  | .operationSettled i => s.operationSettled i
  | .beginPromotion => some (s.beginPromotion.getD s)
  | .drainTimeout id => some (s.drainTimeout id)
  | .promotionSettled id => s.promotionSettled id
  | .endPromotion => some s.endPromotion

/-- The barrier as it is constructed; a stored promotion intent may have raised the fence. -/
def constructed (now : Nat) (ha : HaConfig N) : HaPrimaryWriteBarrier N :=
  { ha := ha
    now := now
    leases := []
    activeWrites := 0
    drainWaiters := []
    writes := []
    promotions := []
    promotionsStarted := 0
    promoted := false }

def Constructed (s : HaPrimaryWriteBarrier N) : Prop := ∃ now ha, s = constructed now ha

/-! ## What the checks of `config.ha` say -/

theorem runPrimaryWrite_ok {ha : HaConfig N} {now : Nat}
    (h : Ha.runPrimaryWrite ha now = .ok ()) : ha.fencedForPromotion = false := by
  unfold Ha.runPrimaryWrite at h
  split at h
  · cases h
  · split at h
    · cases h
    · split at h
      · cases h
      · rename_i hf
        simpa using hf

theorem beginPromotion_eq {ha ha' : HaConfig N} {now : Nat}
    (h : Ha.beginPromotion ha now = some ha') :
    ha.fencedForPromotion = false ∧ ha' = { ha with fencedForPromotion := true } := by
  unfold Ha.beginPromotion at h
  (repeat' split at h) <;> cases h
  rename_i hf _
  exact ⟨by simpa using hf, rfl⟩

variable {s s' : HaPrimaryWriteBarrier N}

/-- A call either inherits an active lease, or passes the fences and takes a lease of its own. -/
theorem runPrimaryWrite_cases {store : Option Nat} (h : s.runPrimaryWrite store = .ok s') :
    (∃ l, s.leases[l]? = some true ∧
      s' = { s with writes := { lease := l, outermost := false } :: s.writes }) ∨
    (s.ha.fencedForPromotion = false ∧
      s' = { s with
        leases := s.leases ++ [true]
        activeWrites := s.activeWrites + 1
        writes := { lease := s.leases.length, outermost := true } :: s.writes }) := by
  unfold HaPrimaryWriteBarrier.runPrimaryWrite at h
  split at h
  · rename_i l hl
    have hactive := (Option.filter_eq_some_iff.mp hl).2
    exact .inl ⟨l, by simpa using hactive, (Except.ok.inj h).symm⟩
  · cases hw : Ha.runPrimaryWrite s.ha s.now with
    | error f => rw [hw] at h; cases h
    | ok u =>
        rw [hw] at h
        exact .inr ⟨runPrimaryWrite_ok hw, (Except.ok.inj h).symm⟩

/-- Work with an active lease is admitted whatever the fences say. -/
theorem runPrimaryWrite_inherited {l : Nat} (h : s.leases[l]? = some true) :
    s.runPrimaryWrite (some l) =
      .ok { s with writes := { lease := l, outermost := false } :: s.writes } := by
  simp [HaPrimaryWriteBarrier.runPrimaryWrite, Option.filter, h]

/-- Without a lease nothing passes a raised promotion fence. -/
theorem runPrimaryWrite_fenced {store : Option Nat} (hf : s.ha.fencedForPromotion = true)
    (hl : s.hasActiveLease store = false) : ∃ f, s.runPrimaryWrite store = .error f := by
  cases hw : s.runPrimaryWrite store with
  | error f => exact ⟨f, rfl⟩
  | ok s' =>
      exfalso
      unfold HaPrimaryWriteBarrier.runPrimaryWrite at hw
      split at hw
      · rename_i l hfilter
        obtain ⟨rfl, hactive⟩ := Option.filter_eq_some_iff.mp hfilter
        have hnot : s.hasActiveLease (some l) = true := hactive
        rw [hl] at hnot
        cases hnot
      · cases hp : Ha.runPrimaryWrite s.ha s.now with
        | error f => rw [hp] at hw; cases hw
        | ok u =>
            have hopen := runPrimaryWrite_ok hp
            rw [hf] at hopen
            cases hopen

end BurrowGate.Ha
