import BurrowGate.Ha.Process

/-!
# `promoteNode`: where it may stop

One call, with what happens at each of its `await`s. The intent is kept in a variable that is
set before the row is saved. Whether the fence comes down at the end depends on the
variable, not on the row.
-/

namespace BurrowGate.Ha.PromotionIntent

variable {N : Type*} [DecidableEq N]

def PROMOTE_PERSIST_MAX_ATTEMPTS : Nat := 3

/-- What the caller of a transaction sees, and whether it was committed. -/
inductive DbCall
  | returned
  | rolledBack
  | committed
  deriving DecidableEq

/-- The tables after the call, and its result unless it threw. -/
def DbCall.run {α : Type*} (call : DbCall) (transaction : HaTables N → HaTables N × α)
    (t : HaTables N) : HaTables N × Option α :=
  match call with
  | .returned => ((transaction t).1, some (transaction t).2)
  | .rolledBack => (t, none)
  | .committed => ((transaction t).1, none)

/-- The end of `waitForPromoteAppliedAck`. -/
inductive Activation
  | alreadyPending
  | notSent
  | rejected
  | unanswered
  | acknowledged
  deriving DecidableEq

inductive PromoteError
  | notPrimary
  | authorityFenced
  | notConnected
  | versionMismatch
  | noAdminUrl
  | inProgress
  | offline
  | barrierClosed
  | drainTimedOut
  | flushFailed
  | bystandersNotFenced
  | targetNotPrepared
  | offlineBeforeActivation
  | adminUrlInvalid
  | intentNotSaved
  | activationPending
  | messageNotSent
  | targetRejected
  | activationUnanswered
  | demotionNotPersisted
  | intentNotCleared
  | pinnedCaNotDeleted
  deriving DecidableEq

/-- `fenceAuthorityForNewerEpoch` is called while the target's answer is awaited. -/
structure AuthorityReport (N : Type*) where
  epoch : Nat
  sourceNodeId : N
  observedAt : Nat
  persist : DbCall

structure HaClusterNode (N : Type*) where
  nodeId : N
  version : List Char
  adminUrl : List Char

/-- What the call meets. -/
structure Promotion (N : Type*) where
  now : Nat
  appVersion : List Char
  nodes : List (HaClusterNode N)
  offlineAtStart : List N
  activeWrites : Nat
  drained : Bool
  flushed : Bool
  bystandersFenced : Bool
  targetPrepared : Bool
  offlineBeforeActivation : List N
  meshUrlDerived : Bool
  promotionId : Nat
  save : DbCall
  activation : Activation
  newerAuthority : Option (AuthorityReport N)
  completion : Nat → DbCall
  clear : DbCall
  pinnedCaDeleted : Bool

structure PrimaryState (N : Type*) where
  ha : HaConfig N
  tables : HaTables N

/-! ## The call -/

/-- The checks before the fence is raised, and `beginPromotion`. -/
def promotionChecks (p : Promotion N) (target : N) (ha : HaConfig N) :
    Except PromoteError (HaConfig N) :=
  if ha.role ≠ .primary then .error .notPrimary
  else if ha.authorityFence.isSome then .error .authorityFenced
  else
    match p.nodes.find? (·.nodeId = target) with
    | none => .error .notConnected
    | some node =>
        if node.version ≠ p.appVersion then .error .versionMismatch
        else if node.adminUrl = [] then .error .noAdminUrl
        else if ha.fencedForPromotion then .error .inProgress
        else if p.offlineAtStart ≠ [] then .error .offline
        else
          match beginPromotion ha p.now with
          | none => .error .barrierClosed
          | some ha => .ok ha

/-- Everything that is awaited or computed before the intent is set. -/
def prepareTarget (p : Promotion N) : Except PromoteError Unit :=
  if p.flushed = false then .error .flushFailed
  else if p.bystandersFenced = false then .error .bystandersNotFenced
  else if p.targetPrepared = false then .error .targetNotPrepared
  else if p.offlineBeforeActivation ≠ [] then .error .offlineBeforeActivation
  else if p.meshUrlDerived = false then .error .adminUrlInvalid
  else .ok ()

/-- The call `completion n` is the one after which `n` attempts are left. -/
def completePromotionWithRetry (completion : Nat → DbCall) (intent : HaPromotionIntent N) :
    Nat → HaTables N → HaTables N × Bool
  | 0, t => (t, false)
  | n + 1, t =>
      let r := (completion n).run (fun t =>
        completeHaPromotionIntent t intent.promotionId intent.targetNodeId intent.newEpoch) t
      if r.2 = some true then (r.1, true) else completePromotionWithRetry completion intent n r.1

def fenceAuthorityForNewerEpoch (report : AuthorityReport N) (s : PrimaryState N) :
    PrimaryState N :=
  if report.epoch ≤ s.ha.epoch then s
  else
    { ha :=
        { s.ha with
          authorityFence :=
            if s.ha.authorityFence.all (·.observedEpoch < report.epoch) then
              some
                { observedEpoch := report.epoch
                  sourceNodeId := some report.sourceNodeId
                  observedAt := report.observedAt }
            else s.ha.authorityFence }
      tables :=
        (report.persist.run (fun t => (fenceHaPrimaryAuthority t report.epoch report.sourceNodeId
          report.observedAt, ())) s.tables).1 }

def observeAuthority (report : Option (AuthorityReport N)) (s : PrimaryState N) : PrimaryState N :=
  report.elim s fun report => fenceAuthorityForNewerEpoch report s

def waitForPromoteAppliedAck (activation : Activation) : Except PromoteError Unit :=
  match activation with
  | .alreadyPending => .error .activationPending
  | .notSent => .error .messageNotSent
  | .rejected => .error .targetRejected
  | .unanswered => .error .activationUnanswered
  | .acknowledged => .ok ()

def finalizePromotion (p : Promotion N) (intent : HaPromotionIntent N) (s : PrimaryState N) :
    PrimaryState N × Except PromoteError Unit :=
  let s := observeAuthority p.newerAuthority s
  match waitForPromoteAppliedAck p.activation with
  | .error e => (s, .error e)
  | .ok () =>
      let r := completePromotionWithRetry p.completion intent PROMOTE_PERSIST_MAX_ATTEMPTS s.tables
      if r.2 then
        let ha :=
          { s.ha with
            role := .replica
            primaryUrl := some intent.targetNodeId
            epoch := intent.newEpoch }
        ({ ha := endPromotion ha, tables := r.1 },
          if p.pinnedCaDeleted then .ok () else .error .pinnedCaNotDeleted)
      else ({ s with tables := r.1 }, .error .demotionNotPersisted)

def intentFor (p : Promotion N) (target : N) (ha : HaConfig N) : HaPromotionIntent N :=
  { promotionId := p.promotionId, targetNodeId := target, newEpoch := ha.epoch + 1 }

/-- The `try` block: the state, the variable `durableIntent` and the outcome. -/
def promotionAttempt (p : Promotion N) (target : N) (s : PrimaryState N) :
    PrimaryState N × Option (HaPromotionIntent N) × Except PromoteError Unit :=
  match prepareTarget p with
  | .error e => (s, none, .error e)
  | .ok () =>
      let durableIntent := intentFor p target s.ha
      let r := p.save.run (fun t => (saveHaPromotionIntent t durableIntent, ())) s.tables
      let s := { s with tables := r.1 }
      if r.2.isNone then (s, some durableIntent, .error .intentNotSaved)
      else
        let r := finalizePromotion p durableIntent s
        match r.2 with
        | .ok () => (r.1, none, .ok ())
        | .error e => (r.1, some durableIntent, .error e)

/-- The two error classes after which the target is known not to have activated. -/
def PromoteError.targetInactive : PromoteError → Bool
  | .messageNotSent => true
  | .targetRejected => true
  | _ => false

/-- The `catch` block. -/
def promotionFailed (p : Promotion N) (s : PrimaryState N)
    (durableIntent : Option (HaPromotionIntent N)) (e : PromoteError) :
    PrimaryState N × Option (HaPromotionIntent N) × PromoteError :=
  match durableIntent with
  | none => (s, none, e)
  | some intent =>
      if e.targetInactive then
        let r := p.clear.run (fun t => (clearHaPromotionIntent t intent.promotionId, ())) s.tables
        let s := { s with tables := r.1 }
        if r.2.isNone then (s, some intent, .intentNotCleared) else (s, none, e)
      else (s, some intent, e)

/-- The `finally` block. -/
def promotionSettled (s : PrimaryState N) (durableIntent : Option (HaPromotionIntent N)) :
    PrimaryState N :=
  if durableIntent.isNone then { s with ha := endPromotion s.ha } else s

/-- The end of the call after an error in the `try` block. -/
def rejected (p : Promotion N) (s : PrimaryState N)
    (durableIntent : Option (HaPromotionIntent N)) (e : PromoteError) :
    PrimaryState N × PromoteError :=
  let r := promotionFailed p s durableIntent e
  (promotionSettled r.1 r.2.1, r.2.2)

def settleAttempt (p : Promotion N)
    (r : PrimaryState N × Option (HaPromotionIntent N) × Except PromoteError Unit) :
    PrimaryState N × Except PromoteError Unit :=
  match r.2.2 with
  | .ok () => (promotionSettled r.1 r.2.1, .ok ())
  | .error e => ((rejected p r.1 r.2.1 e).1, .error (rejected p r.1 r.2.1 e).2)

def promoteNode (p : Promotion N) (target : N) (s : PrimaryState N) :
    PrimaryState N × Except PromoteError Unit :=
  match promotionChecks p target s.ha with
  | .error e => (s, .error e)
  | .ok ha =>
      if 0 < p.activeWrites ∧ p.drained = false then
        ({ s with ha := endPromotion ha }, .error .drainTimedOut)
      else settleAttempt p (promotionAttempt p target { s with ha := ha })

/-! ## When fence and row agree -/

def Agrees (s : PrimaryState N) : Prop :=
  s.ha.fencedForPromotion = true ↔ s.tables.intent.isSome = true

/-- The first attempt that reaches the database commits, but throws. -/
def lostCommit (completion : Nat → DbCall) : Nat → Bool
  | 0 => false
  | n + 1 =>
      match completion n with
      | .returned => false
      | .rolledBack => lostCommit completion n
      | .committed => true

/-- What the database reports of the intent is what it has done. -/
def Reported (p : Promotion N) (target : N) (s : PrimaryState N) : Prop :=
  match promotionChecks p target s.ha with
  | .error _ => Agrees s
  | .ok _ =>
      if (0 < p.activeWrites ∧ p.drained = false) ∨ (prepareTarget p).isOk = false then
        s.tables.intent = none
      else
        match p.save with
        | .rolledBack => s.tables.intent.isSome = true
        | .committed => True
        | .returned =>
            match p.activation with
            | .notSent => p.clear ≠ .committed
            | .rejected => p.clear ≠ .committed
            | .acknowledged =>
                lostCommit p.completion PROMOTE_PERSIST_MAX_ATTEMPTS = true →
                  (observeAuthority p.newerAuthority s).tables.config.authorityFenced = true
            | .alreadyPending => True
            | .unanswered => True

/-! ## The steps of the call -/

section Steps

variable {p : Promotion N} {target : N} {s : PrimaryState N} {t : HaTables N}
  {intent : HaPromotionIntent N}

section

omit [DecidableEq N]

theorem fenceHaPrimaryAuthority_intent (epoch : Nat) (source : N) (observedAt : Nat) :
    (fenceHaPrimaryAuthority t epoch source observedAt).intent = t.intent := by
  unfold fenceHaPrimaryAuthority
  split <;> rfl

/-- Observing a newer authority leaves the promotion's fence and row alone. -/
theorem observeAuthority_promotion (report : Option (AuthorityReport N)) (s : PrimaryState N) :
    (observeAuthority report s).ha.fencedForPromotion = s.ha.fencedForPromotion ∧
      (observeAuthority report s).tables.intent = s.tables.intent := by
  cases report with
  | none => exact ⟨rfl, rfl⟩
  | some report =>
      show (fenceAuthorityForNewerEpoch report s).ha.fencedForPromotion = _ ∧
        (fenceAuthorityForNewerEpoch report s).tables.intent = _
      unfold fenceAuthorityForNewerEpoch
      split
      · exact ⟨rfl, rfl⟩
      · refine ⟨rfl, ?_⟩
        cases report.persist with
        | returned => exact fenceHaPrimaryAuthority_intent _ _ _
        | rolledBack => rfl
        | committed => exact fenceHaPrimaryAuthority_intent _ _ _

/-- It depends on the epoch and on the configuration row. -/
theorem observeAuthority_config {s' : PrimaryState N} (report : Option (AuthorityReport N))
    (hepoch : s'.ha.epoch = s.ha.epoch) (hconfig : s'.tables.config = s.tables.config) :
    (observeAuthority report s').tables.config = (observeAuthority report s).tables.config := by
  cases report with
  | none => exact hconfig
  | some report =>
      show (fenceAuthorityForNewerEpoch report s').tables.config =
        (fenceAuthorityForNewerEpoch report s).tables.config
      have hfence : (fenceHaPrimaryAuthority s'.tables report.epoch report.sourceNodeId
          report.observedAt).config = (fenceHaPrimaryAuthority s.tables report.epoch
          report.sourceNodeId report.observedAt).config := by
        unfold fenceHaPrimaryAuthority
        rw [hconfig]
        split
        · rfl
        · exact hconfig
      unfold fenceAuthorityForNewerEpoch
      rw [hepoch]
      split
      · exact hconfig
      · cases report.persist with
        | returned => exact hfence
        | rolledBack => exact hconfig
        | committed => exact hfence

/-- Where completing changes nothing, no attempt completes. -/
theorem completePromotionWithRetry_refused (completion : Nat → DbCall)
    (h : completeHaPromotionIntent t intent.promotionId intent.targetNodeId intent.newEpoch =
      (t, false)) (n : Nat) :
    completePromotionWithRetry completion intent n t = (t, false) := by
  induction n with
  | zero => rfl
  | succ n ih =>
      rw [completePromotionWithRetry]
      cases completion n with
      | returned => simpa [DbCall.run, h] using ih
      | rolledBack => simpa [DbCall.run] using ih
      | committed => simpa [DbCall.run, h] using ih

theorem completeHaPromotionIntent_of_none (h : t.intent = none) (id : Nat) (url : N)
    (epoch : Nat) : completeHaPromotionIntent t id url epoch = (t, false) := by
  simp [completeHaPromotionIntent, h]

/-- The row is gone exactly when an attempt was committed; the caller may not learn of it. -/
theorem completePromotionWithRetry_spec (completion : Nat → DbCall)
    (hintent : t.intent = some intent) (hfence : t.config.authorityFenced = false) (n : Nat) :
    let r := completePromotionWithRetry completion intent n t
    (lostCommit completion n = true → r.2 = false ∧ r.1.intent = none) ∧
      (lostCommit completion n = false →
        (r.2 = true ∧ r.1.intent = none) ∨ (r.2 = false ∧ r.1.intent = some intent)) := by
  have hcomplete : (completeHaPromotionIntent t intent.promotionId intent.targetNodeId
      intent.newEpoch).2 = true ∧ (completeHaPromotionIntent t intent.promotionId
        intent.targetNodeId intent.newEpoch).1.intent = none := by
    simp [completeHaPromotionIntent, hintent, hfence]
  obtain ⟨hdone, hgone⟩ := hcomplete
  induction n with
  | zero =>
      refine ⟨fun h => (by cases h), fun _ => .inr ⟨rfl, hintent⟩⟩
  | succ n ih =>
      dsimp only
      rw [completePromotionWithRetry, lostCommit]
      cases completion n with
      | returned =>
          simp only [DbCall.run, hdone, if_pos]
          exact ⟨fun h => (by cases h), fun _ => .inl ⟨trivial, hgone⟩⟩
      | rolledBack => simpa [DbCall.run] using ih
      | committed =>
          have hnone := completePromotionWithRetry_refused completion
            (completeHaPromotionIntent_of_none hgone intent.promotionId intent.targetNodeId
              intent.newEpoch) n
          simp only [DbCall.run, reduceCtorEq, if_false, hnone]
          exact ⟨fun _ => ⟨trivial, hgone⟩, fun h => (by cases h)⟩

end

/-- When the checks pass the fence is up, and nothing else has changed. -/
theorem promotionChecks_ok {ha : HaConfig N} (h : promotionChecks p target s.ha = .ok ha) :
    ha = { s.ha with fencedForPromotion := true } := by
  unfold promotionChecks at h
  split at h
  · cases h
  · split at h
    · cases h
    · split at h
      · cases h
      · split at h
        · cases h
        · split at h
          · cases h
          · split at h
            · cases h
            · split at h
              · cases h
              · split at h
                · cases h
                · rename_i raised hbegin
                  obtain rfl := Except.ok.inj h
                  unfold beginPromotion at hbegin
                  simp only [Option.ite_none_left_eq_some] at hbegin
                  exact (Option.some.inj hbegin.2.2.2.2).symm

section

omit [DecidableEq N]

theorem agrees_up {ha : HaConfig N} (hfence : ha.fencedForPromotion = true) :
    Agrees { ha := ha, tables := t } ↔ t.intent.isSome = true := by
  simp [Agrees, hfence]

theorem agrees_down {ha : HaConfig N} (hfence : ha.fencedForPromotion = false) :
    Agrees { ha := ha, tables := t } ↔ t.intent = none := by
  simp [Agrees, hfence]

/-- Where the variable is not set the fence comes down. -/
theorem rejected_none (e : PromoteError) :
    Agrees (rejected p s none e).1 ↔ s.tables.intent = none := by
  exact agrees_down rfl

/-- Where the target may have activated both stay. -/
theorem rejected_some {e : PromoteError} (he : e.targetInactive = false) :
    Agrees (rejected p s (some intent) e).1 ↔ Agrees s := by
  have hsame : (rejected p s (some intent) e).1 = s := by
    simp [rejected, promotionFailed, he, promotionSettled]
  rw [hsame]

/-- Where it has not, the row is deleted first. -/
theorem rejected_inactive {e : PromoteError} (he : e.targetInactive = true)
    (hfence : s.ha.fencedForPromotion = true) (hintent : s.tables.intent = some intent) :
    Agrees (rejected p s (some intent) e).1 ↔ p.clear ≠ .committed := by
  have hcleared : (clearHaPromotionIntent s.tables intent.promotionId).intent = none := by
    simp [clearHaPromotionIntent, hintent]
  cases hclear : p.clear with
  | returned =>
      have hstate : (rejected p s (some intent) e).1 =
          { ha := endPromotion s.ha
            tables := clearHaPromotionIntent s.tables intent.promotionId } := by
        simp [rejected, promotionFailed, he, hclear, DbCall.run, promotionSettled]
      rw [hstate, agrees_down rfl]
      simpa using hcleared
  | rolledBack =>
      have hstate : (rejected p s (some intent) e).1 = s := by
        simp [rejected, promotionFailed, he, hclear, DbCall.run, promotionSettled]
      rw [hstate]
      refine (agrees_up hfence).trans ?_
      simp [hintent]
  | committed =>
      have hstate : (rejected p s (some intent) e).1 =
          { s with tables := clearHaPromotionIntent s.tables intent.promotionId } := by
        simp [rejected, promotionFailed, he, hclear, DbCall.run, promotionSettled]
      rw [hstate]
      refine (agrees_up hfence).trans ?_
      simp [hcleared]

theorem finalizePromotion_agrees (hfence : s.ha.fencedForPromotion = true)
    (hintent : s.tables.intent = some intent) :
    (∀ e, (finalizePromotion p intent s).2 = .error e →
      Agrees (rejected p (finalizePromotion p intent s).1 (some intent) e).1) ↔
      match p.activation with
      | .notSent => p.clear ≠ .committed
      | .rejected => p.clear ≠ .committed
      | .acknowledged =>
          lostCommit p.completion PROMOTE_PERSIST_MAX_ATTEMPTS = true →
            (observeAuthority p.newerAuthority s).tables.config.authorityFenced = true
      | .alreadyPending => True
      | .unanswered => True := by
  obtain ⟨hup, hrow⟩ := observeAuthority_promotion p.newerAuthority s
  rw [hfence] at hup
  rw [hintent] at hrow
  have hboth : Agrees (observeAuthority p.newerAuthority s) := by
    have hsome : (observeAuthority p.newerAuthority s).tables.intent.isSome = true := by
      rw [hrow]
      rfl
    exact (agrees_up hup).mpr hsome
  unfold finalizePromotion
  cases p.activation with
  | alreadyPending =>
      refine iff_of_true (fun e he => ?_) trivial
      obtain rfl := Except.error.inj he
      exact (rejected_some rfl).mpr hboth
  | notSent =>
      refine Iff.trans ?_ (rejected_inactive (e := .messageNotSent) rfl hup hrow)
      exact ⟨fun h => h _ rfl, fun h e he => Except.error.inj he ▸ h⟩
  | rejected =>
      refine Iff.trans ?_ (rejected_inactive (e := .targetRejected) rfl hup hrow)
      exact ⟨fun h => h _ rfl, fun h e he => Except.error.inj he ▸ h⟩
  | unanswered =>
      refine iff_of_true (fun e he => ?_) trivial
      obtain rfl := Except.error.inj he
      exact (rejected_some rfl).mpr hboth
  | acknowledged =>
      dsimp only [waitForPromoteAppliedAck]
      have hkept : ∀ {tables : HaTables N}, Agrees (rejected p
          { observeAuthority p.newerAuthority s with tables := tables } (some intent)
            .demotionNotPersisted).1 ↔ tables.intent.isSome = true :=
        fun {_} => (rejected_some rfl).trans (agrees_up hup)
      cases hauthority : (observeAuthority p.newerAuthority s).tables.config.authorityFenced with
      | true =>
          have hrefused := completePromotionWithRetry_refused p.completion (by
            simp [completeHaPromotionIntent, hauthority] :
              completeHaPromotionIntent (observeAuthority p.newerAuthority s).tables
                intent.promotionId intent.targetNodeId intent.newEpoch =
                ((observeAuthority p.newerAuthority s).tables, false)) PROMOTE_PERSIST_MAX_ATTEMPTS
          rw [hrefused]
          refine iff_of_true (fun e he => ?_) fun _ => rfl
          obtain rfl := Except.error.inj he
          exact hkept.mpr (by rw [hrow]; rfl)
      | false =>
          obtain ⟨hlost, hreported⟩ := completePromotionWithRetry_spec p.completion hrow hauthority
            PROMOTE_PERSIST_MAX_ATTEMPTS
          cases hcommit : lostCommit p.completion PROMOTE_PERSIST_MAX_ATTEMPTS with
          | true =>
              obtain ⟨hfailed, hgone⟩ := hlost hcommit
              rw [if_neg (by simp [hfailed])]
              refine iff_of_false (fun h => ?_) fun h => (by cases h rfl)
              have hrowless := hkept.mp (h _ rfl)
              rw [hgone] at hrowless
              cases hrowless
          | false =>
              refine iff_of_true (fun e he => ?_) fun h => (by cases h)
              rcases hreported hcommit with ⟨hdone, hgone⟩ | ⟨hfailed, hstill⟩
              · rw [if_pos hdone] at he ⊢
                dsimp only at he
                split at he
                · cases he
                · obtain rfl := Except.error.inj he
                  exact (rejected_some rfl).mpr ((agrees_down rfl).mpr hgone)
              · rw [if_neg (by simp [hfailed])] at he ⊢
                obtain rfl := Except.error.inj he
                exact hkept.mpr (by rw [hstill]; rfl)

theorem settleAttempt_agrees
    (r : PrimaryState N × Option (HaPromotionIntent N) × Except PromoteError Unit) :
    (∀ e, (settleAttempt p r).2 = .error e → Agrees (settleAttempt p r).1) ↔
      ∀ e, r.2.2 = .error e → Agrees (rejected p r.1 r.2.1 e).1 := by
  obtain ⟨s, durableIntent, outcome⟩ := r
  cases outcome with
  | ok _ =>
      constructor
      · intro _ e he
        cases he
      · intro _ e he
        cases he
  | error e =>
      constructor
      · intro h e' he
        obtain rfl := Except.error.inj he
        exact h _ rfl
      · intro h _ _
        exact h e rfl

/-- From a raised fence on, the call agrees where the database reported what it did. -/
theorem promotionAttempt_agrees (hfence : s.ha.fencedForPromotion = true)
    (hprepare : (prepareTarget p).isOk = true) :
    (∀ e, (settleAttempt p (promotionAttempt p target s)).2 = .error e →
      Agrees (settleAttempt p (promotionAttempt p target s)).1) ↔
      match p.save with
      | .rolledBack => s.tables.intent.isSome = true
      | .committed => True
      | .returned =>
          match p.activation with
          | .notSent => p.clear ≠ .committed
          | .rejected => p.clear ≠ .committed
          | .acknowledged =>
              lostCommit p.completion PROMOTE_PERSIST_MAX_ATTEMPTS = true →
                (observeAuthority p.newerAuthority s).tables.config.authorityFenced = true
          | .alreadyPending => True
          | .unanswered => True := by
  rw [settleAttempt_agrees]
  unfold promotionAttempt
  cases hok : prepareTarget p with
  | error e =>
      rw [hok] at hprepare
      cases hprepare
  | ok _ =>
      dsimp only
      cases hsave : p.save with
      | rolledBack =>
          simp only [DbCall.run, Option.isNone_none, if_true]
          constructor
          · intro h
            exact (agrees_up hfence).mp ((rejected_some rfl).mp (h _ rfl))
          · intro hrow e he
            obtain rfl := Except.error.inj he
            exact (rejected_some rfl).mpr ((agrees_up hfence).mpr hrow)
      | committed =>
          simp only [DbCall.run, Option.isNone_none, if_true]
          refine iff_of_true (fun e he => ?_) trivial
          obtain rfl := Except.error.inj he
          exact (rejected_some rfl).mpr ((agrees_up hfence).mpr rfl)
      | returned =>
          simp only [DbCall.run, Option.isNone_some, Bool.false_eq_true, if_false]
          have hconfig : (observeAuthority p.newerAuthority
              ⟨s.ha, saveHaPromotionIntent s.tables (intentFor p target s.ha)⟩).tables.config =
              (observeAuthority p.newerAuthority s).tables.config :=
            observeAuthority_config p.newerAuthority rfl rfl
          rw [← hconfig]
          refine Iff.trans ?_ (finalizePromotion_agrees hfence rfl)
          cases (finalizePromotion p (intentFor p target s.ha)
              ⟨s.ha, saveHaPromotionIntent s.tables (intentFor p target s.ha)⟩).2 with
          | ok _ => exact ⟨fun _ e he => (by cases he), fun _ e he => (by cases he)⟩
          | error e => exact Iff.rfl

end

end Steps

/-- When `promoteNode` rejects, the fence is up exactly if the row exists, unless the database
has done something else than it reported. -/
theorem promotion_agreement (p : Promotion N) (target : N) (s : PrimaryState N) :
    (∀ e, (promoteNode p target s).2 = .error e → Agrees (promoteNode p target s).1) ↔
      Reported p target s := by
  unfold promoteNode Reported
  cases hchecks : promotionChecks p target s.ha with
  | error e => exact ⟨fun h => h e rfl, fun h _ _ => h⟩
  | ok ha =>
      obtain rfl := promotionChecks_ok hchecks
      dsimp only
      by_cases hdrain : 0 < p.activeWrites ∧ p.drained = false
      · rw [if_pos hdrain, if_pos (Or.inl hdrain)]
        have hdown : Agrees { s with ha := endPromotion s.ha } ↔ s.tables.intent = none :=
          agrees_down rfl
        refine Iff.trans ?_ hdown
        exact ⟨fun h => h _ rfl, fun h _ _ => h⟩
      · rw [if_neg hdrain]
        cases hprepare : (prepareTarget p).isOk with
        | false =>
            rw [if_pos (Or.inr rfl), settleAttempt_agrees]
            unfold promotionAttempt
            cases he : prepareTarget p with
            | error e =>
                have hnone : Agrees (rejected p { s with ha :=
                    { s.ha with fencedForPromotion := true } } none e).1 ↔
                    s.tables.intent = none := rejected_none e
                refine Iff.trans ?_ hnone
                exact ⟨fun h => h _ rfl, fun h _ he => Except.error.inj he ▸ h⟩
            | ok _ =>
                rw [he] at hprepare
                cases hprepare
        | true =>
            rw [if_neg (by simp [hdrain])]
            refine (promotionAttempt_agrees rfl hprepare).trans ?_
            have hconfig : (observeAuthority p.newerAuthority { s with ha :=
                { s.ha with fencedForPromotion := true } }).tables.config =
                (observeAuthority p.newerAuthority s).tables.config :=
              observeAuthority_config p.newerAuthority rfl rfl
            rw [hconfig]

/-! ## A save that fails -/

/-- Everything goes well but the transaction that saves the intent. -/
def unsavedPromotion : Promotion Nat :=
  { now := 0
    appVersion := "1.0.0".toList
    nodes := [{ nodeId := 2, version := "1.0.0".toList, adminUrl := "https://b".toList }]
    offlineAtStart := []
    activeWrites := 0
    drained := true
    flushed := true
    bystandersFenced := true
    targetPrepared := true
    offlineBeforeActivation := []
    meshUrlDerived := true
    promotionId := 7
    save := .rolledBack
    activation := .acknowledged
    newerAuthority := none
    completion := fun _ => .returned
    clear := .returned
    pinnedCaDeleted := true }

def openPrimary : PrimaryState Nat :=
  { ha :=
      { role := .primary
        primaryUrl := none
        epoch := 1
        authorityFence := none
        fencedForPromotion := false
        quorumFenced := false
        lastMajorityConfirmedAt := 0
        quorumTrackingActive := false
        electionInProgress := false }
    tables :=
      { config :=
          { role := .primary
            primaryUrl := none
            clusterEpoch := 1
            votedFor := none
            authorityFenced := false
            authorityFenceEpoch := none
            authorityFenceNodeId := none
            authorityFencedAt := none
            quorumFenced := false
            quorumFencedAt := none }
        intent := none } }

/-- The fence stays up without a row that anything could resume. -/
theorem unsaved_intent_keeps_fence :
    Agrees openPrimary ∧
      (promoteNode unsavedPromotion 2 openPrimary).2 = .error .intentNotSaved ∧
      (promoteNode unsavedPromotion 2 openPrimary).1.ha.fencedForPromotion = true ∧
      (promoteNode unsavedPromotion 2 openPrimary).1.tables.intent = none := by
  refine ⟨⟨fun h => (by cases h), fun h => (by cases h)⟩, ?_, ?_, ?_⟩ <;> decide

end BurrowGate.Ha.PromotionIntent
