import BurrowGate.Admin.SecondFactor
import BurrowGate.Lib.Run

/-!
# How many second factors can be tried

Failures are counted per pending login, the count is read before the code comes in, and whoever
knows the password begins as many pending logins as he likes. So neither the codes tried against
an account nor the sessions of a pending login are bounded.

They are in runs where a verification is let in by a counter that has every failed check of the
last window, while no other verification of the account or of the pending login is under way.
-/

namespace BurrowGate.Admin.SecondFactor

open Lib
open Lib.Run
open Lib.Lists
open Access (LoginFailureTracker)

/-! ## What is bounded -/

/-- The failed checks against an account in the window from `t` on. -/
def failedChecks (cfg : SignInConfig) (s : SignIn) (userId : List Char) (t : Nat) : Nat :=
  s.checks.countP fun c =>
    c.userId = userId && !c.accepted && t ≤ c.checkedAt && c.checkedAt < t + cfg.limits.windowMs

structure SecondFactorBounded (cfg : SignInConfig) (s : SignIn) : Prop where
  guesses : ∀ userId t, failedChecks cfg s userId t ≤ cfg.limits.maxFailures
  pendingLogins : ∀ token, s.sessions.countP (fun session => session.token = token) ≤ 1
  recoveryCodes : ∀ code, s.sessions.countP (fun session => session.code = some code) ≤ 1

/-! ## The condition -/

/-- The failed checks of the last window. -/
def recentFailures (cfg : SignInConfig) (s : SignIn) (userId : List Char) : Nat :=
  s.checks.countP fun c =>
    c.userId = userId && !c.accepted && s.clock < c.checkedAt + cfg.limits.windowMs

/-- The failures that the counter of a pending login has at present. -/
def countedFailures (s : SignIn) (token : Token) : Nat :=
  match s.twoFactorFailures.entries.get? (pendingKey token) with
  | some entry => if s.clock < entry.resetAt then entry.count else 0
  | none => 0

/-- The counter has let the verification in, and its outcome is open. -/
@[simp] def VerifyStage.underWay : VerifyStage → Bool
  | .form _ => true
  | .check _ => true
  | .answered _ _ => true
  | .user => false
  | .credentials _ => false
  | .opening _ => false
  | .ended => false

/-- The counter lets the call in only where it has all recent failures of the account, the pending
login is still there and no other verification of the two is under way. -/
def LetsIn (cfg : SignInConfig) (s : SignIn) (v : Verification) : Bool :=
  recentFailures cfg s v.userId ≤ countedFailures s v.token &&
    (s.pendingLogins.get? v.token).isSome &&
    s.verifications.countP
      (fun w => w.stage.underWay && (w.userId = v.userId || w.token = v.token)) = 0

/-- A verification that reads its counter and is let in meets the condition. -/
def MeetsCounter (cfg : SignInConfig) (s : SignIn) : SignInAction → Bool
  | .verifyEvent i .listed =>
      s.verifications[i]?.all fun v =>
        0 < (twoFactorStatus cfg s v.token).1 || LetsIn cfg s v
  | _ => true

/-! ## The invariant -/

variable {env : SignInEnv} {cfg : SignInConfig} {s s' : SignIn} {v : Verification}
  {stage : VerifyStage} {token : Token} {userId : List Char} {i t : Nat}

/-- The code is still to be checked. -/
@[simp] def VerifyStage.unanswered : VerifyStage → Bool
  | .form _ => true
  | .check _ => true
  | .answered _ _ => false
  | .user => false
  | .credentials _ => false
  | .opening _ => false
  | .ended => false

@[simp] def VerifyStage.isOpening : VerifyStage → Bool
  | .opening _ => true
  | .user => false
  | .credentials _ => false
  | .form _ => false
  | .check _ => false
  | .answered _ _ => false
  | .ended => false

/-- The recovery code that is used up. -/
@[simp] def VerifyStage.code : VerifyStage → Option RecoveryCode
  | .answered _ code => code
  | .opening code => code
  | .user => none
  | .credentials _ => none
  | .form _ => none
  | .check _ => none
  | .ended => none

def opening (s : SignIn) (token : Token) : Nat :=
  s.verifications.countP fun v => v.stage.isOpening && v.token = token

def underWay (s : SignIn) (token : Token) : Nat :=
  s.verifications.countP fun v => v.stage.underWay && v.token = token

def unanswered (s : SignIn) (userId : List Char) : Nat :=
  s.verifications.countP fun v => v.stage.unanswered && v.userId = userId

def holding (s : SignIn) (code : RecoveryCode) : Nat :=
  s.verifications.countP fun v => v.stage.code = some code

/-- The sessions of a pending login, with those that are being opened. -/
def opened (s : SignIn) (token : Token) : Nat :=
  s.sessions.countP (fun session => session.token = token) + opening s token

/-- The uses of a recovery code. -/
def used (s : SignIn) (code : RecoveryCode) : Nat :=
  s.sessions.countP (fun session => session.code = some code) + holding s code

structure Inv (cfg : SignInConfig) (s : SignIn) : Prop where
  pendingIssued : ∀ token, (s.pendingLogins.get? token).isSome → token ∈ s.issued
  sessionIssued : ∀ session ∈ s.sessions, session.token ∈ s.issued
  verificationIssued : ∀ v ∈ s.verifications, v.token ∈ s.issued
  pending : ∀ token, (s.pendingLogins.get? token).isSome → opened s token = 0
  once : ∀ token, opened s token + underWay s token ≤ 1
  unused : ∀ code ∈ s.recoveryCodes, used s code = 0
  spent : ∀ code, used s code ≤ 1
  budget : ∀ userId, recentFailures cfg s userId + unanswered s userId ≤ cfg.limits.maxFailures
  bounded : ∀ userId t, failedChecks cfg s userId t ≤ cfg.limits.maxFailures

/-- What a change of its stage does to the counts of a verification. -/
structure Counts (s s' : SignIn) (v : Verification) (before after : VerifyStage) : Prop where
  opening : ∀ token, opening s' token + (before.isOpening && v.token = token).toNat =
    opening s token + (after.isOpening && v.token = token).toNat
  underWay : ∀ token, underWay s' token + (before.underWay && v.token = token).toNat =
    underWay s token + (after.underWay && v.token = token).toNat
  unanswered : ∀ userId, unanswered s' userId + (before.unanswered && v.userId = userId).toNat =
    unanswered s userId + (after.unanswered && v.userId = userId).toNat
  holding : ∀ code, holding s' code + (decide (before.code = some code)).toNat =
    holding s code + (decide (after.code = some code)).toNat

theorem counts_of_set (hv : s.verifications[i]? = some v)
    (hverifications : s'.verifications = s.verifications.set i { v with stage }) :
    Counts s s' v v.stage stage := by
  have hcount : ∀ p : Verification → Bool, s'.verifications.countP p + (p v).toNat =
      s.verifications.countP p + (p { v with stage }).toNat := by
    intro p
    have hset := @countP_set _ s.verifications i { v with stage } v p hv
    rw [← hverifications] at hset
    cases hp : p v <;> cases hp' : p { v with stage } <;> simpa [hp, hp'] using hset
  constructor
  · exact fun token => hcount fun w => w.stage.isOpening && w.token = token
  · exact fun token => hcount fun w => w.stage.underWay && w.token = token
  · exact fun userId => hcount fun w => w.stage.unanswered && w.userId = userId
  · exact fun code => hcount fun w => w.stage.code = some code

theorem issued_of_set (h : Inv cfg s) (hv : s.verifications[i]? = some v)
    (hverifications : s'.verifications = s.verifications.set i { v with stage }) :
    ∀ w ∈ s'.verifications, w.token ∈ s.issued := by
  intro w hw
  rw [hverifications] at hw
  rcases List.mem_or_eq_of_mem_set hw with hold | rfl
  · exact h.verificationIssued w hold
  · exact h.verificationIssued v (List.mem_of_getElem? hv)

/-! ## Steps without a check -/

/-- Nothing is checked, opened or let in, and nothing comes back. -/
structure Below (s' s : SignIn) : Prop where
  clock : s.clock ≤ s'.clock
  issued : s'.issued = s.issued
  pending : ∀ token, (s'.pendingLogins.get? token).isSome → (s.pendingLogins.get? token).isSome
  sessions : s'.sessions = s.sessions
  checks : s'.checks = s.checks
  unused : s'.recoveryCodes = s.recoveryCodes

theorem Below.refl (s : SignIn) : Below s s :=
  ⟨le_refl _, rfl, fun _ h => h, rfl, rfl, rfl⟩

theorem recentFailures_le (hclock : s.clock ≤ s'.clock) (hchecks : s'.checks = s.checks)
    (userId : List Char) : recentFailures cfg s' userId ≤ recentFailures cfg s userId := by
  rw [recentFailures, recentFailures, hchecks]
  apply List.countP_mono_left
  intro c _ hc
  simp only [Bool.and_eq_true, decide_eq_true_eq] at hc ⊢
  exact ⟨hc.1, by omega⟩

/-- The counts do not rise. -/
theorem Inv.below (h : Inv cfg s) (hb : Below s' s)
    (hissued : ∀ w ∈ s'.verifications, w.token ∈ s.issued)
    (hopening : ∀ token, opening s' token ≤ opening s token)
    (hunderWay : ∀ token, underWay s' token ≤ underWay s token)
    (hunanswered : ∀ userId, unanswered s' userId ≤ unanswered s userId)
    (hholding : ∀ code, holding s' code ≤ holding s code) : Inv cfg s' := by
  have hopened : ∀ token, opened s' token ≤ opened s token := by
    intro token
    rw [opened, opened, hb.sessions]
    exact Nat.add_le_add_left (hopening token) _
  have hused : ∀ code, used s' code ≤ used s code := by
    intro code
    rw [used, used, hb.sessions]
    exact Nat.add_le_add_left (hholding code) _
  constructor
  · intro token hpending
    rw [hb.issued]
    exact h.pendingIssued token (hb.pending token hpending)
  · rw [hb.sessions, hb.issued]
    exact h.sessionIssued
  · rw [hb.issued]
    exact hissued
  · intro token hpending
    have hbefore := h.pending token (hb.pending token hpending)
    have hle := hopened token
    omega
  · intro token
    have hbefore := h.once token
    have hle := hopened token
    have hunder := hunderWay token
    omega
  · intro code hcode
    rw [hb.unused] at hcode
    have hbefore := h.unused code hcode
    have hle := hused code
    omega
  · intro code
    exact (hused code).trans (h.spent code)
  · intro userId
    have hbefore := h.budget userId
    have hrecent := @recentFailures_le cfg s s' hb.clock hb.checks userId
    have hanswers := hunanswered userId
    omega
  · intro userId t
    have hbefore := h.bounded userId t
    rw [failedChecks, hb.checks]
    exact hbefore

/-- No verification moves. -/
theorem Inv.frame (h : Inv cfg s) (hb : Below s' s)
    (hverifications : s'.verifications = s.verifications) : Inv cfg s' := by
  refine h.below hb ?_ ?_ ?_ ?_ ?_
  · rw [hverifications]
    exact h.verificationIssued
  · intro token
    rw [opening, hverifications]
    exact le_refl _
  · intro token
    rw [underWay, hverifications]
    exact le_refl _
  · intro userId
    rw [unanswered, hverifications]
    exact le_refl _
  · intro code
    rw [holding, hverifications]
    exact le_refl _

theorem le_of_flag {before after which : Bool} {n m : Nat}
    (hflag : after = true → before = true)
    (hsum : n + (before && which).toNat = m + (after && which).toNat) : n ≤ m := by
  cases hafter : after with
  | true =>
      rw [hafter, hflag hafter] at hsum
      omega
  | false =>
      rw [hafter, Bool.false_and, Bool.toNat_false] at hsum
      omega

/-- One verification goes on to a stage that counts for no more. -/
theorem Inv.advance (h : Inv cfg s) (hv : s.verifications[i]? = some v) (hb : Below s' s)
    (hverifications : s'.verifications = s.verifications.set i { v with stage })
    (hopening : stage.isOpening = true → v.stage.isOpening = true)
    (hunderWay : stage.underWay = true → v.stage.underWay = true)
    (hunanswered : stage.unanswered = true → v.stage.unanswered = true)
    (hcode : ∀ code, stage.code = some code → v.stage.code = some code) : Inv cfg s' := by
  have hcounts := counts_of_set hv hverifications
  refine h.below hb (issued_of_set h hv hverifications) ?_ ?_ ?_ ?_
  · exact fun token => le_of_flag hopening (hcounts.opening token)
  · exact fun token => le_of_flag hunderWay (hcounts.underWay token)
  · exact fun userId => le_of_flag hunanswered (hcounts.unanswered userId)
  · intro code
    have hsum := hcounts.holding code
    by_cases hafter : stage.code = some code
    · rw [hafter, hcode code hafter] at hsum
      omega
    · rw [decide_eq_false hafter, Bool.toNat_false] at hsum
      omega

/-! ## A verification is let in -/

/-- The counter of a pending login lets in below the limit only. -/
theorem countedFailures_lt (hmax : 1 ≤ cfg.limits.maxFailures)
    (hstatus : (twoFactorStatus cfg s token).1 = 0) :
    countedFailures s token < cfg.limits.maxFailures := by
  rw [countedFailures]
  cases hentry : s.twoFactorFailures.entries.get? (pendingKey token) with
  | none => exact hmax
  | some entry =>
      dsimp only
      by_cases hlive : s.clock < entry.resetAt
      · rw [if_pos hlive]
        by_contra hfull
        have hover : ¬ entry.resetAt ≤ s.clock := by omega
        have hcount : cfg.limits.maxFailures ≤ entry.count := by omega
        simp only [twoFactorStatus, Access.status, Access.statusFrom, hentry, hover, hcount,
          if_false, if_true] at hstatus
        omega
      · rw [if_neg hlive]
        exact hmax

theorem Inv.letIn (hmax : 1 ≤ cfg.limits.maxFailures) (h : Inv cfg s)
    (hv : s.verifications[i]? = some v) {user : AdminUserRecord}
    (hstage : v.stage = .credentials user)
    (hstatus : (twoFactorStatus cfg s v.token).1 = 0) (hletsIn : LetsIn cfg s v = true)
    (hb : Below s' s)
    (hverifications : s'.verifications = s.verifications.set i { v with stage := .form user }) :
    Inv cfg s' := by
  have hcounts := counts_of_set hv hverifications
  rw [hstage] at hcounts
  simp only [LetsIn, Bool.and_eq_true, decide_eq_true_eq] at hletsIn
  obtain ⟨⟨hrecent, hpending⟩, hothers⟩ := hletsIn
  have hcounted := countedFailures_lt hmax hstatus
  have hnone : ∀ p : Verification → Bool,
      (∀ w, p w = true → w.stage.underWay = true ∧ (w.userId = v.userId ∨ w.token = v.token)) →
        s.verifications.countP p = 0 := by
    intro p hp
    rw [List.countP_eq_zero] at hothers ⊢
    intro w hw hpw
    apply hothers w hw
    simpa using hp w hpw
  have hopened : ∀ token, opened s' token = opened s token := by
    intro token
    have hsum := hcounts.opening token
    simp only [VerifyStage.isOpening, Bool.false_and, Bool.toNat_false, Nat.add_zero] at hsum
    rw [opened, opened, hsum, hb.sessions]
  have hused : ∀ code, used s' code = used s code := by
    intro code
    have hsum := hcounts.holding code
    simp only [VerifyStage.code, reduceCtorEq, decide_false, Bool.toNat_false, Nat.add_zero] at hsum
    rw [used, used, hsum, hb.sessions]
  constructor
  · intro token hpending'
    rw [hb.issued]
    exact h.pendingIssued token (hb.pending token hpending')
  · rw [hb.sessions, hb.issued]
    exact h.sessionIssued
  · rw [hb.issued]
    exact issued_of_set h hv hverifications
  · intro token hpending'
    rw [hopened]
    exact h.pending token (hb.pending token hpending')
  · intro token
    have hbefore := h.once token
    have hsum := hcounts.underWay token
    simp only [VerifyStage.underWay, Bool.false_and, Bool.toNat_false, Nat.add_zero,
      Bool.true_and] at hsum
    rw [hopened, hsum]
    by_cases htoken : v.token = token
    · subst htoken
      have hfirst := h.pending v.token hpending
      have hzero : underWay s v.token = 0 := by
        apply hnone
        intro w hw
        simp only [Bool.and_eq_true, decide_eq_true_eq] at hw
        exact ⟨hw.1, .inr hw.2⟩
      rw [decide_eq_true rfl, Bool.toNat_true]
      omega
    · rw [decide_eq_false htoken, Bool.toNat_false]
      exact hbefore
  · intro code hunused
    rw [hused]
    exact h.unused code (hb.unused ▸ hunused)
  · intro code
    rw [hused]
    exact h.spent code
  · intro userId
    have hbefore := h.budget userId
    have hle := @recentFailures_le cfg s s' hb.clock hb.checks userId
    have hsum := hcounts.unanswered userId
    simp only [VerifyStage.unanswered, Bool.false_and, Bool.toNat_false, Nat.add_zero,
      Bool.true_and] at hsum
    rw [hsum]
    by_cases huser : v.userId = userId
    · subst huser
      have hzero : unanswered s v.userId = 0 := by
        apply hnone
        intro w hw
        simp only [Bool.and_eq_true, decide_eq_true_eq] at hw
        refine ⟨?_, .inl hw.2⟩
        cases hw' : w.stage <;> simp_all
      rw [decide_eq_true rfl, Bool.toNat_true]
      omega
    · rw [decide_eq_false huser, Bool.toNat_false]
      omega
  · intro userId t
    have hbefore := h.bounded userId t
    rw [failedChecks, hb.checks]
    exact hbefore

/-! ## A code is checked -/

/-- A window that has the present is within the last one. -/
theorem failedChecks_le_recent (hto : s.clock < t + cfg.limits.windowMs) :
    failedChecks cfg s userId t ≤ recentFailures cfg s userId := by
  apply List.countP_mono_left
  intro c _ hc
  simp only [Bool.and_eq_true, decide_eq_true_eq] at hc ⊢
  exact ⟨hc.1.1, by omega⟩

/-- One more check at the present time. -/
theorem failedChecks_concat {accepted : Bool}
    (hchecks : s'.checks = s.checks ++ [⟨v.userId, s.clock, accepted⟩])
    (hbounded : failedChecks cfg s userId t ≤ cfg.limits.maxFailures)
    (hbudget : v.userId = userId → recentFailures cfg s userId < cfg.limits.maxFailures) :
    failedChecks cfg s' userId t ≤ cfg.limits.maxFailures := by
  rw [failedChecks, hchecks, List.countP_append, List.countP_singleton]
  split
  · rename_i hnew
    simp only [Bool.and_eq_true, decide_eq_true_eq] at hnew
    obtain ⟨⟨⟨huser, -⟩, -⟩, hto⟩ := hnew
    have hroom := hbudget huser
    have hle := @failedChecks_le_recent cfg s userId t hto
    rw [failedChecks] at hle
    omega
  · exact hbounded

theorem recentFailures_concat {accepted : Bool} (hclock : s'.clock = s.clock)
    (hchecks : s'.checks = s.checks ++ [⟨v.userId, s.clock, accepted⟩]) :
    recentFailures cfg s' userId ≤
      recentFailures cfg s userId + (decide (v.userId = userId)).toNat := by
  rw [recentFailures, hchecks, hclock, List.countP_append, List.countP_singleton]
  apply Nat.add_le_add_left
  by_cases huser : v.userId = userId
  · simp only [huser, decide_true, Bool.toNat_true]
    split <;> omega
  · simp [huser]

/-- A code is checked, and a recovery code that is right is used up. -/
theorem Inv.checked (h : Inv cfg s) (hv : s.verifications[i]? = some v)
    {input : SecondFactorInput} (hstage : v.stage = .check input) {accepted : Bool}
    {code : Option RecoveryCode}
    (hverifications : s'.verifications = s.verifications.set i
      { v with stage := .answered accepted code })
    (hclock : s'.clock = s.clock) (hissued : s'.issued = s.issued)
    (hpending : s'.pendingLogins = s.pendingLogins) (hsessions : s'.sessions = s.sessions)
    (hchecks : s'.checks = s.checks ++ [⟨v.userId, s.clock, accepted⟩])
    (hcode : ∀ c, code = some c → c ∈ s.recoveryCodes)
    (hcodes : ∀ c ∈ s'.recoveryCodes, c ∈ s.recoveryCodes ∧ code ≠ some c) : Inv cfg s' := by
  have hcounts := counts_of_set hv hverifications
  rw [hstage] at hcounts
  have hopened : ∀ token, opened s' token = opened s token := by
    intro token
    have hsum := hcounts.opening token
    simp only [VerifyStage.isOpening, Bool.false_and, Bool.toNat_false, Nat.add_zero] at hsum
    rw [opened, opened, hsum, hsessions]
  have hused : ∀ c, used s' c = used s c + (decide (code = some c)).toNat := by
    intro c
    have hsum := hcounts.holding c
    simp only [VerifyStage.code, reduceCtorEq, decide_false, Bool.toNat_false, Nat.add_zero] at hsum
    rw [used, used, hsum, hsessions, Nat.add_assoc]
    by_cases hc : code = some c
    · simp [hc]
    · simp [hc]
  have hroom : ∀ userId, v.userId = userId →
      recentFailures cfg s userId < cfg.limits.maxFailures ∧
        unanswered s' userId + 1 = unanswered s userId := by
    intro userId huser
    have hbefore := h.budget userId
    have hsum := hcounts.unanswered userId
    simp only [VerifyStage.unanswered, Bool.false_and, Bool.toNat_false, Nat.add_zero,
      Bool.true_and, huser, decide_true, Bool.toNat_true] at hsum
    omega
  constructor
  · rw [hpending, hissued]
    exact h.pendingIssued
  · rw [hsessions, hissued]
    exact h.sessionIssued
  · rw [hissued]
    exact issued_of_set h hv hverifications
  · intro token hsome
    rw [hopened]
    rw [hpending] at hsome
    exact h.pending token hsome
  · intro token
    have hsum := hcounts.underWay token
    simp only [VerifyStage.underWay, Bool.true_and] at hsum
    have hbefore := h.once token
    rw [hopened]
    omega
  · intro c hc
    obtain ⟨hunused, hne⟩ := hcodes c hc
    rw [hused, decide_eq_false hne, Bool.toNat_false]
    exact h.unused c hunused
  · intro c
    rw [hused]
    by_cases hc : code = some c
    · have hbefore := h.unused c (hcode c hc)
      rw [decide_eq_true hc, Bool.toNat_true]
      omega
    · rw [decide_eq_false hc, Bool.toNat_false]
      exact h.spent c
  · intro userId
    have hbefore := h.budget userId
    have hrecent := @recentFailures_concat cfg s s' v userId accepted hclock hchecks
    by_cases huser : v.userId = userId
    · rw [decide_eq_true huser, Bool.toNat_true] at hrecent
      have hanswered := (hroom userId huser).2
      omega
    · rw [decide_eq_false huser, Bool.toNat_false] at hrecent
      have hsum := hcounts.unanswered userId
      simp only [VerifyStage.unanswered, Bool.false_and, Bool.toNat_false, Nat.add_zero,
        Bool.true_and, decide_eq_false huser] at hsum
      omega
  · intro userId t
    apply failedChecks_concat hchecks (h.bounded userId t)
    intro huser
    exact (hroom userId huser).1

/-! ## A session is opened -/

/-- The pending login is consumed, and its session is being opened. -/
theorem Inv.accept (h : Inv cfg s) (hv : s.verifications[i]? = some v)
    {code : Option RecoveryCode} (hstage : v.stage = .answered true code)
    (hverifications : s'.verifications = s.verifications.set i { v with stage := .opening code })
    (hb : Below s' s) (hpending : (s'.pendingLogins.get? v.token).isSome = false) :
    Inv cfg s' := by
  have hcounts := counts_of_set hv hverifications
  rw [hstage] at hcounts
  have hopened : ∀ token, opened s' token = opened s token + (decide (v.token = token)).toNat := by
    intro token
    have hsum := hcounts.opening token
    simp only [VerifyStage.isOpening, Bool.false_and, Bool.toNat_false, Nat.add_zero,
      Bool.true_and] at hsum
    rw [opened, opened, hsum, hb.sessions, Nat.add_assoc]
  have hused : ∀ c, used s' c = used s c := by
    intro c
    have hsum : holding s' c = holding s c := Nat.add_right_cancel (hcounts.holding c)
    rw [used, used, hb.sessions, hsum]
  constructor
  · intro token hsome
    rw [hb.issued]
    exact h.pendingIssued token (hb.pending token hsome)
  · rw [hb.sessions, hb.issued]
    exact h.sessionIssued
  · rw [hb.issued]
    exact issued_of_set h hv hverifications
  · intro token hsome
    have hne : v.token ≠ token := by
      intro heq
      rw [heq, hsome] at hpending
      cases hpending
    rw [hopened, decide_eq_false hne, Bool.toNat_false]
    exact h.pending token (hb.pending token hsome)
  · intro token
    have hsum := hcounts.underWay token
    simp only [VerifyStage.underWay, Bool.false_and, Bool.toNat_false, Nat.add_zero,
      Bool.true_and] at hsum
    have hbefore := h.once token
    rw [hopened]
    omega
  · intro c hc
    rw [hused]
    exact h.unused c (hb.unused ▸ hc)
  · intro c
    rw [hused]
    exact h.spent c
  · intro userId
    have hbefore := h.budget userId
    have hrecent := @recentFailures_le cfg s s' hb.clock hb.checks userId
    have hsum := hcounts.unanswered userId
    simp only [VerifyStage.unanswered, Bool.false_and, Bool.toNat_false, Nat.add_zero] at hsum
    omega
  · intro userId t
    have hbefore := h.bounded userId t
    rw [failedChecks, hb.checks]
    exact hbefore

/-- The session is there. -/
theorem Inv.insertSession (h : Inv cfg s) (hv : s.verifications[i]? = some v)
    {code : Option RecoveryCode} (hstage : v.stage = .opening code) :
    Inv cfg { s with
      sessions := s.sessions ++ [⟨v.token, v.userId, code⟩]
      verifications := s.verifications.set i { v with stage := .ended } } := by
  have hcounts : Counts s { s with
      sessions := s.sessions ++ [⟨v.token, v.userId, code⟩]
      verifications := s.verifications.set i { v with stage := .ended } } v v.stage .ended :=
    counts_of_set hv rfl
  rw [hstage] at hcounts
  have hopened : ∀ token, opened { s with
      sessions := s.sessions ++ [⟨v.token, v.userId, code⟩]
      verifications := s.verifications.set i { v with stage := .ended } } token =
        opened s token := by
    intro token
    have hsum := hcounts.opening token
    simp only [VerifyStage.isOpening, Bool.false_and, Bool.toNat_false, Nat.add_zero,
      Bool.true_and] at hsum
    rw [opened, opened, List.countP_append, List.countP_singleton, ← hsum]
    by_cases htoken : v.token = token
    · simp only [htoken, decide_true, Bool.toNat_true, if_true]
      omega
    · simp [htoken]
  have hused : ∀ c, used { s with
      sessions := s.sessions ++ [⟨v.token, v.userId, code⟩]
      verifications := s.verifications.set i { v with stage := .ended } } c = used s c := by
    intro c
    have hsum := hcounts.holding c
    simp only [VerifyStage.code, reduceCtorEq, decide_false, Bool.toNat_false, Nat.add_zero] at hsum
    rw [used, used, List.countP_append, List.countP_singleton, ← hsum]
    by_cases hc : code = some c
    · simp only [hc, decide_true, Bool.toNat_true, if_true]
      omega
    · simp [hc]
  refine ⟨h.pendingIssued, ?_, ?_, ?_, ?_, ?_, ?_, ?_, h.bounded⟩
  · intro session hsession
    rcases List.mem_snoc.mp hsession with hold | rfl
    · exact h.sessionIssued session hold
    · exact h.verificationIssued v (List.mem_of_getElem? hv)
  · intro w hw
    rcases List.mem_or_eq_of_mem_set hw with hold | rfl
    · exact h.verificationIssued w hold
    · exact h.verificationIssued v (List.mem_of_getElem? hv)
  · intro token hsome
    rw [hopened]
    exact h.pending token hsome
  · intro token
    have hsum := hcounts.underWay token
    simp only [VerifyStage.underWay, Bool.false_and, Bool.toNat_false, Nat.add_zero] at hsum
    rw [hopened, hsum]
    exact h.once token
  · intro c hc
    rw [hused]
    exact h.unused c hc
  · intro c
    rw [hused]
    exact h.spent c
  · intro userId
    have hsum := hcounts.unanswered userId
    simp only [VerifyStage.unanswered, Bool.false_and, Bool.toNat_false, Nat.add_zero] at hsum
    rw [hsum]
    exact h.budget userId

/-! ## Runs -/

theorem below_sweep (s : SignIn) : Below (sweepPendingLogins s) s := by
  rw [sweepPendingLogins]
  split
  · exact Below.refl s
  · refine ⟨le_refl _, rfl, fun token hsome => ?_, rfl, rfl, rfl⟩
    rw [OrderedMap.get?_filter] at hsome
    exact Option.isSome_of_isSome_filter _ _ hsome

theorem verifications_sweep (s : SignIn) :
    (sweepPendingLogins s).verifications = s.verifications := by
  rw [sweepPendingLogins]
  split <;> rfl

/-- A pending login with a new token. -/
theorem Inv.begin (h : Inv cfg s) (hnew : token ∉ s.issued) (mode : PendingLoginMode)
    (userId : List Char) : Inv cfg (beginPendingLogin cfg s mode userId token) := by
  have hswept := h.frame (below_sweep s) (verifications_sweep s)
  have hunused : opened (sweepPendingLogins s) token = 0 := by
    have hissued : token ∉ (sweepPendingLogins s).issued := (below_sweep s).issued ▸ hnew
    rw [opened, opening, Nat.add_eq_zero_iff, List.countP_eq_zero, List.countP_eq_zero]
    constructor
    · intro session hsession htoken
      exact hissued (of_decide_eq_true htoken ▸ hswept.sessionIssued session hsession)
    · intro v hv htoken
      simp only [Bool.and_eq_true, decide_eq_true_eq] at htoken
      exact hissued (htoken.2 ▸ hswept.verificationIssued v hv)
  have hget : ∀ other,
      ((beginPendingLogin cfg s mode userId token).pendingLogins.get? other).isSome →
      other = token ∨ ((sweepPendingLogins s).pendingLogins.get? other).isSome := by
    intro other hsome
    by_cases hother : other = token
    · exact .inl hother
    · right
      rw [beginPendingLogin, OrderedMap.get?_set_ne _ _ hother] at hsome
      exact hsome
  refine ⟨?_, ?_, ?_, ?_, hswept.once, hswept.unused, hswept.spent, hswept.budget,
    hswept.bounded⟩
  · intro other hsome
    rcases hget other hsome with rfl | hold
    · exact List.mem_append_right _ (List.mem_singleton_self _)
    · exact List.mem_append_left _ (hswept.pendingIssued other hold)
  · intro session hsession
    exact List.mem_append_left _ (hswept.sessionIssued session hsession)
  · intro v hv
    exact List.mem_append_left _ (hswept.verificationIssued v hv)
  · intro other hsome
    rcases hget other hsome with rfl | hold
    · exact hunused
    · exact hswept.pending other hold

theorem inv_loginStep (h : Inv cfg s) {l : Login} {e : LoginEvent} {r : SignIn × LoginStage}
    (hstep : loginStep env cfg s l e = some r) : Inv cfg r.1 := by
  cases e with
  | found user =>
      simp only [loginStep] at hstep
      split at hstep
      · obtain rfl := Option.some.inj hstep
        exact h
      · cases hstep
  | verified =>
      simp only [loginStep] at hstep
      split at hstep
      · split at hstep
        · obtain rfl := Option.some.inj hstep
          exact h.frame ⟨le_refl _, rfl, fun _ hsome => hsome, rfl, rfl, rfl⟩ rfl
        · obtain rfl := Option.some.inj hstep
          exact h.frame ⟨le_refl _, rfl, fun _ hsome => hsome, rfl, rfl, rfl⟩ rfl
      · cases hstep
  | listed hasWebauthn token =>
      simp only [loginStep] at hstep
      split at hstep
      · split at hstep
        · cases hstep
        · rename_i hnew
          obtain rfl := Option.some.inj hstep
          exact h.begin (by simpa using hnew) _ _
      · cases hstep
  | thrown =>
      obtain rfl := Option.some.inj hstep
      exact h

theorem inv_beginVerification (h : Inv cfg s) (token : Token) :
    Inv cfg (beginVerification s token) := by
  rw [beginVerification]
  cases hresolve : resolvePendingLogin s token .verify with
  | none => exact h
  | some entry =>
      have hpending : (s.pendingLogins.get? token).isSome := by
        rw [resolvePendingLogin] at hresolve
        rw [(Option.filter_eq_some_iff.mp hresolve).1]
        rfl
      refine h.below ⟨le_refl _, rfl, fun _ hsome => hsome, rfl, rfl, rfl⟩ ?_ ?_ ?_ ?_ ?_
      · intro v hv
        rcases List.mem_snoc.mp hv with hold | rfl
        · exact h.verificationIssued v hold
        · exact h.pendingIssued token hpending
      · intro other
        simp [opening]
      · intro other
        simp [underWay]
      · intro userId
        simp [unanswered]
      · intro code
        simp [holding]

/-- The step of a verification. -/
theorem inv_verifyStep (hmax : 1 ≤ cfg.limits.maxFailures) (h : Inv cfg s) {e : VerifyEvent}
    (hv : s.verifications[i]? = some v) (hmeets : MeetsCounter cfg s (.verifyEvent i e) = true)
    {r : SignIn × VerifyStage} (hstep : verifyStep env cfg s v e = some r) :
    Inv cfg { r.1 with verifications := s.verifications.set i { v with stage := r.2 } } := by
  have hquiet : ∀ {stage : VerifyStage},
      (∀ code, stage.code = some code → v.stage.code = some code) →
      (stage.isOpening = true → v.stage.isOpening = true) →
      (stage.underWay = true → v.stage.underWay = true) →
      (stage.unanswered = true → v.stage.unanswered = true) → ∀ tracker : LoginFailureTracker,
      Inv cfg { s with
        twoFactorFailures := tracker
        verifications := s.verifications.set i { v with stage } } := by
    intro stage hcode hopening hunderWay hunanswered tracker
    exact h.advance hv ⟨le_refl _, rfl, fun _ hsome => hsome, rfl, rfl, rfl⟩ rfl hopening hunderWay
      hunanswered hcode
  have hended : ∀ tracker : LoginFailureTracker,
      Inv cfg { s with
        twoFactorFailures := tracker
        verifications := s.verifications.set i { v with stage := .ended } } :=
    hquiet (by simp) (by simp) (by simp) (by simp)
  cases e with
  | found user =>
      cases hstage : v.stage with
      | user =>
          simp only [verifyStep, hstage] at hstep
          split at hstep
          · obtain rfl := Option.some.inj hstep
            exact hended s.twoFactorFailures
          · obtain rfl := Option.some.inj hstep
            exact hquiet (by simp) (by simp) (by simp) (by simp) s.twoFactorFailures
      | _ => simp [verifyStep, hstage] at hstep
  | listed =>
      cases hstage : v.stage with
      | credentials user =>
          simp only [verifyStep, hstage] at hstep
          obtain rfl := Option.some.inj hstep
          simp only [MeetsCounter, hv, Option.all_some, Bool.or_eq_true,
            decide_eq_true_eq] at hmeets
          by_cases hstatus : 0 < (twoFactorStatus cfg s v.token).1
          · rw [if_pos hstatus]
            exact hended _
          · rw [if_neg hstatus]
            have hletsIn := hmeets.resolve_left hstatus
            exact h.letIn hmax hv hstage (Nat.eq_zero_of_not_pos hstatus) hletsIn
              ⟨le_refl _, rfl, fun _ hsome => hsome, rfl, rfl, rfl⟩ rfl
      | _ => simp [verifyStep, hstage] at hstep
  | submitted recoveryCode code =>
      cases hstage : v.stage with
      | form user =>
          simp only [verifyStep, hstage] at hstep
          split at hstep
          · obtain rfl := Option.some.inj hstep
            exact hquiet (by simp) (by simp) (by simp [hstage]) (by simp [hstage])
              s.twoFactorFailures
          · split at hstep
            · obtain rfl := Option.some.inj hstep
              exact hquiet (by simp) (by simp) (by simp [hstage]) (by simp [hstage])
                s.twoFactorFailures
            · obtain rfl := Option.some.inj hstep
              exact hended _
      | _ => simp [verifyStep, hstage] at hstep
  | checked accepted =>
      cases hstage : v.stage with
      | check input =>
          simp only [verifyStep, hstage] at hstep
          obtain rfl := Option.some.inj hstep
          cases input with
          | totp code =>
              exact h.checked hv hstage rfl rfl rfl rfl rfl rfl (fun c hc => by cases hc)
                fun c hc => ⟨hc, by simp⟩
          | recoveryCode codeHash =>
              have hcode : ∀ c, (if s.recoveryCodes.contains ⟨v.userId, codeHash⟩ then
                  some (RecoveryCode.mk v.userId codeHash) else none) = some c →
                    c ∈ s.recoveryCodes := by
                intro c hc
                split at hc
                · rename_i hcontains
                  obtain rfl := Option.some.inj hc
                  simpa using hcontains
                · cases hc
              have hcodes : ∀ c ∈ s.recoveryCodes.filter (· ≠ ⟨v.userId, codeHash⟩),
                  c ∈ s.recoveryCodes ∧ (if s.recoveryCodes.contains ⟨v.userId, codeHash⟩ then
                    some (RecoveryCode.mk v.userId codeHash) else none) ≠ some c := by
                intro c hc
                obtain ⟨hmem, hne⟩ := List.mem_filter.mp hc
                refine ⟨hmem, fun hsome => ?_⟩
                split at hsome
                · exact of_decide_eq_true hne (Option.some.inj hsome).symm
                · cases hsome
              exact h.checked hv hstage rfl rfl rfl rfl rfl rfl hcode hcodes
      | _ => simp [verifyStep, hstage] at hstep
  | resumed =>
      cases hstage : v.stage with
      | answered valid code =>
          simp only [verifyStep, hstage] at hstep
          cases valid with
          | true =>
              obtain rfl := Option.some.inj hstep
              refine h.accept hv hstage rfl
                ⟨le_refl _, rfl, fun other hsome => ?_, rfl, rfl, rfl⟩ ?_
              · by_cases hother : other = v.token
                · subst hother
                  simp [consumePendingLogin] at hsome
                · simpa [consumePendingLogin, clearTwoFactorFailures,
                    OrderedMap.get?_erase_ne _ hother] using hsome
              · simp [consumePendingLogin]
          | false =>
              obtain rfl := Option.some.inj hstep
              exact hended _
      | _ => simp [verifyStep, hstage] at hstep
  | inserted =>
      cases hstage : v.stage with
      | opening code =>
          simp only [verifyStep, hstage] at hstep
          obtain rfl := Option.some.inj hstep
          exact h.insertSession hv hstage
      | _ => simp [verifyStep, hstage] at hstep
  | thrown =>
      obtain rfl := Option.some.inj hstep
      exact hended s.twoFactorFailures

theorem inv_step (hmax : 1 ≤ cfg.limits.maxFailures) (h : Inv cfg s) {a : SignInAction}
    (hmeets : MeetsCounter cfg s a = true) (hstep : signInStep env cfg s a = some s') :
    Inv cfg s' := by
  cases a with
  | tick ms =>
      obtain rfl := Option.some.inj hstep
      exact h.frame ⟨Nat.le_add_right _ _, rfl, fun _ hsome => hsome, rfl, rfl, rfl⟩ rfl
  | login ip username password cookieAllowed =>
      obtain rfl := Option.some.inj hstep
      simp only [beginLogin]
      split
      · exact h.frame ⟨le_refl _, rfl, fun _ hsome => hsome, rfl, rfl, rfl⟩ rfl
      · exact h.frame ⟨le_refl _, rfl, fun _ hsome => hsome, rfl, rfl, rfl⟩ rfl
  | loginEvent i e =>
      obtain ⟨l, -, hlogin⟩ := Option.bind_eq_some_iff.mp hstep
      obtain ⟨r, hr, rfl⟩ := Option.map_eq_some_iff.mp hlogin
      exact (inv_loginStep h hr).frame ⟨le_refl _, rfl, fun _ hsome => hsome, rfl, rfl, rfl⟩ rfl
  | verify token =>
      obtain rfl := Option.some.inj hstep
      exact inv_beginVerification h token
  | verifyEvent i e =>
      obtain ⟨v, hv, hverify⟩ := Option.bind_eq_some_iff.mp hstep
      obtain ⟨r, hr, rfl⟩ := Option.map_eq_some_iff.mp hverify
      exact inv_verifyStep hmax h hv hmeets hr

/-- A node that has just started, with any recovery codes. -/
def SignIn.Start (s : SignIn) : Prop :=
  ∃ clock recoveryCodes, s =
    { clock
      passwordFailures := .new
      twoFactorFailures := .new
      pendingLogins := .empty
      lastPendingSweepAt := 0
      issued := []
      recoveryCodes
      logins := []
      verifications := []
      sessions := []
      checks := [] }

theorem inv_start (h : s.Start) : Inv cfg s := by
  obtain ⟨clock, recoveryCodes, rfl⟩ := h
  constructor <;> simp [opened, opening, underWay, used, holding, recentFailures, unanswered,
    failedChecks]

/-- In a run whose verifications are let in by a counter that has every recent failure, no window
has more than `LOGIN_MAX_FAILURES` failed checks against an account, and no pending login and no
recovery code makes two sessions. -/
theorem second_factor_bounded {loginMaxFailureKeys pendingLoginTtlSeconds : Nat}
    (h : Reach (signInStep env (signInConfig loginMaxFailureKeys pendingLoginTtlSeconds))
      (fun s a =>
        MeetsCounter (signInConfig loginMaxFailureKeys pendingLoginTtlSeconds) s a = true)
      SignIn.Start s) :
    SecondFactorBounded (signInConfig loginMaxFailureKeys pendingLoginTtlSeconds) s := by
  have hmax : 1 ≤ (signInConfig loginMaxFailureKeys pendingLoginTtlSeconds).limits.maxFailures :=
    Nat.le_add_left 1 7
  have hinv : Inv (signInConfig loginMaxFailureKeys pendingLoginTtlSeconds) s := by
    apply h.invariant
    · intro s hs
      exact inv_start hs
    · intro s a s' _ hinv hmeets hstep
      exact inv_step hmax hinv hmeets hstep
  refine ⟨hinv.bounded, ?_, ?_⟩
  · intro token
    have honce := hinv.once token
    rw [opened] at honce
    omega
  · intro code
    have hspent := hinv.spent code
    rw [used] at hspent
    omega

/-! ## One pending login after another -/

section Attack

def guessedUser : AdminUserRecord where
  id := "admin".toList
  username := "admin".toList
  passwordHash := "secret".toList
  role := .administrator
  totpSecretEncrypted := some "totp".toList
  totpEnrolledAt := some 0
  mustEnrollTotp := 0
  enabled := 1
  createdAt := 0
  updatedAt := 0
  createdByUserId := none
  ssoSubject := none
  authSource := .password

/-- `verify` is true of equal texts here. -/
def guessEnv : SignInEnv where
  toLowerCase cs := cs
  verify password hash := password = hash
  sha256Hex cs := cs

def firstSignIn : SignIn where
  clock := 1
  passwordFailures := .new
  twoFactorFailures := .new
  pendingLogins := .empty
  lastPendingSweepAt := 0
  issued := []
  recoveryCodes := []
  logins := []
  verifications := []
  sessions := []
  checks := []

theorem firstSignIn_start : firstSignIn.Start := ⟨1, [], rfl⟩

/-- Login `i` of the administrator, with the right password. -/
def passwordLogin (i : Nat) (token : String) : List SignInAction :=
  [.login "203.0.113.9".toList "admin".toList "secret".toList true,
    .loginEvent i (.found (some guessedUser)), .loginEvent i .verified,
    .loginEvent i (.listed false token.toList)]

/-- Verification `i` with a code. -/
def tryCode (i : Nat) (token : String) (accepted : Bool) : List SignInAction :=
  [.verify token.toList, .verifyEvent i (.found (some guessedUser)), .verifyEvent i .listed,
    .verifyEvent i (.submitted [] "123456".toList), .verifyEvent i (.checked accepted),
    .verifyEvent i .resumed]

/-- A wrong code, and the right one. -/
theorem second_factor_bounded_retry : ∃ s : SignIn, s.sessions.length = 1 ∧
    SecondFactorBounded (signInConfig 10000 300) s := by
  have hrun : (execIf (signInStep guessEnv (signInConfig 10000 300))
      (fun s a => MeetsCounter (signInConfig 10000 300) s a = true) firstSignIn
      (passwordLogin 0 "t" ++ tryCode 0 "t" false ++ tryCode 1 "t" true ++
        [SignInAction.verifyEvent 1 .inserted])).any (fun s => s.sessions.length = 1) = true := by
    decide +kernel
  obtain ⟨s, hs, hsession⟩ := (Option.any_eq_true ..).mp hrun
  exact ⟨s, of_decide_eq_true hsession,
    second_factor_bounded (execIf_reach (.start firstSignIn_start) hs)⟩

/-- Eight wrong codes for one pending login and one for the next. -/
theorem second_pending_login_exceeds : ∃ s : SignIn,
    Reach (signInStep guessEnv (signInConfig 10000 300)) Any SignIn.Start s ∧
      ¬ SecondFactorBounded (signInConfig 10000 300) s := by
  have hrun : (exec (signInStep guessEnv (signInConfig 10000 300)) firstSignIn
      (passwordLogin 0 "t" ++ ((List.range 8).flatMap fun i => tryCode i "t" false) ++
        passwordLogin 1 "u" ++ tryCode 8 "u" false)).any
      (fun s => failedChecks (signInConfig 10000 300) s "admin".toList 1 = 9) = true := by
    decide +kernel
  obtain ⟨s, hs, hnine⟩ := (Option.any_eq_true ..).mp hrun
  refine ⟨s, exec_reach (.start firstSignIn_start) hs, fun hbounded => ?_⟩
  have hguesses := hbounded.guesses "admin".toList 1
  rw [of_decide_eq_true hnine] at hguesses
  exact absurd hguesses (by decide)

end Attack

end BurrowGate.Admin.SecondFactor
