import BurrowGate.Admin.AdminUsers
import BurrowGate.Lib.Run
import Mathlib.Data.List.Basic

/-!
# An administrator remains

No write checks that the account is still as it was read, or that the other administrators
counted before are still there. Two administrators who demote each other leave none, and a
password change that read an account before it was locked out unlocks it.

In runs whose writes find the account with the role and the enabled flag that their call read,
and another enabled administrator where their call counted one, neither happens.
-/

namespace BurrowGate.Admin

open Js
open Lib.Run

/-! ## Rights -/

/-- What a lock-out takes away. -/
inductive Right
  | administrator
  | enabled

def AdminUserRecord.Holds (row : AdminUserRecord) : Right → Prop
  | .administrator => row.role = .administrator
  | .enabled => row.enabled = 1

/-- The account that the call demotes or disables once it has written. -/
def AdminCall.withdraws (right : Right) : AdminCall → Option (List Char)
  | .updateAdminUser userId input _ _ =>
      match right with
      | .administrator =>
          match roleValue input.role .administrator with
          | .ok .member => some userId
          | _ => none
      | .enabled =>
          match booleanValue input.enabled true with
          | .ok false => some userId
          | _ => none
  | _ => none

/-- The account for which the call says whether it has the right. -/
def AdminCall.mentions (right : Right) : AdminCall → Option (List Char)
  | .createAdminUser _ _ id _ _ => some id
  | .updateAdminUser userId input _ _ =>
      match right, input.role, input.enabled with
      | .administrator, .undefined, _ => none
      | .enabled, _, .undefined => none
      | _, _, _ => some userId
  | _ => none

/-- An account that a completed call locked out stays so while no completed call mentions the
right for it. -/
def LockOutsLast (s : AdminNode) : Prop :=
  ∀ right before call after id, s.log = before ++ call :: after →
    call.withdraws right = some id → (∀ later ∈ after, later.mentions right ≠ some id) →
      ∀ row ∈ s.users, row.id = id → ¬ row.Holds right

def HasAdministrator (users : List AdminUserRecord) : Prop :=
  ∃ row ∈ users, row.isEnabledAdministrator

/-! ## The condition -/

/-- The account is as the call read it in role and enabled flag, and a number of other enabled
administrators that was not zero is not zero now. -/
def Flight.current (users : List AdminUserRecord) (f : Flight) : Bool :=
  f.existing.all fun existing =>
    (users.all fun row =>
      row.id ≠ existing.id || (row.role = existing.role && row.enabled = existing.enabled)) &&
    f.others.all fun count => count = 0 || countEnabledAdministrators existing.id users ≠ 0

/-- A call that writes is current. -/
def Meets (s : AdminNode) : AdminAction → Bool
  | .resume i =>
      s.flights[i]?.all fun f =>
        match f.work with
        | .write _ => f.current s.users
        | _ => true
  | _ => true

/-! ## What a call may write -/

variable {env : AdminEnv} {call : AdminCall} {users written : List AdminUserRecord}
  {existing user : AdminUserRecord} {others : Option Nat} {id userId : List Char}
  {right : Right} {next : Work}

/-- Where an enabled administrator is lost, another one was counted. -/
def Counted (existing : AdminUserRecord) (others : Option Nat) : Prop :=
  existing.isEnabledAdministrator → ∃ count, others = some count ∧ count ≠ 0

/-- The row that an operation writes over the account it read. -/
structure Rewrites (call : AdminCall) (existing : AdminUserRecord) (others : Option Nat)
    (user : AdminUserRecord) : Prop where
  id_eq : user.id = existing.id
  kept : ∀ right, call.mentions right ≠ some user.id → user.Holds right → existing.Holds right
  withdrawn : ∀ right id, call.withdraws right = some id → user.id = id ∧ ¬ user.Holds right
  counted : user.isEnabledAdministrator ∨ Counted existing others

def Statement.Allowed (call : AdminCall) (existing : Option AdminUserRecord)
    (others : Option Nat) : Statement → Prop
  | .insert user => ∀ right, call.mentions right = some user.id ∧ call.withdraws right = none
  | .update user => ∃ e, existing = some e ∧ Rewrites call e others user
  | .delete userId =>
      (∃ e, existing = some e ∧ e.id = userId ∧ Counted e others) ∧
        ∀ right, call.withdraws right = none

/-- Every write that the work may come to is allowed. -/
def Work.Safe (call : AdminCall) : Option AdminUserRecord → Option Nat → Work → Prop
  | _, others, .adminUserById id next =>
      ∀ existing : Option AdminUserRecord, (∀ e, existing = some e → e.id = id) →
        (next existing).Safe call existing others
  | existing, others, .adminUserByUsername _ next =>
      ∀ conflict, (next conflict).Safe call existing others
  | existing, _, .countEnabledAdministrators _ next =>
      ∀ count, (next count).Safe call existing (some count)
  | existing, others, .await next => next.Safe call existing others
  | existing, others, .write statement => statement.Allowed call existing others
  | _, _, .throw _ => True
  | _, _, .ended => True

theorem safe_attempt {β : Type} {result : Except String β} {next : β → Work}
    {existing : Option AdminUserRecord}
    (h : ∀ value, result = .ok value → (next value).Safe call existing others) :
    (attempt result next).Safe call existing others := by
  cases result with
  | error message => trivial
  | ok value => exact h value rfl

theorem safe_withAdminUser {next : AdminUserRecord → Work} {read : Option AdminUserRecord}
    (h : ∀ existing, existing.id = userId → (next existing).Safe call (some existing) others) :
    (withAdminUser userId next).Safe call read others := by
  intro existing hid
  cases existing with
  | none => trivial
  | some existing => exact h existing (hid existing rfl)

/-- Behind the check, an account that needed it was counted. -/
theorem safe_withOther {needed : Bool} {read : Option AdminUserRecord}
    (h : ∀ others, (needed = true → ∃ count, others = some count ∧ count ≠ 0) →
      next.Safe call read others) :
    (withOther userId needed next).Safe call read others := by
  unfold withOther
  split
  · intro count
    dsimp only
    split
    · trivial
    · rename_i hcount
      exact h (some count) fun _ => ⟨count, rfl, hcount⟩
  · rename_i hneeded
    exact h others fun hneeded' => absurd hneeded' hneeded

theorem holds_congr (hrole : user.role = existing.role)
    (henabled : user.enabled = existing.enabled) :
    user.Holds right ↔ existing.Holds right := by
  cases right with
  | administrator => rw [AdminUserRecord.Holds, AdminUserRecord.Holds, hrole]
  | enabled => rw [AdminUserRecord.Holds, AdminUserRecord.Holds, henabled]

theorem isEnabledAdministrator_congr (hrole : user.role = existing.role)
    (henabled : user.enabled = existing.enabled) :
    user.isEnabledAdministrator = existing.isEnabledAdministrator := by
  rw [AdminUserRecord.isEnabledAdministrator, AdminUserRecord.isEnabledAdministrator, hrole,
    henabled]

/-- The row of an operation that is not about the rights. -/
theorem rewrites_of_kept (hid : user.id = existing.id) (hrole : user.role = existing.role)
    (henabled : user.enabled = existing.enabled) (hcall : ∀ right, call.withdraws right = none) :
    Rewrites call existing others user := by
  refine ⟨hid, fun right _ h => (holds_congr hrole henabled).mp h, ?_, ?_⟩
  · intro right id h
    rw [hcall right] at h
    cases h
  · rw [isEnabledAdministrator_congr hrole henabled]
    by_cases h : existing.isEnabledAdministrator = true
    · exact .inl h
    · exact .inr fun h' => absurd h' h

theorem roleValue_member {value : JsValue} (fallback : AdminRole)
    (h : roleValue value .administrator = .ok .member) :
    roleValue value fallback = .ok .member := by
  cases value with
  | undefined => cases h
  | string text => exact h
  | _ => cases h

theorem booleanValue_false {value : JsValue} (fallback : Bool)
    (h : booleanValue value true = .ok false) : booleanValue value fallback = .ok false := by
  cases value with
  | undefined => cases h
  | number finite text => cases finite <;> exact h
  | _ => exact h

section Update

variable {input : AdminUserInput} {passwordHash username : List Char}
  {password : Option (List Char)} {updatedAt : Nat} {role : AdminRole} {enabled : Bool}

theorem updatedUser_enabled :
    (updatedUser existing username password passwordHash role enabled updatedAt).enabled = 1 ↔
      enabled = true := by
  cases enabled <;> simp [updatedUser]

theorem updatedUser_kept
    (hrole : roleValue input.role existing.role = .ok role)
    (henabled : booleanValue input.enabled (existing.enabled = 1) = .ok enabled)
    (hmentions : (AdminCall.updateAdminUser userId input passwordHash updatedAt).mentions right ≠
      some userId)
    (h : (updatedUser existing username password passwordHash role enabled updatedAt).Holds right) :
    existing.Holds right := by
  cases right with
  | administrator =>
      cases hvalue : input.role with
      | undefined =>
          rw [hvalue] at hrole
          have hsame : existing.role = role := Except.ok.inj hrole
          exact hsame.trans h
      | _ =>
          refine absurd ?_ hmentions
          simp only [AdminCall.mentions, hvalue]
  | enabled =>
      cases hvalue : input.enabled with
      | undefined =>
          rw [hvalue] at henabled
          have hsame : decide (existing.enabled = 1) = enabled := Except.ok.inj henabled
          have htrue : decide (existing.enabled = 1) = true :=
            hsame.trans (updatedUser_enabled.mp h)
          show existing.enabled = 1
          exact of_decide_eq_true htrue
      | _ =>
          refine absurd ?_ hmentions
          simp only [AdminCall.mentions, hvalue]

theorem updatedUser_withdrawn (hid : existing.id = userId)
    (hrole : roleValue input.role existing.role = .ok role)
    (henabled : booleanValue input.enabled (existing.enabled = 1) = .ok enabled)
    (h : (AdminCall.updateAdminUser userId input passwordHash updatedAt).withdraws right =
      some id) :
    existing.id = id ∧
      ¬ (updatedUser existing username password passwordHash role enabled updatedAt).Holds
        right := by
  cases right with
  | administrator =>
      simp only [AdminCall.withdraws] at h
      split at h
      · rename_i hmember
        rw [roleValue_member existing.role hmember] at hrole
        obtain rfl : AdminRole.member = role := Except.ok.inj hrole
        exact ⟨hid.trans (Option.some.inj h), fun hholds => by cases hholds⟩
      · cases h
  | enabled =>
      simp only [AdminCall.withdraws] at h
      split at h
      · rename_i hfalse
        rw [booleanValue_false _ hfalse] at henabled
        obtain rfl : false = enabled := Except.ok.inj henabled
        exact ⟨hid.trans (Option.some.inj h), fun hholds => by cases updatedUser_enabled.mp hholds⟩
      · cases h

theorem updatedUser_counted
    (h : (existing.isEnabledAdministrator && (role ≠ .administrator || !enabled)) = true →
      ∃ count, others = some count ∧ count ≠ 0) :
    (updatedUser existing username password passwordHash role enabled
        updatedAt).isEnabledAdministrator = true ∨ Counted existing others := by
  by_cases hloses : (role ≠ .administrator || !enabled) = true
  · refine .inr fun hexisting => h ?_
    rw [hexisting, hloses]
    rfl
  · left
    cases role <;> cases enabled <;> simp_all [AdminUserRecord.isEnabledAdministrator, updatedUser]

end Update

/-- What an operation comes to write is allowed to it. -/
theorem safe_work (env : AdminEnv) (call : AdminCall) :
    (call.work env).Safe call none none := by
  cases call with
  | createAdminUser input createdByUserId id passwordHash now =>
      apply safe_attempt
      intro username _ taken
      dsimp only
      split
      · trivial
      · refine safe_attempt fun _ _ => safe_attempt fun role _ => safe_attempt fun enabled _ => ?_
        exact fun right => ⟨rfl, rfl⟩
  | updateAdminUser userId input passwordHash updatedAt =>
      refine safe_withAdminUser fun existing hid => safe_attempt fun username _ conflict => ?_
      dsimp only
      split
      · trivial
      refine safe_attempt fun role hrole => safe_attempt fun enabled henabled => ?_
      refine safe_withOther fun others hothers => safe_attempt fun password _ => ?_
      have hwrite : (Statement.update (updatedUser existing username password passwordHash role
          enabled updatedAt)).Allowed (.updateAdminUser userId input passwordHash updatedAt)
          (some existing) others := by
        refine ⟨existing, rfl, rfl, fun right hmentions => ?_, fun right id hwithdraws => ?_, ?_⟩
        · exact updatedUser_kept hrole henabled (hid ▸ hmentions)
        · exact @updatedUser_withdrawn existing id userId right input passwordHash username password
            updatedAt role enabled hid hrole henabled hwithdraws
        · exact updatedUser_counted hothers
      split
      · exact hwrite
      · exact hwrite
  | deleteAdminUser userId =>
      refine safe_withAdminUser fun existing hid => safe_withOther fun others hothers => ?_
      exact ⟨⟨existing, rfl, hid, hothers⟩, fun right => rfl⟩
  | resetAdminUserPassword userId password passwordHash updatedAt =>
      refine safe_withAdminUser fun existing _ => safe_attempt fun _ _ => ?_
      exact ⟨existing, rfl, rewrites_of_kept rfl rfl rfl fun right => rfl⟩
  | resetAdminUserTwoFactor userId updatedAt =>
      refine safe_withAdminUser fun existing _ => ?_
      exact ⟨existing, rfl, rewrites_of_kept rfl rfl rfl fun right => rfl⟩
  | changeOwnPassword userId currentPassword newPassword passwordHash updatedAt =>
      refine safe_withAdminUser fun existing _ => ?_
      show Work.Safe _ _ _ (if _ then _ else _)
      split
      · apply safe_attempt
        intro _ _
        exact ⟨existing, rfl, rewrites_of_kept rfl rfl rfl fun right => rfl⟩
      · trivial
  | enrollTotp userId codeAccepted encrypted now =>
      intro read _
      cases read with
      | none => trivial
      | some existing =>
          show Work.Safe _ _ _ (if _ then _ else _)
          split
          · exact ⟨existing, rfl, rewrites_of_kept rfl rfl rfl fun right => rfl⟩
          · trivial
  | enrollWebauthn userId verified now =>
      intro read _
      cases read with
      | none => trivial
      | some existing =>
          show Work.Safe _ _ _ (if _ then _ else _)
          split
          · exact ⟨existing, rfl, rewrites_of_kept rfl rfl rfl fun right => rfl⟩
          · trivial

/-! ## What a write does -/

variable {f : Flight} {statement : Statement} {row : AdminUserRecord}

theorem current_existing (hcurrent : f.current users = true)
    (hexisting : f.existing = some existing) :
    (∀ row ∈ users, row.id = existing.id →
        row.role = existing.role ∧ row.enabled = existing.enabled) ∧
      (Counted existing f.others → existing.isEnabledAdministrator = true →
        ∃ row ∈ users, row.isEnabledAdministrator = true ∧ row.id ≠ existing.id) := by
  simp only [Flight.current, hexisting, Option.all_some, Bool.and_eq_true,
    List.all_eq_true] at hcurrent
  obtain ⟨hrow, hothers⟩ := hcurrent
  constructor
  · intro row hmem hid
    have h := hrow row hmem
    simpa [hid] using h
  · intro hcounted hadministrator
    obtain ⟨count, hcount, hne⟩ := hcounted hadministrator
    rw [hcount] at hothers
    have hleft : countEnabledAdministrators existing.id users ≠ 0 := by
      simpa [hne] using hothers
    obtain ⟨row, hmem⟩ := List.exists_mem_of_ne_nil _ (fun h => hleft (congrArg List.length h))
    obtain ⟨hmem, hid⟩ := List.mem_filter.mp hmem
    obtain ⟨hmem, hrow⟩ := List.mem_filter.mp hmem
    exact ⟨row, hmem, hrow, of_decide_eq_true hid⟩

/-- A row after a statement was there, or is the inserted or the updated one. -/
theorem mem_apply (happly : statement.apply users = some written) (hrow : row ∈ written) :
    row ∈ users ∨ statement = .insert row ∨
      ∃ user, statement = .update user ∧ ∃ old ∈ users, old.id = user.id ∧ row = user.onto old := by
  cases statement with
  | insert user =>
      simp only [Statement.apply] at happly
      split at happly
      · cases happly
      · obtain rfl := Option.some.inj happly
        rcases List.mem_snoc.mp hrow with hold | hnew
        · exact .inl hold
        · exact .inr (.inl (congrArg _ hnew.symm))
  | update user =>
      simp only [Statement.apply] at happly
      split at happly
      · cases happly
      · obtain rfl := Option.some.inj happly
        obtain ⟨old, hold, rfl⟩ := List.mem_map.mp hrow
        split
        · rename_i hid
          exact .inr (.inr ⟨user, rfl, old, hold, hid, rfl⟩)
        · exact .inl hold
  | delete userId =>
      obtain rfl := Option.some.inj happly
      exact .inl (List.mem_filter.mp hrow).1

/-- A row that a statement does not rewrite or delete stays. -/
theorem apply_mem (happly : statement.apply users = some written) (hrow : row ∈ users) :
    row ∈ written ∨ (statement = .delete row.id) ∨
      ∃ user, statement = .update user ∧ row.id = user.id ∧ user.onto row ∈ written := by
  cases statement with
  | insert user =>
      simp only [Statement.apply] at happly
      split at happly
      · cases happly
      · obtain rfl := Option.some.inj happly
        exact .inl (List.mem_append_left _ hrow)
  | update user =>
      simp only [Statement.apply] at happly
      split at happly
      · cases happly
      · obtain rfl := Option.some.inj happly
        by_cases hid : row.id = user.id
        · exact .inr (.inr ⟨user, rfl, hid, List.mem_map.mpr ⟨row, hrow, if_pos hid⟩⟩)
        · exact .inl (List.mem_map.mpr ⟨row, hrow, if_neg hid⟩)
  | delete userId =>
      obtain rfl := Option.some.inj happly
      by_cases hid : row.id = userId
      · exact .inr (.inl (congrArg _ hid.symm))
      · exact .inl (List.mem_filter.mpr ⟨hrow, decide_eq_true hid⟩)

theorem onto_holds : (user.onto row).Holds right ↔ user.Holds right := by
  cases right <;> exact Iff.rfl

/-- A current call that takes an administrator away leaves the other one it counted. -/
theorem write_remains (hallowed : statement.Allowed f.call f.existing f.others)
    (hcurrent : f.current users = true) (happly : statement.apply users = some written)
    (h : HasAdministrator users) : HasAdministrator written := by
  -- an administrator under another id than the account of the call survives the write
  have hother : ∀ existing : AdminUserRecord, f.existing = some existing →
      Counted existing f.others → existing.isEnabledAdministrator = true →
      (∀ row : AdminUserRecord, row.id ≠ existing.id → row ∈ users → row ∈ written) →
      HasAdministrator written := by
    intro existing hexisting hcounted hadministrator hstays
    obtain ⟨row, hrow, hrowAdministrator, hid⟩ :=
      (current_existing hcurrent hexisting).2 hcounted hadministrator
    exact ⟨row, hstays row hid hrow, hrowAdministrator⟩
  obtain ⟨row, hrow, hadministrator⟩ := h
  have hsame : ∀ existing : AdminUserRecord, f.existing = some existing → row.id = existing.id →
      existing.isEnabledAdministrator = true := by
    intro existing hexisting hid
    obtain ⟨hrole, henabled⟩ := (current_existing hcurrent hexisting).1 row hrow hid
    rw [← isEnabledAdministrator_congr hrole henabled]
    exact hadministrator
  rcases apply_mem happly hrow with hstays | rfl | ⟨user, rfl, hid, hmem⟩
  · exact ⟨row, hstays, hadministrator⟩
  · obtain ⟨⟨existing, hexisting, hid, hcounted⟩, -⟩ := hallowed
    refine hother existing hexisting hcounted (hsame existing hexisting hid.symm) ?_
    intro other hne hmem
    obtain rfl := Option.some.inj happly
    exact List.mem_filter.mpr ⟨hmem, decide_eq_true (hid ▸ hne)⟩
  · obtain ⟨existing, hexisting, hrewrites⟩ := hallowed
    rcases hrewrites.counted with hkept | hcounted
    · exact ⟨user.onto row, hmem, hkept⟩
    · have hexistingId : row.id = existing.id := hid.trans hrewrites.id_eq
      refine hother existing hexisting hcounted (hsame existing hexisting hexistingId) ?_
      intro other hne hstill
      rcases apply_mem happly hstill with hstays | hdelete | ⟨_, hupdate, hotherId, _⟩
      · exact hstays
      · cases hdelete
      · cases hupdate
        exact absurd (hotherId.trans hrewrites.id_eq) hne

/-- A current call does not give a right back that it does not mention. -/
theorem write_keeps (hallowed : statement.Allowed f.call f.existing f.others)
    (hcurrent : f.current users = true) (happly : statement.apply users = some written)
    (hmentions : f.call.mentions right ≠ some id)
    (h : ∀ row ∈ users, row.id = id → ¬ row.Holds right) :
    ∀ row ∈ written, row.id = id → ¬ row.Holds right := by
  intro row hrow hid hholds
  rcases mem_apply happly hrow with hold | rfl | ⟨user, rfl, old, hold, holdId, rfl⟩
  · exact h row hold hid hholds
  · exact hmentions ((hallowed right).1.trans (congrArg some hid))
  · obtain ⟨existing, hexisting, hrewrites⟩ := hallowed
    have hold' : old.id = id := hid
    have hkept := hrewrites.kept right (by rw [← holdId, hold']; exact hmentions)
      (onto_holds.mp hholds)
    obtain ⟨hrole, henabled⟩ := (current_existing hcurrent hexisting).1 old hold
      (holdId.trans hrewrites.id_eq)
    exact h old hold hold' ((holds_congr hrole henabled).mpr hkept)

/-- A call that withdraws a right leaves no account of the id with it. -/
theorem write_withdraws (hallowed : statement.Allowed f.call f.existing f.others)
    (happly : statement.apply users = some written)
    (hwithdraws : f.call.withdraws right = some id) :
    ∀ row ∈ written, row.id = id → ¬ row.Holds right := by
  intro row hrow hid hholds
  cases statement with
  | insert user => rw [(hallowed right).2] at hwithdraws; cases hwithdraws
  | delete userId => rw [hallowed.2 right] at hwithdraws; cases hwithdraws
  | update user =>
      obtain ⟨existing, hexisting, hrewrites⟩ := hallowed
      obtain ⟨huserId, hlacks⟩ := hrewrites.withdrawn right id hwithdraws
      simp only [Statement.apply] at happly
      split at happly
      · cases happly
      obtain rfl := Option.some.inj happly
      obtain ⟨old, -, rfl⟩ := List.mem_map.mp hrow
      by_cases holdId : old.id = user.id
      · rw [if_pos holdId] at hholds
        exact hlacks (onto_holds.mp hholds)
      · rw [if_neg holdId] at hid
        exact holdId (hid.trans huserId.symm)

/-! ## Runs -/

structure Inv (s : AdminNode) : Prop where
  safe : ∀ f ∈ s.flights, f.work.Safe f.call f.existing f.others
  remains : HasAdministrator s.users
  lasting : LockOutsLast s

/-- What a write does to the log of the lock-outs. -/
theorem lockOutsLast_write {s t : AdminNode}
    (hallowed : statement.Allowed f.call f.existing f.others)
    (hcurrent : f.current s.users = true) (happly : statement.apply s.users = some t.users)
    (hlog : t.log = s.log ++ [f.call]) (h : LockOutsLast s) : LockOutsLast t := by
  intro right before call after id hsplit hwithdraws hmentions
  rw [hlog] at hsplit
  rcases List.eq_nil_or_concat after with rfl | ⟨later, last, rfl⟩
  · obtain ⟨-, hcall⟩ := List.append_inj' hsplit rfl
    obtain rfl := List.singleton_inj.mp hcall
    exact write_withdraws hallowed happly hwithdraws
  · rw [List.concat_eq_append, ← List.cons_append, ← List.append_assoc] at hsplit
    obtain ⟨hlog', hlast⟩ := List.append_inj' hsplit rfl
    obtain rfl := List.singleton_inj.mp hlast
    rw [List.concat_eq_append] at hmentions
    refine write_keeps hallowed hcurrent happly ?_ ?_
    · exact hmentions _ (List.mem_append_right _ (List.mem_singleton_self _))
    · exact h right before call later id hlog' hwithdraws fun c hc =>
        hmentions c (List.mem_append_left _ hc)

/-- A step without a write leaves the accounts and the log. -/
theorem Inv.frame {s t : AdminNode} (h : Inv s) (husers : t.users = s.users) (hlog : t.log = s.log)
    (hsafe : ∀ f ∈ t.flights, f.work.Safe f.call f.existing f.others) : Inv t := by
  refine ⟨hsafe, husers ▸ h.remains, ?_⟩
  intro right before call after id hsplit
  rw [husers]
  exact h.lasting right before call after id (hlog ▸ hsplit)

theorem safe_set {s : AdminNode} {i : Nat} {g : Flight} (h : Inv s)
    (hg : g.work.Safe g.call g.existing g.others) :
    ∀ f ∈ s.flights.set i g, f.work.Safe f.call f.existing f.others := by
  intro f hf
  rcases List.mem_or_eq_of_mem_set hf with hold | rfl
  · exact h.safe f hold
  · exact hg

theorem adminUserById_id : ∀ e, adminUserById id users = some e → e.id = id := by
  intro e h
  have hfound : users.find? (fun row => row.id = id) = some e := h
  simpa using List.find?_some hfound

theorem inv_step {s t : AdminNode} {a : AdminAction} (h : Inv s) (hmeets : Meets s a = true)
    (hstep : step env s a = some t) : Inv t := by
  cases a with
  | start call =>
      obtain rfl := Option.some.inj hstep
      refine h.frame rfl rfl fun f hf => ?_
      rcases List.mem_snoc.mp hf with hold | rfl
      · exact h.safe f hold
      · exact safe_work env call
  | throws i =>
      obtain ⟨f, -, rfl⟩ := Option.map_eq_some_iff.mp hstep
      exact h.frame rfl rfl (safe_set h trivial)
  | resume i =>
      obtain ⟨f, hf, hresume⟩ := Option.bind_eq_some_iff.mp hstep
      obtain ⟨r, hr, rfl⟩ := Option.map_eq_some_iff.mp hresume
      have hsafe := h.safe f (List.mem_of_getElem? hf)
      simp only [Meets, hf, Option.all_some] at hmeets
      cases hwork : f.work with
      | adminUserById id next =>
          simp only [Flight.resume, hwork, Option.some.injEq] at hr
          subst hr
          rw [hwork] at hsafe
          exact h.frame rfl (List.append_nil _) (safe_set h (hsafe _ adminUserById_id))
      | adminUserByUsername username next =>
          simp only [Flight.resume, hwork, Option.some.injEq] at hr
          subst hr
          rw [hwork] at hsafe
          exact h.frame rfl (List.append_nil _) (safe_set h (hsafe _))
      | countEnabledAdministrators excludedUserId next =>
          simp only [Flight.resume, hwork, Option.some.injEq] at hr
          subst hr
          rw [hwork] at hsafe
          exact h.frame rfl (List.append_nil _) (safe_set h (hsafe _))
      | await next =>
          simp only [Flight.resume, hwork, Option.some.injEq] at hr
          subst hr
          rw [hwork] at hsafe
          exact h.frame rfl (List.append_nil _) (safe_set h hsafe)
      | write statement =>
          rw [hwork] at hsafe hmeets
          simp only [Flight.resume, hwork] at hr
          cases happly : statement.apply s.users with
          | none =>
              rw [happly] at hr
              obtain rfl := Option.some.inj hr
              exact h.frame rfl (List.append_nil _) (safe_set h trivial)
          | some written =>
              rw [happly] at hr
              obtain rfl := Option.some.inj hr
              exact ⟨safe_set h trivial, write_remains hsafe hmeets happly h.remains,
                lockOutsLast_write hsafe hmeets happly rfl h.lasting⟩
      | throw message => simp [Flight.resume, hwork] at hr
      | ended => simp [Flight.resume, hwork] at hr

/-- No call is under way, and there is an enabled administrator. -/
def Start (s : AdminNode) : Prop :=
  s.flights = [] ∧ s.log = [] ∧ HasAdministrator s.users

/-- In a run whose writes are current an enabled administrator is left in every state, and who
was locked out stays so until a call that mentions the right. -/
theorem administrator_remains {s : AdminNode}
    (h : Reach (step env) (fun s a => Meets s a = true) Start s) :
    HasAdministrator s.users ∧ LockOutsLast s := by
  have hinv : Inv s := by
    refine h.invariant ?_ ?_
    · rintro s ⟨hflights, hlog, husers⟩
      refine ⟨?_, husers, ?_⟩
      · rw [hflights]
        exact fun f hf => absurd hf List.not_mem_nil
      · intro right before call after id hsplit
        rw [hlog] at hsplit
        exact absurd hsplit.symm (by simp)
    · intro s a t _ hinv hmeets hstep
      exact inv_step hinv hmeets hstep
  exact ⟨hinv.remains, hinv.lasting⟩

/-! ## Two administrators -/

def administrator (name : String) : AdminUserRecord where
  id := name.toList
  username := name.toList
  passwordHash := []
  role := .administrator
  totpSecretEncrypted := none
  totpEnrolledAt := none
  mustEnrollTotp := 0
  enabled := 1
  createdAt := 0
  updatedAt := 0
  createdByUserId := none
  ssoSubject := none
  authSource := .password

def plainEnv : AdminEnv where
  toLowerCase text := text
  verify _ _ := true

def twoAdministrators : AdminNode where
  users := [administrator "alice", administrator "bob"]
  flights := []
  log := []

theorem start_twoAdministrators : Start twoAdministrators :=
  ⟨rfl, rfl, administrator "alice", List.mem_cons_self, rfl⟩

def demotion : AdminUserInput where
  username := .undefined
  password := .undefined
  role := .string "member".toList
  enabled := .undefined

def demote (name : String) : AdminCall := .updateAdminUser name.toList demotion [] 1

/-- Bob is demoted, and then nobody can demote alice. -/
theorem demoted_after_another : ∃ s : AdminNode,
    (s.log.length = 1 ∧ s.flights.length = 2) ∧ HasAdministrator s.users ∧ LockOutsLast s := by
  have hrun : (execIf (step plainEnv) (fun s a => Meets s a = true) twoAdministrators
      [.start (demote "bob"), .resume 0, .resume 0, .resume 0, .resume 0,
        .start (demote "alice"), .resume 1, .resume 1, .resume 1]).any
      (fun s => s.log.length = 1 && s.flights.length = 2) = true := by
    decide +kernel
  obtain ⟨s, hs, hfacts⟩ := (Option.any_eq_true ..).mp hrun
  rw [Bool.and_eq_true, decide_eq_true_eq, decide_eq_true_eq] at hfacts
  exact ⟨s, hfacts, administrator_remains (execIf_reach (.start start_twoAdministrators) hs)⟩

/-- Each of two administrators is demoted while the other one still counts. -/
theorem both_demoted : ∃ s : AdminNode,
    Reach (step plainEnv) Any Start s ∧ ¬ HasAdministrator s.users := by
  have hrun : (exec (step plainEnv) twoAdministrators
      [.start (demote "bob"), .start (demote "alice"), .resume 0, .resume 1, .resume 0, .resume 1,
        .resume 0, .resume 1, .resume 0, .resume 1]).any
      (fun s => s.users.all fun row => !row.isEnabledAdministrator) = true := by
    decide +kernel
  obtain ⟨s, hs, hnone⟩ := (Option.any_eq_true ..).mp hrun
  refine ⟨s, exec_reach (.start start_twoAdministrators) hs, ?_⟩
  rintro ⟨row, hrow, hadministrator⟩
  have hlacks := List.all_eq_true.mp hnone row hrow
  rw [hadministrator] at hlacks
  cases hlacks

end BurrowGate.Admin
