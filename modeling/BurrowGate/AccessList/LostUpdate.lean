import BurrowGate.AccessList.Records
import Mathlib.Data.List.Permutation

/-!
# Lost updates on access users and access settings

No operation locks the row it read or checks at its write that the row is still the one
it read. `updateAccessUser` hashes a password and counts users in between; a token that is
revoked meanwhile is back after its write.

Runs in which every statement leaves the answers of the open operations as they are
(`Undisturbed`) are serial, and there a revocation lasts until the credential is granted
again.
-/

namespace BurrowGate.AccessList

open Lib.Optimistic
open Lib.Run

/-- A credential that operations of this service grant and clear. -/
inductive Credential
  | apiToken (userId : List Char)
  | secondFactor (userId : List Char)
  | sessionVerification (siteId : List Char)

/-- The row of a user does not hold the credential. -/
def Credential.AbsentFromUser (user : AccessUserRecord) : Credential → Prop
  | .apiToken userId => user.id = userId → user.apiTokenHash = none
  | .secondFactor userId => user.id = userId → user.totpSecretEncrypted = none
  | .sessionVerification _ => True

def Credential.AbsentFromSettings (settings : SiteAccessSettingsRecord) : Credential → Prop
  | .sessionVerification siteId =>
      settings.siteId = siteId → settings.sessionVerificationTokenHash = none
  | _ => True

/-- No row holds the credential. -/
def Cleared (db : AccessDb) (c : Credential) : Prop :=
  (∀ user ∈ db.users, c.AbsentFromUser user) ∧
    ∀ settings ∈ db.settings, c.AbsentFromSettings settings

def AccessOperation.clears : AccessOperation → Option Credential
  | .revokeAccessUserApiToken _ userId _ => some (.apiToken userId)
  | .resetAccessUserTwoFactor _ userId _ => some (.secondFactor userId)
  | .revokeSessionVerificationToken siteId _ _ => some (.sessionVerification siteId)
  | _ => none

def AccessOperation.grants : AccessOperation → Option Credential
  | .generateAccessUserApiToken _ userId _ _ _ => some (.apiToken userId)
  | .completeAccessTotpEnrollment userId _ _ _ => some (.secondFactor userId)
  | .generateSessionVerificationToken siteId _ _ _ => some (.sessionVerification siteId)
  | _ => none

/-- A credential cleared by a completed operation is cleared as long as no completed
operation grants it again. -/
def RevocationsLast (s : System AccessDb String AccessOperation) : Prop :=
  ∀ before op after credential, s.log = before ++ .completed op :: after →
    op.clears = some credential →
      (∀ later ∈ completed after, later.grants ≠ some credential) → Cleared s.db credential

/-! ## What a write does to the credentials -/

variable {toLowerCase : List Char → List Char} {db db' : AccessDb} {c : Credential}
  {siteId userId : List Char} {op : AccessOperation}

/-- A default row holds no credential. -/
theorem cleared_ensure (siteId : List Char) (now : Nat) (h : Cleared db c) :
    Cleared ((ensureAccessSettings siteId now).insert db) c := by
  refine ⟨h.1, fun settings hsettings => ?_⟩
  rcases List.mem_snoc.mp hsettings with hold | rfl
  · exact h.2 settings hold
  · cases c with
    | apiToken => trivial
    | secondFactor => trivial
    | sessionVerification => exact fun _ => rfl

theorem cleared_updateUserRow {row : AccessUserRecord} (h : ∀ user ∈ db.users,
    user.id ≠ row.id → c.AbsentFromUser user) (hrow : c.AbsentFromUser row)
    (hsettings : ∀ settings ∈ db.settings, c.AbsentFromSettings settings) :
    Cleared (updateUserRow row db) c := by
  refine ⟨fun user huser => ?_, hsettings⟩
  obtain ⟨old, hold, rfl⟩ := List.mem_map.mp huser
  split
  · cases c <;> exact hrow
  · rename_i hne
    exact h old hold hne

theorem cleared_updateSettingsRow {row : SiteAccessSettingsRecord}
    (husers : ∀ user ∈ db.users, c.AbsentFromUser user)
    (h : ∀ settings ∈ db.settings, settings.siteId ≠ row.siteId → c.AbsentFromSettings settings)
    (hrow : c.AbsentFromSettings row) : Cleared (updateSettingsRow row db) c := by
  refine ⟨husers, fun settings hsettings => ?_⟩
  obtain ⟨old, hold, rfl⟩ := List.mem_map.mp hsettings
  split
  · cases c <;> exact hrow
  · rename_i hne
    exact h old hold hne

/-! ## The operations -/

theorem accessUserForSite_some {user : AccessUserRecord}
    (h : accessUserForSite siteId userId db = some user) : user ∈ db.users ∧ user.id = userId := by
  have hfound := List.find?_some h
  simp only [Bool.and_eq_true, decide_eq_true_eq] at hfound
  exact ⟨List.mem_of_find?_eq_some h, hfound.1⟩

/-- An operation of an admin works on a row of the table. -/
theorem leads_withUserForSite {next : AccessUserRecord → AccessScript} {post : AccessDb → Prop}
    (h : ∀ existing ∈ db.users, existing.id = userId → (next existing).Leads db post) :
    (withUserForSite siteId userId next).Leads db post := by
  apply leads_read
  cases hexisting : accessUserForSite siteId userId db with
  | none => exact leads_fail _
  | some existing =>
      obtain ⟨hmem, hid⟩ := accessUserForSite_some hexisting
      exact h existing hmem hid

theorem leads_attempt {β : Type} {result : Except String β} {next : β → AccessScript}
    {post : AccessDb → Prop} (h : ∀ value, (next value).Leads db post) :
    (attempt result next).Leads db post := by
  cases result with
  | error message => exact leads_fail message
  | ok value => exact h value

/-- An operation on the settings works on a row of the table, which may be a default one. -/
theorem leads_ensure {eq : DecidableEq SiteAccessSettingsRecord} {now : Nat}
    {next : SiteAccessSettingsRecord → AccessScript}
    {post : AccessDb → Prop}
    (h : ∀ t, t.users = db.users → (∀ c, Cleared db c → Cleared t c) → ∀ existing ∈ t.settings,
      existing.siteId = siteId → (next existing).Leads t post) :
    (Script.getOrCreate eq (ensureAccessSettings siteId now) next).Leads db post := by
  apply leads_getOrCreate
  · intro row hrow
    have hfound : accessSettings siteId db = some row := hrow
    exact h db rfl (fun _ hc => hc) row (List.mem_of_find?_eq_some hfound)
      (by simpa using List.find?_some hfound)
  · intro _
    exact h ((ensureAccessSettings siteId now).insert db) rfl
      (fun _ hc => cleared_ensure siteId now hc) (defaultSettings siteId now)
      (List.mem_append_right _ (List.mem_singleton_self _)) rfl

theorem leads_checkLastActive {ensuredAt : List Char → Nat} {next : AccessScript}
    {post : AccessDb → Prop}
    (h : ∀ t, t.users = db.users → Cleared t c → next.Leads t post) (hcleared : Cleared db c) :
    ∀ sites, (checkLastActive userId ensuredAt next sites).Leads db post := by
  intro sites
  induction sites generalizing db with
  | nil => exact h db rfl hcleared
  | cons site sites ih =>
      refine leads_ensure fun t husers ht settings _ _ => ?_
      have hrest := ih (fun u hu => h u (hu.trans husers)) (ht c hcleared)
      split
      · apply leads_read
        split
        · exact leads_fail _
        · exact hrest
      · exact hrest

/-- An operation that does not grant a credential brings none back that was absent when it ran. -/
theorem script_keeps (hgrants : op.grants ≠ some c) (h : Cleared db c) :
    (op.script toLowerCase).Leads db (Cleared · c) := by
  have hwrite : ∀ t, t.users = db.users → Cleared t c → ∀ row, c.AbsentFromUser row →
      (Script.write (updateUserRow row) : AccessScript).Leads t (Cleared · c) :=
    fun t _ ht row hrow => leads_write (cleared_updateUserRow (fun u hu _ => ht.1 u hu) hrow ht.2)
  have hsettings : ∀ t, Cleared t c → ∀ row, c.AbsentFromSettings row →
      (Script.write (updateSettingsRow row) : AccessScript).Leads t (Cleared · c) :=
    fun t ht row hrow =>
      leads_write (cleared_updateSettingsRow ht.1 (fun u hu _ => ht.2 u hu) hrow)
  cases op with
  | updateAccessUser siteId userId input passwordHash ensuredAt updatedAt =>
      refine leads_withUserForSite fun existing hmem _ => leads_attempt fun username => ?_
      apply leads_read
      split
      · exact leads_fail _
      refine leads_attempt fun password => leads_attempt fun enabled => ?_
      have hrow : c.AbsentFromUser
          (updatedUser existing username password passwordHash enabled updatedAt) := by
        have := h.1 existing hmem
        cases c <;> exact this
      dsimp only
      split
      · apply leads_read
        exact leads_checkLastActive (fun t ht hcleared => hwrite t ht hcleared _ hrow) h _
      · exact hwrite db rfl h _ hrow
  | setAccessUserTotpRequired siteId userId required updatedAt =>
      refine leads_withUserForSite fun existing hmem _ => hwrite db rfl h _ ?_
      have := h.1 existing hmem
      cases c <;> exact this
  | resetAccessUserTwoFactor siteId userId updatedAt =>
      refine leads_withUserForSite fun existing hmem _ => hwrite db rfl h _ ?_
      have := h.1 existing hmem
      cases c with
      | apiToken => exact this
      | secondFactor => exact fun _ => rfl
      | sessionVerification => trivial
  | generateAccessUserApiToken siteId userId tokenHash createdAt updatedAt =>
      refine leads_withUserForSite fun existing hmem hid => hwrite db rfl h _ ?_
      have := h.1 existing hmem
      cases c with
      | apiToken =>
          rintro rfl
          exact absurd (by rw [AccessOperation.grants, hid]) hgrants
      | secondFactor => exact this
      | sessionVerification => trivial
  | revokeAccessUserApiToken siteId userId updatedAt =>
      refine leads_withUserForSite fun existing hmem _ => hwrite db rfl h _ ?_
      have := h.1 existing hmem
      cases c with
      | apiToken => exact fun _ => rfl
      | secondFactor => exact this
      | sessionVerification => trivial
  | completeAccessTotpEnrollment userId encrypted enrolledAt updatedAt =>
      apply leads_read
      cases hexisting : accessUserById userId db with
      | none => exact leads_fail _
      | some existing =>
          refine hwrite db rfl h _ ?_
          have := h.1 existing (List.mem_of_find?_eq_some hexisting)
          have hid : existing.id = userId := by
            simpa using List.find?_some hexisting
          cases c with
          | apiToken => exact this
          | secondFactor =>
              rintro rfl
              exact absurd (by rw [AccessOperation.grants, hid]) hgrants
          | sessionVerification => trivial
  | updateAccessSettings siteId input ensuredAt updatedAt =>
      refine leads_ensure fun t _ hkeeps existing hmem _ => leads_attempt fun enabled => ?_
      have ht := hkeeps c h
      have hrow : ∀ sendUsername, c.AbsentFromSettings
          (updatedSettings existing enabled sendUsername updatedAt) := by
        intro sendUsername
        have := ht.2 existing hmem
        cases c <;> exact this
      have hattempt := @leads_attempt t Bool (booleanValue input.sendUsernameToUpstream
        (existing.sendUsernameToUpstream = 1)) _ (Cleared · c)
        fun sendUsername => hsettings t ht _ (hrow sendUsername)
      dsimp only
      split
      · apply leads_read
        split
        · exact leads_fail _
        · exact hattempt
      · exact hattempt
  | generateSessionVerificationToken siteId tokenHash ensuredAt createdAt =>
      refine leads_ensure fun t _ hkeeps existing _ hsite => hsettings t (hkeeps c h) _ ?_
      cases c with
      | apiToken => trivial
      | secondFactor => trivial
      | sessionVerification =>
          rintro rfl
          exact absurd (by rw [AccessOperation.grants, hsite]) hgrants
  | revokeSessionVerificationToken siteId ensuredAt updatedAt =>
      refine leads_ensure fun t _ hkeeps _ _ _ => hsettings t (hkeeps c h) _ ?_
      cases c with
      | apiToken => trivial
      | secondFactor => trivial
      | sessionVerification => exact fun _ => rfl

/-- An operation that clears a credential leaves no row with it, whatever was there. -/
theorem script_clears (hclears : op.clears = some c) :
    (op.script toLowerCase).Leads db (Cleared · c) := by
  cases op with
  | revokeAccessUserApiToken siteId userId updatedAt =>
      obtain rfl := Option.some.inj hclears
      refine leads_withUserForSite fun existing hmem hid => leads_write ?_
      refine cleared_updateUserRow ?_ (fun _ => rfl) (fun _ _ => trivial)
      intro user _ hne huser
      exact absurd (huser.trans hid.symm) hne
  | resetAccessUserTwoFactor siteId userId updatedAt =>
      obtain rfl := Option.some.inj hclears
      refine leads_withUserForSite fun existing hmem hid => leads_write ?_
      refine cleared_updateUserRow ?_ (fun _ => rfl) (fun _ _ => trivial)
      intro user _ hne huser
      exact absurd (huser.trans hid.symm) hne
  | revokeSessionVerificationToken siteId ensuredAt updatedAt =>
      obtain rfl := Option.some.inj hclears
      refine leads_ensure fun t _ _ existing _ hsite => leads_write ?_
      refine cleared_updateSettingsRow (fun _ _ => trivial) ?_ (fun _ => rfl)
      intro settings _ hne hsettings
      exact absurd (hsettings.trans hsite.symm) hne
  | _ => cases hclears

section Creates

variable {Q : (AccessDb → AccessDb) → Prop}

theorem creates_withUserForSite {next : AccessUserRecord → AccessScript}
    (h : ∀ existing, (next existing).Creates Q) : (withUserForSite siteId userId next).Creates Q := by
  intro existing
  cases existing with
  | none => trivial
  | some existing => exact h existing

theorem creates_attempt {β : Type} {result : Except String β} {next : β → AccessScript}
    (h : ∀ value, (next value).Creates Q) : (attempt result next).Creates Q := by
  cases result with
  | error message => trivial
  | ok value => exact h value

theorem creates_checkLastActive (hensure : ∀ site now, Q (ensureAccessSettings site now).insert)
    {ensuredAt : List Char → Nat} {next : AccessScript} (h : next.Creates Q) :
    ∀ sites, (checkLastActive userId ensuredAt next sites).Creates Q := by
  intro sites
  induction sites with
  | nil => exact h
  | cons site sites ih =>
      refine ⟨hensure _ _, fun settings => ?_⟩
      dsimp only
      split
      · intro count
        dsimp only
        split
        · trivial
        · exact ih
      · exact ih

/-- The only inserts of the operations are those of default rows. -/
theorem script_creates (hensure : ∀ site now, Q (ensureAccessSettings site now).insert)
    (op : AccessOperation) : (op.script toLowerCase).Creates Q := by
  cases op with
  | updateAccessUser siteId userId input passwordHash ensuredAt updatedAt =>
      refine creates_withUserForSite fun existing => creates_attempt fun username conflict => ?_
      dsimp only
      split
      · trivial
      refine creates_attempt fun password => creates_attempt fun enabled => ?_
      split
      · exact creates_checkLastActive hensure trivial
      · trivial
  | setAccessUserTotpRequired => exact creates_withUserForSite fun _ => trivial
  | resetAccessUserTwoFactor => exact creates_withUserForSite fun _ => trivial
  | generateAccessUserApiToken => exact creates_withUserForSite fun _ => trivial
  | revokeAccessUserApiToken => exact creates_withUserForSite fun _ => trivial
  | completeAccessTotpEnrollment =>
      rintro (_ | existing)
      · trivial
      · trivial
  | updateAccessSettings siteId input ensuredAt updatedAt =>
      refine ⟨hensure _ _, fun existing => creates_attempt fun enabled => ?_⟩
      dsimp only
      split
      · intro count
        dsimp only
        split
        · trivial
        · exact creates_attempt fun _ => trivial
      · exact creates_attempt fun _ => trivial
  | generateSessionVerificationToken => exact ⟨hensure _ _, fun _ => trivial⟩
  | revokeSessionVerificationToken => exact ⟨hensure _ _, fun _ => trivial⟩

end Creates

/-! ## Runs -/

/-- In a serial run a revocation lasts until the credential is granted again. -/
theorem revocationsLast {db₀ : AccessDb} {s : System AccessDb String AccessOperation}
    (hserial : s.Serial (AccessOperation.script toLowerCase) db₀)
    (hcreates : s.Creates fun insert => ∀ t c, Cleared t c → Cleared (insert t) c) :
    RevocationsLast s := by
  intro before op after c hlog hclears hgrants
  have hreplay := hserial.replayed
  rw [hlog, replay_append] at hreplay
  obtain ⟨t, -, hrest⟩ := Option.bind_eq_some_iff.mp hreplay
  obtain ⟨u, hexec, hafter⟩ := replay_completed.mp hrest
  refine @replay_invariant _ _ _ _ _ _ _ (Cleared · c) ?_ ?_ hafter (script_clears hclears u hexec)
  · intro insert hinsert v hv
    exact hcreates.2 insert (by rw [hlog]; simp [hinsert]) v c hv
  · intro later hlater v hv
    exact script_keeps (hgrants later hlater) hv

/-- A run whose steps leave the answers of the open operations as they are is serial: the
records are those that the completed operations leave one after the other, and no
revocation is undone by an operation that does not grant the credential. -/
theorem access_operations_serial {db₀ : AccessDb} {s : System AccessDb String AccessOperation}
    (h : Reach (step (AccessOperation.script toLowerCase))
      (Undisturbed (AccessOperation.script toLowerCase)) (· = ⟨db₀, [], []⟩) s) :
    replay (AccessOperation.script toLowerCase) s.log db₀ = some s.db ∧
      (completed s.log).Perm s.finished ∧ RevocationsLast s := by
  have hserial := serial_of_undisturbed h
  exact ⟨hserial.replayed, hserial.finished,
    revocationsLast hserial (creates_of_reach (script_creates fun _ _ _ _ => cleared_ensure _ _) h)⟩

/-! ## A token that is revoked while a password is hashed -/

def tokenUser : AccessUserRecord where
  id := "user_1".toList
  username := "alice".toList
  passwordHash := "old".toList
  enabled := 1
  createdAt := 0
  updatedAt := 0
  totpRequired := 0
  totpSecretEncrypted := none
  totpEnrolledAt := none
  apiTokenHash := some "token".toList
  apiTokenCreatedAt := some 0
  ssoSubject := none
  authSource := .password

def tokenDb : AccessDb where
  users := [tokenUser]
  members := [("site_1".toList, "user_1".toList)]
  settings := []

def newPassword : AccessOperation :=
  .updateAccessUser "site_1".toList "user_1".toList
    ⟨.undefined, .string "new password".toList, .undefined⟩ "new".toList (fun _ => 5) 5

def revokeToken : AccessOperation := .revokeAccessUserApiToken "site_1".toList "user_1".toList 4

/-- The password is changed, then the token is revoked; both calls are open all the time. -/
def revokeAfterEdit : List (Action AccessOperation) :=
  [.start newPassword, .start revokeToken, .advance 0, .advance 0, .advance 0, .advance 1,
    .advance 1]

theorem access_operations_serial_revoked :
    ∃ s, execIf (step (AccessOperation.script id)) (Undisturbed (AccessOperation.script id))
        ⟨tokenDb, [], []⟩ revokeAfterEdit = some s ∧ s.finished.length = 2 ∧
      replay (AccessOperation.script id) s.log tokenDb = some s.db ∧
        (completed s.log).Perm s.finished ∧ RevocationsLast s := by
  obtain ⟨s, hs, hfinished⟩ := (Option.any_eq_true ..).mp
    (show (execIf (step (AccessOperation.script id)) (Undisturbed (AccessOperation.script id))
      ⟨tokenDb, [], []⟩ revokeAfterEdit).any
      (fun s => s.finished.length = 2) = true by decide +kernel)
  exact ⟨s, hs, of_decide_eq_true hfinished,
    access_operations_serial (execIf_reach (.start rfl) hs)⟩

/-- The token is revoked between the read and the write of the password change. -/
def revokeDuringEdit : List (Action AccessOperation) :=
  [.start newPassword, .start revokeToken, .advance 0, .advance 0, .advance 1, .advance 1,
    .advance 0]

/-- Both calls complete, the token works again, and no order of the two calls gives that. -/
theorem revoked_token_restored :
    ∃ s, Reach (step (AccessOperation.script id)) Any (· = ⟨tokenDb, [], []⟩) s ∧
      s.finished = [newPassword, revokeToken] ∧
      s.db.users.map (·.apiTokenHash) = [some "token".toList] ∧
      ∀ order : List AccessOperation, order.Perm s.finished →
        replay (AccessOperation.script id) (order.map .completed) tokenDb ≠ some s.db := by
  obtain ⟨s, hs⟩ := Option.isSome_iff_exists.mp (show (exec (step (AccessOperation.script id))
    ⟨tokenDb, [], []⟩ revokeDuringEdit).isSome = true by decide +kernel)
  have hfinished : (exec (step (AccessOperation.script id)) ⟨tokenDb, [], []⟩
      revokeDuringEdit).map (·.finished) = some [newPassword, revokeToken] := rfl
  have hdb : (exec (step (AccessOperation.script id)) ⟨tokenDb, [], []⟩
      revokeDuringEdit).all (fun s =>
        s.db.users.map (·.apiTokenHash) = [some "token".toList] ∧
        replay (AccessOperation.script id) [.completed newPassword, .completed revokeToken]
          tokenDb ≠ some s.db ∧
        replay (AccessOperation.script id) [.completed revokeToken, .completed newPassword]
          tokenDb ≠ some s.db) = true := by decide +kernel
  rw [hs] at hfinished hdb
  obtain ⟨hrestored, hfirst, hsecond⟩ := of_decide_eq_true hdb
  have hops : s.finished = [newPassword, revokeToken] := Option.some.inj hfinished
  refine ⟨s, exec_reach (.start rfl) hs, hops, hrestored, fun order horder => ?_⟩
  rw [hops] at horder
  rcases List.perm_pair.mp horder with rfl | rfl
  · exact hfirst
  · exact hsecond

end BurrowGate.AccessList
