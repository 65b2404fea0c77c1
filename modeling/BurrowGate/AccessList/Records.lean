import BurrowGate.Access.LoginFailures
import BurrowGate.Lib.Optimistic

/-!
# The operations on access users and access settings

Every operation reads the record, awaits further queries or a hash, and writes the whole
row built from what it read. The queries and the row it writes are the source's; what it
draws on the way (clock values, a password hash, the hash of a token, a ciphertext) comes
with the operation. After the write no operation touches either table again.
-/

namespace BurrowGate.AccessList

open Js
open Lib.Optimistic

inductive AuthSource
  | password
  | sso
  deriving DecidableEq

structure AccessUserRecord where
  id : List Char
  username : List Char
  passwordHash : List Char
  enabled : Nat
  createdAt : Nat
  updatedAt : Nat
  totpRequired : Nat
  totpSecretEncrypted : Option (List Char)
  totpEnrolledAt : Option Nat
  apiTokenHash : Option (List Char)
  apiTokenCreatedAt : Option Nat
  ssoSubject : Option (List Char)
  authSource : AuthSource
  deriving DecidableEq

structure SiteAccessSettingsRecord where
  siteId : List Char
  enabled : Nat
  sendUsernameToUpstream : Nat
  sessionVerificationTokenHash : Option (List Char)
  sessionVerificationTokenCreatedAt : Option Nat
  createdAt : Nat
  updatedAt : Nat
  deriving DecidableEq

/-- The tables `access_users`, `site_access_users` (site, user) and `site_access_settings`. -/
structure AccessDb where
  users : List AccessUserRecord
  members : List (List Char × List Char)
  settings : List SiteAccessSettingsRecord
  deriving DecidableEq

/-! ## The repository -/

def accessUserById (id : List Char) (db : AccessDb) : Option AccessUserRecord :=
  db.users.find? (·.id = id)

def accessUserByUsername (username : List Char) (db : AccessDb) : Option AccessUserRecord :=
  db.users.find? (·.username = username)

def accessUserForSite (siteId userId : List Char) (db : AccessDb) : Option AccessUserRecord :=
  db.users.find? fun user => user.id = userId && db.members.contains (siteId, user.id)

/-- Without the order of the rows, which its only caller here does not use. -/
def accessUsersForSite (siteId : List Char) (db : AccessDb) : List AccessUserRecord :=
  db.users.filter fun user => db.members.contains (siteId, user.id)

def accessSiteIdsForUser (userId : List Char) (db : AccessDb) : List (List Char) :=
  (db.members.filter (·.2 = userId)).map (·.1)

def accessSettings (siteId : List Char) (db : AccessDb) : Option SiteAccessSettingsRecord :=
  db.settings.find? (·.siteId = siteId)

/-- The `UPDATE` leaves `id` and `created_at`. -/
def updateUserRow (user : AccessUserRecord) (db : AccessDb) : AccessDb :=
  { db with
    users := db.users.map fun row =>
      if row.id = user.id then { user with createdAt := row.createdAt } else row }

/-- The `UPDATE` leaves `site_id` and `created_at`. -/
def updateSettingsRow (settings : SiteAccessSettingsRecord) (db : AccessDb) : AccessDb :=
  { db with
    settings := db.settings.map fun row =>
      if row.siteId = settings.siteId then { settings with createdAt := row.createdAt } else row }

def defaultSettings (siteId : List Char) (now : Nat) : SiteAccessSettingsRecord where
  siteId := siteId
  enabled := 0
  sendUsernameToUpstream := 0
  sessionVerificationTokenHash := none
  sessionVerificationTokenCreatedAt := none
  createdAt := now
  updatedAt := now

def ensureAccessSettings (siteId : List Char) (now : Nat) :
    GetOrCreate AccessDb SiteAccessSettingsRecord where
  find := accessSettings siteId
  insert db := { db with settings := db.settings ++ [defaultSettings siteId now] }
  fresh := defaultSettings siteId now

def activeUserCount (siteId : List Char) (excludedUserId : Option (List Char)) (db : AccessDb) :
    Nat :=
  ((accessUsersForSite siteId db).filter fun user =>
    user.enabled = 1 && some user.id ≠ excludedUserId).length

/-! ## Checks of the input -/

def booleanValue (value : JsValue) (fallback : Bool) : Except String Bool :=
  match value with
  | .undefined => .ok fallback
  | .boolean b => .ok b
  | .number (some q) _ =>
      if q = 1 then .ok true else if q = 0 then .ok false else .error "Boolean value expected"
  | .string text =>
      if text = "1".toList ∨ text = "true".toList then .ok true
      else if text = "0".toList ∨ text = "false".toList then .ok false
      else .error "Boolean value expected"
  | _ => .error "Boolean value expected"

/-- `toLowerCase` is `String.prototype.toLowerCase`. -/
def normalizeAccessUsername (toLowerCase : List Char → List Char) (value : JsValue) :
    Except String (List Char) :=
  let username := toLowerCase (trim (value.orElse (.string [])).toText)
  match username with
  | [] => .error "Username is required"
  | c :: cs =>
      if 255 < utf16Length username then .error "Username must be at most 255 characters"
      else if Access.isUsernameStart c && cs.all Access.isUsernamePart then .ok username
      else .error
        "Username may contain lowercase letters, numbers, dots, underscores, @, +, and hyphens"

def passwordValue (value : JsValue) (required : Bool) : Except String (Option (List Char)) :=
  let check (password : List Char) : Except String (Option (List Char)) :=
    if utf16Length password < 8 then .error "Password must be at least 8 characters"
    else if 1024 < utf16Length password then .error "Password must be at most 1024 characters"
    else .ok (some password)
  match value with
  | .undefined | .null | .string [] =>
      if required then .error "Password is required" else .ok none
  | value => check value.toText

structure AccessUserInput where
  username : JsValue
  password : JsValue
  enabled : JsValue

structure AccessSettingsInput where
  enabled : JsValue
  sendUsernameToUpstream : JsValue

/-! ## The operations -/

/-- A call with the values it draws. `ensuredAt` is the clock at the default row of a site. -/
inductive AccessOperation
  | updateAccessUser (siteId userId : List Char) (input : AccessUserInput)
      (passwordHash : List Char) (ensuredAt : List Char → Nat) (updatedAt : Nat)
  | setAccessUserTotpRequired (siteId userId : List Char) (required : Bool) (updatedAt : Nat)
  | resetAccessUserTwoFactor (siteId userId : List Char) (updatedAt : Nat)
  | generateAccessUserApiToken (siteId userId tokenHash : List Char) (createdAt updatedAt : Nat)
  | revokeAccessUserApiToken (siteId userId : List Char) (updatedAt : Nat)
  | completeAccessTotpEnrollment (userId encrypted : List Char) (enrolledAt updatedAt : Nat)
  | updateAccessSettings (siteId : List Char) (input : AccessSettingsInput)
      (ensuredAt updatedAt : Nat)
  | generateSessionVerificationToken (siteId tokenHash : List Char) (ensuredAt createdAt : Nat)
  | revokeSessionVerificationToken (siteId : List Char) (ensuredAt updatedAt : Nat)

abbrev AccessScript : Type 1 := Script AccessDb String

def attempt {β : Type} (result : Except String β) (next : β → AccessScript) : AccessScript :=
  match result with
  | .error message => .fail message
  | .ok value => next value

/-- `accessUserForSite` and the check that follows it in every operation of an admin. -/
def withUserForSite (siteId userId : List Char) (next : AccessUserRecord → AccessScript) :
    AccessScript :=
  .read inferInstance (accessUserForSite siteId userId) fun existing =>
    match existing with
    | none => .fail "Access user not found"
    | some existing => next existing

/-- The loop over the sites of a user that is being disabled. -/
def checkLastActive (userId : List Char) (ensuredAt : List Char → Nat) (next : AccessScript) :
    List (List Char) → AccessScript
  | [] => next
  | assignedSiteId :: rest =>
      .getOrCreate inferInstance (ensureAccessSettings assignedSiteId (ensuredAt assignedSiteId))
        fun settings =>
          if settings.enabled = 1 then
            .read inferInstance (activeUserCount assignedSiteId (some userId)) fun count =>
              if count = 0 then
                .fail "This user is the last active user on an enabled access list"
              else checkLastActive userId ensuredAt next rest
          else checkLastActive userId ensuredAt next rest

/-- The row of `updateAccessUser`. -/
def updatedUser (existing : AccessUserRecord) (username : List Char)
    (password : Option (List Char)) (passwordHash : List Char) (enabled : Bool)
    (updatedAt : Nat) : AccessUserRecord :=
  { existing with
    username
    passwordHash := if password.isSome then passwordHash else existing.passwordHash
    enabled := if enabled then 1 else 0
    updatedAt }

def updateAccessUser (toLowerCase : List Char → List Char) (siteId userId : List Char)
    (input : AccessUserInput) (passwordHash : List Char) (ensuredAt : List Char → Nat)
    (updatedAt : Nat) : AccessScript :=
  withUserForSite siteId userId fun existing =>
    attempt (match input.username with
      | .undefined => .ok existing.username
      | value => normalizeAccessUsername toLowerCase value) fun username =>
    .read inferInstance (accessUserByUsername username) fun conflict =>
      if conflict.any fun other => other.id ≠ userId then .fail "This username already exists"
      else
        attempt (passwordValue input.password false) fun password =>
        attempt (booleanValue input.enabled (existing.enabled = 1)) fun enabled =>
          let write : AccessScript := .write (updateUserRow
            (updatedUser existing username password passwordHash enabled updatedAt))
          if !enabled && existing.enabled = 1 then
            .read inferInstance (accessSiteIdsForUser userId)
              (checkLastActive userId ensuredAt write)
          else write

def setAccessUserTotpRequired (siteId userId : List Char) (required : Bool) (updatedAt : Nat) :
    AccessScript :=
  withUserForSite siteId userId fun existing =>
    .write (updateUserRow { existing with totpRequired := if required then 1 else 0, updatedAt })

def resetAccessUserTwoFactor (siteId userId : List Char) (updatedAt : Nat) : AccessScript :=
  withUserForSite siteId userId fun existing =>
    .write (updateUserRow
      { existing with totpSecretEncrypted := none, totpEnrolledAt := none, updatedAt })

def generateAccessUserApiToken (siteId userId tokenHash : List Char) (createdAt updatedAt : Nat) :
    AccessScript :=
  withUserForSite siteId userId fun existing =>
    .write (updateUserRow
      { existing with
        apiTokenHash := some tokenHash
        apiTokenCreatedAt := some createdAt
        updatedAt })

def revokeAccessUserApiToken (siteId userId : List Char) (updatedAt : Nat) : AccessScript :=
  withUserForSite siteId userId fun existing =>
    .write (updateUserRow
      { existing with apiTokenHash := none, apiTokenCreatedAt := none, updatedAt })

def completeAccessTotpEnrollment (userId encrypted : List Char) (enrolledAt updatedAt : Nat) :
    AccessScript :=
  .read inferInstance (accessUserById userId) fun existing =>
    match existing with
    | none => .fail "Access user not found"
    | some existing =>
        .write (updateUserRow
          { existing with
            totpSecretEncrypted := some encrypted
            totpEnrolledAt := some enrolledAt
            updatedAt })

/-- The row of `updateAccessSettings`. -/
def updatedSettings (existing : SiteAccessSettingsRecord) (enabled sendUsername : Bool)
    (updatedAt : Nat) : SiteAccessSettingsRecord :=
  { existing with
    enabled := if enabled then 1 else 0
    sendUsernameToUpstream := if sendUsername then 1 else 0
    updatedAt }

def updateAccessSettings (siteId : List Char) (input : AccessSettingsInput)
    (ensuredAt updatedAt : Nat) : AccessScript :=
  .getOrCreate inferInstance (ensureAccessSettings siteId ensuredAt) fun existing =>
    attempt (booleanValue input.enabled (existing.enabled = 1)) fun enabled =>
      let write : AccessScript :=
        attempt (booleanValue input.sendUsernameToUpstream (existing.sendUsernameToUpstream = 1))
          fun sendUsername =>
            .write (updateSettingsRow (updatedSettings existing enabled sendUsername updatedAt))
      if enabled then
        .read inferInstance (activeUserCount siteId none) fun count =>
          if count = 0 then
            .fail "Assign at least one active user before enabling access authentication"
          else write
      else write

def generateSessionVerificationToken (siteId tokenHash : List Char) (ensuredAt createdAt : Nat) :
    AccessScript :=
  .getOrCreate inferInstance (ensureAccessSettings siteId ensuredAt) fun existing =>
    .write (updateSettingsRow
      { existing with
        sessionVerificationTokenHash := some tokenHash
        sessionVerificationTokenCreatedAt := some createdAt
        updatedAt := createdAt })

def revokeSessionVerificationToken (siteId : List Char) (ensuredAt updatedAt : Nat) :
    AccessScript :=
  .getOrCreate inferInstance (ensureAccessSettings siteId ensuredAt) fun existing =>
    .write (updateSettingsRow
      { existing with
        sessionVerificationTokenHash := none
        sessionVerificationTokenCreatedAt := none
        updatedAt })

def AccessOperation.script (toLowerCase : List Char → List Char) : AccessOperation → AccessScript
  | .updateAccessUser siteId userId input passwordHash ensuredAt updatedAt =>
      AccessList.updateAccessUser toLowerCase siteId userId input passwordHash ensuredAt updatedAt
  | .setAccessUserTotpRequired siteId userId required updatedAt =>
      AccessList.setAccessUserTotpRequired siteId userId required updatedAt
  | .resetAccessUserTwoFactor siteId userId updatedAt =>
      AccessList.resetAccessUserTwoFactor siteId userId updatedAt
  | .generateAccessUserApiToken siteId userId tokenHash createdAt updatedAt =>
      AccessList.generateAccessUserApiToken siteId userId tokenHash createdAt updatedAt
  | .revokeAccessUserApiToken siteId userId updatedAt =>
      AccessList.revokeAccessUserApiToken siteId userId updatedAt
  | .completeAccessTotpEnrollment userId encrypted enrolledAt updatedAt =>
      AccessList.completeAccessTotpEnrollment userId encrypted enrolledAt updatedAt
  | .updateAccessSettings siteId input ensuredAt updatedAt =>
      AccessList.updateAccessSettings siteId input ensuredAt updatedAt
  | .generateSessionVerificationToken siteId tokenHash ensuredAt createdAt =>
      AccessList.generateSessionVerificationToken siteId tokenHash ensuredAt createdAt
  | .revokeSessionVerificationToken siteId ensuredAt updatedAt =>
      AccessList.revokeSessionVerificationToken siteId ensuredAt updatedAt

end BurrowGate.AccessList
