import BurrowGate.AccessList.Records

/-!
# `admin-user-service.ts`: the operations on administrator accounts

Every operation reads the account, awaits further queries or a hash, and writes the whole row
built from what it read. What a call draws on the way (a fresh id, clock values, hashes,
ciphertexts, the verdict on a verification code) comes with the call. After the write no call
touches the accounts again.
-/

namespace BurrowGate.Admin

open Js
open AccessList (AuthSource)

inductive AdminRole
  | administrator
  | member
  deriving DecidableEq

structure AdminUserRecord where
  id : List Char
  username : List Char
  passwordHash : List Char
  role : AdminRole
  totpSecretEncrypted : Option (List Char)
  totpEnrolledAt : Option Nat
  mustEnrollTotp : Nat
  enabled : Nat
  createdAt : Nat
  updatedAt : Nat
  createdByUserId : Option (List Char)
  ssoSubject : Option (List Char)
  authSource : AuthSource
  deriving DecidableEq

/-- `role='administrator' AND enabled=1` -/
def AdminUserRecord.isEnabledAdministrator (user : AdminUserRecord) : Bool :=
  user.role = .administrator && user.enabled = 1

/-! ## The repository -/

def adminUserById (id : List Char) (users : List AdminUserRecord) : Option AdminUserRecord :=
  users.find? (·.id = id)

def adminUserByUsername (username : List Char) (users : List AdminUserRecord) :
    Option AdminUserRecord :=
  users.find? (·.username = username)

def countEnabledAdministrators (excludedUserId : List Char) (users : List AdminUserRecord) : Nat :=
  ((users.filter (·.isEnabledAdministrator)).filter (·.id ≠ excludedUserId)).length

/-- The `UPDATE` leaves `id`, `created_at` and `created_by_user_id`. -/
def AdminUserRecord.onto (user row : AdminUserRecord) : AdminUserRecord :=
  { user with id := row.id, createdAt := row.createdAt, createdByUserId := row.createdByUserId }

/-- `insertAdminUser`, `updateAdminUser` and `deleteAdminUserCascade` -/
inductive Statement
  | insert (user : AdminUserRecord)
  | update (user : AdminUserRecord)
  | delete (userId : List Char)

/-- None where the primary key or the unique username refuses the statement. -/
def Statement.apply (users : List AdminUserRecord) : Statement → Option (List AdminUserRecord)
  | .insert user =>
      if users.any fun row => row.id = user.id || row.username = user.username then none
      else some (users ++ [user])
  | .update user =>
      if (users.any fun row => row.id = user.id) &&
          users.any fun row => row.id ≠ user.id && row.username = user.username then none
      else some (users.map fun row => if row.id = user.id then user.onto row else row)
  | .delete userId => some (users.filter (·.id ≠ userId))

/-! ## Checks of the input -/

def normalizeAdminUsername (toLowerCase : List Char → List Char) (value : JsValue) :
    Except String (List Char) :=
  AccessList.normalizeAccessUsername toLowerCase value

def passwordValue (value : JsValue) (required : Bool) : Except String (Option (List Char)) :=
  AccessList.passwordValue value required

def roleValue (value : JsValue) (fallback : AdminRole) : Except String AdminRole :=
  match value with
  | .undefined => .ok fallback
  | .string text =>
      if text = "administrator".toList then .ok .administrator
      else if text = "member".toList then .ok .member
      else .error "Role must be 'administrator' or 'member'"
  | _ => .error "Role must be 'administrator' or 'member'"

def booleanValue (value : JsValue) (fallback : Bool) : Except String Bool :=
  AccessList.booleanValue value fallback

structure AdminUserInput where
  username : JsValue
  password : JsValue
  role : JsValue
  enabled : JsValue

/-! ## The operations -/

/-- `toLowerCase` is `String.prototype.toLowerCase`, `verify` is `Bun.password.verify`. -/
structure AdminEnv where
  toLowerCase : List Char → List Char
  verify : List Char → List Char → Bool

/-- A call's work; every node but `throw` and `ended` is an awaited step. -/
inductive Work
  | throw (message : String)
  | adminUserById (id : List Char) (next : Option AdminUserRecord → Work)
  | adminUserByUsername (username : List Char) (next : Option AdminUserRecord → Work)
  | countEnabledAdministrators (excludedUserId : List Char) (next : Nat → Work)
  /-- A request body, a hash, a verification or a row of another table. -/
  | await (next : Work)
  | write (statement : Statement)
  | ended

def attempt {β : Type} (result : Except String β) (next : β → Work) : Work :=
  match result with
  | .error message => .throw message
  | .ok value => next value

/-- The read that opens an operation and the check that follows it. -/
def withAdminUser (userId : List Char) (next : AdminUserRecord → Work) : Work :=
  .adminUserById userId fun existing =>
    match existing with
    | none => .throw "Admin user not found"
    | some existing => next existing

def lastAdministrator : String := "At least one enabled Administrator account must remain"

/-- A check that another enabled administrator is left. -/
def withOther (userId : List Char) (needed : Bool) (next : Work) : Work :=
  if needed then
    .countEnabledAdministrators userId fun count =>
      if count = 0 then .throw lastAdministrator else next
  else next

/-- `id` is the drawn `randomId("admin")`. -/
def createAdminUser (env : AdminEnv) (input : AdminUserInput)
    (createdByUserId id passwordHash : List Char) (now : Nat) : Work :=
  attempt (normalizeAdminUsername env.toLowerCase input.username) fun username =>
  .adminUserByUsername username fun taken =>
    if taken.isSome then .throw "This username already exists"
    else
      attempt (passwordValue input.password true) fun _ =>
      .await <|
      attempt (roleValue input.role .member) fun role =>
      attempt (booleanValue input.enabled true) fun enabled =>
      .write (.insert
        { id
          username
          passwordHash
          role
          totpSecretEncrypted := none
          totpEnrolledAt := none
          mustEnrollTotp := 1
          enabled := if enabled then 1 else 0
          createdAt := now
          updatedAt := now
          createdByUserId := some createdByUserId
          ssoSubject := none
          authSource := .password })

/-- The row of `updateAdminUser`. -/
def updatedUser (existing : AdminUserRecord) (username : List Char)
    (password : Option (List Char)) (passwordHash : List Char) (role : AdminRole) (enabled : Bool)
    (updatedAt : Nat) : AdminUserRecord :=
  { existing with
    username
    passwordHash := if password.isSome then passwordHash else existing.passwordHash
    role
    enabled := if enabled then 1 else 0
    updatedAt }

def updateAdminUser (env : AdminEnv) (userId : List Char) (input : AdminUserInput)
    (passwordHash : List Char) (updatedAt : Nat) : Work :=
  withAdminUser userId fun existing =>
    attempt (match input.username with
      | .undefined => .ok existing.username
      | value => normalizeAdminUsername env.toLowerCase value) fun username =>
    .adminUserByUsername username fun conflict =>
      if conflict.any fun other => other.id ≠ userId then .throw "This username already exists"
      else
        attempt (roleValue input.role existing.role) fun role =>
        attempt (booleanValue input.enabled (existing.enabled = 1)) fun enabled =>
        let losesAdministratorStatus :=
          existing.isEnabledAdministrator && (role ≠ .administrator || !enabled)
        withOther userId losesAdministratorStatus <|
        attempt (passwordValue input.password false) fun password =>
        let write : Work :=
          .write (.update
            (updatedUser existing username password passwordHash role enabled updatedAt))
        if password.isSome then .await write else write

def deleteAdminUser (userId : List Char) : Work :=
  withAdminUser userId fun existing =>
    withOther userId existing.isEnabledAdministrator (.write (.delete userId))

def resetAdminUserPassword (userId : List Char) (password : JsValue) (passwordHash : List Char)
    (updatedAt : Nat) : Work :=
  withAdminUser userId fun existing =>
    attempt (passwordValue password true) fun _ =>
    .await (.write (.update { existing with passwordHash, updatedAt }))

def resetAdminUserTwoFactor (userId : List Char) (updatedAt : Nat) : Work :=
  withAdminUser userId fun existing =>
    .write (.update
      { existing with
        totpSecretEncrypted := none
        totpEnrolledAt := none
        mustEnrollTotp := 1
        updatedAt })

def changeOwnPassword (env : AdminEnv) (userId : List Char) (currentPassword newPassword : JsValue)
    (passwordHash : List Char) (updatedAt : Nat) : Work :=
  withAdminUser userId fun existing =>
    .await <|
    if env.verify (currentPassword.orElse (.string [])).toText existing.passwordHash then
      attempt (passwordValue newPassword true) fun _ =>
      .await (.write (.update { existing with passwordHash, updatedAt }))
    else .throw "Current password is incorrect"

/-- `POST login/enroll` of a pending login: the form, the code, the ciphertext, the write. -/
def enrollTotp (userId : List Char) (codeAccepted : Bool) (encrypted : List Char) (now : Nat) :
    Work :=
  .adminUserById userId fun user =>
    match user with
    | none => .ended
    | some user =>
        .await <| .await <|
        if codeAccepted then
          .await (.write (.update
            { user with
              totpSecretEncrypted := some encrypted
              totpEnrolledAt := some now
              mustEnrollTotp := 0
              updatedAt := now }))
        else .ended

/-- `POST login/webauthn/register/verify` of a pending login: the body, the verification, the row
of the security key, the write. -/
def enrollWebauthn (userId : List Char) (verified : Bool) (now : Nat) : Work :=
  .adminUserById userId fun user =>
    match user with
    | none => .throw "No pending enrollment"
    | some user =>
        .await <| .await <|
        if verified then
          .await (.write (.update { user with mustEnrollTotp := 0, updatedAt := now }))
        else .ended

/-- A call with the values it draws. -/
inductive AdminCall
  | createAdminUser (input : AdminUserInput) (createdByUserId id passwordHash : List Char)
      (now : Nat)
  | updateAdminUser (userId : List Char) (input : AdminUserInput) (passwordHash : List Char)
      (updatedAt : Nat)
  | deleteAdminUser (userId : List Char)
  | resetAdminUserPassword (userId : List Char) (password : JsValue) (passwordHash : List Char)
      (updatedAt : Nat)
  | resetAdminUserTwoFactor (userId : List Char) (updatedAt : Nat)
  | changeOwnPassword (userId : List Char) (currentPassword newPassword : JsValue)
      (passwordHash : List Char) (updatedAt : Nat)
  | enrollTotp (userId : List Char) (codeAccepted : Bool) (encrypted : List Char) (now : Nat)
  | enrollWebauthn (userId : List Char) (verified : Bool) (now : Nat)

def AdminCall.work (env : AdminEnv) : AdminCall → Work
  | .createAdminUser input createdByUserId id passwordHash now =>
      Admin.createAdminUser env input createdByUserId id passwordHash now
  | .updateAdminUser userId input passwordHash updatedAt =>
      Admin.updateAdminUser env userId input passwordHash updatedAt
  | .deleteAdminUser userId => Admin.deleteAdminUser userId
  | .resetAdminUserPassword userId password passwordHash updatedAt =>
      Admin.resetAdminUserPassword userId password passwordHash updatedAt
  | .resetAdminUserTwoFactor userId updatedAt => Admin.resetAdminUserTwoFactor userId updatedAt
  | .changeOwnPassword userId currentPassword newPassword passwordHash updatedAt =>
      Admin.changeOwnPassword env userId currentPassword newPassword passwordHash updatedAt
  | .enrollTotp userId codeAccepted encrypted now =>
      Admin.enrollTotp userId codeAccepted encrypted now
  | .enrollWebauthn userId verified now => Admin.enrollWebauthn userId verified now

/-! ## The calls of one node -/

/-- A call under way, with the account and the number of other administrators that it read. -/
structure Flight where
  call : AdminCall
  work : Work
  existing : Option AdminUserRecord
  others : Option Nat

/-- The accounts, the calls and the calls whose write is done, in the order of the writes. -/
structure AdminNode where
  users : List AdminUserRecord
  flights : List Flight
  log : List AdminCall

inductive AdminAction
  | start (call : AdminCall)
  /-- What a call awaits is there, and it runs to the next `await`. -/
  | resume (i : Nat)
  /-- What a call awaits throws. -/
  | throws (i : Nat)

def Flight.end (f : Flight) : Flight := { f with work := .ended }

/-- The accounts, the write that was done and the call after what the call awaits. -/
def Flight.resume (users : List AdminUserRecord) (f : Flight) :
    Option (List AdminUserRecord × List AdminCall × Flight) :=
  match f.work with
  | .adminUserById id next =>
      let existing := Admin.adminUserById id users
      some (users, [], { f with existing, work := next existing })
  | .adminUserByUsername username next =>
      some (users, [], { f with work := next (Admin.adminUserByUsername username users) })
  | .countEnabledAdministrators excludedUserId next =>
      let count := Admin.countEnabledAdministrators excludedUserId users
      some (users, [], { f with others := some count, work := next count })
  | .await next => some (users, [], { f with work := next })
  | .write statement =>
      match statement.apply users with
      | none => some (users, [], f.end)
      | some written => some (written, [f.call], f.end)
  | .throw _ | .ended => none

def step (env : AdminEnv) (s : AdminNode) : AdminAction → Option AdminNode
  | .start call => some { s with flights := s.flights ++ [⟨call, call.work env, none, none⟩] }
  | .resume i =>
      s.flights[i]?.bind fun f =>
        (f.resume s.users).map fun r => ⟨r.1, s.flights.set i r.2.2, s.log ++ r.2.1⟩
  | .throws i => s.flights[i]?.map fun f => { s with flights := s.flights.set i f.end }

end BurrowGate.Admin
