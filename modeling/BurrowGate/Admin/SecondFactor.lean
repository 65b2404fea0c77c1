import BurrowGate.Access.LoginFailures
import BurrowGate.Admin.AdminUsers

/-!
# `admin-auth-service.ts`: the password and the second factor of an administrator

`POST login` and `POST login/verify` as calls of one node, each from one `await` to the next;
a request body, a lookup or a verification comes with the step that it resumes. `checks` is the
record of the codes that were checked, the first one first; no step reads it.
-/

namespace BurrowGate.Admin.SecondFactor

open Js
open Lib
open Access (Key TrackerLimits LoginFailureTracker)

abbrev Token : Type := List Char

inductive PendingLoginMode
  | enroll
  | verify
  deriving DecidableEq

/-- Without the secret and the challenge of an enrolment. -/
structure PendingLogin where
  userId : List Char
  mode : PendingLoginMode
  expiresAt : Nat
  deriving DecidableEq

/-- The tracker's limits and `BG_ADMIN_PENDING_LOGIN_TTL_SECONDS`. -/
structure SignInConfig where
  limits : TrackerLimits
  pendingLoginTtlSeconds : Nat

/-- `PENDING_SWEEP_INTERVAL_MS` -/
def pendingSweepIntervalMs : Nat := 30000

/-- `LOGIN_WINDOW_MS` and `LOGIN_MAX_FAILURES`, as for access users. -/
def signInConfig (loginMaxFailureKeys pendingLoginTtlSeconds : Nat) : SignInConfig where
  limits := Access.loginLimits loginMaxFailureKeys
  pendingLoginTtlSeconds := pendingLoginTtlSeconds

/-- `normalizeRecoveryCode` -/
def normalizeRecoveryCode (value : List Char) : List Char :=
  (value.filter fun c => c.toNat < 128 && c.isAlphanum).map Char.toUpper

/-- A row of `admin_recovery_codes` with `used_at IS NULL`. -/
structure RecoveryCode where
  userId : List Char
  codeHash : List Char
  deriving DecidableEq

/-- What is not in the repository. `sha256Hex` is the digest of a recovery code. -/
structure SignInEnv where
  toLowerCase : List Char → List Char
  verify : List Char → List Char → Bool
  sha256Hex : List Char → List Char

/-! ## The calls -/

inductive LoginStage
  | lookup
  | verify (user : Option AdminUserRecord)
  | credentials (user : AdminUserRecord)
  | ended

/-- `POST login` behind the check of the counters; `cookieAllowed` is
`cookieCanBeIssuedForRequest`. -/
structure Login where
  keys : List Key
  password : List Char
  now : Nat
  cookieAllowed : Bool
  stage : LoginStage

/-- What is compared with the secret of the account. -/
inductive SecondFactorInput
  | recoveryCode (hash : List Char)
  | totp (code : List Char)

inductive VerifyStage
  | user
  | credentials (user : AdminUserRecord)
  /-- The counter has let the call in. -/
  | form (user : AdminUserRecord)
  | check (input : SecondFactorInput)
  /-- The check is done and the call has not gone on; with the recovery code it used up. -/
  | answered (valid : Bool) (code : Option RecoveryCode)
  /-- `createAdminSession` is awaited. -/
  | opening (code : Option RecoveryCode)
  | ended

/-- `POST login/verify` behind the lookup of its pending login. -/
structure Verification where
  token : Token
  userId : List Char
  stage : VerifyStage

structure AdminSession where
  token : Token
  userId : List Char
  code : Option RecoveryCode

/-- A code compared with the secret of an account. -/
structure Check where
  userId : List Char
  checkedAt : Nat
  accepted : Bool

/-- `issued` are the tokens of all pending logins begun so far. -/
structure SignIn where
  clock : Nat
  passwordFailures : LoginFailureTracker
  twoFactorFailures : LoginFailureTracker
  pendingLogins : OrderedMap Token PendingLogin
  lastPendingSweepAt : Nat
  issued : List Token
  recoveryCodes : List RecoveryCode
  logins : List Login
  verifications : List Verification
  sessions : List AdminSession
  checks : List Check

inductive LoginEvent
  | found (user : Option AdminUserRecord)
  | verified
  /-- The security keys are listed, and `randomToken` draws a new token. -/
  | listed (hasWebauthn : Bool) (token : Token)
  | thrown

inductive VerifyEvent
  | found (user : Option AdminUserRecord)
  | listed
  | submitted (recoveryCode code : List Char)
  /-- The code is checked; `accepted` is the verdict on a TOTP code. -/
  | checked (accepted : Bool)
  | resumed
  | inserted
  | thrown

inductive SignInAction
  | tick (ms : Nat)
  | login (ip username password : List Char) (cookieAllowed : Bool)
  | loginEvent (i : Nat) (e : LoginEvent)
  | verify (token : Token)
  | verifyEvent (i : Nat) (e : VerifyEvent)

/-! ## Pending logins -/

def sweepPendingLogins (s : SignIn) : SignIn :=
  if s.clock < s.lastPendingSweepAt + pendingSweepIntervalMs then s
  else
    { s with
      pendingLogins := s.pendingLogins.filter fun e => s.clock < e.2.expiresAt
      lastPendingSweepAt := s.clock }

def beginPendingLogin (cfg : SignInConfig) (s : SignIn) (mode : PendingLoginMode)
    (userId : List Char) (token : Token) : SignIn :=
  let s := sweepPendingLogins s
  { s with
    pendingLogins := s.pendingLogins.set token
      { userId, mode, expiresAt := s.clock + cfg.pendingLoginTtlSeconds * 1000 }
    issued := s.issued ++ [token] }

def resolvePendingLogin (s : SignIn) (token : Token) (mode : PendingLoginMode) :
    Option PendingLogin :=
  (s.pendingLogins.get? token).filter fun entry => s.clock < entry.expiresAt && entry.mode = mode

def consumePendingLogin (s : SignIn) (token : Token) : SignIn :=
  { s with pendingLogins := s.pendingLogins.erase token }

/-! ## The counter of a pending login -/

def pendingKey (token : Token) : Key := "pending:".toList ++ token

/-- `twoFactorAttemptRetryAfterSeconds` -/
def twoFactorStatus (cfg : SignInConfig) (s : SignIn) (token : Token) :
    Nat × LoginFailureTracker :=
  Access.status cfg.limits s.twoFactorFailures [pendingKey token] s.clock

def recordTwoFactorFailure (cfg : SignInConfig) (s : SignIn) (token : Token) : SignIn :=
  { s with
    twoFactorFailures := Access.record cfg.limits s.twoFactorFailures [pendingKey token] s.clock }

def clearTwoFactorFailures (s : SignIn) (token : Token) : SignIn :=
  { s with twoFactorFailures := Access.clear s.twoFactorFailures [pendingKey token] }

/-! ## `POST login` -/

def loginKeys (ip username : List Char) : List Key :=
  ["ip:".toList ++ ip, "user:".toList ++ username]

def beginLogin (env : SignInEnv) (cfg : SignInConfig) (s : SignIn)
    (ip usernameInput passwordInput : List Char) (cookieAllowed : Bool) : SignIn :=
  let username := env.toLowerCase (trim usernameInput)
  let password := if utf16Length passwordInput ≤ 1024 then passwordInput else []
  let keys := loginKeys ip username
  let (retryAfterSeconds, passwordFailures) :=
    Access.status cfg.limits s.passwordFailures keys s.clock
  if 0 < retryAfterSeconds then { s with passwordFailures }
  else
    { s with
      passwordFailures
      logins := s.logins ++
        [{ keys
           password
           now := s.clock
           cookieAllowed
           stage := if username.isEmpty then .verify none else .lookup }] }

/-- `valid && user && user.enabled === 1` -/
def passwordAccepted (env : SignInEnv) (password : List Char) (user : AdminUserRecord) : Bool :=
  env.verify password user.passwordHash && user.enabled = 1

def loginStep (env : SignInEnv) (cfg : SignInConfig) (s : SignIn) (l : Login) :
    LoginEvent → Option (SignIn × LoginStage)
  | .found user =>
      match l.stage with
      | .lookup => some (s, .verify user)
      | _ => none
  | .verified =>
      match l.stage with
      | .verify user =>
          match user.filter (passwordAccepted env l.password) with
          | none =>
              some ({ s with
                passwordFailures := Access.record cfg.limits s.passwordFailures l.keys l.now },
                .ended)
          | some user =>
              some ({ s with passwordFailures := Access.clear s.passwordFailures l.keys },
                if l.cookieAllowed then .credentials user else .ended)
      | _ => none
  | .listed hasWebauthn token =>
      match l.stage with
      | .credentials user =>
          if s.issued.contains token then none
          else
            let mode : PendingLoginMode :=
              if user.totpSecretEncrypted.isSome || hasWebauthn then .verify else .enroll
            some (beginPendingLogin cfg s mode user.id token, .ended)
      | _ => none
  | .thrown => some (s, .ended)

/-! ## `POST login/verify` -/

def beginVerification (s : SignIn) (token : Token) : SignIn :=
  match resolvePendingLogin s token .verify with
  | none => s
  | some entry =>
      { s with
        verifications := s.verifications ++ [{ token, userId := entry.userId, stage := .user }] }

/-- `consumeAdminRecoveryCodeByHash`: whether a row was there, and the rows that are left. -/
def consumeAdminRecoveryCode (code : RecoveryCode) (codes : List RecoveryCode) :
    Bool × List RecoveryCode :=
  (codes.contains code, codes.filter (· ≠ code))

/-- The check of a code. -/
def checkSecondFactor (s : SignIn) (userId : List Char) (accepted : Bool) :
    SecondFactorInput → SignIn × VerifyStage
  | .recoveryCode codeHash =>
      let code : RecoveryCode := { userId, codeHash }
      let (consumed, recoveryCodes) := consumeAdminRecoveryCode code s.recoveryCodes
      ({ s with recoveryCodes, checks := s.checks ++ [⟨userId, s.clock, consumed⟩] },
        .answered consumed (if consumed then some code else none))
  | .totp _ =>
      ({ s with checks := s.checks ++ [⟨userId, s.clock, accepted⟩] }, .answered accepted none)

def verifyStep (env : SignInEnv) (cfg : SignInConfig) (s : SignIn) (v : Verification) :
    VerifyEvent → Option (SignIn × VerifyStage)
  | .found user =>
      match v.stage with
      | .user =>
          match user.filter (·.id = v.userId) with
          | none => some (s, .ended)
          | some user => some (s, .credentials user)
      | _ => none
  | .listed =>
      match v.stage with
      | .credentials user =>
          let (retryAfterSeconds, twoFactorFailures) := twoFactorStatus cfg s v.token
          some ({ s with twoFactorFailures }, if 0 < retryAfterSeconds then .ended else .form user)
      | _ => none
  | .submitted recoveryCode code =>
      match v.stage with
      | .form user =>
          if !recoveryCode.isEmpty then
            some (s, .check (.recoveryCode (env.sha256Hex (normalizeRecoveryCode recoveryCode))))
          else if !(trim code).isEmpty && user.totpSecretEncrypted.isSome then
            some (s, .check (.totp (trim code)))
          else some (recordTwoFactorFailure cfg s v.token, .ended)
      | _ => none
  | .checked accepted =>
      match v.stage with
      | .check input => some (checkSecondFactor s v.userId accepted input)
      | _ => none
  | .resumed =>
      match v.stage with
      | .answered valid code =>
          if valid then
            some (consumePendingLogin (clearTwoFactorFailures s v.token) v.token, .opening code)
          else some (recordTwoFactorFailure cfg s v.token, .ended)
      | _ => none
  | .inserted =>
      match v.stage with
      | .opening code =>
          some ({ s with sessions := s.sessions ++ [⟨v.token, v.userId, code⟩] }, .ended)
      | _ => none
  | .thrown => some (s, .ended)

def signInStep (env : SignInEnv) (cfg : SignInConfig) (s : SignIn) : SignInAction → Option SignIn
  | .tick ms => some { s with clock := s.clock + ms }
  | .login ip username password cookieAllowed =>
      some (beginLogin env cfg s ip username password cookieAllowed)
  | .loginEvent i e =>
      s.logins[i]?.bind fun l =>
        (loginStep env cfg s l e).map fun r =>
          { r.1 with logins := s.logins.set i { l with stage := r.2 } }
  | .verify token => some (beginVerification s token)
  | .verifyEvent i e =>
      s.verifications[i]?.bind fun v =>
        (verifyStep env cfg s v e).map fun r =>
          { r.1 with verifications := s.verifications.set i { v with stage := r.2 } }

end BurrowGate.Admin.SecondFactor
