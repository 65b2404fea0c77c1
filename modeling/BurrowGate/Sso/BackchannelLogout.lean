import BurrowGate.Lib.Run
import Mathlib.Algebra.Order.Field.Rat
import Mathlib.Tactic.Linarith

/-!
# Back-channel logout

`verifyBackchannelLogoutToken` of `oidc-service.ts` and `handleAccessBackchannelLogout` of
`access-sso-service.ts`. The key set and the identity provider are parameters; times are in
milliseconds. A handling begins and ends within one step, which is how long the memory of
used identifiers is read and written without a suspension.
-/

namespace BurrowGate.Sso

open Lib.Run

abbrev Text : Type := List Char

def LOGOUT_TOKEN_FRESHNESS_MS : ℚ := 5 * 60000

/-- The claims read of a logout token; `iat` is in seconds. -/
structure LogoutClaims where
  hasNonce : Bool
  hasLogoutEvent : Bool
  sub : Option Text
  sid : Option Text
  jti : Option Text
  iat : Option ℚ

/-- `jwtVerify` with the keys, issuer and client of a site whose single sign-on is configured. -/
structure JwtVerifier where
  claims : Text → LogoutClaims
  accepts : Text → Text → ℚ → Bool

structure BackchannelLogoutIdentity where
  subject : Option Text
  sid : Option Text

abbrev UsedLogoutTokenIds : Type := List (Text × ℚ)

/-- A string that is neither missing nor empty. -/
def truthy (text : Option Text) : Bool := text.any (· ≠ [])

def sweepUsedLogoutTokenIds (used : UsedLogoutTokenIds) (now : ℚ) : UsedLogoutTokenIds :=
  used.filter fun entry => now < entry.2

/-- `iat` in milliseconds, 0 where the claim is no number. -/
def LogoutClaims.issuedAt (claims : LogoutClaims) : ℚ := claims.iat.getD 0 * 1000

def LogoutClaims.IsFresh (claims : LogoutClaims) (now : ℚ) : Prop :=
  claims.issuedAt ≠ 0 ∧ |now - claims.issuedAt| ≤ LOGOUT_TOKEN_FRESHNESS_MS

instance (claims : LogoutClaims) (now : ℚ) : Decidable (claims.IsFresh now) :=
  inferInstanceAs (Decidable (_ ∧ _))

def LogoutClaims.identity (claims : LogoutClaims) : BackchannelLogoutIdentity :=
  ⟨claims.sub, claims.sid⟩

/-- The checks that come before the memory of used identifiers. -/
def checkLogoutClaims (claims : LogoutClaims) (now : ℚ) : Except String Text :=
  if claims.hasNonce then .error "Logout token must not contain a nonce claim"
  else if !claims.hasLogoutEvent then
    .error "Logout token is missing the back-channel logout event claim"
  else if !truthy claims.sub && !truthy claims.sid then
    .error "Logout token must contain a subject or session identifier"
  else if !truthy claims.jti then .error "Logout token must contain a jti claim"
  else if ¬ claims.IsFresh now then .error "Logout token is expired or not yet valid"
  else .ok (claims.jti.getD [])

/-- `verifyBackchannelLogoutToken` once the signature is verified. -/
def verifyBackchannelLogoutToken (claims : LogoutClaims) (used : UsedLogoutTokenIds) (now : ℚ) :
    Except String BackchannelLogoutIdentity × UsedLogoutTokenIds :=
  match checkLogoutClaims claims now with
  | .error message => (.error message, used)
  | .ok jti =>
      let used := sweepUsedLogoutTokenIds used now
      if used.any (·.1 = jti) then (.error "Logout token has already been used", used)
      else (.ok claims.identity, used ++ [(jti, now + LOGOUT_TOKEN_FRESHNESS_MS)])

/-! ## Sessions -/

structure AccessSession where
  siteId : Text
  ssoSid : Option Text
  accessUserId : Option Text
  revokedAt : Option ℚ

structure AccessUser where
  id : Text
  ssoSubject : Option Text

def AccessSession.revoke (now : ℚ) (session : AccessSession) : AccessSession :=
  { session with revokedAt := session.revokedAt.or (some now) }

/-- `UPDATE access_sessions SET revoked_at=… WHERE … AND revoked_at IS NULL` -/
def revokeWhere (p : AccessSession → Bool) (now : ℚ) (sessions : List AccessSession) :
    List AccessSession :=
  sessions.map fun session => if p session then session.revoke now else session

def hasSid (siteId sid : Text) (session : AccessSession) : Bool :=
  session.siteId = siteId && session.ssoSid = some sid

def isOfUser (siteId userId : Text) (session : AccessSession) : Bool :=
  session.siteId = siteId && session.accessUserId = some userId

/-- The sessions after the call and how many it revoked. -/
def revokeAccessSessionsBySsoSid (siteId sid : Text) (now : ℚ) (sessions : List AccessSession) :
    List AccessSession × Nat :=
  (revokeWhere (hasSid siteId sid) now sessions,
    (sessions.filter fun session => hasSid siteId sid session && session.revokedAt.isNone).length)

def revokeSessionsForAccessUser (userId : Text) (now : ℚ) (siteId : Text)
    (sessions : List AccessSession) : List AccessSession :=
  revokeWhere (isOfUser siteId userId) now sessions

def accessUserBySsoSubject (users : List AccessUser) (subject : Text) : Option AccessUser :=
  users.find? fun user => user.ssoSubject = some subject

/-- Which of the database calls throw; a call that throws leaves the tables as they are. -/
structure DatabaseFailures where
  revokeBySid : Bool
  findUser : Bool
  revokeByUser : Bool

/-- The part of `handleAccessBackchannelLogout` after the verification; `none` is a throw. -/
def revokeNamed (users : List AccessUser) (siteId : Text) (identity : BackchannelLogoutIdentity)
    (now : ℚ) (failures : DatabaseFailures) (sessions : List AccessSession) :
    Option (List AccessSession) :=
  let bySid :=
    if truthy identity.sid then
      if failures.revokeBySid then none
      else some (revokeAccessSessionsBySsoSid siteId (identity.sid.getD []) now sessions)
    else some (sessions, 0)
  bySid.bind fun (sessions, revoked) =>
    if revoked = 0 && truthy identity.subject then
      if failures.findUser then none
      else
        match accessUserBySsoSubject users (identity.subject.getD []) with
        | none => some sessions
        | some user =>
            if failures.revokeByUser then none
            else some (revokeSessionsForAccessUser user.id now siteId sessions)
    else some sessions

/-! ## Deliveries -/

inductive LogoutOutcome
  | rejected
  /-- A database call threw after the verification. -/
  | failed
  | handled
  deriving DecidableEq

/-- `sessions` are those after the delivery. -/
structure Delivery where
  siteId : Text
  logoutToken : Text
  deliveredAt : ℚ
  failures : DatabaseFailures
  outcome : LogoutOutcome
  sessions : List AccessSession

structure LogoutState where
  used : UsedLogoutTokenIds
  sessions : List AccessSession
  now : ℚ
  deliveries : List Delivery

structure DeliverLogout where
  siteId : Text
  logoutToken : Text
  now : ℚ
  failures : DatabaseFailures

variable (jwt : JwtVerifier) (users : List AccessUser)

def LogoutState.record (s : LogoutState) (a : DeliverLogout) (used : UsedLogoutTokenIds)
    (sessions : List AccessSession) (outcome : LogoutOutcome) : LogoutState where
  used := used
  sessions := sessions
  now := a.now
  deliveries := s.deliveries ++
    [⟨a.siteId, a.logoutToken, a.now, a.failures, outcome, sessions⟩]

def handleAccessBackchannelLogout (s : LogoutState) (a : DeliverLogout) : LogoutState :=
  if jwt.accepts a.siteId a.logoutToken a.now then
    match verifyBackchannelLogoutToken (jwt.claims a.logoutToken) s.used a.now with
    | (.error _, used) => s.record a used s.sessions .rejected
    | (.ok identity, used) =>
        match revokeNamed users a.siteId identity a.now a.failures s.sessions with
        | none => s.record a used s.sessions .failed
        | some sessions => s.record a used sessions .handled
  else s.record a s.used s.sessions .rejected

/-- The times of the deliveries do not decrease. -/
def logoutStep (s : LogoutState) (a : DeliverLogout) : Option LogoutState :=
  if s.now ≤ a.now then some (handleAccessBackchannelLogout jwt users s a) else none

def StartsLogout (s : LogoutState) : Prop := s.used = [] ∧ s.deliveries = []

/-! ## The property -/

/-- The sessions a token names: those with its session identifier, or else its subject's. -/
def Names (siteId : Text) (identity : BackchannelLogoutIdentity) (session : AccessSession) : Prop :=
  if truthy identity.sid then hasSid siteId (identity.sid.getD []) session = true
  else ∃ user, accessUserBySsoSubject users (identity.subject.getD []) = some user ∧
    isOfUser siteId user.id session = true

/-- The delivery found no fault but the memory of used identifiers, and the database worked. -/
def Delivery.Deserves (d : Delivery) : Prop :=
  jwt.accepts d.siteId d.logoutToken d.deliveredAt = true ∧
    (∃ jti, checkLogoutClaims (jwt.claims d.logoutToken) d.deliveredAt = .ok jti) ∧
    d.failures.revokeBySid = false ∧ d.failures.findUser = false ∧ d.failures.revokeByUser = false

/-- No token is accepted twice, an accepted delivery that does not fail revokes what the token
names, and a token whose handling failed is handled when it comes again. -/
structure LogoutHonoured (s : LogoutState) : Prop where
  once : s.deliveries.Pairwise fun d d' =>
    d.logoutToken = d'.logoutToken → d.outcome ≠ .rejected → d'.outcome = .rejected
  revoked : ∀ d ∈ s.deliveries, d.outcome = .handled → ∀ session ∈ d.sessions,
    Names users d.siteId (jwt.claims d.logoutToken).identity session → session.revokedAt.isSome
  retried : s.deliveries.Pairwise fun d d' => d.logoutToken = d'.logoutToken →
    d.siteId = d'.siteId → d.outcome = .failed → d'.Deserves jwt → d'.outcome = .handled

/-- A fresh token was issued before it is delivered, and no database call fails. -/
def IssuedBeforeDelivery (_ : LogoutState) (a : DeliverLogout) : Prop :=
  ((jwt.claims a.logoutToken).IsFresh a.now → (jwt.claims a.logoutToken).issuedAt < a.now) ∧
    a.failures.revokeBySid = false ∧ a.failures.findUser = false ∧ a.failures.revokeByUser = false

instance (s : LogoutState) (a : DeliverLogout) : Decidable (IssuedBeforeDelivery jwt s a) :=
  inferInstanceAs (Decidable (_ ∧ _))

end BurrowGate.Sso
