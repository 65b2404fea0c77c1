import BurrowGate.Access.LoginFailures
import BurrowGate.Sso.BackchannelLogout

/-!
# Single sign-on: `completeAccessSsoLogin` and `completeAdminSsoLogin`

Both look the account up by the subject, then by the email address, and link or provision
one. Calls are suspended at every statement and interleave. A realm is what the two have of
their own; the administrators' realm has one configuration, which stands under one key.
`ssoIssuer`, `links` and `signIns` are not in the source: they record who linked an account
and which sign-ins succeeded.
-/

namespace BurrowGate.Sso

open Js
open Lib.Run

inductive AuthSource
  | password
  | sso
  deriving DecidableEq

structure SsoUser where
  id : Text
  username : Text
  enabled : Bool
  ssoSubject : Option Text
  authSource : AuthSource
  ssoIssuer : Option Text
  deriving DecidableEq

/-- The claims of a verified ID token. -/
structure VerifiedOidcIdentity where
  subject : Text
  email : Option Text
  emailVerified : Bool
  subject_ne : subject ≠ []

structure SsoSettings where
  enabled : Bool
  issuerUrl : Option Text
  clientId : Option Text
  hasClientSecret : Bool

/-- `subjectHash` is the beginning of the hex SHA-256 of a subject; `assigns` is whether a
sign-in also assigns the user to the site. -/
structure SsoRealm where
  toLowerCase : Text → Text
  subjectHash : Text → Text
  idPrefix : Text
  assigns : Bool

/-- Where a call is suspended. -/
inductive LoginStage
  | bySubject
  | byUsername (username : Text)
  | link (existing : SsoUser)
  /-- The password of the new account is being hashed. -/
  | provision (username : Text)
  | assign (user : SsoUser)

structure SsoLogin where
  siteId : Text
  issuer : Text
  identity : VerifiedOidcIdentity
  stage : LoginStage

/-- An account that was linked because of its name. -/
structure SsoLink where
  userId : Text
  username : Text
  issuer : Text
  identity : VerifiedOidcIdentity

structure SignIn where
  issuer : Text
  subject : Text
  userId : Text
  deriving DecidableEq

structure SsoState where
  settings : Text → SsoSettings
  users : List SsoUser
  memberships : List (Text × Text)
  logins : List SsoLogin
  links : List SsoLink
  signIns : List SignIn

inductive SsoAction
  | saveSettings (siteId : Text) (settings : SsoSettings)
  /-- The identity provider's token of a call is verified. -/
  | login (siteId : Text) (identity : VerifiedOidcIdentity)
  /-- The statement at which a call is suspended is executed. -/
  | advance (login : Nat)

/-- `normalizeAccessUsername` and `normalizeAdminUsername`; `none` is a throw. -/
def normalizeUsername (realm : SsoRealm) (email : Text) : Option Text :=
  match realm.toLowerCase (trim email) with
  | [] => none
  | c :: cs =>
      if 255 < utf16Length (c :: cs) then none
      else if Access.isUsernameStart c && cs.all Access.isUsernamePart then some (c :: cs)
      else none

/-- What `enabled` requires of the settings. -/
def SsoSettings.accepted (settings : SsoSettings) : Bool :=
  !settings.enabled ||
    (settings.issuerUrl.any (· ≠ []) && settings.clientId.any (· ≠ []) && settings.hasClientSecret)

/-- The issuer of a site whose single sign-on is configured. -/
def SsoSettings.issuer? (settings : SsoSettings) : Option Text :=
  if settings.enabled && settings.accepted then settings.issuerUrl else none

def userBySsoSubject (users : List SsoUser) (subject : Text) : Option SsoUser :=
  users.find? fun user => user.ssoSubject = some subject

def userByUsername (users : List SsoUser) (username : Text) : Option SsoUser :=
  users.find? fun user => user.username = username

/-- The row that an `UPDATE … WHERE id` writes. -/
def updateUser (users : List SsoUser) (user : SsoUser) : List SsoUser :=
  users.map fun row => if row.id = user.id then user else row

/-- `none` where the primary key or the name is taken. -/
def insertUser (users : List SsoUser) (user : SsoUser) : Option (List SsoUser) :=
  if users.any fun row => row.id = user.id || row.username = user.username then none
  else some (users ++ [user])

/-- `existing.sso_subject && existing.sso_subject !== identity.subject` -/
def linkedElsewhere (existing : SsoUser) (subject : Text) : Bool :=
  existing.ssoSubject.any fun linked => linked ≠ [] && linked ≠ subject

def linked (existing : SsoUser) (issuer : Text) (identity : VerifiedOidcIdentity) : SsoUser :=
  { existing with
    ssoSubject := some identity.subject
    authSource := .sso
    ssoIssuer := some issuer }

def provisioned (realm : SsoRealm) (username issuer : Text) (identity : VerifiedOidcIdentity) :
    SsoUser where
  id := realm.idPrefix ++ realm.subjectHash identity.subject
  username := username
  enabled := true
  ssoSubject := some identity.subject
  authSource := .sso
  ssoIssuer := some issuer

/-- The call goes on to a stage. -/
def SsoState.goOn (s : SsoState) (i : Nat) (l : SsoLogin) (stage : LoginStage) : SsoState :=
  { s with logins := s.logins.set i { l with stage } }

/-- The call throws. -/
def SsoState.throw (s : SsoState) (i : Nat) : SsoState := { s with logins := s.logins.eraseIdx i }

/-- After the lookup by subject. -/
def findByEmail (realm : SsoRealm) (s : SsoState) (i : Nat) (l : SsoLogin) : SsoState :=
  match l.identity.email with
  | none | some [] => s.throw i
  | some email =>
      match normalizeUsername realm email with
      | none => s.throw i
      | some username => s.goOn i l (.byUsername username)

def advanceLogin (realm : SsoRealm) (s : SsoState) (i : Nat) (l : SsoLogin) : SsoState :=
  match l.stage with
  | .bySubject =>
      match userBySsoSubject s.users l.identity.subject with
      | some user => s.goOn i l (.assign user)
      | none => findByEmail realm s i l
  | .byUsername username =>
      match userByUsername s.users username with
      | some existing =>
          if linkedElsewhere existing l.identity.subject then s.throw i
          else s.goOn i l (.link existing)
      | none => s.goOn i l (.provision username)
  | .link existing =>
      let user := linked existing l.issuer l.identity
      { s.goOn i l (.assign user) with
        users := updateUser s.users user
        links := s.links ++ [⟨existing.id, existing.username, l.issuer, l.identity⟩] }
  | .provision username =>
      let user := provisioned realm username l.issuer l.identity
      match insertUser s.users user with
      | none => s.throw i
      | some users => { s.goOn i l (.assign user) with users }
  | .assign user =>
      let memberships :=
        if realm.assigns && !s.memberships.contains (l.siteId, user.id) then
          s.memberships ++ [(l.siteId, user.id)]
        else s.memberships
      { s.throw i with
        memberships
        signIns :=
          if user.enabled then s.signIns ++ [⟨l.issuer, l.identity.subject, user.id⟩]
          else s.signIns }

def ssoStep (realm : SsoRealm) (s : SsoState) : SsoAction → Option SsoState
  | .saveSettings siteId settings =>
      if settings.accepted then
        some { s with settings := fun other => if other = siteId then settings else s.settings other }
      else none
  | .login siteId identity =>
      (s.settings siteId).issuer?.map fun issuer =>
        { s with logins := s.logins ++ [⟨siteId, issuer, identity, .bySubject⟩] }
  | .advance i => s.logins[i]?.map (advanceLogin realm s i)

/-- Any local accounts, and no call. -/
structure StartsSso (locals : List SsoUser) (s : SsoState) : Prop where
  users : s.users = locals
  ids : (locals.map (·.id)).Nodup
  unlinked : ∀ user ∈ locals, user.ssoSubject = none ∧ user.authSource = .password ∧
    user.ssoIssuer = none
  idle : s.logins = [] ∧ s.links = [] ∧ s.signIns = []

/-! ## The two laws -/

/-- An identity whose provider asserted the address that names the account, as verified. -/
def SsoLink.Asserted (realm : SsoRealm) (link : SsoLink) : Prop :=
  link.identity.emailVerified = true ∧
    (link.identity.email.bind (normalizeUsername realm)) = some link.username

structure SsoLaws (realm : SsoRealm) (locals : List SsoUser) (s : SsoState) : Prop where
  separate : ∀ r ∈ s.signIns, ∀ r' ∈ s.signIns, r.userId = r'.userId →
    r.issuer = r'.issuer ∧ r.subject = r'.subject
  verified : ∀ r ∈ s.signIns, ∀ user ∈ locals, r.userId = user.id →
    ∃ link ∈ s.links, link.userId = user.id ∧ link.username = user.username ∧
      link.issuer = r.issuer ∧ link.identity.subject = r.subject ∧ link.Asserted realm

/-- An account found by its subject was linked by the issuer of the call; an account is linked
only by a verified address, and while it is linked to nobody else. -/
def NamesOnePerson (s : SsoState) : SsoAction → Prop
  | .advance i =>
      s.logins[i]?.all fun l =>
        match l.stage with
        | .bySubject => (userBySsoSubject s.users l.identity.subject).all fun user =>
            user.ssoIssuer = some l.issuer
        | .link existing => l.identity.emailVerified && s.users.all fun row =>
            row.id ≠ existing.id || row.ssoSubject = none ||
              (row.ssoSubject = some l.identity.subject && row.ssoIssuer = some l.issuer)
        | _ => true
  | _ => True

instance (s : SsoState) : ∀ a, Decidable (NamesOnePerson s a)
  | .advance _ => inferInstanceAs (Decidable (_ = true))
  | .saveSettings .. | .login .. => isTrue trivial

end BurrowGate.Sso
