import BurrowGate.Js.Base64
import BurrowGate.Lib.Async
import BurrowGate.Net.Ip

/-!
# `acme-service.ts`

What the service waits for is a `Call`, and any call may fail. The ACME client calls the two
functions that it is given whenever it likes, so that these are programs of their own. The values
of `randomId` and of the clock are left out.
-/

namespace BurrowGate.Acme

open Js Lib.Async

abbrev Text : Type := List Char

/-- The columns that the service reads. -/
structure SiteRecord where
  id : Text
  publicHost : Text
  deriving DecidableEq

inductive AcmeChallengeType
  | http01
  | dns01
  deriving DecidableEq

def AcmeChallengeType.text : AcmeChallengeType → Text
  | .http01 => "http-01".toList
  | .dns01 => "dns-01".toList

structure SiteTlsSettingsRecord where
  forceHttps : Nat
  acmeEmail : Option Text
  acmeDirectoryUrl : Option Text
  acmeChallengeType : Option AcmeChallengeType
  acmeDnsProviderId : Option Text
  deriving DecidableEq

structure CertificateRecord where
  id : Text
  siteId : Text
  expiresAt : Nat
  issuer : Text
  deriving DecidableEq

structure AcmeAccountRecord where
  directoryUrl : Text
  email : Option Text
  accountUrl : Option Text
  encryptedAccountKey : Text
  deriving DecidableEq

structure DnsProviderRecord where
  configJson : Text
  deriving DecidableEq

/-- A field of the type `string` in a body that nobody has checked. -/
inductive TextField
  | text (value : Text)
  | other
  deriving DecidableEq

structure IssueInput where
  email : Option TextField
  directoryUrl : Option TextField
  forceHttps : Option Bool
  termsAccepted : Bool
  renewal : Bool
  challengeType : Option AcmeChallengeType
  dnsProviderId : Option TextField
  deriving DecidableEq

structure Config where
  replica : Bool
  httpEnabled : Bool
  httpPublicPort : Nat
  acmeEmail : Option Text
  acmeDirectoryUrl : Text
  skipInternalChallengeVerification : Bool

structure Url where
  protocol : Text
  hostname : Text
  port : Text
  deriving DecidableEq

/-- `parseUrl` is `new URL`, which throws where it has nothing. -/
structure Env where
  config : Config
  parseUrl : Text → Option Url
  toLowerCase : Text → Text

/-- `new acme.Client` -/
structure Client where
  directoryUrl : Text
  accountKey : Text
  accountUrl : Option Text
  deriving DecidableEq

inductive EventLevel
  | info
  | error
  deriving DecidableEq

structure CertificateEvent where
  siteId : Text
  certificateId : Option Text
  level : EventLevel
  message : Text
  details : List (Text × Text)
  deriving DecidableEq

structure AcmeHttpChallengeRecord where
  token : Text
  siteId : Text
  hostname : Text
  keyAuthorization : Text
  deriving DecidableEq

/-- What the functions for the challenges read of the call that made them. -/
structure ChallengeContext where
  siteId : Text
  hostname : Text
  dnsProvider : Option DnsProviderRecord
  existingCertificateId : Option Text
  deriving DecidableEq

inductive Call
  | certificateBySite (siteId : Text)
  | ensureTlsSettings (siteId : Text)
  | siteById (siteId : Text)
  | dueAcmeCertificates
  | dnsProviderById (id : TextField)
  | assertSecretEncryptionConfigured
  | recordCertificateEvent (event : CertificateEvent)
  | importAcmeClient
  | acmeAccount (directoryUrl : Text)
  | decryptSecret (value : Text)
  | encryptSecret (value : Text)
  | updateAccount (client : Client) (contact : Text)
  | createAccount (client : Client) (contact : Text)
  | getAccountUrl (client : Client)
  | saveAcmeAccount (account : AcmeAccountRecord)
  | createPrivateEcdsaKey
  | createCsr (hostname : Text)
  | auto (client : Client) (csr email : Text) (challengeType : AcmeChallengeType)
      (skipChallengeVerification : Bool) (challenges : ChallengeContext)
  | saveCertificate (siteId certificatePem privateKeyPem : Text)
  | updateTlsSettings (siteId : Text) (forceHttps : Bool) (email directoryUrl : Text)
      (challengeType : AcmeChallengeType) (dnsProviderId : Option TextField)
  | deleteAcmeChallengesForSite (siteId : Text)
  | requestTlsReload
  | updateCertificateAttempt (siteId message : Text)
  | saveAcmeChallenge (challenge : AcmeHttpChallengeRecord)
  | deleteAcmeChallenge (token : Text)
  | sha256Bytes (value : Text)
  | createTxtRecord (configJson recordName value : Text)
  | deleteTxtRecord (configJson recordName value : Text)
  /-- `issueLetsEncryptCertificate`, as the renewal calls it: with `renewalInput` of the settings. -/
  | issue (site : SiteRecord) (settings : SiteTlsSettingsRecord)
  deriving DecidableEq

abbrev Result : Call → Type
  | .certificateBySite _ => Option CertificateRecord
  | .ensureTlsSettings _ => SiteTlsSettingsRecord
  | .siteById _ => Option SiteRecord
  | .dueAcmeCertificates => List CertificateRecord
  | .dnsProviderById _ => Option DnsProviderRecord
  | .acmeAccount _ => Option AcmeAccountRecord
  | .decryptSecret _ | .encryptSecret _ | .createPrivateEcdsaKey | .getAccountUrl _ => Text
  | .createCsr _ => Text × Text
  | .auto _ _ _ _ _ _ => Text
  | .saveCertificate _ _ _ => CertificateRecord
  | .sha256Bytes _ => List UInt8
  | _ => Unit

/-- The locks are `issuanceLocks`. -/
abbrev Program (α : Type) : Type := Process Text Text Call Result α

def await (c : Call) : Program (Result c) := .await c

def fail {α : Type} (message : String) : Program α := .throw message.toList

variable (env : Env)

/-! ## Checks that wait for nothing -/

/-- `value?.trim()` -/
def trimField : Option TextField → Except Text (Option Text)
  | none => .ok none
  | some (.text value) => .ok (some (trim value))
  | some .other => .error "trim is not a function".toList

/-- `/^\S+@\S+\.\S+$/u` -/
def isEmail (value : Text) : Bool :=
  value.all (fun c => !isWhiteSpace c) &&
    (value.drop 1).tails.any fun
      | '@' :: domain => (domain.drop 1).tails.any fun
          | '.' :: _ :: _ => true
          | _ => false
      | _ => false

def endsWith (value : Text) (ending : String) : Bool := ending.toList.isSuffixOf value

def validateAcmeHostname (site : SiteRecord) : Except Text Text :=
  match env.parseUrl ("http://".toList ++ site.publicHost) with
  | none => .error "Invalid URL".toList
  | some parsed =>
      let hostname := env.toLowerCase parsed.hostname
      if parsed.port ≠ [] then
        .error
          "Let's Encrypt HTTP-01 requires a public hostname without a custom port".toList
      else if hostname = "localhost".toList || endsWith hostname ".local" ||
          endsWith hostname ".localhost" || (Net.isIP hostname).isSome then
        .error ("Let's Encrypt requires a publicly reachable DNS hostname; use an uploaded " ++
          "development certificate for local addresses").toList
      else .ok hostname

/-- The checks at the start of the protected part, up to the DNS provider. -/
def validateIssuance (site : SiteRecord) (email directoryUrl : Option Text)
    (challengeType : AcmeChallengeType) : Except Text (Text × Text × Text) := do
  if challengeType = .http01 then
    if !env.config.httpEnabled then
      throw "HTTP-01 issuance requires BurrowGate's HTTP listener to be enabled".toList
    if env.config.httpPublicPort ≠ 80 then
      throw ("HTTP-01 issuance requires BG_HTTP_PUBLIC_PORT=80 so the hostname is reachable from " ++
        "the internet on port 80").toList
  let email := email.getD []
  if !isEmail email then throw "A valid ACME contact email is required".toList
  let directoryUrl := directoryUrl.getD []
  if directoryUrl = [] then throw "An ACME directory URL is required".toList
  match env.parseUrl directoryUrl with
  | none => throw "ACME directory URL is invalid".toList
  | some parsedDirectory =>
      if parsedDirectory.protocol ≠ "https:".toList then
        throw "ACME directory URL must use HTTPS".toList
      let hostname ← validateAcmeHostname env site
      return (email, directoryUrl, hostname)

/-! ## The account -/

def clientFor (directoryUrl email : Text) : Program Client := do
  await .importAcmeClient
  let contact := "mailto:".toList ++ email
  match ← await (.acmeAccount directoryUrl) with
  | some existing =>
      let accountKey ← await (.decryptSecret existing.encryptedAccountKey)
      let client : Client := ⟨directoryUrl, accountKey, existing.accountUrl.filter (· ≠ [])⟩
      if existing.email ≠ some email then
        await (.updateAccount client contact)
        await (.saveAcmeAccount { existing with email := some email })
        return client
      else return client
  | none =>
      let keyPem ← await .createPrivateEcdsaKey
      let client : Client := ⟨directoryUrl, keyPem, none⟩
      await (.createAccount client contact)
      let accountUrl ← await (.getAccountUrl client)
      let encryptedAccountKey ← await (.encryptSecret keyPem)
      await (.saveAcmeAccount ⟨directoryUrl, some email, some accountUrl, encryptedAccountKey⟩)
      return client

/-! ## The challenges -/

/-- What the client passes on: the name of the authorization, and the challenge. -/
structure Challenge where
  identifier : Option Text
  type : Text
  token : Text
  deriving DecidableEq

def normalizeDnsName (value : Text) : Text :=
  let trimmed := env.toLowerCase (trim value)
  if trimmed = [] then [] else if endsWith trimmed "." then trimmed else trimmed ++ ['.']

def challengeRecordName (hostname : Text) : Text :=
  "_acme-challenge.".toList ++ normalizeDnsName env hostname

def challengeCreateFn (context : ChallengeContext) (challenge : Challenge)
    (keyAuthorization : Text) : Program Unit := do
  let challengeHostname := env.toLowerCase (challenge.identifier.getD [])
  if challengeHostname ≠ context.hostname then
    fail "ACME authorization hostname does not match the site hostname"
  else if challenge.type = "http-01".toList then
    await (.saveAcmeChallenge
      ⟨challenge.token, context.siteId, context.hostname, keyAuthorization⟩)
    await (.recordCertificateEvent
      { siteId := context.siteId
        certificateId := context.existingCertificateId
        level := .info
        message := "Published HTTP-01 challenge".toList
        details :=
          [("hostname".toList, context.hostname), ("token".toList, challenge.token)] })
  else if challenge.type = "dns-01".toList then
    match context.dnsProvider with
    | none => fail "A DNS provider is required for DNS-01 issuance"
    | some dnsProvider =>
        let recordName := challengeRecordName env context.hostname
        let digest ← await (.sha256Bytes keyAuthorization)
        await (.createTxtRecord dnsProvider.configJson recordName (toBase64Url digest))
        await (.recordCertificateEvent
          { siteId := context.siteId
            certificateId := context.existingCertificateId
            level := .info
            message := "Published DNS-01 TXT record".toList
            details := [("hostname".toList, context.hostname), ("recordName".toList, recordName)] })
  else .throw ("Unsupported ACME challenge type: ".toList ++ challenge.type)

def challengeRemoveFn (context : ChallengeContext) (challenge : Challenge)
    (keyAuthorization : Text) : Program Unit := do
  if challenge.type = "http-01".toList then await (.deleteAcmeChallenge challenge.token)
  else if challenge.type = "dns-01".toList then
    match context.dnsProvider with
    | none => return ()
    | some dnsProvider =>
        let challengeHostname := env.toLowerCase (challenge.identifier.getD [])
        let digest ← await (.sha256Bytes keyAuthorization)
        await (.deleteTxtRecord dnsProvider.configJson
          (challengeRecordName env challengeHostname) (toBase64Url digest))
  else return ()

/-! ## The issuance -/

def renewalOr (input : IssueInput) (renewal issuance : String) : Text :=
  (if input.renewal then renewal else issuance).toList

/-- Behind the certificate: a reload that fails is noted, and the error goes on. -/
def activateCertificate (site : SiteRecord) (certificate : CertificateRecord) : Program Unit :=
  (await .requestTlsReload : Program Unit).tryCatch fun error => do
    let message := "Certificate was stored, but TLS listener activation failed: ".toList ++ error
    await (.updateCertificateAttempt site.id message)
    await (.recordCertificateEvent
      { siteId := site.id
        certificateId := some certificate.id
        level := .error
        message := "TLS listener activation failed".toList
        details := [("error".toList, message)] })
    .throw message

/-- The rest of the protected part, from the certificate on. -/
def storeCertificate (site : SiteRecord) (input : IssueInput) (settings : SiteTlsSettingsRecord)
    (email directoryUrl : Text) (challengeType : AcmeChallengeType)
    (certificate : CertificateRecord) : Program Unit := do
  await (.updateTlsSettings site.id (input.forceHttps.getD (settings.forceHttps = 1)) email
    directoryUrl challengeType
    (input.dnsProviderId <|> settings.acmeDnsProviderId.map TextField.text))
  await (.deleteAcmeChallengesForSite site.id)
  await (.recordCertificateEvent
    { siteId := site.id
      certificateId := some certificate.id
      level := .info
      message :=
        renewalOr input "Certificate renewed successfully" "Certificate issued successfully"
      details :=
        [("expiresAt".toList, (toString certificate.expiresAt).toList),
          ("issuer".toList, certificate.issuer)] })
  activateCertificate site certificate

def selectDnsProvider (challengeType : AcmeChallengeType) (dnsProviderId : Option TextField) :
    Program (Option DnsProviderRecord) :=
  if challengeType = .dns01 then
    match dnsProviderId with
    | none | some (.text []) => fail "A DNS provider is required for DNS-01 issuance"
    | some dnsProviderId => do
        match ← await (.dnsProviderById dnsProviderId) with
        | none => fail "The selected DNS provider was not found"
        | some dnsProvider => return some dnsProvider
  else pure none

/-- The protected part up to `saveCertificate`. -/
def obtainCertificate (site : SiteRecord) (existingCertificate : Option CertificateRecord)
    (input : IssueInput) (settings : SiteTlsSettingsRecord) (email directoryUrl : Option Text)
    (challengeType : AcmeChallengeType) : Program (Text × Text × CertificateRecord) := do
  let (email, directoryUrl, hostname) ←
    Process.done (validateIssuance env site email directoryUrl challengeType)
  let dnsProvider ← selectDnsProvider challengeType
    (input.dnsProviderId <|> settings.acmeDnsProviderId.map TextField.text)
  await .assertSecretEncryptionConfigured
  await (.recordCertificateEvent
    { siteId := site.id
      certificateId := existingCertificate.map (·.id)
      level := .info
      message := renewalOr input "Starting certificate renewal" "Starting certificate issuance"
      details :=
        [("hostname".toList, hostname), ("directoryUrl".toList, directoryUrl),
          ("challengeType".toList, challengeType.text)] })
  await .importAcmeClient
  let client ← clientFor directoryUrl email
  let (certificateKey, certificateCsr) ← await (.createCsr hostname)
  let certificatePem ← await (.auto client certificateCsr email challengeType
    env.config.skipInternalChallengeVerification
    ⟨site.id, hostname, dnsProvider, existingCertificate.map (·.id)⟩)
  let certificate ← await (.saveCertificate site.id certificatePem certificateKey)
  return (email, directoryUrl, certificate)

/-- The error of an issuance without a certificate is noted. -/
def noteFailure (site : SiteRecord) (existingCertificate : Option CertificateRecord)
    (input : IssueInput) (error : Text) : Program Unit := do
  await (.updateCertificateAttempt site.id error)
  await (.recordCertificateEvent
    { siteId := site.id
      certificateId := existingCertificate.map (·.id)
      level := .error
      message := renewalOr input "Certificate renewal failed" "Certificate issuance failed"
      details := [("error".toList, error)] })
  .throw error

/-- The `finally` of the protected part. -/
def endIssuance (site : SiteRecord) : Program Unit :=
  .call (.deleteAcmeChallengesForSite site.id) fun _ => .delete site.id (pure ())

/-- Behind the lock. Once a certificate is stored, an error is thrown on without a note. -/
def runIssuance (site : SiteRecord) (input : IssueInput) : Program Unit := do
  let existingCertificate ← await (.certificateBySite site.id)
  let settings ← await (.ensureTlsSettings site.id)
  let email ← Process.done (trimField (input.email <|> settings.acmeEmail.map .text <|>
    env.config.acmeEmail.map .text))
  let directoryUrl ← Process.done (trimField (input.directoryUrl <|>
    settings.acmeDirectoryUrl.map .text <|> some (.text env.config.acmeDirectoryUrl)))
  let challengeType := (input.challengeType <|> settings.acmeChallengeType).getD .http01
  let issue : Program Unit :=
    (obtainCertificate env site existingCertificate input settings email directoryUrl
      challengeType).andThen fun
      | .ok (email, directoryUrl, certificate) =>
          storeCertificate site input settings email directoryUrl challengeType certificate
      | .error error => noteFailure site existingCertificate input error
  issue.tryFinally (endIssuance site)

def issueLetsEncryptCertificate (site : SiteRecord) (input : IssueInput) : Program Unit :=
  if !input.termsAccepted && !input.renewal then
    fail "You must accept the ACME provider's terms of service"
  else
    .has site.id fun running =>
      if running then fail "Certificate issuance is already running for this site"
      else .add site.id (runIssuance env site input)

/-! ## The renewal -/

def renewalInput (settings : SiteTlsSettingsRecord) : IssueInput :=
  { email := settings.acmeEmail.map .text
    directoryUrl := settings.acmeDirectoryUrl.map .text
    forceHttps := some (settings.forceHttps = 1)
    termsAccepted := true
    renewal := true
    challengeType := settings.acmeChallengeType
    dnsProviderId := settings.acmeDnsProviderId.map .text }

/-- The loop over the certificates that are due. -/
def renewCertificates : List CertificateRecord → Program Unit
  | [] => pure ()
  | record :: records => do
      match ← await (.siteById record.siteId) with
      | none => renewCertificates records
      | some site =>
          .has site.id fun running =>
            if running then renewCertificates records
            else do
              let settings ← await (.ensureTlsSettings site.id)
              (await (.issue site settings) : Program Unit).tryCatch fun _ =>
                pure ()
              renewCertificates records

def renewDueCertificates : Program Unit :=
  if env.config.replica then pure ()
  else do
    let records ← await .dueAcmeCertificates
    renewCertificates records

/-! ## What becomes of the lock -/

section Locks

variable {env} {allowed : ∀ c, Except Text (Result c) → Prop}

theorem lockless_await (c : Call) : (await c).Lockless allowed := Process.lockless_await c

theorem lockless_fail {α : Type} (message : String) : (fail message : Program α).Lockless allowed :=
  trivial

theorem lockless_clientFor (directoryUrl email : Text) :
    (clientFor directoryUrl email).Lockless allowed := by
  refine (lockless_await _).bind fun _ => (lockless_await _).bind fun existing => ?_
  cases existing with
  | some existing =>
      refine (lockless_await _).bind fun accountKey => ?_
      dsimp only
      split
      · exact (lockless_await _).bind fun _ => (lockless_await _).bind fun _ => trivial
      · exact trivial
  | none =>
      exact (lockless_await _).bind fun _ => (lockless_await _).bind fun _ =>
        (lockless_await _).bind fun _ => (lockless_await _).bind fun _ =>
        (lockless_await _).bind fun _ => trivial

theorem lockless_challengeCreateFn (context : ChallengeContext) (challenge : Challenge)
    (keyAuthorization : Text) :
    (challengeCreateFn env context challenge keyAuthorization).Lockless allowed := by
  rw [challengeCreateFn]
  dsimp only
  split
  · exact lockless_fail _
  · split
    · exact (lockless_await _).bind fun _ => lockless_await _
    · split
      · split
        · exact lockless_fail _
        · exact (lockless_await _).bind fun _ => (lockless_await _).bind fun _ => lockless_await _
      · exact trivial

theorem lockless_challengeRemoveFn (context : ChallengeContext) (challenge : Challenge)
    (keyAuthorization : Text) :
    (challengeRemoveFn env context challenge keyAuthorization).Lockless allowed := by
  rw [challengeRemoveFn]
  split
  · exact lockless_await _
  · split
    · split
      · exact trivial
      · exact (lockless_await _).bind fun _ => lockless_await _
    · exact trivial

theorem lockless_activateCertificate (site : SiteRecord) (certificate : CertificateRecord) :
    (activateCertificate site certificate).Lockless allowed :=
  (lockless_await _).tryCatch fun _ => (lockless_await _).bind fun _ =>
    (lockless_await _).bind fun _ => trivial

theorem lockless_storeCertificate (site : SiteRecord) (input : IssueInput)
    (settings : SiteTlsSettingsRecord) (email directoryUrl : Text)
    (challengeType : AcmeChallengeType) (certificate : CertificateRecord) :
    (storeCertificate site input settings email directoryUrl challengeType certificate).Lockless
      allowed :=
  (lockless_await _).bind fun _ => (lockless_await _).bind fun _ =>
    (lockless_await _).bind fun _ => lockless_activateCertificate site certificate

theorem lockless_selectDnsProvider (challengeType : AcmeChallengeType)
    (dnsProviderId : Option TextField) :
    (selectDnsProvider challengeType dnsProviderId).Lockless allowed := by
  unfold selectDnsProvider
  split
  · split
    · exact lockless_fail _
    · exact lockless_fail _
    · refine (lockless_await _).bind fun dnsProvider => ?_
      cases dnsProvider with
      | none => exact lockless_fail _
      | some dnsProvider => exact trivial
  · exact trivial

theorem lockless_obtainCertificate (site : SiteRecord)
    (existingCertificate : Option CertificateRecord) (input : IssueInput)
    (settings : SiteTlsSettingsRecord) (email directoryUrl : Option Text)
    (challengeType : AcmeChallengeType) :
    (obtainCertificate env site existingCertificate input settings email directoryUrl
      challengeType).Lockless allowed := by
  have hchecked : ∀ checked : Except Text (Text × Text × Text),
      (Process.done checked : Program _).Lockless allowed := fun _ => trivial
  exact (hchecked _).bind fun _ => (lockless_selectDnsProvider _ _).bind fun _ =>
    (lockless_await _).bind fun _ => (lockless_await _).bind fun _ =>
    (lockless_await _).bind fun _ => (lockless_clientFor _ _).bind fun _ =>
    (lockless_await _).bind fun _ => (lockless_await _).bind fun _ =>
    (lockless_await _).bind fun _ => trivial

theorem lockless_noteFailure (site : SiteRecord) (existingCertificate : Option CertificateRecord)
    (input : IssueInput) (error : Text) :
    (noteFailure site existingCertificate input error).Lockless allowed :=
  (lockless_await _).bind fun _ => (lockless_await _).bind fun _ => trivial

theorem lockless_renewCertificates (records : List CertificateRecord) :
    (renewCertificates records).Lockless allowed := by
  induction records with
  | nil => exact trivial
  | cons record records ih =>
      refine (lockless_await _).bind fun site => ?_
      cases site with
      | none => exact ih
      | some site =>
          intro running
          cases running with
          | true => exact ih
          | false =>
              refine (lockless_await _).bind fun settings => Process.Lockless.bind ?_ fun _ => ih
              exact (lockless_await _).tryCatch fun _ => trivial

theorem lockless_renewDueCertificates : (renewDueCertificates env).Lockless allowed := by
  rw [renewDueCertificates]
  split
  · exact trivial
  · exact (lockless_await _).bind fun records => lockless_renewCertificates records

/-- The reads that no `try` protects. -/
def Call.unprotected : Call → Bool
  | .certificateBySite _ | .ensureTlsSettings _ | .siteById _ => true
  | _ => false

def TextField.isText : TextField → Bool
  | .text _ => true
  | .other => false

def IssueInput.textual (input : IssueInput) : Bool :=
  input.email.all TextField.isText && input.directoryUrl.all TextField.isText

theorem trimField_isOk {field : Option TextField} (h : field.all TextField.isText = true) :
    ∃ value, trimField field = .ok value := by
  rcases field with - | value | -
  · exact ⟨none, rfl⟩
  · exact ⟨some (trim value), rfl⟩
  · cases h

theorem all_isText_orElse {field other : Option TextField}
    (h : field.all TextField.isText = true) (h' : other.all TextField.isText = true) :
    (field <|> other).all TextField.isText = true := by
  cases field with
  | none => exact h'
  | some value => exact h

theorem all_isText_map (value : Option Text) :
    (value.map TextField.text).all TextField.isText = true := by
  cases value with
  | none => rfl
  | some value => rfl

/-- The lock is given back at the end of the protected part, whatever fails there. It leaks at most
where a read ahead of that part fails, or a field is no text. -/
theorem runIssuance_holds (site : SiteRecord) {input : IssueInput} {leaks : Prop}
    (hread : ∀ (c : Call) (e : Text), c.unprotected = true → allowed c (.error e) → leaks)
    (hinput : leaks ∨ input.textual = true) :
    (runIssuance env site input).Holds allowed leaks site.id := by
  have htrim : ∀ (field : Option TextField) (e : Text),
      (input.textual = true → field.all TextField.isText = true) →
      trimField field = .error e → leaks := by
    intro field e hfield he
    rcases hinput with hleaks | htextual
    · exact hleaks
    · obtain ⟨value, hvalue⟩ := trimField_isOk (hfield htextual)
      rw [hvalue] at he
      cases he
  refine Process.holds_await_bind (fun e => hread _ e rfl) fun existingCertificate => ?_
  refine Process.holds_await_bind (fun e => hread _ e rfl) fun settings => ?_
  refine Process.holds_done_bind (fun e => htrim _ e fun htextual => ?_) fun email => ?_
  · exact all_isText_orElse (Bool.and_eq_true_iff.mp htextual).1
      (all_isText_orElse (all_isText_map _) (all_isText_map _))
  refine Process.holds_done_bind (fun e => htrim _ e fun htextual => ?_) fun directoryUrl => ?_
  · exact all_isText_orElse (Bool.and_eq_true_iff.mp htextual).2
      (all_isText_orElse (all_isText_map _) rfl)
  refine Process.Lockless.holds_andThen ?_ fun outcome _ _ => ⟨rfl, rfl⟩
  refine (lockless_obtainCertificate _ _ _ _ _ _ _).andThen fun outcome => ?_
  cases outcome with
  | ok stored => exact lockless_storeCertificate _ _ _ _ _ _ _
  | error e => exact lockless_noteFailure _ _ _ _

end Locks

end BurrowGate.Acme
