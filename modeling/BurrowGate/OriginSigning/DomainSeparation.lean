import BurrowGate.OriginSigning.Canonical

/-!
# One key, five purposes

The texts signed for two purposes differ, save where an origin signs a user for a
request whose `X-BurrowGate-Signature` is the tag of the session assertions.
-/

namespace BurrowGate.OriginSigning

open Js

/-- A text without line feeds, as header values, URLs and generated ids are. -/
structure Line where
  text : List Char
  plain : '\n' ∉ text

/-- What `upstreamHeaders` signs of a request. -/
structure ForwardedRequest where
  method : Line
  signedPath : Line
  sessionId : Line
  ip : Line
  country : Line
  timestamp : Line

/-- A request signature header and a user name that `signOriginUser` accepts. -/
structure OriginUserReport where
  requestSignature : Line
  username : List Char
  present : requestSignature.text ≠ []
  accepted : ORIGIN_USERNAME_PATTERN username = true

/-- The texts of an assertion may have line breaks: its payload is signed in base64url, which has
none. -/
inductive SignedMessage
  | request (request : ForwardedRequest)
  | identity (request : ForwardedRequest) (username : Line)
  | identityCookie (sessionId username : Line)
  | assertion (sessionId userId : List Char) (iat exp : Nat)
  | originUser (report : OriginUserReport)

inductive Purpose
  | request
  | identity
  | identityCookie
  | assertion
  | originUser
  deriving DecidableEq

namespace SignedMessage

def purpose : SignedMessage → Purpose
  | request _ => .request
  | identity _ _ => .identity
  | identityCookie _ _ => .identityCookie
  | assertion _ _ _ _ => .assertion
  | originUser _ => .originUser

def lines (siteId : Line) : SignedMessage → List (List Char)
  | request r => requestLines r.method.text r.signedPath.text r.sessionId.text r.ip.text
      r.country.text r.timestamp.text
  | identity r username => identityLines r.method.text r.signedPath.text r.sessionId.text r.ip.text
      r.country.text r.timestamp.text username.text
  | identityCookie sessionId username =>
      identityCookieLines siteId.text sessionId.text username.text
  | assertion sessionId userId iat exp =>
      assertionLines (AccessSessionAssertionPayload.encodedPayload
        ⟨siteId.text, sessionId, userId, iat, exp⟩)
  | originUser report => originUserLines report.requestSignature.text report.username

/-- The bytes given to the HMAC. -/
def signedBytes (siteId : Line) (m : SignedMessage) : List UInt8 :=
  textEncode (joinLines (m.lines siteId))

def sign {Tag : Type} (hmac : List UInt8 → Tag) (siteId : Line) (m : SignedMessage) : Tag :=
  hmac (m.signedBytes siteId)

/-- The receiver computes the signature of the message it expects and compares. -/
def Verifies {Tag : Type} (hmac : List UInt8 → Tag) (siteId : Line) (m : SignedMessage)
    (signature : Tag) : Prop :=
  hmac (m.signedBytes siteId) = signature

/-- The user signed for the tag as request signature is the encoded payload of the assertion. -/
def ReportsAssertion (siteId : Line) (sessionId userId : List Char) (iat exp : Nat)
    (report : OriginUserReport) : Prop :=
  report.requestSignature.text = assertionTag ∧ report.username =
    AccessSessionAssertionPayload.encodedPayload ⟨siteId.text, sessionId, userId, iat, exp⟩

/-- One of the two messages is an assertion, and the other reports it as a user. -/
def Confusable (siteId : Line) : SignedMessage → SignedMessage → Prop
  | assertion sessionId userId iat exp, originUser report
  | originUser report, assertion sessionId userId iat exp =>
      ReportsAssertion siteId sessionId userId iat exp report
  | _, _ => False

end SignedMessage

/-! ## The lines of a message -/

def Purpose.lineCount : Purpose → Nat
  | .request => 6
  | .identity => 7
  | .identityCookie => 4
  | .assertion => 2
  | .originUser => 2

theorem length_lines (siteId : Line) (m : SignedMessage) :
    (m.lines siteId).length = m.purpose.lineCount := by
  cases m <;> rfl

/-- Only two purposes have texts of equally many lines. -/
theorem eq_of_lineCount {p p' : Purpose} (hne : p ≠ p') (h : p.lineCount = p'.lineCount) :
    (p = .assertion ∧ p' = .originUser) ∨ (p = .originUser ∧ p' = .assertion) := by
  revert hne h
  cases p <;> cases p' <;> decide

theorem lineFeed_not_mem_toBase64Url (bytes : List UInt8) : '\n' ∉ toBase64Url bytes := by
  have halphabet : ∀ n < 64, urlSafe (base64Char n) ≠ '\n' := by decide +kernel
  rw [toBase64Url_eq]
  intro h
  obtain ⟨n, hn, heq⟩ := List.mem_map.mp h
  exact halphabet n (sextets_lt bytes n hn) heq

theorem lineFeed_not_mem_username {username : List Char}
    (h : ORIGIN_USERNAME_PATTERN username = true) : '\n' ∉ username := by
  intro hmem
  rw [ORIGIN_USERNAME_PATTERN, Bool.and_eq_true] at h
  have hfeed := List.all_eq_true.mp h.2 '\n' hmem
  exact absurd hfeed (by decide)

theorem lines_plain (siteId : Line) (m : SignedMessage) :
    ∀ line ∈ m.lines siteId, '\n' ∉ line := by
  cases m with
  | request r =>
      simp only [SignedMessage.lines, requestLines, List.forall_mem_cons]
      exact ⟨r.method.plain, r.signedPath.plain, r.sessionId.plain, r.ip.plain, r.country.plain,
        r.timestamp.plain, List.forall_mem_nil _⟩
  | identity r username =>
      simp only [SignedMessage.lines, identityLines, List.forall_mem_cons]
      exact ⟨r.method.plain, r.signedPath.plain, r.sessionId.plain, r.ip.plain, r.country.plain,
        r.timestamp.plain, username.plain, List.forall_mem_nil _⟩
  | identityCookie sessionId username =>
      simp only [SignedMessage.lines, identityCookieLines, List.forall_mem_cons]
      exact ⟨by decide, siteId.plain, sessionId.plain, username.plain, List.forall_mem_nil _⟩
  | assertion sessionId userId iat exp =>
      simp only [SignedMessage.lines, assertionLines, List.forall_mem_cons]
      exact ⟨by decide, lineFeed_not_mem_toBase64Url _, List.forall_mem_nil _⟩
  | originUser report =>
      simp only [SignedMessage.lines, originUserLines, List.forall_mem_cons]
      exact ⟨report.requestSignature.plain, lineFeed_not_mem_username report.accepted,
        List.forall_mem_nil _⟩

theorem lines_ne_nil (siteId : Line) (m : SignedMessage) : m.lines siteId ≠ [] := by
  cases m <;> exact List.cons_ne_nil _ _

/-- The signed bytes determine the lines. -/
theorem signedBytes_eq_iff {siteId : Line} {m m' : SignedMessage} :
    m.signedBytes siteId = m'.signedBytes siteId ↔ m.lines siteId = m'.lines siteId := by
  rw [SignedMessage.signedBytes, SignedMessage.signedBytes, textEncode_injective.eq_iff]
  apply joinLines_inj (lines_ne_nil siteId m) (lines_ne_nil siteId m')
  · exact lines_plain siteId m
  · exact lines_plain siteId m'

theorem eq_assertion_of_purpose {m : SignedMessage} (h : m.purpose = .assertion) :
    ∃ sessionId userId iat exp, m = .assertion sessionId userId iat exp := by
  cases m with
  | assertion sessionId userId iat exp => exact ⟨sessionId, userId, iat, exp, rfl⟩
  | request | identity | identityCookie | originUser => cases h

theorem eq_originUser_of_purpose {m : SignedMessage} (h : m.purpose = .originUser) :
    ∃ report, m = .originUser report := by
  cases m with
  | originUser report => exact ⟨report, rfl⟩
  | request | identity | identityCookie | assertion => cases h

theorem assertion_lines_eq_iff {siteId : Line} {sessionId userId : List Char} {iat exp : Nat}
    {report : OriginUserReport} :
    (SignedMessage.assertion sessionId userId iat exp).lines siteId =
        (SignedMessage.originUser report).lines siteId ↔
      SignedMessage.ReportsAssertion siteId sessionId userId iat exp report := by
  simp only [SignedMessage.lines, assertionLines, originUserLines, List.cons.injEq, and_true]
  constructor
  · rintro ⟨htag, husername⟩
    exact ⟨htag.symm, husername.symm⟩
  · rintro ⟨htag, husername⟩
    exact ⟨htag.symm, husername.symm⟩

/-- Two messages of different purposes have the same bytes only when one reports the other. -/
theorem signedBytes_eq_iff_confusable {siteId : Line} {m m' : SignedMessage}
    (hpurpose : m.purpose ≠ m'.purpose) :
    m.signedBytes siteId = m'.signedBytes siteId ↔ m.Confusable siteId m' := by
  rw [signedBytes_eq_iff]
  constructor
  · intro heq
    have hcount : m.purpose.lineCount = m'.purpose.lineCount := by
      rw [← length_lines siteId m, ← length_lines siteId m', heq]
    rcases eq_of_lineCount hpurpose hcount with ⟨hp, hp'⟩ | ⟨hp, hp'⟩
    · obtain ⟨sessionId, userId, iat, exp, rfl⟩ := eq_assertion_of_purpose hp
      obtain ⟨report, rfl⟩ := eq_originUser_of_purpose hp'
      exact assertion_lines_eq_iff.mp heq
    · obtain ⟨report, rfl⟩ := eq_originUser_of_purpose hp
      obtain ⟨sessionId, userId, iat, exp, rfl⟩ := eq_assertion_of_purpose hp'
      exact assertion_lines_eq_iff.mp heq.symm
  · intro hconfusable
    cases m with
    | assertion sessionId userId iat exp =>
        cases m' with
        | originUser report => exact assertion_lines_eq_iff.mpr hconfusable
        | request | identity | identityCookie | assertion => exact hconfusable.elim
    | originUser report =>
        cases m' with
        | assertion sessionId userId iat exp => exact (assertion_lines_eq_iff.mpr hconfusable).symm
        | request | identity | identityCookie | originUser => exact hconfusable.elim
    | request | identity | identityCookie => cases m' <;> exact hconfusable.elim

/-! ## Separation -/

theorem assertionTag_plain : '\n' ∉ assertionTag := by
  decide +kernel

theorem assertionTag_ne_nil : assertionTag ≠ [] := by
  decide +kernel

/-- The report of a user who presents the tag as the signature of the request. -/
def reportForTag (username : List Char) (h : ORIGIN_USERNAME_PATTERN username = true) :
    OriginUserReport :=
  ⟨⟨assertionTag, assertionTag_plain⟩, username, assertionTag_ne_nil, h⟩

theorem reportForTag_text (username : List Char) (h : ORIGIN_USERNAME_PATTERN username = true) :
    (reportForTag username h).requestSignature.text = assertionTag :=
  rfl

theorem reportForTag_username (username : List Char)
    (h : ORIGIN_USERNAME_PATTERN username = true) : (reportForTag username h).username = username :=
  rfl

/-- Where the encoded payload passes as a user name, the origin can sign it. -/
theorem reportForTag_reports {siteId : Line} {sessionId userId : List Char} {iat exp : Nat}
    (h : ORIGIN_USERNAME_PATTERN (AccessSessionAssertionPayload.encodedPayload
      ⟨siteId.text, sessionId, userId, iat, exp⟩) = true) :
    SignedMessage.ReportsAssertion siteId sessionId userId iat exp (reportForTag _ h) :=
  ⟨reportForTag_text _ h, reportForTag_username _ h⟩

def exampleId (kind : List Char) : List Char := kind ++ '_' :: List.replicate 32 '0'

theorem exampleSiteId_plain : '\n' ∉ exampleId "site".toList := by
  decide +kernel

def exampleSite : Line := ⟨exampleId "site".toList, exampleSiteId_plain⟩

def exampleAssertion : SignedMessage :=
  .assertion (exampleId "sess".toList) (exampleId "user".toList) 1700000000 1700000300

/-- The payload is 191 bytes, so its encoding has exactly the 255 characters a user name may. -/
theorem exampleUsername_accepted :
    ORIGIN_USERNAME_PATTERN (AccessSessionAssertionPayload.encodedPayload ⟨exampleSite.text,
      exampleId "sess".toList, exampleId "user".toList, 1700000000, 1700000300⟩) = true := by
  decide +kernel

def exampleReport : SignedMessage := .originUser (reportForTag _ exampleUsername_accepted)

end BurrowGate.OriginSigning
