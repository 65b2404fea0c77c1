import BurrowGate.Js.Base64
import BurrowGate.Js.Json
import BurrowGate.Js.TextCoding

/-!
# What is signed with a site's origin signing secret

The canonical texts of `proxy-service.ts`, `access-list-service.ts`,
`origin-user-service.ts` and the `burrowgate-auth` package.
-/

namespace BurrowGate.OriginSigning

open Js

/-- `lines.join("\n")` -/
def joinLines (lines : List (List Char)) : List Char := ['\n'].intercalate lines

/-- Texts of lines without line feeds are equal only if the lines are. -/
theorem joinLines_inj {lines lines' : List (List Char)} (hne : lines ≠ []) (hne' : lines' ≠ [])
    (h : ∀ line ∈ lines, '\n' ∉ line) (h' : ∀ line ∈ lines', '\n' ∉ line) :
    joinLines lines = joinLines lines' ↔ lines = lines' := by
  constructor
  · intro heq
    calc lines = (joinLines lines).splitOn '\n' := (List.splitOn_intercalate '\n' h hne).symm
      _ = (joinLines lines').splitOn '\n' := by rw [heq]
      _ = lines' := List.splitOn_intercalate '\n' h' hne'
  · exact congrArg joinLines

/-! ## `upstreamHeaders` and `verifyOriginRequest` -/

def requestLines (method signedPath sessionId ip country timestamp : List Char) :
    List (List Char) :=
  [method, signedPath, sessionId, ip, country, timestamp]

def identityLines (method signedPath sessionId ip country timestamp username : List Char) :
    List (List Char) :=
  [method, signedPath, sessionId, ip, country, timestamp, username]

/-! ## `accessIdentityCookieValues` -/

def identityCookieLines (siteId sessionId username : List Char) : List (List Char) :=
  ["identity-cookie-v1".toList, siteId, sessionId, username]

/-! ## `issueAccessSessionAssertion` -/

/-- `v` is the constant 1; the times are in seconds. -/
structure AccessSessionAssertionPayload where
  siteId : List Char
  sessionId : List Char
  userId : List Char
  iat : Nat
  exp : Nat

/-- `JSON.stringify(payload)` -/
def AccessSessionAssertionPayload.stringify (payload : AccessSessionAssertionPayload) :
    List Char :=
  stringifyObject [("v".toList, .number 1), ("siteId".toList, .string payload.siteId),
    ("sessionId".toList, .string payload.sessionId), ("userId".toList, .string payload.userId),
    ("iat".toList, .number payload.iat), ("exp".toList, .number payload.exp)]

def AccessSessionAssertionPayload.encodedPayload (payload : AccessSessionAssertionPayload) :
    List Char :=
  toBase64Url (textEncode payload.stringify)

def assertionTag : List Char := "access-session-assertion-v1".toList

def assertionLines (encodedPayload : List Char) : List (List Char) := [assertionTag, encodedPayload]

/-! ## What `signOriginUser` signs -/

/-- `[^\u0000-\u001f\u007f]` -/
def isControl (c : Char) : Bool := c.toNat ≤ 0x1f || c.toNat = 0x7f

/-- `/^[^\u0000-\u001f\u007f]{1,255}$/u` -/
def ORIGIN_USERNAME_PATTERN (username : List Char) : Bool :=
  1 ≤ username.length && username.length ≤ 255 && username.all (!isControl ·)

def originUserLines (requestSignature username : List Char) : List (List Char) :=
  [requestSignature, username]

end BurrowGate.OriginSigning
