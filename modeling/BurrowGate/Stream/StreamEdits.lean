import BurrowGate.Js.CaseTable
import BurrowGate.Js.Value
import BurrowGate.Lib.Table
import BurrowGate.Net.Ip

/-!
# Edits of a stream

`buildStream` and `applyPendingStreamChange` of `stream-service.ts`, the `PUT` handler of
`stream-admin-routes.ts` and `saveStream`. A column that holds a JSON array of addresses is held
parsed, and times and ports are integers.
-/

namespace BurrowGate.StreamEdits

open Js Net
open Lib.Table (updateWhere)

abbrev Text : Type := List Char

/-- A row of `streams`; the columns that may be `NULL` are options. -/
structure StreamRecord where
  id : Text
  name : Text
  incomingPort : Int
  forwardHost : Text
  forwardPort : Int
  tcpEnabled : Int
  udpEnabled : Int
  proxyProtocol : Text
  incomingProxyProtocol : Int
  proxyProtocolTrustedCidrs : Option (List Text)
  certificateId : Option Text
  eventRetentionDays : Int
  defaultIpAction : Text
  defaultCountryAction : Text
  maxConnectionsPerIp : Int
  connectionRateLimitEnabled : Int
  connectionRateLimitAlgorithm : Text
  connectionRateLimitWindowMs : Int
  connectionRateLimitMax : Int
  connectionRateLimitRefillRate : Int
  connectionRateLimitRefillIntervalMs : Int
  connectionRateLimitPrecisionMs : Int
  udpAmplificationMaxRatio : Int
  originHealthCheckEnabled : Int
  originHealthCheckIntervalSeconds : Int
  originHealthCheckTimeoutMs : Int
  originHealthCheckFailureThreshold : Int
  originHealthCheckRecoveryThreshold : Int
  protectionPolicyJson : Option Text
  networkPrivacyPolicyJson : Option Text
  crowdsecPolicyJson : Option Text
  bandwidthPolicyJson : Option Text
  notificationPolicyJson : Option Text
  createdAt : Int
  updatedAt : Int
  deriving DecidableEq

/-- `effectiveAt` is read by the handler. -/
structure StreamInput where
  name : JsValue
  incomingPort : JsValue
  forwardHost : JsValue
  forwardPort : JsValue
  tcpEnabled : JsValue
  udpEnabled : JsValue
  proxyProtocol : JsValue
  incomingProxyProtocol : JsValue
  trustedProxyCidrs : JsValue
  certificateId : JsValue
  eventRetentionDays : JsValue
  maxConnectionsPerIp : JsValue
  connectionRateLimitEnabled : JsValue
  connectionRateLimitAlgorithm : JsValue
  connectionRateLimitWindowMs : JsValue
  connectionRateLimitMax : JsValue
  connectionRateLimitRefillRate : JsValue
  connectionRateLimitRefillIntervalMs : JsValue
  connectionRateLimitPrecisionMs : JsValue
  udpAmplificationMaxRatio : JsValue
  originHealthCheckEnabled : JsValue
  originHealthCheckIntervalSeconds : JsValue
  originHealthCheckTimeoutMs : JsValue
  originHealthCheckFailureThreshold : JsValue
  originHealthCheckRecoveryThreshold : JsValue

/-- `active` with an expiry in the future, and the PEM and the key present. -/
structure CertificateRecord where
  active : Bool
  expiresAt : Option Int
  usable : Bool

structure StreamEnv where
  cases : CaseTable
  httpEnabled : Bool
  httpPort : Int
  httpsEnabled : Bool
  httpsPort : Int
  eventRetentionDays : Int
  certificateById : Text → Option CertificateRecord

/-! ## The checks of the input -/

def check (accepted : Bool) (message : String) : Except String Unit :=
  if accepted then .ok () else .error message

def requiredString (value : JsValue) (label : String) (maximum : Nat) : Except String Text :=
  let result := trim (value.orElse (.string [])).toText
  if result = [] then .error (label ++ " is required")
  else if utf16Length result > maximum then
    .error (label ++ " must be at most " ++ toString maximum ++ " characters")
  else .ok result

/-- `Number.isInteger(result) && minimum <= result && result <= maximum` -/
def integerWithin (message : String) (minimum maximum : Int) (result : Option ℚ) :
    Except String Int :=
  match result with
  | some q =>
      if q.den = 1 ∧ minimum ≤ q.num ∧ q.num ≤ maximum then .ok q.num else .error message
  | none => .error message

def port (value : JsValue) (label : String) : Except String Int :=
  integerWithin (label ++ " must be an integer from 1 to 65535") 1 65535 value.toNumber

def booleanValue (value : JsValue) (fallback : Bool) : Except String Bool :=
  match value with
  | .undefined => .ok fallback
  | .boolean b => .ok b
  | .number (some q) _ =>
      if q = 1 then .ok true else if q = 0 then .ok false
      else .error "Protocol toggles must be booleans"
  | .string text =>
      if text = "1".toList ∨ text = "true".toList then .ok true
      else if text = "0".toList ∨ text = "false".toList then .ok false
      else .error "Protocol toggles must be booleans"
  | _ => .error "Protocol toggles must be booleans"

/-- `host.startsWith("[") && host.endsWith("]") ? host.slice(1, -1) : host` -/
def unbracket (host : Text) : Text :=
  if host.head? = some '[' ∧ host.getLast? = some ']' then host.tail.dropLast else host

def forwardHost (value : JsValue) : Except String Text :=
  let host := trim (value.orElse (.string [])).toText
  if host = [] then .error "Forward host is required"
  else if utf16Length host > 255 then .error "Forward host must be at most 255 characters"
  else if host.any fun c => c = '/' || c = '?' || c = '#' || isWhiteSpace c then
    .error "Forward host must be a hostname or IP address without a scheme, port, or path"
  else
    let host := unbracket host
    if host.contains ':' && isIP host ≠ some .v6 then
      .error "Forward host must not include a port"
    else .ok host

/-- `value === undefined ? fallback : Number(value)` -/
def numberOr (value : JsValue) (fallback : Int) : Option ℚ :=
  match value with
  | .undefined => some fallback
  | value => value.toNumber

/-- `value === undefined || value === "" ? fallback : Number(value)` -/
def numberOrBlank (value : JsValue) (fallback : Int) : Option ℚ :=
  match value with
  | .undefined | .string [] => some fallback
  | value => value.toNumber

def retentionDays (value : JsValue) (fallback : Int) : Except String Int :=
  integerWithin "Stream data retention must be an integer from 1 to 365 days" 1 365
    (numberOr value fallback)

def maxConnectionsPerIp (value : JsValue) (fallback : Int) : Except String Int :=
  integerWithin "Max connections per IP must be an integer from 0 to 100000 (0 disables the limit)"
    0 100000 (numberOr value fallback)

def integerValue (value : JsValue) (label : String) (fallback minimum maximum : Int) :
    Except String Int :=
  integerWithin
    (label ++ " must be an integer from " ++ toString minimum ++ " to " ++ toString maximum)
    minimum maximum (numberOrBlank value fallback)

def udpAmplificationMaxRatio (value : JsValue) (fallback : Int) : Except String Int :=
  integerWithin "UDP amplification ratio must be an integer from 0 to 10000 (0 disables the guard)"
    0 10000 (numberOrBlank value fallback)

/-- `value === undefined ? fallback : String(value).trim().toLowerCase()` -/
def keywordOr (env : StreamEnv) (value : JsValue) (fallback : Text) : Text :=
  match value with
  | .undefined => fallback
  | value => env.cases.toLowerCase (trim value.toText)

def rateLimitAlgorithm (env : StreamEnv) (value : JsValue) (fallback : Text) :
    Except String Text :=
  let result := keywordOr env value fallback
  if result = "fixed-window".toList ∨ result = "sliding-window".toList ∨
      result = "token-bucket".toList then .ok result
  else .error
    "Connection rate-limit algorithm must be fixed-window, sliding-window, or token-bucket"

def proxyProtocol (env : StreamEnv) (value : JsValue) (fallback : Text) (tcpEnabled : Bool) :
    Except String Text :=
  let result := keywordOr env value fallback
  if result ≠ "disabled".toList ∧ result ≠ "v1".toList ∧ result ≠ "v2".toList then
    .error "PROXY protocol must be disabled, v1, or v2"
  else if result = "v1".toList ∧ tcpEnabled = false then
    .error "PROXY protocol v1 is only available for TCP streams (use v2 for UDP)"
  else .ok result

def certificateId (env : StreamEnv) (now : Int) (value : JsValue) (tcpEnabled : Bool) :
    Except String (Option Text) :=
  let id := trim (value.orElse (.string [])).toText
  if id = [] then .ok none
  else if tcpEnabled = false then
    .error "A TLS certificate can only be used when TCP is enabled"
  else
    match env.certificateById id with
    | none => .error "The selected certificate is unavailable or expired"
    | some certificate =>
        if certificate.active = false ∨ certificate.expiresAt.getD 0 ≤ now then
          .error "The selected certificate is unavailable or expired"
        else if certificate.usable = false then
          .error "The selected certificate has no usable TLS material"
        else .ok (some id)

/-- `/^[^/]+(?:\/[0-9]{1,3})?$/u` -/
def isAddressShape (text : Text) : Bool :=
  match text.splitOn '/' with
  | [address] => address ≠ []
  | [address, digits] =>
      address ≠ [] && digits.all isDigit && 1 ≤ digits.length && digits.length ≤ 3
  | _ => false

def trustedProxyEntry (entry : JsValue) : Except String Text :=
  match entry.string? with
  | some text =>
      if isAddressShape (trim text) && (parseCidr (trim text)).isSome then .ok (trim text)
      else .error ("Invalid trusted proxy IP address or CIDR: " ++ String.ofList entry.toText)
  | none => .error ("Invalid trusted proxy IP address or CIDR: " ++ String.ofList entry.toText)

/-- The set keeps the first of equal entries. -/
def parseTrustedProxyCidrs (value : JsValue) : Except String (List Text) :=
  match value with
  | .array items =>
      if items.length > 256 then
        .error "Trusted proxy addresses must be an array of at most 256 IP addresses or CIDRs"
      else (items.mapM trustedProxyEntry).map List.eraseDups
  | _ => .error "Trusted proxy addresses must be an array of at most 256 IP addresses or CIDRs"

/-! ## The new record -/

def jsInteger (n : Int) : JsValue := .number (some n) (toString n).toList

/-- `existing?.column`, as a value. -/
def column (existing : Option StreamRecord) (read : StreamRecord → JsValue) : JsValue :=
  (existing.map read).getD .undefined

/-- `existing?.column ?? initial` -/
def columnOr (existing : Option StreamRecord) (read : StreamRecord → Int) (initial : Int) : Int :=
  (existing.map read).getD initial

def textOr (existing : Option StreamRecord) (read : StreamRecord → Text) (initial : String) :
    Text :=
  (existing.map read).getD initial.toList

def flag (b : Bool) : Int := if b then 1 else 0

/-- `existing?.column === 1` -/
def isOn (existing : Option StreamRecord) (read : StreamRecord → Int) : Bool :=
  existing.any (read · = 1)

def nullableText (value : Option Text) : JsValue :=
  match value with
  | none => .null
  | some text => .string text

/-- The result has no `crowdsec_policy_json`, which `saveStream` writes as `NULL`. -/
def buildStream (env : StreamEnv) (now : Int) (newId : Text) (input : StreamInput)
    (existing : Option StreamRecord) : Except String StreamRecord := do
  let tcpEnabled ← booleanValue input.tcpEnabled (isOn existing (·.tcpEnabled) || existing.isNone)
  let udpEnabled ← booleanValue input.udpEnabled (isOn existing (·.udpEnabled))
  check (tcpEnabled || udpEnabled) "Enable at least one of TCP or UDP"
  let incomingPort ← port
    (input.incomingPort.orElse (column existing (jsInteger ·.incomingPort))) "Incoming port"
  check (!(tcpEnabled && env.httpEnabled && incomingPort = env.httpPort))
    "Incoming TCP port conflicts with BurrowGate's HTTP listener"
  check (!(tcpEnabled && env.httpsEnabled && incomingPort = env.httpsPort))
    "Incoming TCP port conflicts with BurrowGate's HTTPS listener"
  let incomingProxyProtocol ← booleanValue input.incomingProxyProtocol
    (isOn existing (·.incomingProxyProtocol))
  let trustedProxyCidrs ← parseTrustedProxyCidrs (input.trustedProxyCidrs.orElse
    (.array (((existing.bind (·.proxyProtocolTrustedCidrs)).getD []).map .string)))
  check (!(incomingProxyProtocol && !tcpEnabled))
    "Incoming PROXY protocol requires TCP to be enabled"
  check (!(incomingProxyProtocol && trustedProxyCidrs.isEmpty))
    "Incoming PROXY protocol requires at least one trusted load balancer IP address or CIDR"
  let name ← requiredString (input.name.orElse (column existing (.string ·.name))) "Stream name" 255
  let host ← forwardHost (input.forwardHost.orElse (column existing (.string ·.forwardHost)))
  let forwardPort ← port
    (input.forwardPort.orElse (column existing (jsInteger ·.forwardPort))) "Forward port"
  let protocol ← proxyProtocol env input.proxyProtocol
    (textOr existing (·.proxyProtocol) "disabled") tcpEnabled
  let certificate ← certificateId env now
    (match input.certificateId with
      | .undefined => column existing (nullableText ·.certificateId)
      | value => value) tcpEnabled
  let retention ← retentionDays input.eventRetentionDays
    (columnOr existing (·.eventRetentionDays) env.eventRetentionDays)
  let maxConnections ← maxConnectionsPerIp input.maxConnectionsPerIp
    (columnOr existing (·.maxConnectionsPerIp) 0)
  let rateLimitEnabled ← booleanValue input.connectionRateLimitEnabled
    (isOn existing (·.connectionRateLimitEnabled))
  let algorithm ← rateLimitAlgorithm env input.connectionRateLimitAlgorithm
    (textOr existing (·.connectionRateLimitAlgorithm) "sliding-window")
  let windowMs ← integerValue input.connectionRateLimitWindowMs "Connection rate-limit window"
    (columnOr existing (·.connectionRateLimitWindowMs) 60000) 100 86400000
  let rateMax ← integerValue input.connectionRateLimitMax "Connection rate-limit maximum"
    (columnOr existing (·.connectionRateLimitMax) 60) 1 1000000
  let refillRate ← integerValue input.connectionRateLimitRefillRate "Connection token refill rate"
    (columnOr existing (·.connectionRateLimitRefillRate) 10) 1 1000000
  let refillIntervalMs ← integerValue input.connectionRateLimitRefillIntervalMs
    "Connection token refill interval"
    (columnOr existing (·.connectionRateLimitRefillIntervalMs) 1000) 50 3600000
  let precisionMs ← integerValue input.connectionRateLimitPrecisionMs
    "Connection rate-limit precision"
    (columnOr existing (·.connectionRateLimitPrecisionMs) 100) 10 60000
  let amplification ← udpAmplificationMaxRatio input.udpAmplificationMaxRatio
    (columnOr existing (·.udpAmplificationMaxRatio) 0)
  let healthEnabled ← booleanValue input.originHealthCheckEnabled
    (isOn existing (·.originHealthCheckEnabled))
  let intervalSeconds ← integerValue input.originHealthCheckIntervalSeconds
    "Origin health-check interval"
    (columnOr existing (·.originHealthCheckIntervalSeconds) 10) 3 3600
  let timeoutMs ← integerValue input.originHealthCheckTimeoutMs "Origin health-check timeout"
    (columnOr existing (·.originHealthCheckTimeoutMs) 3000) 250 60000
  let failureThreshold ← integerValue input.originHealthCheckFailureThreshold
    "Origin health-check failure threshold"
    (columnOr existing (·.originHealthCheckFailureThreshold) 3) 1 20
  let recoveryThreshold ← integerValue input.originHealthCheckRecoveryThreshold
    "Origin health-check recovery threshold"
    (columnOr existing (·.originHealthCheckRecoveryThreshold) 2) 1 20
  return {
    id := textOr existing (·.id) (String.ofList newId)
    name
    incomingPort
    forwardHost := host
    forwardPort
    tcpEnabled := flag tcpEnabled
    udpEnabled := flag udpEnabled
    proxyProtocol := protocol
    incomingProxyProtocol := flag incomingProxyProtocol
    proxyProtocolTrustedCidrs := some trustedProxyCidrs
    certificateId := certificate
    eventRetentionDays := retention
    defaultIpAction := textOr existing (·.defaultIpAction) "inherit"
    defaultCountryAction := textOr existing (·.defaultCountryAction) "inherit"
    maxConnectionsPerIp := maxConnections
    connectionRateLimitEnabled := flag rateLimitEnabled
    connectionRateLimitAlgorithm := algorithm
    connectionRateLimitWindowMs := windowMs
    connectionRateLimitMax := rateMax
    connectionRateLimitRefillRate := refillRate
    connectionRateLimitRefillIntervalMs := refillIntervalMs
    connectionRateLimitPrecisionMs := precisionMs
    udpAmplificationMaxRatio := amplification
    originHealthCheckEnabled := flag healthEnabled
    originHealthCheckIntervalSeconds := intervalSeconds
    originHealthCheckTimeoutMs := timeoutMs
    originHealthCheckFailureThreshold := failureThreshold
    originHealthCheckRecoveryThreshold := recoveryThreshold
    protectionPolicyJson := existing.bind (·.protectionPolicyJson)
    networkPrivacyPolicyJson := existing.bind (·.networkPrivacyPolicyJson)
    crowdsecPolicyJson := none
    bandwidthPolicyJson := existing.bind (·.bandwidthPolicyJson)
    notificationPolicyJson := existing.bind (·.notificationPolicyJson)
    createdAt := columnOr existing (·.createdAt) now
    updatedAt := now }

/-! ## Listener changes -/

/-- `STREAM_RESTART_FIELDS` -/
structure RestartFields where
  tcpEnabled : Int
  udpEnabled : Int
  incomingPort : Int
  forwardHost : Text
  forwardPort : Int
  certificateId : Option Text
  proxyProtocol : Text
  incomingProxyProtocol : Int
  proxyProtocolTrustedCidrs : Option (List Text)
  deriving DecidableEq

def pickStreamRestartFields (record : StreamRecord) : RestartFields :=
  { tcpEnabled := record.tcpEnabled
    udpEnabled := record.udpEnabled
    incomingPort := record.incomingPort
    forwardHost := record.forwardHost
    forwardPort := record.forwardPort
    certificateId := record.certificateId
    proxyProtocol := record.proxyProtocol
    incomingProxyProtocol := record.incomingProxyProtocol
    proxyProtocolTrustedCidrs := record.proxyProtocolTrustedCidrs }

/-- `{ ...record, ...fields }` -/
def StreamRecord.withRestartFields (record : StreamRecord) (fields : RestartFields) :
    StreamRecord :=
  { record with
    tcpEnabled := fields.tcpEnabled
    udpEnabled := fields.udpEnabled
    incomingPort := fields.incomingPort
    forwardHost := fields.forwardHost
    forwardPort := fields.forwardPort
    certificateId := fields.certificateId
    proxyProtocol := fields.proxyProtocol
    incomingProxyProtocol := fields.incomingProxyProtocol
    proxyProtocolTrustedCidrs := fields.proxyProtocolTrustedCidrs }

/-- No trusted addresses and an empty list of them are the same. -/
def streamRestartDiffers (a b : StreamRecord) : Bool :=
  let normal (record : StreamRecord) : RestartFields :=
    { pickStreamRestartFields record with
      proxyProtocolTrustedCidrs := some (record.proxyProtocolTrustedCidrs.getD []) }
  normal a ≠ normal b

/-! ## The table -/

/-- The rows of `stream_bindings` for a stream. -/
def bindings (stream : StreamRecord) : List (Bool × Int) :=
  (if stream.tcpEnabled = 1 then [(true, stream.incomingPort)] else []) ++
    if stream.udpEnabled = 1 then [(false, stream.incomingPort)] else []

def bindingTaken (rows : List StreamRecord) (stream : StreamRecord) : Bool :=
  rows.any fun other => other.id ≠ stream.id && (bindings other).any (bindings stream).contains

/-- The table with what its primary keys say. -/
structure StreamTable where
  rows : List StreamRecord
  ids : (rows.map (·.id)).Nodup
  bound : ∀ row ∈ rows, bindingTaken rows row = false

/-- The update leaves `created_at`. -/
def StreamRecord.writtenOver (stream row : StreamRecord) : StreamRecord :=
  { stream with createdAt := row.createdAt }

/-- The transaction is rolled back where a binding is taken. -/
def saveStream (rows : List StreamRecord) (stream : StreamRecord) :
    Except String (List StreamRecord) :=
  if bindingTaken rows stream then
    .error "That protocol and incoming port are already assigned to another stream"
  else if rows.any (·.id = stream.id) then
    .ok (updateWhere (·.id) stream.id stream.writtenOver rows)
  else .ok (rows ++ [stream])

structure Saved where
  rows : List StreamRecord
  error : Option String

/-- `saveAndActivate` with a previous row, and the same steps in `applyPendingStreamChange`.
`activates` is none where `streamProxyManager.apply` succeeds, and otherwise its error. -/
def saveAndActivate (rows : List StreamRecord) (stream previous : StreamRecord)
    (activates : Option String) : Saved :=
  match saveStream rows stream with
  | .error message => ⟨rows, some message⟩
  | .ok saved =>
      match activates with
      | none => ⟨saved, none⟩
      | some failure =>
          match saveStream saved previous with
          | .error message => ⟨saved, some message⟩
          | .ok restored => ⟨restored, some failure⟩

/-- A request to the handler: the time to apply at, the time of a change that waits already, and
what activation comes to. -/
structure StreamEdit where
  input : StreamInput
  applyAt : Option Int
  pending : Option String
  activates : Option String

structure Updated where
  rows : List StreamRecord
  staged : Option RestartFields
  error : Option String

/-- The `PUT` handler, from the row it has read. -/
def updateStream (env : StreamEnv) (now : Int) (rows : List StreamRecord)
    (previous : StreamRecord) (edit : StreamEdit) : Updated :=
  match buildStream env now [] edit.input (some previous) with
  | .error message => ⟨rows, none, some message⟩
  | .ok candidate =>
      if streamRestartDiffers previous candidate && edit.applyAt.isSome then
        match edit.pending with
        | some time =>
            ⟨rows, none, some ("A change is already scheduled for " ++ time ++
              ". Cancel or apply it first.")⟩
        | none =>
            let immediate := candidate.withRestartFields (pickStreamRestartFields previous)
            let saved := saveAndActivate rows immediate previous edit.activates
            ⟨saved.rows,
              if saved.error.isNone then some (pickStreamRestartFields candidate) else none,
              saved.error⟩
      else
        let saved := saveAndActivate rows candidate previous edit.activates
        ⟨saved.rows, none, saved.error⟩

def applyPendingStreamChange (now : Int) (rows : List StreamRecord) (streamId : Text)
    (changes : RestartFields) (activates : Option String) : Saved :=
  match rows.find? (·.id = streamId) with
  | none => ⟨rows, none⟩
  | some live =>
      saveAndActivate rows { live.withRestartFields changes with updatedAt := now } live activates

/-! ## The law -/

inductive Column
  | id
  | name
  | incomingPort
  | forwardHost
  | forwardPort
  | tcpEnabled
  | udpEnabled
  | proxyProtocol
  | incomingProxyProtocol
  | proxyProtocolTrustedCidrs
  | certificateId
  | eventRetentionDays
  | defaultIpAction
  | defaultCountryAction
  | maxConnectionsPerIp
  | connectionRateLimitEnabled
  | connectionRateLimitAlgorithm
  | connectionRateLimitWindowMs
  | connectionRateLimitMax
  | connectionRateLimitRefillRate
  | connectionRateLimitRefillIntervalMs
  | connectionRateLimitPrecisionMs
  | udpAmplificationMaxRatio
  | originHealthCheckEnabled
  | originHealthCheckIntervalSeconds
  | originHealthCheckTimeoutMs
  | originHealthCheckFailureThreshold
  | originHealthCheckRecoveryThreshold
  | protectionPolicyJson
  | networkPrivacyPolicyJson
  | crowdsecPolicyJson
  | bandwidthPolicyJson
  | notificationPolicyJson
  | createdAt
  | updatedAt
  deriving DecidableEq

inductive Cell
  | integer (n : Int)
  | text (value : Text)
  | nullable (value : Option Text)
  | addresses (value : Option (List Text))
  deriving DecidableEq

def Column.read (row : StreamRecord) : Column → Cell
  | .id => .text row.id
  | .name => .text row.name
  | .incomingPort => .integer row.incomingPort
  | .forwardHost => .text row.forwardHost
  | .forwardPort => .integer row.forwardPort
  | .tcpEnabled => .integer row.tcpEnabled
  | .udpEnabled => .integer row.udpEnabled
  | .proxyProtocol => .text row.proxyProtocol
  | .incomingProxyProtocol => .integer row.incomingProxyProtocol
  | .proxyProtocolTrustedCidrs => .addresses row.proxyProtocolTrustedCidrs
  | .certificateId => .nullable row.certificateId
  | .eventRetentionDays => .integer row.eventRetentionDays
  | .defaultIpAction => .text row.defaultIpAction
  | .defaultCountryAction => .text row.defaultCountryAction
  | .maxConnectionsPerIp => .integer row.maxConnectionsPerIp
  | .connectionRateLimitEnabled => .integer row.connectionRateLimitEnabled
  | .connectionRateLimitAlgorithm => .text row.connectionRateLimitAlgorithm
  | .connectionRateLimitWindowMs => .integer row.connectionRateLimitWindowMs
  | .connectionRateLimitMax => .integer row.connectionRateLimitMax
  | .connectionRateLimitRefillRate => .integer row.connectionRateLimitRefillRate
  | .connectionRateLimitRefillIntervalMs => .integer row.connectionRateLimitRefillIntervalMs
  | .connectionRateLimitPrecisionMs => .integer row.connectionRateLimitPrecisionMs
  | .udpAmplificationMaxRatio => .integer row.udpAmplificationMaxRatio
  | .originHealthCheckEnabled => .integer row.originHealthCheckEnabled
  | .originHealthCheckIntervalSeconds => .integer row.originHealthCheckIntervalSeconds
  | .originHealthCheckTimeoutMs => .integer row.originHealthCheckTimeoutMs
  | .originHealthCheckFailureThreshold => .integer row.originHealthCheckFailureThreshold
  | .originHealthCheckRecoveryThreshold => .integer row.originHealthCheckRecoveryThreshold
  | .protectionPolicyJson => .nullable row.protectionPolicyJson
  | .networkPrivacyPolicyJson => .nullable row.networkPrivacyPolicyJson
  | .crowdsecPolicyJson => .nullable row.crowdsecPolicyJson
  | .bandwidthPolicyJson => .nullable row.bandwidthPolicyJson
  | .notificationPolicyJson => .nullable row.notificationPolicyJson
  | .createdAt => .integer row.createdAt
  | .updatedAt => .integer row.updatedAt

/-- The field of the input that determines a column. -/
def Column.field (input : StreamInput) : Column → Option JsValue
  | .name => some input.name
  | .incomingPort => some input.incomingPort
  | .forwardHost => some input.forwardHost
  | .forwardPort => some input.forwardPort
  | .tcpEnabled => some input.tcpEnabled
  | .udpEnabled => some input.udpEnabled
  | .proxyProtocol => some input.proxyProtocol
  | .incomingProxyProtocol => some input.incomingProxyProtocol
  | .proxyProtocolTrustedCidrs => some input.trustedProxyCidrs
  | .certificateId => some input.certificateId
  | .eventRetentionDays => some input.eventRetentionDays
  | .maxConnectionsPerIp => some input.maxConnectionsPerIp
  | .connectionRateLimitEnabled => some input.connectionRateLimitEnabled
  | .connectionRateLimitAlgorithm => some input.connectionRateLimitAlgorithm
  | .connectionRateLimitWindowMs => some input.connectionRateLimitWindowMs
  | .connectionRateLimitMax => some input.connectionRateLimitMax
  | .connectionRateLimitRefillRate => some input.connectionRateLimitRefillRate
  | .connectionRateLimitRefillIntervalMs => some input.connectionRateLimitRefillIntervalMs
  | .connectionRateLimitPrecisionMs => some input.connectionRateLimitPrecisionMs
  | .udpAmplificationMaxRatio => some input.udpAmplificationMaxRatio
  | .originHealthCheckEnabled => some input.originHealthCheckEnabled
  | .originHealthCheckIntervalSeconds => some input.originHealthCheckIntervalSeconds
  | .originHealthCheckTimeoutMs => some input.originHealthCheckTimeoutMs
  | .originHealthCheckFailureThreshold => some input.originHealthCheckFailureThreshold
  | .originHealthCheckRecoveryThreshold => some input.originHealthCheckRecoveryThreshold
  | .id | .defaultIpAction | .defaultCountryAction | .protectionPolicyJson
  | .networkPrivacyPolicyJson | .crowdsecPolicyJson | .bandwidthPolicyJson
  | .notificationPolicyJson | .createdAt | .updatedAt => none

/-- The columns that an edit leaves alone. The time of the edit itself is not one of them. -/
def Column.Unmentioned (input : StreamInput) (column : Column) : Prop :=
  column ≠ .updatedAt ∧ ∀ value, column.field input = some value → value = .undefined

def Column.restarts : Column → Bool
  | .tcpEnabled | .udpEnabled | .incomingPort | .forwardHost | .forwardPort | .certificateId
  | .proxyProtocol | .incomingProxyProtocol | .proxyProtocolTrustedCidrs => true
  | _ => false

def Kept (input : StreamInput) (before after : StreamRecord) : Prop :=
  ∀ column : Column, column.Unmentioned input → column.read after = column.read before

/-- The row of a stream keeps what the edit does not mention. -/
def KeptIn (input : StreamInput) (before : StreamRecord) (rows : List StreamRecord) : Prop :=
  ∃ after, rows.find? (·.id = before.id) = some after ∧ Kept input before after

/-- What a row becomes in an edit that mentions nothing. -/
def rebuild (row : StreamRecord) : StreamRecord :=
  { row with
    name := trim row.name
    forwardHost := unbracket (trim row.forwardHost)
    tcpEnabled := flag (row.tcpEnabled = 1)
    udpEnabled := flag (row.udpEnabled = 1)
    incomingProxyProtocol := flag (row.incomingProxyProtocol = 1)
    proxyProtocolTrustedCidrs :=
      some (((row.proxyProtocolTrustedCidrs.getD []).map trim).eraseDups)
    certificateId :=
      if trim (row.certificateId.getD []) = [] then none
      else some (trim (row.certificateId.getD []))
    connectionRateLimitEnabled := flag (row.connectionRateLimitEnabled = 1)
    originHealthCheckEnabled := flag (row.originHealthCheckEnabled = 1)
    crowdsecPolicyJson := none }

/-- The columns that the edit rebuilds, unmentioned, are as they become. -/
def Settled (input : StreamInput) (previous : StreamRecord) (deferred : Bool) : Prop :=
  ∀ column : Column, column.Unmentioned input → (deferred = true → column.restarts = false) →
    column.read (rebuild previous) = column.read previous

/-- The listener columns that the edit did not mention are still as it found and rebuilt them. -/
def Undisturbed (input : StreamInput) (previous live : StreamRecord) : Prop :=
  ∀ column : Column, column.Unmentioned input → column.restarts = true →
    column.read (rebuild previous) = column.read live

section

variable (env : StreamEnv) (now : Int) (table : StreamTable) (previous : StreamRecord)
  (edit : StreamEdit) (later : StreamTable) (live : StreamRecord) (appliedAt : Int)
  (activates : Option String)

/-- After the edit, and after its staged change has been applied to what the table is then. -/
structure EditKeeps : Prop where
  saved : (updateStream env now table.rows previous edit).error = none →
    KeptIn edit.input previous (updateStream env now table.rows previous edit).rows
  restored : edit.activates ≠ none →
    (updateStream env now table.rows previous edit).rows = table.rows
  applied : ∀ changes,
    (updateStream env now table.rows previous edit).staged = some changes →
    (applyPendingStreamChange appliedAt later.rows live.id changes activates).error = none →
    KeptIn edit.input live
      (applyPendingStreamChange appliedAt later.rows live.id changes activates).rows
  appliedRestored : ∀ changes,
    (updateStream env now table.rows previous edit).staged = some changes → activates ≠ none →
    (applyPendingStreamChange appliedAt later.rows live.id changes activates).rows = later.rows

/-- Where the edit goes through, the columns that it rebuilds are settled; where its staged change
does, nobody has touched the listener columns in between. -/
structure Orderly : Prop where
  settled : (updateStream env now table.rows previous edit).error = none →
    Settled edit.input previous (updateStream env now table.rows previous edit).staged.isSome
  undisturbed : ∀ changes,
    (updateStream env now table.rows previous edit).staged = some changes →
    (applyPendingStreamChange appliedAt later.rows live.id changes activates).error = none →
    Undisturbed edit.input previous live

end

variable {env : StreamEnv} {now : Int} {input : StreamInput} {previous candidate : StreamRecord}
  {rows : List StreamRecord} {table : StreamTable}

/-! ## Columns that the input does not mention -/

theorem ok_of_bind {α β : Type} {x : Except String α} {f : α → Except String β} {b : β}
    (h : (x >>= f) = .ok b) : ∃ a, x = .ok a ∧ f a = .ok b := by
  cases x with
  | error message => cases h
  | ok a => exact ⟨a, rfl, h⟩

theorem integerWithin_integer {message : String} {minimum maximum n m : Int}
    (h : integerWithin message minimum maximum (some n) = .ok m) : m = n := by
  rw [integerWithin] at h
  split at h
  · exact (Except.ok.inj h).symm
  · cases h

/-! ## Columns that the input does not mention -/

theorem requiredString_string {text result : Text} {label : String} {maximum : Nat}
    (h : requiredString (.string text) label maximum = .ok result) : result = trim text := by
  rw [requiredString] at h
  split at h
  · cases h
  · split at h
    · cases h
    · exact (Except.ok.inj h).symm

theorem forwardHost_string {text result : Text} (h : forwardHost (.string text) = .ok result) :
    result = unbracket (trim text) := by
  rw [forwardHost] at h
  split at h
  · cases h
  · split at h
    · cases h
    · split at h
      · cases h
      · dsimp only at h
        split at h
        · cases h
        · exact (Except.ok.inj h).symm

theorem trustedProxyEntry_string {text result : Text}
    (h : trustedProxyEntry (.string text) = .ok result) : result = trim text := by
  rw [trustedProxyEntry] at h
  dsimp only [JsValue.string?] at h
  split at h
  · exact (Except.ok.inj h).symm
  · cases h

theorem mapM_trustedProxyEntry {list result : List Text}
    (h : (list.map JsValue.string).mapM trustedProxyEntry = .ok result) :
    result = list.map trim := by
  induction list generalizing result with
  | nil => exact (Except.ok.inj h).symm
  | cons text list ih =>
      rw [List.map_cons, List.mapM_cons] at h
      obtain ⟨first, hfirst, h⟩ := ok_of_bind h
      obtain ⟨rest, hrest, h⟩ := ok_of_bind h
      rw [← Except.ok.inj h, trustedProxyEntry_string hfirst, ih hrest, List.map_cons]

theorem parseTrustedProxyCidrs_strings {list result : List Text}
    (h : parseTrustedProxyCidrs (.array (list.map .string)) = .ok result) :
    result = (list.map trim).eraseDups := by
  rw [parseTrustedProxyCidrs] at h
  split at h
  · cases h
  · cases hentries : (list.map JsValue.string).mapM trustedProxyEntry with
    | error message => rw [hentries] at h; cases h
    | ok entries =>
        rw [hentries] at h
        rw [← Except.ok.inj h, mapM_trustedProxyEntry hentries]

theorem certificateId_nullable {value result : Option Text} {on : Bool}
    (h : certificateId env now (nullableText value) on = .ok result) :
    result = if trim (value.getD []) = [] then none else some (trim (value.getD [])) := by
  have htext : ((nullableText value).orElse (.string [])).toText = value.getD [] := by
    cases value with
    | none => rfl
    | some text => rfl
  rw [certificateId, htext] at h
  split at h
  · rw [if_pos ‹_›]
    exact (Except.ok.inj h).symm
  · rw [if_neg ‹_›]
    split at h
    · cases h
    · split at h
      · cases h
      · split at h
        · cases h
        · split at h
          · cases h
          · exact (Except.ok.inj h).symm

theorem keyword_undefined {fallback result : Text}
    (h : rateLimitAlgorithm env .undefined fallback = .ok result) : result = fallback := by
  rw [rateLimitAlgorithm] at h
  split at h
  · exact (Except.ok.inj h).symm
  · cases h

theorem proxyProtocol_undefined {fallback result : Text} {on : Bool}
    (h : proxyProtocol env .undefined fallback on = .ok result) : result = fallback := by
  rw [proxyProtocol] at h
  split at h
  · cases h
  · split at h
    · cases h
    · exact (Except.ok.inj h).symm

theorem flag_undefined {value : JsValue} {before : Int} {on : Bool}
    (h : booleanValue value (before = 1) = .ok on) (hvalue : value = .undefined) :
    flag on = flag (before = 1) := by
  subst hvalue
  rw [← Except.ok.inj h]

theorem integer_undefined {value : JsValue} {column before lower upper : Int} {label : String}
    (h : integerValue value label before lower upper = .ok column)
    (hvalue : value = .undefined) : column = before := by
  subst hvalue
  exact integerWithin_integer h

theorem port_undefined {value : JsValue} {column before : Int} {label : String}
    (h : port (value.orElse (jsInteger before)) label = .ok column)
    (hvalue : value = .undefined) : column = before := by
  subst hvalue
  exact integerWithin_integer h

/-! ## What `buildStream` makes of a row -/

structure Built (input : StreamInput) (previous candidate : StreamRecord) : Prop where
  id : candidate.id = previous.id
  createdAt : candidate.createdAt = previous.createdAt
  unmentioned : ∀ column : Column, column.Unmentioned input →
    column.read candidate = column.read (rebuild previous)

/-- Column by column, the check that a record has passed leaves what the input does not mention. -/
theorem buildStream_built {newId : Text}
    (h : buildStream env now newId input (some previous) = .ok candidate) :
    Built input previous candidate := by
  obtain ⟨tcp, htcp, h⟩ := ok_of_bind h
  obtain ⟨udp, hudp, h⟩ := ok_of_bind h
  obtain ⟨-, -, h⟩ := ok_of_bind h
  obtain ⟨incomingPort, hincomingPort, h⟩ := ok_of_bind h
  obtain ⟨-, -, h⟩ := ok_of_bind h
  obtain ⟨-, -, h⟩ := ok_of_bind h
  obtain ⟨incomingProxy, hincomingProxy, h⟩ := ok_of_bind h
  obtain ⟨trusted, htrusted, h⟩ := ok_of_bind h
  obtain ⟨-, -, h⟩ := ok_of_bind h
  obtain ⟨-, -, h⟩ := ok_of_bind h
  obtain ⟨name, hname, h⟩ := ok_of_bind h
  obtain ⟨host, hhost, h⟩ := ok_of_bind h
  obtain ⟨forwardPort, hforwardPort, h⟩ := ok_of_bind h
  obtain ⟨protocol, hprotocol, h⟩ := ok_of_bind h
  obtain ⟨certificate, hcertificate, h⟩ := ok_of_bind h
  obtain ⟨retention, hretention, h⟩ := ok_of_bind h
  obtain ⟨maxConnections, hmaxConnections, h⟩ := ok_of_bind h
  obtain ⟨rateLimit, hrateLimit, h⟩ := ok_of_bind h
  obtain ⟨algorithm, halgorithm, h⟩ := ok_of_bind h
  obtain ⟨windowMs, hwindowMs, h⟩ := ok_of_bind h
  obtain ⟨rateMax, hrateMax, h⟩ := ok_of_bind h
  obtain ⟨refillRate, hrefillRate, h⟩ := ok_of_bind h
  obtain ⟨refillInterval, hrefillInterval, h⟩ := ok_of_bind h
  obtain ⟨precision, hprecision, h⟩ := ok_of_bind h
  obtain ⟨amplification, hamplification, h⟩ := ok_of_bind h
  obtain ⟨health, hhealth, h⟩ := ok_of_bind h
  obtain ⟨interval, hinterval, h⟩ := ok_of_bind h
  obtain ⟨timeout, htimeout, h⟩ := ok_of_bind h
  obtain ⟨failure, hfailure, h⟩ := ok_of_bind h
  obtain ⟨recovery, hrecovery, h⟩ := ok_of_bind h
  obtain rfl := Except.ok.inj h
  have htcp' : booleanValue input.tcpEnabled (previous.tcpEnabled = 1) = .ok tcp := by
    rw [← htcp]
    simp [isOn]
  refine ⟨rfl, rfl, ?_⟩
  rintro column ⟨htime, hfield⟩
  cases column with
  | name =>
      rw [hfield _ rfl] at hname
      exact congrArg Cell.text (requiredString_string hname)
  | incomingPort => exact congrArg Cell.integer (port_undefined hincomingPort (hfield _ rfl))
  | forwardHost =>
      rw [hfield _ rfl] at hhost
      exact congrArg Cell.text (forwardHost_string hhost)
  | forwardPort => exact congrArg Cell.integer (port_undefined hforwardPort (hfield _ rfl))
  | tcpEnabled => exact congrArg Cell.integer (flag_undefined htcp' (hfield _ rfl))
  | udpEnabled => exact congrArg Cell.integer (flag_undefined hudp (hfield _ rfl))
  | proxyProtocol =>
      rw [hfield _ rfl] at hprotocol
      exact congrArg Cell.text (proxyProtocol_undefined hprotocol)
  | incomingProxyProtocol =>
      exact congrArg Cell.integer (flag_undefined hincomingProxy (hfield _ rfl))
  | proxyProtocolTrustedCidrs =>
      rw [hfield _ rfl] at htrusted
      exact congrArg (Cell.addresses ∘ some) (parseTrustedProxyCidrs_strings htrusted)
  | certificateId =>
      rw [hfield _ rfl] at hcertificate
      exact congrArg Cell.nullable (certificateId_nullable hcertificate)
  | eventRetentionDays =>
      rw [hfield _ rfl] at hretention
      exact congrArg Cell.integer (integerWithin_integer hretention)
  | maxConnectionsPerIp =>
      rw [hfield _ rfl] at hmaxConnections
      exact congrArg Cell.integer (integerWithin_integer hmaxConnections)
  | connectionRateLimitEnabled =>
      exact congrArg Cell.integer (flag_undefined hrateLimit (hfield _ rfl))
  | connectionRateLimitAlgorithm =>
      rw [hfield _ rfl] at halgorithm
      exact congrArg Cell.text (keyword_undefined halgorithm)
  | connectionRateLimitWindowMs =>
      exact congrArg Cell.integer (integer_undefined hwindowMs (hfield _ rfl))
  | connectionRateLimitMax =>
      exact congrArg Cell.integer (integer_undefined hrateMax (hfield _ rfl))
  | connectionRateLimitRefillRate =>
      exact congrArg Cell.integer (integer_undefined hrefillRate (hfield _ rfl))
  | connectionRateLimitRefillIntervalMs =>
      exact congrArg Cell.integer (integer_undefined hrefillInterval (hfield _ rfl))
  | connectionRateLimitPrecisionMs =>
      exact congrArg Cell.integer (integer_undefined hprecision (hfield _ rfl))
  | udpAmplificationMaxRatio =>
      rw [hfield _ rfl] at hamplification
      exact congrArg Cell.integer (integerWithin_integer hamplification)
  | originHealthCheckEnabled =>
      exact congrArg Cell.integer (flag_undefined hhealth (hfield _ rfl))
  | originHealthCheckIntervalSeconds =>
      exact congrArg Cell.integer (integer_undefined hinterval (hfield _ rfl))
  | originHealthCheckTimeoutMs =>
      exact congrArg Cell.integer (integer_undefined htimeout (hfield _ rfl))
  | originHealthCheckFailureThreshold =>
      exact congrArg Cell.integer (integer_undefined hfailure (hfield _ rfl))
  | originHealthCheckRecoveryThreshold =>
      exact congrArg Cell.integer (integer_undefined hrecovery (hfield _ rfl))
  | updatedAt => exact absurd rfl htime
  -- What `buildStream` does not take from the input.
  | _ => rfl

theorem read_withRestartFields (record other : StreamRecord) (column : Column) :
    column.read (record.withRestartFields (pickStreamRestartFields other)) =
      if column.restarts then column.read other else column.read record := by
  cases column <;> rfl

/-! ## Saving -/

theorem find?_of_mem {row : StreamRecord} (hids : (rows.map (·.id)).Nodup) (hrow : row ∈ rows) :
    rows.find? (·.id = row.id) = some row := by
  cases hfound : rows.find? (·.id = row.id) with
  | none =>
      have hnone := List.find?_eq_none.mp hfound row hrow
      simp at hnone
  | some found =>
      have hid : found.id = row.id := by simpa using List.find?_some hfound
      rw [BurrowGate.Lib.Table.eq_of_key hids (List.mem_of_find?_eq_some hfound) hrow hid]

/-- The row that an update writes is found under its key. -/
theorem find?_updateWhere {f : StreamRecord → StreamRecord} (hf : ∀ row, (f row).id = previous.id)
    (hids : (rows.map (·.id)).Nodup) (hprevious : previous ∈ rows) :
    (updateWhere (·.id) previous.id f rows).find? (·.id = previous.id) = some (f previous) := by
  have hmem : f previous ∈ updateWhere (·.id) previous.id f rows :=
    BurrowGate.Lib.Table.updateWhere_mem hprevious rfl
  have hkeys : ((updateWhere (·.id) previous.id f rows).map (·.id)) = rows.map (·.id) := by
    rw [updateWhere, List.map_map]
    refine List.map_congr_left fun row _ => ?_
    by_cases hid : row.id = previous.id
    · simp [hid, hf]
    · simp [hid]
  have hfound := find?_of_mem (by rw [hkeys]; exact hids) hmem
  rwa [hf] at hfound

/-- Rows of the same stream do not count as taken. -/
theorem bindingTaken_updateWhere {f : StreamRecord → StreamRecord} {stream : StreamRecord}
    (hf : ∀ row, (f row).id = stream.id) :
    bindingTaken (updateWhere (·.id) stream.id f rows) stream = bindingTaken rows stream := by
  rw [bindingTaken, bindingTaken, updateWhere, List.any_map]
  congr 1
  funext row
  by_cases hid : row.id = stream.id
  · simp [hid, hf]
  · simp [hid]

theorem saveStream_cases {stream : StreamRecord} (hprevious : previous ∈ rows)
    (hid : stream.id = previous.id) :
    (∃ message, saveStream rows stream = .error message) ∨
      (bindingTaken rows stream = false ∧
        saveStream rows stream =
          .ok (updateWhere (·.id) previous.id stream.writtenOver rows)) := by
  have hpresent : rows.any (·.id = stream.id) = true :=
    List.any_eq_true.mpr ⟨previous, hprevious, by simp [hid]⟩
  rw [saveStream]
  cases htaken : bindingTaken rows stream with
  | true => exact .inl ⟨_, rfl⟩
  | false =>
      rw [if_neg (by decide), if_pos hpresent, hid]
      exact .inr ⟨rfl, rfl⟩

/-- Writing the previous row back undoes an update of it. -/
theorem updateWhere_undo {stream : StreamRecord} (hids : (rows.map (·.id)).Nodup)
    (hprevious : previous ∈ rows) (hid : stream.id = previous.id) :
    updateWhere (·.id) previous.id previous.writtenOver
        (updateWhere (·.id) previous.id stream.writtenOver rows) = rows := by
  rw [updateWhere, updateWhere, List.map_map]
  conv_rhs => rw [← List.map_id rows]
  refine List.map_congr_left fun row hrow => ?_
  by_cases hsame : row.id = previous.id
  · obtain rfl := BurrowGate.Lib.Table.eq_of_key hids hrow hprevious hsame
    simp [StreamRecord.writtenOver, hid]
  · simp [hsame]

/-- A failed activation leaves the table as it was. -/
theorem saveAndActivate_failed (stream : StreamRecord) (hprevious : previous ∈ table.rows)
    (hid : stream.id = previous.id) (failure : String) :
    (saveAndActivate table.rows stream previous (some failure)).rows = table.rows := by
  rw [saveAndActivate]
  rcases saveStream_cases hprevious hid with ⟨message, herror⟩ | ⟨-, hok⟩
  · rw [herror]
  · rw [hok]
    dsimp only
    have hkey : ∀ row, (stream.writtenOver row).id = previous.id := fun _ => hid
    have hwritten : stream.writtenOver previous ∈
        updateWhere (·.id) previous.id stream.writtenOver table.rows :=
      BurrowGate.Lib.Table.updateWhere_mem hprevious rfl
    have hfree : bindingTaken (updateWhere (·.id) previous.id stream.writtenOver table.rows)
        previous = false := by
      rw [bindingTaken_updateWhere hkey]
      exact table.bound previous hprevious
    rcases saveStream_cases hwritten (hkey previous).symm with ⟨message, herror⟩ | ⟨-, hrestored⟩
    · rw [saveStream, hfree, if_neg (by decide)] at herror
      split at herror
      · cases herror
      · cases herror
    · rw [hkey] at hrestored
      rw [hrestored]
      exact updateWhere_undo table.ids hprevious hid

theorem saveAndActivate_ok {stream : StreamRecord} (hprevious : previous ∈ table.rows)
    (hid : stream.id = previous.id) {activates : Option String}
    (h : (saveAndActivate table.rows stream previous activates).error = none) :
    (saveAndActivate table.rows stream previous activates).rows.find? (·.id = previous.id) =
      some (stream.writtenOver previous) := by
  rw [saveAndActivate] at h ⊢
  rcases saveStream_cases hprevious hid with ⟨message, herror⟩ | ⟨-, hok⟩
  · rw [herror] at h
    cases h
  · rw [hok] at h ⊢
    dsimp only at h ⊢
    cases activates with
    | some failure =>
        dsimp only at h
        split at h
        · cases h
        · cases h
    | none => exact find?_updateWhere (fun _ => hid) table.ids hprevious

theorem keptIn_iff (input : StreamInput) (stream : StreamRecord) (hprevious : previous ∈ table.rows)
    (hid : stream.id = previous.id) (hcreated : stream.createdAt = previous.createdAt)
    {activates : Option String}
    (h : (saveAndActivate table.rows stream previous activates).error = none) :
    KeptIn input previous (saveAndActivate table.rows stream previous activates).rows ↔
      Kept input previous stream := by
  have hsame : stream.writtenOver previous = stream := by rw [StreamRecord.writtenOver, ← hcreated]
  have hfound := saveAndActivate_ok hprevious hid h
  rw [hsame] at hfound
  constructor
  · rintro ⟨after, hafter, hkept⟩
    obtain rfl := Option.some.inj (hfound.symm.trans hafter)
    exact hkept
  · intro hkept
    exact ⟨stream, hfound, hkept⟩

/-! ## Both kinds of save -/

theorem kept_candidate_iff (h : Built input previous candidate) :
    Kept input previous candidate ↔ Settled input previous false := by
  constructor
  · intro hkept column hcolumn _
    rw [← h.unmentioned column hcolumn]
    exact hkept column hcolumn
  · intro hsettled column hcolumn
    rw [h.unmentioned column hcolumn]
    exact hsettled column hcolumn fun hfalse => (by cases hfalse)

theorem kept_immediate_iff (h : Built input previous candidate) :
    Kept input previous (candidate.withRestartFields (pickStreamRestartFields previous)) ↔
      Settled input previous true := by
  constructor
  · intro hkept column hcolumn hplain
    have hread := hkept column hcolumn
    rw [read_withRestartFields, if_neg (by rw [hplain rfl]; decide)] at hread
    rw [← h.unmentioned column hcolumn]
    exact hread
  · intro hsettled column hcolumn
    rw [read_withRestartFields]
    split
    · rfl
    · rename_i hplain
      rw [h.unmentioned column hcolumn]
      exact hsettled column hcolumn fun _ => Bool.eq_false_of_not_eq_true hplain

/-- A staged change writes every listener column. -/
theorem kept_applied_iff (h : Built input previous candidate) {live : StreamRecord}
    (time : Int) :
    Kept input live { live.withRestartFields (pickStreamRestartFields candidate) with
      updatedAt := time } ↔ Undisturbed input previous live := by
  have hread : ∀ column : Column, column ≠ .updatedAt →
      column.read { live.withRestartFields (pickStreamRestartFields candidate) with
        updatedAt := time } =
      column.read (live.withRestartFields (pickStreamRestartFields candidate)) := by
    intro column htime
    cases column with
    | updatedAt => exact absurd rfl htime
    | _ => rfl
  constructor
  · intro hkept column hcolumn hrestarts
    have hcell := hkept column hcolumn
    rw [hread column hcolumn.1, read_withRestartFields, if_pos hrestarts] at hcell
    rw [← h.unmentioned column hcolumn]
    exact hcell
  · intro hundisturbed column hcolumn
    rw [hread column hcolumn.1, read_withRestartFields]
    split
    · rw [h.unmentioned column hcolumn]
      exact hundisturbed column hcolumn ‹_›
    · rfl

theorem updateStream_saved (hprevious : previous ∈ table.rows) {edit : StreamEdit}
    (hdone : (updateStream env now table.rows previous edit).error = none) :
    KeptIn edit.input previous (updateStream env now table.rows previous edit).rows ↔
      Settled edit.input previous
        (updateStream env now table.rows previous edit).staged.isSome := by
  rw [updateStream] at hdone ⊢
  cases hbuild : buildStream env now [] edit.input (some previous) with
  | error message => rw [hbuild] at hdone; cases hdone
  | ok candidate =>
      have hbuilt := buildStream_built hbuild
      have hid : candidate.id = previous.id := hbuilt.id
      have hcreated := hbuilt.createdAt
      rw [hbuild] at hdone
      dsimp only at hdone ⊢
      split at hdone
      · rename_i hscheduled
        rw [if_pos hscheduled]
        cases hpending : edit.pending with
        | some time => rw [hpending] at hdone; cases hdone
        | none =>
            rw [hpending] at hdone
            dsimp only at hdone ⊢
            rw [hdone]
            have hkept := keptIn_iff edit.input
              (candidate.withRestartFields (pickStreamRestartFields previous)) hprevious hid
              hcreated hdone
            exact hkept.trans (kept_immediate_iff hbuilt)
      · rename_i hscheduled
        rw [if_neg hscheduled]
        exact (keptIn_iff edit.input candidate hprevious hid hcreated hdone).trans
          (kept_candidate_iff hbuilt)

theorem updateStream_failed (hprevious : previous ∈ table.rows) {edit : StreamEdit}
    (hfails : edit.activates ≠ none) :
    (updateStream env now table.rows previous edit).rows = table.rows := by
  obtain ⟨failure, hfailure⟩ := Option.ne_none_iff_exists'.mp hfails
  rw [updateStream]
  cases hbuild : buildStream env now [] edit.input (some previous) with
  | error message => rfl
  | ok candidate =>
      have hid := (buildStream_built hbuild).id
      dsimp only
      rw [hfailure]
      split
      · cases hpending : edit.pending with
        | some time => rfl
        | none =>
            exact saveAndActivate_failed
              (candidate.withRestartFields (pickStreamRestartFields previous)) hprevious hid failure
      · exact saveAndActivate_failed candidate hprevious hid failure

/-- What is staged are the listener columns of the record that was built. -/
theorem staged_built {edit : StreamEdit} {changes : RestartFields}
    (h : (updateStream env now rows previous edit).staged = some changes) :
    ∃ candidate, Built edit.input previous candidate ∧
      changes = pickStreamRestartFields candidate := by
  rw [updateStream] at h
  cases hbuild : buildStream env now [] edit.input (some previous) with
  | error message => rw [hbuild] at h; cases h
  | ok candidate =>
      rw [hbuild] at h
      dsimp only at h
      split at h
      · cases hpending : edit.pending with
        | some time => rw [hpending] at h; cases h
        | none =>
            rw [hpending] at h
            dsimp only at h
            split at h
            · exact ⟨candidate, buildStream_built hbuild, (Option.some.inj h).symm⟩
            · cases h
      · cases h

theorem applied_kept {later : StreamTable} {live : StreamRecord} (hlive : live ∈ later.rows)
    {edit : StreamEdit} {changes : RestartFields}
    (hstaged : (updateStream env now rows previous edit).staged = some changes)
    {appliedAt : Int} {activates : Option String}
    (hdone : (applyPendingStreamChange appliedAt later.rows live.id changes activates).error =
      none) :
    KeptIn edit.input live
        (applyPendingStreamChange appliedAt later.rows live.id changes activates).rows ↔
      Undisturbed edit.input previous live := by
  obtain ⟨candidate, hbuilt, rfl⟩ := staged_built hstaged
  rw [applyPendingStreamChange, find?_of_mem later.ids hlive] at hdone ⊢
  have hkept := keptIn_iff edit.input
    { live.withRestartFields (pickStreamRestartFields candidate) with updatedAt := appliedAt }
    hlive rfl rfl hdone
  exact hkept.trans (kept_applied_iff hbuilt appliedAt)

theorem applied_failed {later : StreamTable} {live : StreamRecord} (hlive : live ∈ later.rows)
    (changes : RestartFields) {appliedAt : Int} {activates : Option String}
    (hfails : activates ≠ none) :
    (applyPendingStreamChange appliedAt later.rows live.id changes activates).rows =
      later.rows := by
  obtain ⟨failure, rfl⟩ := Option.ne_none_iff_exists'.mp hfails
  rw [applyPendingStreamChange, find?_of_mem later.ids hlive]
  exact saveAndActivate_failed { live.withRestartFields changes with updatedAt := appliedAt }
    hlive rfl failure

theorem edit_keeps_iff (env : StreamEnv) (now : Int) (table : StreamTable)
    (previous : StreamRecord) (hprevious : previous ∈ table.rows) (edit : StreamEdit)
    (later : StreamTable) (live : StreamRecord) (hlive : live ∈ later.rows) (appliedAt : Int)
    (activates : Option String) :
    EditKeeps env now table previous edit later live appliedAt activates ↔
      Orderly env now table previous edit later live appliedAt activates := by
  constructor
  · intro h
    refine ⟨fun hdone => ?_, fun changes hstaged hdone => ?_⟩
    · exact (updateStream_saved hprevious hdone).mp (h.saved hdone)
    · exact (applied_kept hlive hstaged hdone).mp (h.applied changes hstaged hdone)
  · intro h
    refine ⟨fun hdone => ?_, updateStream_failed hprevious, fun changes hstaged hdone => ?_,
      fun changes _ hfails => applied_failed hlive changes hfails⟩
    · exact (updateStream_saved hprevious hdone).mpr (h.settled hdone)
    · exact (applied_kept hlive hstaged hdone).mpr (h.undisturbed changes hstaged hdone)

/-! ## A stream of the table -/

def plainEnv : StreamEnv :=
  { cases := asciiCases
    httpEnabled := false
    httpPort := 80
    httpsEnabled := false
    httpsPort := 443
    eventRetentionDays := 30
    certificateById := fun _ => none }

def game : StreamRecord :=
  { id := "stream_1".toList
    name := "game".toList
    incomingPort := 25565
    forwardHost := "10.0.0.5".toList
    forwardPort := 25565
    tcpEnabled := 1
    udpEnabled := 0
    proxyProtocol := "disabled".toList
    incomingProxyProtocol := 0
    proxyProtocolTrustedCidrs := some []
    certificateId := none
    eventRetentionDays := 30
    defaultIpAction := "inherit".toList
    defaultCountryAction := "block".toList
    maxConnectionsPerIp := 4
    connectionRateLimitEnabled := 0
    connectionRateLimitAlgorithm := "sliding-window".toList
    connectionRateLimitWindowMs := 60000
    connectionRateLimitMax := 60
    connectionRateLimitRefillRate := 10
    connectionRateLimitRefillIntervalMs := 1000
    connectionRateLimitPrecisionMs := 100
    udpAmplificationMaxRatio := 0
    originHealthCheckEnabled := 0
    originHealthCheckIntervalSeconds := 10
    originHealthCheckTimeoutMs := 3000
    originHealthCheckFailureThreshold := 3
    originHealthCheckRecoveryThreshold := 2
    protectionPolicyJson := none
    networkPrivacyPolicyJson := none
    crowdsecPolicyJson := none
    bandwidthPolicyJson := none
    notificationPolicyJson := none
    createdAt := 1
    updatedAt := 1 }

def guarded : StreamRecord :=
  { game with crowdsecPolicyJson := some "\x7b\"mode\":\"block\"\x7d".toList }

def emptyInput : StreamInput :=
  { name := .undefined
    incomingPort := .undefined
    forwardHost := .undefined
    forwardPort := .undefined
    tcpEnabled := .undefined
    udpEnabled := .undefined
    proxyProtocol := .undefined
    incomingProxyProtocol := .undefined
    trustedProxyCidrs := .undefined
    certificateId := .undefined
    eventRetentionDays := .undefined
    maxConnectionsPerIp := .undefined
    connectionRateLimitEnabled := .undefined
    connectionRateLimitAlgorithm := .undefined
    connectionRateLimitWindowMs := .undefined
    connectionRateLimitMax := .undefined
    connectionRateLimitRefillRate := .undefined
    connectionRateLimitRefillIntervalMs := .undefined
    connectionRateLimitPrecisionMs := .undefined
    udpAmplificationMaxRatio := .undefined
    originHealthCheckEnabled := .undefined
    originHealthCheckIntervalSeconds := .undefined
    originHealthCheckTimeoutMs := .undefined
    originHealthCheckFailureThreshold := .undefined
    originHealthCheckRecoveryThreshold := .undefined }

/-- Another port of the origin, from the time on. -/
def moved : StreamEdit :=
  ⟨{ emptyInput with forwardPort := jsInteger 25566 }, some 5, none, none⟩

def renamed : StreamEdit :=
  ⟨{ emptyInput with name := .string "arena".toList }, none, none, none⟩

def gameTable : StreamTable :=
  { rows := [game]
    ids := List.nodup_singleton _
    bound := by decide }

def guardedTable : StreamTable :=
  { rows := [guarded]
    ids := List.nodup_singleton _
    bound := by decide }

theorem edit_keeps_iff_moved :
    (updateStream plainEnv 2 gameTable.rows game moved).staged.isSome = true ∧
      EditKeeps plainEnv 2 gameTable game moved gameTable game 5 none := by
  have hrebuild : rebuild game = game := by decide +kernel
  refine ⟨by decide +kernel, (edit_keeps_iff plainEnv 2 gameTable game List.mem_cons_self moved
    gameTable game List.mem_cons_self 5 none).mpr ⟨fun _ => ?_, fun _ _ _ => ?_⟩⟩
  · intro column _ _
    rw [hrebuild]
  · intro column _ _
    rw [hrebuild]

/-- Naming a stream anew drops its CrowdSec policy. -/
theorem renaming_drops_policy :
    ¬∀ (env : StreamEnv) (now : Int) (table : StreamTable) (previous : StreamRecord),
      previous ∈ table.rows → ∀ (edit : StreamEdit) (later : StreamTable) (live : StreamRecord),
      live ∈ later.rows → ∀ (appliedAt : Int) (activates : Option String),
      EditKeeps env now table previous edit later live appliedAt activates := by
  intro h
  have hkeeps := h plainEnv 2 guardedTable guarded List.mem_cons_self renamed guardedTable guarded
    List.mem_cons_self 5 none
  obtain ⟨after, hafter, hkept⟩ := hkeeps.saved (by decide +kernel)
  have hrow : (updateStream plainEnv 2 guardedTable.rows guarded renamed).rows.find?
      (·.id = guarded.id) = some { game with name := "arena".toList, updatedAt := 2 } := by
    decide +kernel
  rw [hrow] at hafter
  obtain rfl := Option.some.inj hafter
  have hunmentioned : Column.crowdsecPolicyJson.Unmentioned renamed.input :=
    ⟨by decide, fun value hvalue => (by cases hvalue)⟩
  exact absurd (hkept .crowdsecPolicyJson hunmentioned) (by decide)

end BurrowGate.StreamEdits
