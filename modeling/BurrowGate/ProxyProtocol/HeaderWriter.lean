import BurrowGate.Net.Ipv6Text

/-!
# `stream-proxy-protocol.ts`

A number of JavaScript is `none` for `NaN` and the infinities, as in `Js.toNumber`.
-/

namespace BurrowGate.ProxyProtocol

open Js
open Net
open Lib.Positional

abbrev Bytes := List UInt8

/-- `"\r\n\r\n\0\r\nQUIT\n"` -/
def V2_SIGNATURE : Bytes :=
  [0x0d, 0x0a, 0x0d, 0x0a, 0x00, 0x0d, 0x0a, 0x51, 0x55, 0x49, 0x54, 0x0a]

inductive StreamProtocol
  | tcp
  | udp
  deriving DecidableEq

inductive StreamProxyProtocol
  | v1
  | v2
  deriving DecidableEq

structure ProxyProtocolEndpoints where
  sourceAddress : List Char
  destinationAddress : List Char
  sourcePort : Option ℚ
  destinationPort : Option ℚ

/-- What `endpoints` returns. -/
structure ResolvedEndpoints where
  source : ParsedIp
  destination : ParsedIp
  sourcePort : Nat
  destinationPort : Nat

def validPort (value : Option ℚ) (label : List Char) : Except (List Char) Nat :=
  match value.filter fun q => q.den = 1 ∧ 0 ≤ q ∧ q ≤ 65535 with
  | some q => .ok q.num.toNat
  | none => .error (label ++ " must be an integer from 0 to 65535".toList)

def endpoints (endpoints : ProxyProtocolEndpoints) : Except (List Char) ResolvedEndpoints :=
  match parseIp endpoints.sourceAddress, parseIp endpoints.destinationAddress with
  | none, _ =>
      .error ("Unable to encode invalid PROXY protocol source address: ".toList ++
        endpoints.sourceAddress)
  | some _, none =>
      .error ("Unable to encode invalid PROXY protocol destination address: ".toList ++
        endpoints.destinationAddress)
  | some source, some destination =>
      if source.version ≠ destination.version then
        .error "PROXY protocol source and destination address families must match".toList
      else do
        let sourcePort ← validPort endpoints.sourcePort "PROXY protocol source port".toList
        let destinationPort ←
          validPort endpoints.destinationPort "PROXY protocol destination port".toList
        return { source, destination, sourcePort, destinationPort }

/-- `byteLength` bytes, the most significant first; `writeUInt16BE` writes two. -/
def addressBytes (value byteLength : Nat) : Bytes :=
  (digitsOf 256 byteLength value).map UInt8.ofNat

/-- `Buffer.from(text, "ascii")` keeps the low byte of each code unit. -/
def asciiBytes (text : List Char) : Bytes := (text.flatMap utf16Units).map UInt32.toUInt8

def familyDigit : IpVersion → Char
  | .v4 => '4'
  | .v6 => '6'

/-- The address in the text form: as it was given, or for IPv6 its canonical text. -/
def addressText (parsed : ParsedIp) (given : List Char) : List Char :=
  match parsed.version with
  | .v4 => given
  | .v6 => canonicalIpv6 parsed.value

/-- The line of the text form, without its end. -/
def v1Line (resolved : ResolvedEndpoints) (input : ProxyProtocolEndpoints) : List Char :=
  "PROXY TCP".toList ++ familyDigit resolved.source.version :: ' ' ::
    (addressText resolved.source input.sourceAddress ++ ' ' ::
      (addressText resolved.destination input.destinationAddress ++ ' ' ::
        (Nat.toDigits 10 resolved.sourcePort ++ ' ' :: Nat.toDigits 10 resolved.destinationPort)))

def addressLength : IpVersion → Nat
  | .v4 => 4
  | .v6 => 16

def addressBlock (resolved : ResolvedEndpoints) : Bytes :=
  addressBytes resolved.source.value (addressLength resolved.source.version) ++
    addressBytes resolved.destination.value (addressLength resolved.source.version) ++
    addressBytes resolved.sourcePort 2 ++ addressBytes resolved.destinationPort 2

/-- `family | protocol` -/
def familyByte : IpVersion → StreamProtocol → UInt8
  | .v4, .tcp => 0x11
  | .v4, .udp => 0x12
  | .v6, .tcp => 0x21
  | .v6, .udp => 0x22

def proxyProtocolHeader (mode : StreamProxyProtocol) (transport : StreamProtocol)
    (input : ProxyProtocolEndpoints) : Except (List Char) Bytes := do
  let resolved ← endpoints input
  match mode with
  | .v1 =>
      if transport ≠ .tcp then .error "PROXY protocol v1 does not support UDP".toList
      else return asciiBytes (v1Line resolved input ++ ['\r', '\n'])
  | .v2 =>
      let block := addressBlock resolved
      -- 0x21 is version 2 with the PROXY command.
      return V2_SIGNATURE ++ 0x21 :: familyByte resolved.source.version transport ::
        addressBytes block.length 2 ++ block

/-! ## What is written -/

theorem validPort_nat {n : Nat} (h : n ≤ 65535) (label : List Char) :
    validPort (some (n : ℚ)) label = .ok n := by
  have hle : ((n : ℚ)) ≤ 65535 := by exact_mod_cast h
  have hge : (0 : ℚ) ≤ n := by exact_mod_cast Nat.zero_le n
  have hfilter : (some (n : ℚ)).filter (fun q => q.den = 1 ∧ 0 ≤ q ∧ q ≤ 65535) = some (n : ℚ) :=
    Option.filter_eq_some_iff.mpr ⟨rfl, decide_eq_true ⟨rfl, hge, hle⟩⟩
  rw [validPort, hfilter]
  rfl

theorem endpoints_ok {input : ProxyProtocolEndpoints} {source destination : ParsedIp}
    {sourcePort destinationPort : Nat} (hsource : parseIp input.sourceAddress = some source)
    (hdestination : parseIp input.destinationAddress = some destination)
    (hversion : source.version = destination.version)
    (hs : input.sourcePort = some (sourcePort : ℚ)) (hsle : sourcePort ≤ 65535)
    (hd : input.destinationPort = some (destinationPort : ℚ)) (hdle : destinationPort ≤ 65535) :
    endpoints input = .ok { source, destination, sourcePort, destinationPort } := by
  unfold endpoints
  rw [hsource, hdestination]
  dsimp only
  rw [if_neg (not_not_intro hversion), hs, hd, validPort_nat hsle, validPort_nat hdle]
  rfl

theorem length_addressBlock (resolved : ResolvedEndpoints) :
    (addressBlock resolved).length = addressLength resolved.source.version * 2 + 4 := by
  simp only [addressBlock, addressBytes, List.length_append, List.length_map, length_digitsOf]
  omega

/-- The bytes of a text of ASCII characters are its characters. -/
theorem asciiBytes_eq {text : List Char} (h : ∀ c ∈ text, c.val < 0x80) :
    asciiBytes text = text.map fun c => c.val.toUInt8 := by
  induction text with
  | nil => rfl
  | cons c text ih =>
      have hc : c.val < 0x10000 := UInt32.lt_trans (h c List.mem_cons_self) (by decide)
      have htail := ih fun d hd => h d (List.mem_cons_of_mem _ hd)
      rw [asciiBytes] at htail ⊢
      rw [List.flatMap_cons, utf16Units, if_pos hc, List.singleton_append, List.map_cons, htail,
        List.map_cons]

end BurrowGate.ProxyProtocol
