import Rproxy.Data.Checks
import Rproxy.Data.Json
import Rproxy.Data.Text

/-!
# Errors, addresses and keys

The small types of the registry: the errors of the API, protocols, addresses, and the key of a rule.
-/

namespace Rproxy

/-! ## Errors -/

open Text

/-- `ApiError::code`, and the code of a rule whose listener died. -/
inductive Code where
  | unauthorized | forbidden | protectedFile | fileNotAllowed | secretReuse | fileInUse
  | invalid | unsupported | tlsConfig | notFound | limit | busy | tooLarge | timeout
  | alreadyExists | static | reserved | bindFailed | resolveFailed | owned
  | preconditionFailed | staleGeneration | lockedOut | internal | failed
deriving DecidableEq

inductive Reason where
  | needsCrowdsec
  | needsGeoip
  | needsAcme
deriving DecidableEq

structure ApiError where
  status : Nat
  code : Code
  message : String
  reason : Option Reason
deriving DecidableEq

namespace ApiError

def new (status : Nat) (code : Code) (message : String) : ApiError :=
  { status, code, message, reason := none }

def invalid (message : String) : ApiError := new 400 .invalid message
def unsupported (message : String) : ApiError := new 400 .unsupported message
def tlsConfig (message : String) : ApiError := new 400 .tlsConfig message
def notFound (message : String) : ApiError := new 404 .notFound message
def forbidden (message : String) : ApiError := new 403 .forbidden message
def limit (message : String) : ApiError := new 409 .limit message
def alreadyExists (message : String) : ApiError := new 409 .alreadyExists message
def staticRule (message : String) : ApiError := new 409 .static message
def reserved (message : String) : ApiError := new 409 .reserved message
def bindFailed (message : String) : ApiError := new 409 .bindFailed message
def resolveFailed (message : String) : ApiError := new 502 .resolveFailed message
def owned (message : String) : ApiError := new 409 .owned message
def preconditionFailed (message : String) : ApiError := new 412 .preconditionFailed message
def staleGeneration (message : String) : ApiError := new 409 .staleGeneration message

def needs (reason : Reason) (message : String) : ApiError :=
  { invalid message with reason := some reason }

end ApiError

/-! ## Addresses -/

inductive Protocol where
  | tcp
  | udp
deriving DecidableEq

def Protocol.asStr : Protocol → String
  | .tcp => "tcp"
  | .udp => "udp"

def Protocol.fromStr (s : String) : Except ApiError Protocol :=
  if lower s = "tcp" then .ok .tcp
  else if lower s = "udp" then .ok .udp
  else .error (.invalid s!"unknown protocol: {s}")

inductive IpAddr where
  | v4 (bits : BitVec 32)
  | v6 (bits : BitVec 128)
deriving DecidableEq

namespace IpAddr

def isIpv4 : IpAddr → Bool
  | v4 _ => true
  | v6 _ => false

def isIpv6 (ip : IpAddr) : Bool :=
  !ip.isIpv4

def isUnspecified : IpAddr → Bool
  | v4 bits => bits == 0
  | v6 bits => bits == 0

end IpAddr

/-- `std::net::SocketAddr` with no flow info and scope (what `SocketAddr::new` makes). -/
structure SocketAddr where
  ip : IpAddr
  port : UInt16
deriving DecidableEq

structure Key where
  protocol : Protocol
  listen : SocketAddr
deriving DecidableEq

inductive SourceIp where
  | proxy
  | proxyV1
  | proxyV2
  | transparent
deriving DecidableEq

def SourceIp.asStr : SourceIp → String
  | .proxy => "proxy"
  | .proxyV1 => "proxy_v1"
  | .proxyV2 => "proxy_v2"
  | .transparent => "transparent"

inductive Origin where
  | dynamic
  | static
  | api
deriving DecidableEq

/-- The parts outside the rule code; of the `http` settings only what the rule code reads of them.
-/
class External where
  HttpSpec : Type
  httpDecEq : DecidableEq HttpSpec
  httpValidate : HttpSpec → Except ApiError Unit
  http3 : HttpSpec → Bool
  middlewareKinds : HttpSpec → List String
  /-- The services by name, each with the options `Features::check` looks at and whether it uses
  them. -/
  services : HttpSpec → List (String × List (String × Bool))
  optionsUsed : HttpSpec → List String
  forwardAuthUsed : HttpSpec → List String
  httpCodec : Codec HttpSpec
  parseIp : String → Option IpAddr
  showIp : IpAddr → String
  cipherSuites : List (String × Bool)
  debugStr : String → String
  digest : Json → String

export External (HttpSpec parseIp showIp debugStr)

instance [External] : DecidableEq HttpSpec := External.httpDecEq

/-- What std promises of the text form of addresses: it reads back, and holds neither white space
nor a bracket nor a slash. -/
class LawfulIpText [External] : Prop where
  parse_show : ∀ ip, parseIp (showIp ip) = some ip
  show_chars : ∀ ip, ∀ c ∈ (showIp ip).toList,
    isWhitespace c = false ∧ isBracket c = false ∧ c ≠ '/'

section
variable [External]

def SocketAddr.text (a : SocketAddr) : String :=
  match a.ip with
  | .v4 _ => s!"{showIp a.ip}:{a.port.toNat}"
  | .v6 _ => s!"[{showIp a.ip}]:{a.port.toNat}"

def Key.text (k : Key) : String :=
  s!"{k.protocol.asStr}/{k.listen.text}"

open LawfulIpText

lemma parseIp_trim_show [LawfulIpText] (ip : IpAddr) :
    parseIp (trimBrackets (trim (showIp ip))) = some ip ∧
      parseIp (trimBrackets (showIp ip)) = some ip := by
  have hchars := show_chars ip
  have htrim : trim (showIp ip) = showIp ip := trim_eq_self fun c hc => (hchars c hc).1
  have hbrackets : trimBrackets (showIp ip) = showIp ip :=
    trimBrackets_eq_self fun c hc => (hchars c hc).2.1
  rw [htrim, hbrackets]
  exact ⟨parse_show ip, parse_show ip⟩

end
end Rproxy
