import Rproxy.Rule.Targets

/-!
# TLS settings of a rule

What the API accepts as `tls` of a rule, its JSON, and `validateRange`, the check of the combination
of fields.
-/

namespace Rproxy
open Checks Text

def SourceIp.codec : Codec SourceIp :=
  .enum asStr [.proxy, .proxyV1, .proxyV2, .transparent] fun a => by cases a <;> decide

/-! ## The settings and their JSON -/

inductive TlsMode where
  | passthrough
  | sni
  | terminate
deriving DecidableEq

def TlsMode.codec : Codec TlsMode :=
  .enum (fun | .passthrough => "passthrough" | .sni => "sni" | .terminate => "terminate")
    [.passthrough, .sni, .terminate] fun a => by cases a <;> decide

inductive Unmatched where
  | default
  | reject
deriving DecidableEq

def Unmatched.codec : Codec Unmatched :=
  .enum (fun | .default => "default" | .reject => "reject") [.default, .reject]
    fun a => by cases a <;> decide

structure Upstream where
  tls : Bool
  serverName : Option String
  caFile : Option String
  insecureSkipVerify : Bool
  certFile : Option String
  chainFile : Option String
  keyFile : Option String
deriving DecidableEq

namespace Upstream

def default : Upstream where
  tls := false
  serverName := none
  caFile := none
  insecureSkipVerify := false
  certFile := none
  chainFile := none
  keyFile := none

def codec : Codec Upstream :=
  .record true
    (.and (.shown "tls" .bool false tls) <| .and (.nullable "server_name" .str serverName) <|
      .and (.nullable "ca_file" .str caFile) <|
      .and (.shown "insecure_skip_verify" .bool false insecureSkipVerify) <|
      .and (.nullable "cert_file" .str certFile) <| .and (.optional "chain_file" .str chainFile) <|
      .nullable "key_file" .str keyFile)
    fun (tls, serverName, caFile, insecureSkipVerify, certFile, chainFile, keyFile) =>
      { tls, serverName, caFile, insecureSkipVerify, certFile, chainFile, keyFile }

end Upstream

structure Route where
  serverName : String
  serverNames : List String
  remoteAddr : String
  remotePort : UInt16
  passthrough : Bool
  targets : List TargetSpec
  balance : Balance
  upstream : Option Upstream
  sourceIp : Option SourceIp
deriving DecidableEq

def Route.codec : Codec Route :=
  .record true
    (.and (.default "server_name" .str "" serverName) <|
      .and (.default "server_names" (.list .str) [] serverNames) <|
      .and (.default "remote_addr" .str "" remoteAddr) <|
      .and (.default "remote_port" .u16 0 remotePort) <|
      .and (.default "passthrough" .bool false passthrough) <|
      .and (.default "targets" (.list TargetSpec.codec) [] targets) <|
      .and (.default "balance" Balance.codec .default balance) <|
      .and (.optional "upstream" Upstream.codec upstream) <|
      .optional "source_ip" SourceIp.codec sourceIp)
    fun (serverName, serverNames, remoteAddr, remotePort, passthrough, targets, balance, upstream,
        sourceIp) =>
      { serverName, serverNames, remoteAddr, remotePort, passthrough, targets, balance, upstream,
        sourceIp }

structure CertFiles where
  certFile : String
  chainFile : Option String
  keyFile : String
  acme : Option String
  domains : List String
  cert : Option String
deriving DecidableEq

def CertFiles.codec : Codec CertFiles :=
  .record true
    (.and (.default "cert_file" .str "" certFile) <| .and (.optional "chain_file" .str chainFile) <|
      .and (.default "key_file" .str "" keyFile) <| .and (.optional "acme" .str acme) <|
      .and (.default "domains" (.list .str) [] domains) <| .optional "cert" .str cert)
    fun (certFile, chainFile, keyFile, acme, domains, cert) =>
      { certFile, chainFile, keyFile, acme, domains, cert }

structure TlsOptions where
  minVersion : Option String
  cipherSuites : List String
deriving DecidableEq

def TlsOptions.codec : Codec TlsOptions :=
  .record true
    (.and (.optional "min_version" .str minVersion) <|
      .default "cipher_suites" (.list .str) [] cipherSuites)
    fun (minVersion, cipherSuites) => { minVersion, cipherSuites }

inductive ClientAuthMode where
  | none
  | optional
  | required
  | optionalNoVerify
deriving DecidableEq

def ClientAuthMode.asStr : ClientAuthMode → String
  | .none => "none"
  | .optional => "optional"
  | .required => "required"
  | .optionalNoVerify => "optional_no_verify"

def ClientAuthMode.codec : Codec ClientAuthMode :=
  .enum asStr [.none, .optional, .required, .optionalNoVerify] fun a => by cases a <;> decide

structure ClientAuth where
  mode : ClientAuthMode
  caFile : Option String
  chainFile : Option String
deriving DecidableEq

def ClientAuth.default : ClientAuth where
  mode := .none
  caFile := none
  chainFile := none

def ClientAuth.codec : Codec ClientAuth :=
  .record true
    (.and (.shown "mode" ClientAuthMode.codec .none mode) <|
      .and (.nullable "ca_file" .str caFile) <| .optional "chain_file" .str chainFile)
    fun (mode, caFile, chainFile) => { mode, caFile, chainFile }

structure Misdirected where
  groups : List (List String)
deriving DecidableEq

def Misdirected.codec : Codec Misdirected :=
  .record true (.required "groups" (.list (.list .str)) groups) fun groups => { groups }

structure TlsSpec where
  mode : TlsMode
  routes : List Route
  certificates : List CertFiles
  clientAuth : ClientAuth
  alpn : List String
  upstream : Upstream
  unmatched : Unmatched
  options : Option TlsOptions
  misdirected : Option Misdirected
deriving DecidableEq

namespace TlsSpec

def default : TlsSpec where
  mode := .passthrough
  routes := []
  certificates := []
  clientAuth := .default
  alpn := []
  upstream := .default
  unmatched := .default
  options := none
  misdirected := none

def codec : Codec TlsSpec :=
  .record true
    (.and (.shown "mode" TlsMode.codec .passthrough mode) <|
      .and (.shown "routes" (.list Route.codec) [] routes) <|
      .and (.shown "certificates" (.list CertFiles.codec) [] certificates) <|
      .and (.shown "client_auth" ClientAuth.codec .default clientAuth) <|
      .and (.shown "alpn" (.list .str) [] alpn) <|
      .and (.shown "upstream" Upstream.codec .default upstream) <|
      .and (.shown "unmatched" Unmatched.codec .default unmatched) <|
      .and (.optional "options" TlsOptions.codec options) <|
      .optional "misdirected" Misdirected.codec misdirected)
    fun (mode, routes, certificates, clientAuth, alpn, upstream, unmatched, options, misdirected) =>
      { mode, routes, certificates, clientAuth, alpn, upstream, unmatched, options, misdirected }

end TlsSpec

inductive StartTls where
  | smtp
  | imap
  | pop3
deriving DecidableEq

def StartTls.asStr : StartTls → String
  | .smtp => "smtp"
  | .imap => "imap"
  | .pop3 => "pop3"

def StartTls.codec : Codec StartTls :=
  .enum asStr [.smtp, .imap, .pop3] fun a => by cases a <;> decide

/-! ## The check of the combination -/

def validPattern (p : String) : Bool :=
  let name := ((stripStart "**." p).or (stripStart "*." p)).getD p
  name != "" && byteLen name ≤ 253 &&
    (splitOn '.' name).all fun l =>
      l != "" && byteLen l ≤ 63 && l.toList.all fun c => isAlphanumeric c || c == '-'

namespace Route

def patterns (r : Route) : List String :=
  if r.serverNames = [] then [lower r.serverName] else r.serverNames.map lower

def label (r : Route) : String :=
  ",".intercalate r.patterns

end Route

section
variable [External]

def validateCertName (name : String) : Except ApiError Unit :=
  let cs := name.toList
  let edge : Char → Bool := fun c => c.isLower || c.isDigit
  let inner : Char → Bool := fun c => edge c || "._-".toList.contains c
  refuseIf (cs = [] ∨ byteLen name > 63 ∨ ¬ cs.head?.any edge ∨ ¬ cs.getLast?.any edge ∨
      ¬ cs.all inner ∨ ['.', '.'] <:+: cs)
    (.invalid (s!"certificate name {debugStr name}: use 1-63 of a-z, 0-9, '.', '_', '-', " ++
      "starting and ending with a letter or digit"))

def checkGroupNames (seen : List String) : List String → Except ApiError Unit
  | [] => .ok ()
  | p :: rest => do
    refuseIf (p ≠ "*" ∧ ¬ validPattern p)
      (.tlsConfig (s!"misdirected.groups: {debugStr p} is not a server name pattern " ++
        "(name, *.name, **.name or *)"))
    refuseIf (lower p ∈ seen)
      (.tlsConfig s!"misdirected.groups: {debugStr p} is in more than one place")
    checkGroupNames (lower p :: seen) rest

def Misdirected.validate (m : Misdirected) : Except ApiError Unit := do
  refuseIf (m.groups = [] ∨ m.groups.any List.isEmpty)
    (.tlsConfig "misdirected.groups needs groups of at least one name")
  checkGroupNames [] m.groups.flatten

def CertFiles.validate (c : CertFiles) : Except ApiError Unit :=
  match c.cert with
  | some name => do
    (validateCertName name).mapError fun e => ApiError.tlsConfig e.message
    refuseIf (c.acme.isSome ∨ c.certFile ≠ "" ∨ c.keyFile ≠ "" ∨ c.chainFile.isSome ∨
        c.domains ≠ [])
      (.tlsConfig ("a stored certificate (cert) takes no cert_file, key_file, chain_file, acme " ++
        "or domains"))
  | none =>
    match c.acme with
    | some resolver => do
      refuseIf (resolver = "" ∨ c.domains = [])
        (.tlsConfig "an acme certificate needs the resolver name and at least one domain")
      refuseIf (c.certFile ≠ "" ∨ c.keyFile ≠ "" ∨ c.chainFile.isSome)
        (.tlsConfig "an acme certificate takes no cert_file, key_file or chain_file")
    | none => do
      refuseIf (c.certFile = "" ∨ c.keyFile = "")
        (.tlsConfig "a certificate needs cert_file and key_file (or cert, or acme and domains)")
      refuseIf (c.domains ≠ []) (.tlsConfig "domains is only used with acme")

def findSuite (name : String) : Except ApiError (String × Bool) :=
  let known := External.cipherSuites
  okOr (.tlsConfig (s!"options.cipher_suites: unknown {debugStr name} (known: " ++
      ", ".intercalate (known.map (·.1)) ++ ")"))
    (known.find? fun s => s.1 == name)

def serverCrypto (o : TlsOptions) : Except ApiError Unit := do
  let chosen ← if o.cipherSuites = [] then .ok External.cipherSuites
    else collect findSuite o.cipherSuites
  let versions := if o.minVersion = some "1.3" then [true] else [true, false]
  refuseIf (versions.all fun v => !chosen.any fun s => s.2 == v)
    (.tlsConfig "options: none of cipher_suites can be used with min_version 1.3")

def TlsOptions.validate (o : TlsOptions) (protocol : Protocol) (mode : TlsMode) :
    Except ApiError Unit := do
  refuseIf (mode ≠ .terminate) (.tlsConfig "options are only used with mode terminate")
  onSome o.minVersion fun v => refuseIf (v ≠ "1.2" ∧ v ≠ "1.3")
    (.tlsConfig s!"options.min_version {debugStr v} must be 1.2 or 1.3")
  refuseIf (protocol = .udp)
    (.unsupported "tls.options are not available for DTLS (udp); they apply to tcp only")
  serverCrypto o

variable (protocol : Protocol)

def checkRouteSourceIp (mode : TlsMode) (route : Route) (sourceIp : SourceIp) :
    Except ApiError Unit := do
  refuseIf (mode = .terminate ∧ ¬ route.passthrough)
    (.unsupported (s!"route {route.label}: source_ip is for routes relayed without terminating " ++
      "(passthrough routes, or mode sni); a terminated route uses the rule's source_ip"))
  refuseIf (sourceIp = .transparent)
    (.unsupported (s!"route {route.label}: source_ip transparent is set on the rule only (the " ++
      "sockets and the policy routing are prepared per rule); a route takes proxy, proxy_v1 or " ++
      "proxy_v2"))
  refuseIf (protocol = .udp ∧ sourceIp = .proxyV1)
    (.unsupported s!"route {route.label}: PROXY protocol v1 is text over tcp; use proxy_v2 for udp")

def checkRouteUpstream (mode : TlsMode) (route : Route) (up : Upstream) : Except ApiError Unit := do
  refuseIf (protocol ≠ .tcp ∨ mode ≠ .terminate ∨ route.passthrough)
    (.tlsConfig (s!"route {route.label}: upstream is for terminated routes of tcp rules (mode " ++
      "terminate, not passthrough)"))
  refuseIf (up.certFile.isSome ≠ up.keyFile.isSome)
    (.tlsConfig s!"route {route.label}: upstream cert_file and key_file must be given together")
  refuseIf (up.chainFile.isSome ∧ up.certFile = none)
    (.tlsConfig s!"route {route.label}: upstream chain_file needs cert_file")

def checkRouteBackends (route : Route) (portCount : UInt16) : Except ApiError Unit := do
  if route.targets = [] then
    refuseIf (route.remoteAddr = "")
      (.tlsConfig s!"route {route.label}: needs remote_addr and remote_port, or targets")
    refuseIf (route.balance ≠ .default) (.tlsConfig s!"route {route.label}: balance needs targets")
    let _ ← validateRemote route.remoteAddr route.remotePort
    refuseIf (route.remotePort.toNat + portCount.toNat - 1 > 65535)
      (.invalid s!"route {route.label}: remote_port + range length exceeds 65535")
  else
    refuseIf (route.remoteAddr ≠ "" ∨ route.remotePort ≠ 0)
      (.tlsConfig s!"route {route.label}: give remote_addr / remote_port or targets, not both")
    let _ ← (validateTargets route.targets portCount).mapError fun e =>
      ApiError.invalid s!"route {route.label}: {e.message}"

def Route.validate (route : Route) (protocol : Protocol) (mode : TlsMode)
    (starttls : Option StartTls) (portCount : UInt16) : Except ApiError Unit := do
  refuseIf (route.serverName = "" ↔ route.serverNames = [])
    (.tlsConfig "each route needs server_name or server_names (not both)")
  forEach (fun name => refuseIf (¬ validPattern name)
    (.tlsConfig s!"invalid server_name: {name}")) route.patterns
  refuseIf (route.passthrough ∧ protocol = .udp)
    (.tlsConfig ("passthrough routes are for tcp; a udp rule with mode sni passes every route " ++
      "through"))
  refuseIf (route.passthrough ∧ mode ≠ .terminate)
    (.tlsConfig
      ("passthrough routes are for mode terminate (with mode sni every route is passed " ++
      "through)"))
  refuseIf (route.passthrough ∧ starttls.isSome)
    (.tlsConfig ("passthrough routes cannot be combined with starttls (TLS starts after the " ++
      "plain-text dialogue)"))
  onSome route.sourceIp (checkRouteSourceIp protocol mode route)
  onSome route.upstream (checkRouteUpstream protocol mode route)
  checkRouteBackends route portCount

def validateRange (tls : TlsSpec) (starttls : Option StartTls) (portCount : UInt16) :
    Except ApiError Unit := do
  refuseIf (tls.mode = .terminate ∧ tls.certificates = [])
    (.tlsConfig "terminate needs at least one entry in certificates")
  refuseIf (tls.mode ≠ .terminate ∧ tls.certificates ≠ [])
    (.tlsConfig "certificates are only used with mode terminate")
  refuseIf (tls.mode = .passthrough ∧ tls.routes ≠ [])
    (.tlsConfig "routes need mode sni or terminate")
  onSome tls.misdirected fun m => do
    refuseIf (tls.mode ≠ .terminate ∨ protocol ≠ .tcp)
      (.tlsConfig "misdirected needs protocol tcp and tls mode terminate (with http)")
    m.validate
  forEach CertFiles.validate tls.certificates
  onSome tls.options fun o => o.validate protocol tls.mode
  refuseIf (tls.mode ≠ .terminate ∧
      (tls.clientAuth.mode ≠ .none ∨ tls.upstream ≠ .default ∨ tls.alpn ≠ []))
    (.tlsConfig "client_auth, upstream and alpn are only used with mode terminate")
  refuseIf ((tls.clientAuth.mode = .optional ∨ tls.clientAuth.mode = .required) ∧
      tls.clientAuth.caFile = none)
    (.tlsConfig "client_auth needs ca_file")
  refuseIf (tls.clientAuth.chainFile.isSome ∧ tls.clientAuth.caFile = none)
    (.tlsConfig "client_auth chain_file needs ca_file")
  refuseIf (tls.clientAuth.mode = .none ∧ tls.clientAuth.chainFile.isSome)
    (.tlsConfig "client_auth chain_file needs mode optional or required")
  -- udp: only mode sni reads a name before choosing the backend
  refuseIf (tls.unmatched = .reject ∧ ((protocol = .udp ∧ tls.mode ≠ .sni) ∨
      tls.mode = .passthrough ∨ tls.routes = []))
    (.tlsConfig
      ("unmatched: reject needs mode sni (tcp or udp) or terminate (tcp), and at least " ++
      "one route"))
  refuseIf (protocol = .udp ∧ tls.alpn ≠ []) (.tlsConfig "alpn is supported for tcp only")
  refuseIf (tls.upstream.certFile.isSome ≠ tls.upstream.keyFile.isSome)
    (.tlsConfig "upstream cert_file and key_file must be given together")
  refuseIf (tls.upstream.chainFile.isSome ∧ tls.upstream.certFile = none)
    (.tlsConfig "upstream chain_file needs cert_file")
  forEach (fun route => route.validate protocol tls.mode starttls portCount) tls.routes
  onSome starttls fun proto => refuseIf (protocol ≠ .tcp ∨ tls.mode ≠ .terminate)
    (.tlsConfig s!"starttls {proto.asStr} needs protocol tcp and tls mode terminate")

end
end Rproxy
