import Rproxy.Rule.Limits
import Rproxy.Rule.Tls

/-!
# Rules as requested and as validated

`RuleRequest` is a rule as the API, the settings file or the database gives it;
`RuleRequest.validate` makes a `RuleSpec` of it under what the process can do (`Caps`).
-/

namespace Rproxy
open Checks External ApiError Text

structure Features where
  http : Bool
  http3 : Bool
  acme : Bool
  tlsOptions : Bool
  middlewares : List String
  services : List String
  httpOptions : List String
  forwardAuth : List String
  tlsRouteTargets : Bool
  tlsRouteUpstream : Bool
  clientAuthModes : List String
  labels : Bool
  limits : Bool
  bandwidth : Bool
  geoip : Bool
  outlierDetection : Bool
  listenFreebind : Bool
  connectTimeout : Bool
  proxyProtocolIn : Bool
  routeSourceIp : Bool
  proxyProtocolInUdp : Bool
  tcpIdleTimeout : Bool

def Features.all : Features where
  http := true
  http3 := true
  acme := true
  tlsOptions := true
  middlewares := ["redirect_scheme", "redirect_regex", "rate_limit", "in_flight", "crowdsec",
    "ip_allow", "headers", "forward_auth", "oidc", "basic_auth", "strip_prefix", "add_prefix",
    "replace_path", "replace_path_regex", "compress", "buffering", "retry", "circuit_breaker",
    "errors", "respond", "geoip", "cors", "mirror", "replace_host", "cache"]
  services := ["health_check", "sticky", "balance", "outlier_detection", "protocol", "tls"]
  httpOptions := ["headers_add", "redirect_status", "route_timeouts", "server_middlewares",
    "server_status", "retry_status", "misdirected", "path_normalize", "raw_path",
    "identity_headers", "http_timeouts", "strict_path", "pre_routing"]
  forwardAuth := ["service", "grpc", "client_request", "allow_status", "forward_body",
    "all_response_headers"]
  tlsRouteTargets := true
  tlsRouteUpstream := true
  clientAuthModes := ["none", "optional", "required", "optional_no_verify"]
  labels := true
  limits := true
  bandwidth := true
  geoip := true
  outlierDetection := true
  listenFreebind := true
  connectTimeout := true
  proxyProtocolIn := true
  routeSourceIp := true
  proxyProtocolInUdp := true
  tcpIdleTimeout := true

structure Caps where
  transparent : Bool
  transparentIpv6 : Bool
  maxRangePorts : UInt16
  features : Features

structure RuleRequest [External] where
  protocol : Protocol
  listenAddr : String
  listenPort : UInt16
  listenPortEnd : Option UInt16
  extraListenAddrs : List String
  listenFreebind : Bool
  remoteAddr : String
  remotePort : UInt16
  targets : List TargetSpec
  balance : Balance
  healthCheck : Option HealthCheckSpec
  connectTimeout : Option String
  idleTimeout : Option String
  halfCloseTimeout : Option String
  sourceIp : SourceIp
  udpIdleSecs : Option UInt64
  tls : Option TlsSpec
  starttls : Option StartTls
  starttlsRequired : Option Bool
  allowFrom : List String
  proxyProtocol : Option ProxyProtocolSpec
  http : Option HttpSpec
  crowdsec : Bool
  labels : Labels
  limits : Option LimitsSpec
  bandwidth : Option BandwidthSpec
  geoip : Option GeoipSpec
  outlierDetection : Option L4OutlierSpec

structure RuleSpec [External] where
  key : Key
  portCount : UInt16
  extraListen : List IpAddr
  listenFreebind : Bool
  remoteHost : String
  remotePort : UInt16
  targets : List TargetSpec
  balance : Balance
  healthCheck : Option HealthCheckSpec
  connectTimeout : Option Nat
  idleTimeout : Option Nat
  halfCloseTimeout : Option Nat
  sourceIp : SourceIp
  udpIdle : Nat
  tls : TlsSpec
  starttls : Option StartTls
  starttlsRequired : Bool
  allowFrom : List Cidr
  proxyProtocol : Option ProxyProtocol
  http : Option HttpSpec
  crowdsec : Bool
  labels : Labels
  limits : Option LimitsSpec
  bandwidth : Option BandwidthSpec
  geoip : Option GeoipSpec
  outlierDetection : Option L4OutlierSpec
  origin : Origin
  ruleset : Option String
deriving DecidableEq

variable [External]
namespace RuleSpec

def listenIps (s : RuleSpec) : List IpAddr :=
  s.key.listen.ip :: s.extraListen

def v6only (s : RuleSpec) : Bool :=
  !s.extraListen.isEmpty

def members (s : RuleSpec) : List TargetSpec :=
  if s.targets ≠ [] then s.targets
  else if s.http.isSome ∨ s.remoteHost = "" then []
  else [{ addr := s.remoteHost, port := s.remotePort, weight := none, backup := false,
          maxConnections := none }]

end RuleSpec

/-! ## The checks of single fields -/

def parseListen (addr : String) (port : UInt16) : Except ApiError SocketAddr := do
  let ip ← okOr (.invalid s!"listen_addr must be an IP address: {addr}")
    (parseIp (trimBrackets addr))
  refuseIf (port = 0) (.invalid "listen_port must be 1-65535")
  return { ip, port }

def validateTarget (host : String) (port : UInt16) (http : Bool) : Except ApiError String :=
  if ¬ http then validateRemote host port
  else do
    refuseIf (trim host ≠ "" ∨ port ≠ 0)
      (.invalid ("remote_addr / remote_port are not used with http; put the backends in " ++
        "http.services"))
    return ""

/-- What `validate_backends` gives, with the targets it normalized. -/
structure Backends where
  host : String
  port : UInt16
  targets : List TargetSpec

def validateBackends (host : String) (port : UInt16) (targets : List TargetSpec) (http : Bool)
    (portCount : UInt16) : Except ApiError Backends := do
  if targets = [] then
    let host ← validateTarget host port http
    return { host, port, targets := [] }
  else
    refuseIf http (.invalid "targets are not used with http; put the backends in http.services")
    refuseIf (trim host ≠ "" ∨ port ≠ 0)
      (.invalid "give remote_addr / remote_port or targets, not both")
    let targets ← validateTargets targets portCount
    -- the first target is shown as the rule's backend
    return { host := (targets.head?.map (·.addr)).getD ""
             port := (targets.head?.map (·.port)).getD 0
             targets }

def checkHttpTls (tls : TlsSpec) (sourceIp : SourceIp) (http : HttpSpec) :
    Except ApiError Unit := do
  refuseIf (http3 http ∧ tls.mode ≠ .terminate)
    (.tlsConfig "http3 needs tls mode terminate (QUIC is always encrypted)")
  refuseIf (http3 http ∧ sourceIp = .transparent)
    (.unsupported "http3 cannot be combined with source_ip transparent")
  refuseIf (tls.routes.any (!·.passthrough))
    (.tlsConfig
      ("http rules route by match; only passthrough tls.routes are used (use Host(...) " ++
      "in http.routes)"))
  refuseIf (tls.unmatched = .reject)
    (.tlsConfig ("http rules answer unmatched names with http.default; unmatched: reject is not " ++
      "used"))
  refuseIf tls.upstream.tls
    (.tlsConfig ("http rules pick TLS towards a backend by its URL (https://); tls.upstream.tls " ++
      "is not used"))
  refuseIf (sourceIp = .proxyV1 ∨ sourceIp = .proxyV2)
    (.invalid ("http rules send the client address in X-Forwarded-For; source_ip proxy_v1 / " ++
      "proxy_v2 is not used"))

def maxExtraListen : Nat := 16

def extraListenLoop (primary : IpAddr) (out : List IpAddr) :
    List String → Except ApiError (List IpAddr)
  | [] => .ok out
  | a :: rest => do
    let ip ← okOr (invalid s!"extra_listen_addrs must be IP addresses: {a}")
      (parseIp (trimBrackets (trim a)))
    refuseIf (ip = primary ∨ ip ∈ out)
      (.invalid s!"{showIp ip} is listed twice (listen_addr and extra_listen_addrs)")
    extraListenLoop primary (out ++ [ip]) rest

def validateExtraListen (primary : IpAddr) (addrs : List String) :
    Except ApiError (List IpAddr) := do
  refuseIf (addrs.length > maxExtraListen)
    (.invalid s!"extra_listen_addrs takes at most {maxExtraListen} addresses")
  extraListenLoop primary [] addrs

def checkTransparentFamilies (extra : List IpAddr) (members : List TargetSpec) (caps : Caps) :
    Except ApiError Unit :=
  let literals := members.filterMap fun m => parseIp (trimBrackets m.addr)
  forEach (fun ip => do
      refuseIf (ip.isIpv6 ∧ ¬ caps.transparentIpv6)
        (unsupported (s!"transparent over IPv6 ({showIp ip} in extra_listen_addrs) is " ++
          "not available (needs IPV6_TRANSPARENT: Linux, CAP_NET_ADMIN and IPv6)"))
      refuseIf (members ≠ [] ∧ literals.length = members.length ∧
          ¬ literals.any fun t => t.isIpv6 == ip.isIpv6)
        (invalid ("transparent needs a backend of the same address family as each " ++
          s!"listen address; {showIp ip} has none")))
    extra

def validateConnectTimeout (v : Option String) (protocol : Protocol) (http : Bool) :
    Except ApiError (Option Nat) := do
  match v with
  | none => return none
  | some s =>
    let d ← (parseDuration (trim s)).mapError fun e =>
      invalid s!"connect_timeout: {e}"
    if d = 0 then return none
    else
      refuseIf (protocol ≠ .tcp)
        (.invalid "connect_timeout is for tcp rules (udp does not connect)")
      refuseIf http
        (.invalid ("connect_timeout of a rule is not used with http; use " ++
          "http.services.<name>.timeouts.connect"))
      refuseIf (d < 100 ∨ d > 600000) (.invalid "connect_timeout must be 100ms-10m")
      return some d

def validateRelayTimeout (what : String) (v : Option String) (protocol : Protocol) (http : Bool) :
    Except ApiError (Option Nat) := do
  match v with
  | none => return none
  | some s =>
    let d ← (parseDuration (trim s)).mapError fun e => invalid s!"{what}: {e}"
    refuseIf (protocol ≠ .tcp) (.invalid s!"{what} is for tcp rules (udp has udp_idle_secs)")
    refuseIf http (.invalid s!"{what} of a rule is not used with http; use global.http.timeouts")
    refuseIf (d ≠ 0 ∧ d < 1000) (.invalid s!"{what} must be 0s (no limit) or at least 1s")
    return some d

def validateUdpIdle (secs : Option UInt64) : Except ApiError Nat := do
  let secs := secs.getD 30
  refuseIf (secs = 0 ∨ secs > 86400) (.invalid "udp_idle_secs must be 1-86400")
  return secs.toNat * 1000

def portCount (start : UInt16) (last : Option UInt16) (remotePort : Nat) (caps : Caps) :
    Except ApiError UInt16 := do
  match last with
  | none => return 1
  | some last =>
    refuseIf (last < start) (.invalid "listen_port_end must not be below listen_port")
    let count := last - start + 1
    refuseIf (count > caps.maxRangePorts)
      (.invalid s!"a range may hold at most {caps.maxRangePorts.toNat} ports")
    refuseIf (remotePort + count.toNat - 1 > 65535)
      (.invalid "remote_port + range length exceeds 65535")
    return count

def highestPort (targets : List TargetSpec) (remotePort : UInt16) : Nat :=
  (targets.map (·.port.toNat)).max?.getD remotePort.toNat

namespace Features

def missing (what : String) : ApiError :=
  .unsupported s!"{what} is not available in this version (see GET /capabilities features)"

def checkHttp (f : Features) (h : HttpSpec) : Except ApiError Unit := do
  refuseIf (¬ f.http) (missing "http (L7 routing)")
  refuseIf (External.http3 h ∧ ¬ f.http3) (missing "http3")
  onSome ((middlewareKinds h).find? fun k => !f.middlewares.contains k) fun kind =>
    throw (missing s!"the {kind} middleware")
  forEach (fun (name, options) =>
      onSome (options.find? fun (o, used) => used && !f.services.contains o) fun option =>
        throw (missing s!"service {name}: {option.1}"))
    (External.services h)
  onSome ((optionsUsed h).find? fun o => !f.httpOptions.contains o) fun option =>
    throw (missing s!"http option {option}")
  onSome ((forwardAuthUsed h).find? fun o => !f.forwardAuth.contains o) fun option =>
    throw (missing s!"forward_auth option {option}")

def check (f : Features) (tls : TlsSpec) (http : Option HttpSpec) : Except ApiError Unit := do
  refuseIf (¬ f.acme ∧ tls.certificates.any (·.acme.isSome)) (missing "an acme certificate")
  refuseIf (¬ f.tlsOptions ∧ tls.options.isSome) (missing "tls.options")
  onSome http f.checkHttp
  refuseIf (tls.misdirected.isSome ∧ "misdirected" ∉ f.httpOptions) (missing "tls.misdirected")
  refuseIf (¬ f.tlsRouteTargets ∧ tls.routes.any (!·.targets.isEmpty))
    (missing "targets of tls.routes")
  refuseIf (¬ f.tlsRouteUpstream ∧ tls.routes.any (·.upstream.isSome))
    (missing "upstream of tls.routes")
  refuseIf (¬ f.routeSourceIp ∧ tls.routes.any (·.sourceIp.isSome))
    (missing "source_ip of tls.routes")
  refuseIf (tls.clientAuth.mode.asStr ∉ f.clientAuthModes)
    (missing s!"tls.client_auth.mode {tls.clientAuth.mode.asStr}")

def checkV04 (f : Features) (spec : RuleSpec) : Except ApiError Unit :=
  let udp := spec.key.protocol == .udp
  forEach (fun (what, used, available) => refuseIf (used && !available) (missing what))
    [("listen_freebind (IP_FREEBIND: Linux)", spec.listenFreebind, f.listenFreebind),
     ("connect_timeout", spec.connectTimeout.isSome, f.connectTimeout),
     ("idle_timeout", spec.idleTimeout.isSome, f.tcpIdleTimeout),
     ("half_close_timeout", spec.halfCloseTimeout.isSome, f.tcpIdleTimeout),
     ("proxy_protocol", spec.proxyProtocol.isSome, f.proxyProtocolIn),
     ("proxy_protocol of a udp rule", spec.proxyProtocol.isSome && udp, f.proxyProtocolInUdp),
     ("labels", !spec.labels.isEmpty, f.labels),
     ("limits", spec.limits.isSome, f.limits),
     ("bandwidth", spec.bandwidth.isSome, f.bandwidth),
     ("geoip", spec.geoip.isSome, f.geoip),
     ("outlier_detection", spec.outlierDetection.isSome, f.outlierDetection)]

end Features

def checkHttpRule (protocol : Protocol) (tls : TlsSpec) (starttls : Option StartTls)
    (portCount : UInt16) (sourceIp : SourceIp) (http : HttpSpec) : Except ApiError Unit := do
  refuseIf (protocol ≠ .tcp)
    (.invalid "http needs protocol tcp (HTTP/3 is http.http3 on the same rule)")
  refuseIf (tls.mode = .sni) (.tlsConfig "http needs tls mode terminate (or no TLS for plain HTTP)")
  refuseIf starttls.isSome (.invalid "http and starttls cannot be combined")
  refuseIf (portCount > 1) (.invalid "http rules take a single port")
  checkHttpTls tls sourceIp http
  httpValidate http

def checkSourceIp (protocol : Protocol) (sourceIp : SourceIp) (tls : TlsSpec) (listen : SocketAddr)
    (caps : Caps) : Except ApiError Unit := do
  refuseIf (protocol = .udp ∧ sourceIp = .proxyV1)
    (.unsupported "PROXY protocol v1 is text over tcp; use proxy_v2 for udp")
  -- the header would end up inside the backend's DTLS
  refuseIf (protocol = .udp ∧ sourceIp = .proxyV2 ∧ tls.upstream.tls)
    (.unsupported "proxy_v2 over udp cannot be combined with upstream.tls (DTLS to the backend)")
  refuseIf (sourceIp = .transparent ∧ ¬ caps.transparent)
    (.unsupported "transparent is not available (needs Linux and CAP_NET_ADMIN)")
  refuseIf (sourceIp = .transparent ∧ ¬ listen.ip.isIpv4 ∧ ¬ caps.transparentIpv6)
    (.unsupported ("transparent over IPv6 is not available (needs IPV6_TRANSPARENT: Linux, " ++
      "CAP_NET_ADMIN and IPv6)"))

def checkHealthCheck (h : Option HealthCheckSpec) (protocol : Protocol) (http : Bool) :
    Except ApiError Unit :=
  onSome h fun h => do
    refuseIf http
      (.invalid ("health_check of a rule is not used with http; use " ++
        "http.services.<name>.health_check"))
    h.validate protocol

def starttlsNeeded (starttls : Option StartTls) (given : Option Bool) : Bool :=
  starttls != some .smtp || given.getD true

def checkBuilt (spec : RuleSpec) (caps : Caps) : Except ApiError RuleSpec := do
  onlyIf (spec.sourceIp = .transparent)
    (checkTransparentFamilies spec.extraListen spec.members caps)
  caps.features.checkV04 spec
  return spec

def RuleRequest.validate (r : RuleRequest) (caps : Caps) : Except ApiError RuleSpec := do
  let http := r.http.isSome
  let listen ← parseListen r.listenAddr r.listenPort
  let extraListen ← validateExtraListen listen.ip r.extraListenAddrs
  let udpIdle ← validateUdpIdle r.udpIdleSecs
  -- every target's port must leave room for the range
  let count ← portCount r.listenPort r.listenPortEnd (highestPort r.targets r.remotePort) caps
  let backends ← validateBackends r.remoteAddr r.remotePort r.targets http count
  checkHealthCheck r.healthCheck r.protocol http
  let connectTimeout ← validateConnectTimeout r.connectTimeout r.protocol http
  let idleTimeout ← validateRelayTimeout "idle_timeout" r.idleTimeout r.protocol http
  let halfCloseTimeout ←
    validateRelayTimeout "half_close_timeout" r.halfCloseTimeout r.protocol http
  let allowFrom ← Cidr.parseList r.allowFrom
  let proxyProtocol ← ProxyProtocol.validate r.proxyProtocol
  let tls := r.tls.getD .default
  validateRange r.protocol tls r.starttls count
  refuseIf (tls.misdirected.isSome ∧ r.http = none)
    (.tlsConfig "tls.misdirected needs http (it answers HTTP requests with 421)")
  refuseIf (r.starttls = none ∧ r.starttlsRequired = some false)
    (.invalid "starttls_required needs starttls")
  onSome r.http (checkHttpRule r.protocol tls r.starttls count r.sourceIp)
  let v04 ← V04Settings.validate
    { limits := r.limits, bandwidth := r.bandwidth, geoip := r.geoip,
      outlierDetection := r.outlierDetection } r.protocol http r.labels
  caps.features.check tls r.http
  checkSourceIp r.protocol r.sourceIp tls listen caps
  let spec : RuleSpec :=
    { key := { protocol := r.protocol, listen }
      portCount := count
      extraListen
      listenFreebind := r.listenFreebind
      remoteHost := backends.host
      remotePort := backends.port
      targets := backends.targets
      balance := r.balance
      healthCheck := r.healthCheck
      connectTimeout
      idleTimeout
      halfCloseTimeout
      sourceIp := r.sourceIp
      udpIdle
      tls
      starttls := r.starttls
      starttlsRequired := starttlsNeeded r.starttls r.starttlsRequired
      allowFrom
      proxyProtocol
      http := r.http
      crowdsec := r.crowdsec
      labels := r.labels
      limits := v04.limits
      bandwidth := v04.bandwidth
      geoip := v04.geoip
      outlierDetection := v04.outlierDetection
      origin := .dynamic
      ruleset := none }
  checkBuilt spec caps

end Rproxy
