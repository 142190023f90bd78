import Rproxy.Rule.Request

/-!
# What a PATCH makes of a rule

`updatedSpec` is the pure part of `Registry::updated_spec`: the spec that a PATCH makes of the
current one, or why it is refused.
-/

namespace Rproxy
open Checks
variable [External]

structure UpdateRequest [External] where
  remoteAddr : String
  remotePort : UInt16
  targets : List TargetSpec
  balance : Option Balance
  healthCheck : Option HealthCheckSpec
  connectTimeout : Option String
  idleTimeout : Option String
  halfCloseTimeout : Option String
  udpIdleSecs : Option UInt64
  sourceIp : Option SourceIp
  listenFreebind : Option Bool
  tls : Option TlsSpec
  starttls : Option StartTls
  starttlsRequired : Option Bool
  listenPortEnd : Option UInt16
  allowFrom : Option (List String)
  proxyProtocol : Option ProxyProtocolSpec
  http : Option HttpSpec
  crowdsec : Option Bool
  extraListenAddrs : Option (List String)
  labels : Option Labels
  limits : Option LimitsSpec
  bandwidth : Option BandwidthSpec
  geoip : Option GeoipSpec
  outlierDetection : Option L4OutlierSpec

def ownedError (key : Key) (set : String) : ApiError :=
  .owned s!"{key.text} belongs to rule set {debugStr set}; change it with PUT /rulesets/{set}"

structure TlsPart where
  tls : TlsSpec
  starttls : Option StartTls
  starttlsRequired : Bool

def patchTls (protocol : Protocol) (count : UInt16) (starttls : Option StartTls)
    (required : Option Bool) (tls : TlsSpec) : Except ApiError TlsPart := do
  validateRange protocol tls starttls count
  refuseIf (starttls = none ∧ required = some false) (.invalid "starttls_required needs starttls")
  return { tls, starttls, starttlsRequired := starttlsNeeded starttls required }

def patchHttp (protocol : Protocol) (part : TlsPart) (current : Option HttpSpec)
    (http : HttpSpec) : Except ApiError (Option HttpSpec) := do
  refuseIf (current = none)
    (.unsupported "a rule cannot be turned into an http rule; delete and re-create it")
  refuseIf (protocol ≠ .tcp ∨ part.tls.mode = .sni ∨ part.starttls.isSome)
    (.invalid "http needs protocol tcp with tls mode terminate (or no TLS) and no starttls")
  External.httpValidate http
  return some http

def checkUnchanged (key : Key) (spec : RuleSpec) (u : UpdateRequest) : Except ApiError Unit := do
  refuseIf (u.sourceIp.any (· != spec.sourceIp))
    (.unsupported "source_ip cannot be changed; delete and re-create the rule")
  refuseIf (u.listenFreebind.any (· != spec.listenFreebind))
    (.unsupported "listen_freebind cannot be changed; delete and re-create the rule")
  refuseIf (u.listenPortEnd.any (· != key.listen.port + spec.portCount - 1))
    (.unsupported "the port range cannot be changed; delete and re-create the rule")

def checkPatched (spec : RuleSpec) (caps : Caps) : Except ApiError RuleSpec := do
  caps.features.check spec.tls spec.http
  caps.features.checkV04 spec
  onlyIf (spec.sourceIp = .transparent)
    (checkTransparentFamilies spec.extraListen spec.members caps)
  return spec

def patchUdpIdle : Option UInt64 → Except ApiError (Option Nat)
  | some secs => do
    let idle ← validateUdpIdle (some secs)
    return some idle
  | none => .ok none

def patchedSpec (caps : Caps) (key : Key) (spec : RuleSpec) (u : UpdateRequest)
    (udpIdle : Option Nat) : Except ApiError RuleSpec := do
  refuseIf (spec.origin = .static)
    (.staticRule (s!"{key.text} is a static rule; edit the settings file (RPROXY_CONFIG), which " ++
      "is re-read when it changes"))
  onSome spec.ruleset fun set => throw (ownedError key set)
  let allowFrom ← orKeep u.allowFrom Cidr.parseList spec.allowFrom
  let proxyProtocol ← orKeep u.proxyProtocol (fun p => ProxyProtocol.validate (some p))
    spec.proxyProtocol
  let extraListen ← orKeep u.extraListenAddrs (validateExtraListen key.listen.ip) spec.extraListen
  checkUnchanged key spec u
  let isHttp := u.http.isSome || spec.http.isSome
  refuseIf (u.targets = [] ∧ u.remotePort.toNat + spec.portCount.toNat - 1 > 65535)
    (.invalid "remote_port + range length exceeds 65535")
  let backends ← validateBackends u.remoteAddr u.remotePort u.targets isHttp spec.portCount
  checkHealthCheck u.healthCheck key.protocol isHttp
  let connectTimeout ← orKeep u.connectTimeout
    (fun t => validateConnectTimeout (some t) key.protocol isHttp) spec.connectTimeout
  let idleTimeout ← orKeep u.idleTimeout
    (fun t => validateRelayTimeout "idle_timeout" (some t) key.protocol isHttp) spec.idleTimeout
  let halfCloseTimeout ← orKeep u.halfCloseTimeout
    (fun t => validateRelayTimeout "half_close_timeout" (some t) key.protocol isHttp)
    spec.halfCloseTimeout
  let part ← orKeep u.tls (patchTls key.protocol spec.portCount u.starttls u.starttlsRequired)
    ⟨spec.tls, spec.starttls, spec.starttlsRequired⟩
  let http ← orKeep u.http (patchHttp key.protocol part spec.http) spec.http
  onSome http (checkHttpTls part.tls spec.sourceIp)
  let labels := u.labels.getD spec.labels
  -- each replaces the current value when present (an empty one removes it)
  let v04 ← V04Settings.validate
    { limits := u.limits.or spec.limits
      bandwidth := u.bandwidth.or spec.bandwidth
      geoip := u.geoip.or spec.geoip
      outlierDetection := u.outlierDetection.or spec.outlierDetection }
    key.protocol http.isSome labels
  checkPatched
    { spec with
      allowFrom
      proxyProtocol
      extraListen
      crowdsec := u.crowdsec.getD spec.crowdsec
      remoteHost := backends.host
      remotePort := backends.port
      -- the backends are replaced as a whole: left out means the default
      targets := backends.targets
      balance := u.balance.getD .default
      healthCheck := u.healthCheck
      udpIdle := udpIdle.getD spec.udpIdle
      connectTimeout
      idleTimeout
      halfCloseTimeout
      tls := part.tls
      starttls := part.starttls
      starttlsRequired := part.starttlsRequired
      http
      labels
      limits := v04.limits
      bandwidth := v04.bandwidth
      geoip := v04.geoip
      outlierDetection := v04.outlierDetection } caps

def updatedSpec (caps : Caps) (key : Key) (spec : RuleSpec) (u : UpdateRequest) :
    Except ApiError RuleSpec := do
  let udpIdle ← patchUdpIdle u.udpIdleSecs
  patchedSpec caps key spec u udpIdle

def patchedRequest (body : RuleRequest) (u : UpdateRequest) : RuleRequest :=
  { body with
    remoteAddr := u.remoteAddr
    remotePort := u.remotePort
    targets := u.targets
    balance := u.balance.getD .default
    healthCheck := u.healthCheck
    connectTimeout := u.connectTimeout.or body.connectTimeout
    idleTimeout := u.idleTimeout.or body.idleTimeout
    halfCloseTimeout := u.halfCloseTimeout.or body.halfCloseTimeout
    udpIdleSecs := u.udpIdleSecs.or body.udpIdleSecs
    sourceIp := u.sourceIp.getD body.sourceIp
    listenFreebind := u.listenFreebind.getD body.listenFreebind
    listenPortEnd := u.listenPortEnd.or body.listenPortEnd
    tls := u.tls.or body.tls
    starttls := if u.tls.isSome then u.starttls else body.starttls
    starttlsRequired := if u.tls.isSome then u.starttlsRequired else body.starttlsRequired
    allowFrom := u.allowFrom.getD body.allowFrom
    proxyProtocol := u.proxyProtocol.or body.proxyProtocol
    http := u.http.or body.http
    crowdsec := u.crowdsec.getD body.crowdsec
    extraListenAddrs := u.extraListenAddrs.getD body.extraListenAddrs
    labels := u.labels.getD body.labels
    limits := u.limits.or body.limits
    bandwidth := u.bandwidth.or body.bandwidth
    geoip := u.geoip.or body.geoip
    outlierDetection := u.outlierDetection.or body.outlierDetection }

/-- **What a PATCH never changes**: where the rule listens, where it came from and how the client's
address is passed on. -/
theorem updatedSpec_keeps (caps : Caps) (key : Key) (spec : RuleSpec) (u : UpdateRequest) :
    Ensures (fun spec' => spec'.key = spec.key ∧ spec'.portCount = spec.portCount ∧
        spec'.listenFreebind = spec.listenFreebind ∧ spec'.sourceIp = spec.sourceIp ∧
        spec'.origin = spec.origin ∧ spec'.ruleset = spec.ruleset)
      (updatedSpec caps key spec u) := by
  repeat refine Ensures.bind fun _ => ?_
  exact Ensures.pure ⟨rfl, rfl, rfl, rfl, rfl, rfl⟩

end Rproxy
