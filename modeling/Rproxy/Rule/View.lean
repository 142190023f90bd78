import Rproxy.Rule.Request

/-!
# The view of a rule and its stored shape

`RuleView.new` is a rule as the API returns it; its `shape` is what `rproxy_rules.spec` stores.
-/

namespace Rproxy

open Codec Json ProxyProtocol

def Protocol.codec : Codec Protocol where
  enc p := .str p.asStr
  dec
    | .str s => (Protocol.fromStr s).toOption
    | _ => none
  dec_enc p := by cases p <;> decide
  enc_ne_null _ := nofun

inductive RunState where
  | running
  | failed
deriving DecidableEq

def RunState.asStr : RunState → String
  | .running => "running"
  | .failed => "failed"

def Origin.asStr : Origin → String
  | .dynamic => "dynamic"
  | .static => "static"
  | .api => "api"

variable [External]

/-- A rule as returned by the API, with the fields that `RuleView::new` gives a value of their own.
-/
structure RuleView where
  protocol : Protocol
  listenAddr : String
  listenPort : UInt16
  listenPortEnd : Option UInt16
  extraListenAddrs : List String
  listenFreebind : Bool
  remoteAddr : String
  remotePort : UInt16
  targets : List TargetSpec
  balance : Option Balance
  healthCheck : Option HealthCheckSpec
  connectTimeout : Option String
  idleTimeout : Option String
  halfCloseTimeout : Option String
  sourceIp : SourceIp
  udpIdleSecs : UInt64
  tls : TlsSpec
  starttls : Option StartTls
  starttlsRequired : Bool
  allowFrom : List String
  proxyProtocol : Option ProxyProtocolSpec
  http : Option HttpSpec
  crowdsec : Bool
  labels : Labels
  limits : Option LimitsSpec
  bandwidth : Option BandwidthSpec
  geoip : Option GeoipSpec
  outlierDetection : Option L4OutlierSpec
  origin : Origin
  ruleset : Option String
  state : RunState
  error : Option String
  resolved : List SocketAddr
  connections : UInt64

namespace RuleView

def new (spec : RuleSpec) (state : RunState) (error : Option String) (resolved : List SocketAddr)
    (connections : UInt64) : RuleView where
  protocol := spec.key.protocol
  listenAddr := showIp spec.key.listen.ip
  listenPort := spec.key.listen.port
  listenPortEnd :=
    if spec.portCount > 1 then some (spec.key.listen.port + spec.portCount - 1) else none
  extraListenAddrs := spec.extraListen.map showIp
  listenFreebind := spec.listenFreebind
  remoteAddr := spec.remoteHost
  remotePort := spec.remotePort
  targets := spec.targets
  balance := if spec.targets ≠ [] then some spec.balance else none
  healthCheck := spec.healthCheck
  connectTimeout := spec.connectTimeout.map showDuration
  idleTimeout := spec.idleTimeout.map showDuration
  halfCloseTimeout := spec.halfCloseTimeout.map showDuration
  sourceIp := spec.sourceIp
  udpIdleSecs := UInt64.ofNat (spec.udpIdle / 1000)
  tls := spec.tls
  starttls := spec.starttls
  starttlsRequired := spec.starttlsRequired
  allowFrom := spec.allowFrom.map Cidr.text
  proxyProtocol := spec.proxyProtocol.map view
  http := spec.http
  crowdsec := spec.crowdsec
  labels := spec.labels
  limits := spec.limits
  bandwidth := spec.bandwidth
  geoip := spec.geoip
  outlierDetection := spec.outlierDetection
  origin := spec.origin
  ruleset := spec.ruleset
  state := state
  error := error
  resolved := resolved
  connections := connections

def emptyStats : Json :=
  .obj (["total_connections", "rx_bytes", "tx_bytes", "tls_failures", "denied", "dropped"].map
    fun n => (n, .num 0))

def slots (v : RuleView) : List (String × Option Json) :=
  [("protocol", some (Protocol.codec.enc v.protocol)),
   ("listen_addr", some (.str v.listenAddr)),
   ("listen_port", some (u16.enc v.listenPort)),
   ("listen_port_end", orNull .u16 v.listenPortEnd),
   ("extra_listen_addrs", unlessEmpty .str v.extraListenAddrs),
   ("listen_freebind", ifTrue v.listenFreebind),
   ("remote_addr", some (.str v.remoteAddr)),
   ("remote_port", some (u16.enc v.remotePort)),
   ("targets", unlessEmpty TargetSpec.codec v.targets),
   ("balance", v.balance.map Balance.codec.enc),
   ("health_check", v.healthCheck.map HealthCheckSpec.codec.enc),
   ("connect_timeout", v.connectTimeout.map str.enc),
   ("idle_timeout", v.idleTimeout.map str.enc),
   ("half_close_timeout", v.halfCloseTimeout.map str.enc),
   ("source_ip", some (SourceIp.codec.enc v.sourceIp)),
   ("udp_idle_secs", some (u64.enc v.udpIdleSecs)),
   ("tls", some (TlsSpec.codec.enc v.tls)),
   ("starttls", orNull StartTls.codec v.starttls),
   ("starttls_required", some (.bool v.starttlsRequired)),
   ("allow_from", some ((list .str).enc v.allowFrom)),
   ("proxy_protocol", v.proxyProtocol.map ProxyProtocolSpec.codec.enc),
   ("http", v.http.map External.httpCodec.enc),
   ("crowdsec", ifTrue v.crowdsec),
   ("labels", if v.labels.isEmpty then none else some (Labels.codec.enc v.labels)),
   ("limits", v.limits.map LimitsSpec.codec.enc),
   ("bandwidth", v.bandwidth.map BandwidthSpec.codec.enc),
   ("geoip", v.geoip.map GeoipSpec.codec.enc),
   ("outlier_detection", v.outlierDetection.map L4OutlierSpec.codec.enc),
   ("origin", some (.str v.origin.asStr)),
   ("ruleset", v.ruleset.map str.enc),
   ("state", some (.str v.state.asStr)),
   ("error", orNull .str v.error),
   ("resolved", some (.arr (v.resolved.map fun a => .str a.text))),
   ("connections", some (u64.enc v.connections)),
   ("all_targets_down", some (.bool false)),
   ("stats", some emptyStats),
   ("started_at", some .null)]

end RuleView

def stateKeys : List String :=
  ["origin", "ruleset", "conditions", "persisted", "created_by", "created_at", "state", "error",
   "resolved", "connections", "all_targets_down", "down_services", "stats", "started_at",
   "cert_status", "acme"]

open RuleView

def keepsKey (spec : RuleSpec) (n : String) : Bool :=
  n ∉ stateKeys &&
    -- with targets (or http services) the first target is only shown for older clients
    !((!spec.targets.isEmpty || spec.http.isSome) && (n == "remote_addr" || n == "remote_port")) &&
    !((new spec .running none [] 0).listenPortEnd.isNone && n == "listen_port_end")

def shape (spec : RuleSpec) : Json :=
  .obj ((filledSlots (new spec .running none [] 0).slots).filter
    fun f => keepsKey spec f.1)

def RuleRequest.read (get : String → Option Json) : Option RuleRequest := do
  let protocol ← readRequired Protocol.codec "protocol" get
  let listenAddr ← readRequired .str "listen_addr" get
  let listenPort ← readRequired .u16 "listen_port" get
  let listenPortEnd ← readOptional .u16 "listen_port_end" get
  let extraListenAddrs ← readDefault (.list .str) [] "extra_listen_addrs" get
  let listenFreebind ← readDefault .bool false "listen_freebind" get
  let remoteAddr ← readDefault .str "" "remote_addr" get
  let remotePort ← readDefault .u16 0 "remote_port" get
  let targets ← readDefault (.list TargetSpec.codec) [] "targets" get
  let balance ← readDefault Balance.codec .default "balance" get
  let healthCheck ← readOptional HealthCheckSpec.codec "health_check" get
  let connectTimeout ← readOptional .str "connect_timeout" get
  let idleTimeout ← readOptional .str "idle_timeout" get
  let halfCloseTimeout ← readOptional .str "half_close_timeout" get
  let sourceIp ← readDefault SourceIp.codec .proxy "source_ip" get
  let udpIdleSecs ← readOptional .u64 "udp_idle_secs" get
  let tls ← readOptional TlsSpec.codec "tls" get
  let starttls ← readOptional StartTls.codec "starttls" get
  let starttlsRequired ← readOptional .bool "starttls_required" get
  let allowFrom ← readDefault (.list .str) [] "allow_from" get
  let proxyProtocol ← readOptional ProxyProtocolSpec.codec "proxy_protocol" get
  let http ← readOptional External.httpCodec "http" get
  let crowdsec ← readDefault .bool false "crowdsec" get
  let labels ← readDefault Labels.codec [] "labels" get
  let limits ← readOptional LimitsSpec.codec "limits" get
  let bandwidth ← readOptional BandwidthSpec.codec "bandwidth" get
  let geoip ← readOptional GeoipSpec.codec "geoip" get
  let outlierDetection ← readOptional L4OutlierSpec.codec "outlier_detection" get
  return { protocol, listenAddr, listenPort, listenPortEnd, extraListenAddrs, listenFreebind,
           remoteAddr, remotePort, targets, balance, healthCheck, connectTimeout, idleTimeout,
           halfCloseTimeout, sourceIp, udpIdleSecs, tls, starttls, starttlsRequired, allowFrom,
           proxyProtocol, http, crowdsec, labels, limits, bandwidth, geoip, outlierDetection }

def RuleRequest.ofJson : Json → Option RuleRequest
  | .obj fields => RuleRequest.read fun n => (obj fields).get? n
  | _ => none

def RuleSpec.request (s : RuleSpec) : RuleRequest where
  protocol := s.key.protocol
  listenAddr := showIp s.key.listen.ip
  listenPort := s.key.listen.port
  listenPortEnd := if s.portCount > 1 then some (s.key.listen.port + s.portCount - 1) else none
  extraListenAddrs := s.extraListen.map showIp
  listenFreebind := s.listenFreebind
  remoteAddr := if s.targets ≠ [] ∨ s.http.isSome then "" else s.remoteHost
  remotePort := if s.targets ≠ [] ∨ s.http.isSome then 0 else s.remotePort
  targets := s.targets
  balance := if s.targets ≠ [] then s.balance else .default
  healthCheck := s.healthCheck
  connectTimeout := s.connectTimeout.map showDuration
  idleTimeout := s.idleTimeout.map showDuration
  halfCloseTimeout := s.halfCloseTimeout.map showDuration
  sourceIp := s.sourceIp
  udpIdleSecs := some (UInt64.ofNat (s.udpIdle / 1000))
  tls := some s.tls
  starttls := s.starttls
  starttlsRequired := some s.starttlsRequired
  allowFrom := s.allowFrom.map Cidr.text
  proxyProtocol := s.proxyProtocol.map view
  http := s.http
  crowdsec := s.crowdsec
  labels := s.labels
  limits := s.limits
  bandwidth := s.bandwidth
  geoip := s.geoip
  outlierDetection := s.outlierDetection

/-! ## The shape reads back -/

lemma RuleView.nodup_slots (v : RuleView) : (v.slots.map (·.1)).Nodup := by
  simp only [slots, List.map_cons, List.map_nil]
  decide

variable {n : String} {v : Option Json}

lemma get?_shape {s : RuleSpec}
    (hslot : (new s .running none [] 0).slots.lookup n = some v) :
    (shape s).get? n = if keepsKey s n then v else none := by
  rw [shape, Json.get?, lookup_filter, lookup_filledSlots (nodup_slots _), hslot]
  rfl

lemma get?_shape_of_kept {s : RuleSpec}
    (hslot : (new s .running none [] 0).slots.lookup n = some v)
    (hkept : n ∉ "remote_addr" :: "remote_port" :: "listen_port_end" :: stateKeys) :
    (shape s).get? n = v := by
  simp only [List.mem_cons, not_or] at hkept
  have hk : keepsKey s n := by
    simp [keepsKey, hkept]
  rw [get?_shape hslot, if_pos hk]

variable (s : RuleSpec)

lemma readOptional_listenPortEnd :
    readOptional .u16 "listen_port_end" (fun n => (shape s).get? n)
      = some s.request.listenPortEnd := by
  have hget := get?_shape (s := s) (n := "listen_port_end") rfl
  by_cases hrange : s.portCount > 1
  · have hk : keepsKey s "listen_port_end" := by
      simp [keepsKey, new, stateKeys, hrange]
    rw [if_pos hk] at hget
    exact readOptional_orNull hget
  have hk : keepsKey s "listen_port_end" = false := by
    simp [keepsKey, new, stateKeys, hrange]
  rw [hk] at hget
  rw [RuleSpec.request, if_neg hrange]
  exact readOptional_enc hget

lemma keepsKey_remote (hn : n = "remote_addr" ∨ n = "remote_port") :
    keepsKey s n ↔ ¬ (s.targets ≠ [] ∨ s.http.isSome) := by
  rcases hn with rfl | rfl <;> simp [keepsKey, stateKeys]

lemma readDefault_remote {α : Type} {c : Codec α} {d a : α}
    (hn : n = "remote_addr" ∨ n = "remote_port")
    (hslot : (new s .running none [] 0).slots.lookup n = some (some (c.enc a))) :
    readDefault c d n (fun n => (shape s).get? n)
      = some (if s.targets ≠ [] ∨ s.http.isSome then d else a) := by
  have hget := get?_shape hslot
  simp only [keepsKey_remote s hn] at hget
  by_cases h : s.targets ≠ [] ∨ s.http.isSome
  · rw [if_neg (not_not_intro h)] at hget
    rw [if_pos h]
    exact readDefault_none hget
  rw [if_pos h] at hget
  rw [if_neg h]
  exact readDefault_enc hget

lemma readDefault_balance :
    readDefault Balance.codec .default "balance" (fun n => (shape s).get? n)
      = some s.request.balance := by
  have hget := get?_shape_of_kept (s := s) (n := "balance") rfl (by decide)
  by_cases h : s.targets ≠ []
  · rw [RuleSpec.request, if_pos h]
    rw [new, if_pos h] at hget
    exact readDefault_enc hget
  rw [RuleSpec.request, if_neg h]
  rw [new, if_neg h] at hget
  exact readDefault_none hget

lemma readDefault_labels :
    readDefault Labels.codec [] "labels" (fun n => (shape s).get? n) = some s.labels := by
  have hget := get?_shape_of_kept (s := s) (n := "labels") rfl (by decide)
  cases hl : s.labels with
  | nil => exact readDefault_none (by rw [hget]; simp [new, hl])
  | cons => exact readDefault_enc (by rw [hget]; simp [new, hl])

lemma ofJson_shape : RuleRequest.ofJson (shape s) = some s.request := by
  -- the fields that are kept for every spec, by how they are shown
  have required {α : Type} {c : Codec α} {n : String} {a : α}
      (h : (new s .running none [] 0).slots.lookup n = some (some (c.enc a)))
      (hn : n ∉ "remote_addr" :: "remote_port" :: "listen_port_end" :: stateKeys) :
      readRequired c n (fun n => (shape s).get? n) = some a :=
    readRequired_enc (get?_shape_of_kept h hn)
  have optional {α : Type} {c : Codec α} {n : String} {a : Option α}
      (h : (new s .running none [] 0).slots.lookup n = some (a.map c.enc))
      (hn : n ∉ "remote_addr" :: "remote_port" :: "listen_port_end" :: stateKeys) :
      readOptional c n (fun n => (shape s).get? n) = some a :=
    readOptional_enc (get?_shape_of_kept h hn)
  have shown {α : Type} {c : Codec α} {n : String} {d a : α}
      (h : (new s .running none [] 0).slots.lookup n = some (some (c.enc a)))
      (hn : n ∉ "remote_addr" :: "remote_port" :: "listen_port_end" :: stateKeys) :
      readDefault c d n (fun n => (shape s).get? n) = some a :=
    readDefault_enc (get?_shape_of_kept h hn)
  have hstarttls : readOptional StartTls.codec "starttls" (fun n => (shape s).get? n)
      = some s.starttls := readOptional_orNull (get?_shape_of_kept rfl (by decide))
  have hextra : readDefault (.list .str) [] "extra_listen_addrs" (fun n => (shape s).get? n)
      = some (s.extraListen.map showIp) :=
    readDefault_unlessEmpty (get?_shape_of_kept rfl (by decide))
  have htargets : readDefault (.list TargetSpec.codec) [] "targets"
      (fun n => (shape s).get? n) = some s.targets :=
    readDefault_unlessEmpty (get?_shape_of_kept rfl (by decide))
  have hfreebind : readDefault .bool false "listen_freebind" (fun n => (shape s).get? n)
      = some s.listenFreebind := readDefault_ifTrue (get?_shape_of_kept rfl (by decide))
  have hcrowdsec : readDefault .bool false "crowdsec" (fun n => (shape s).get? n)
      = some s.crowdsec := readDefault_ifTrue (get?_shape_of_kept rfl (by decide))
  change RuleRequest.read (fun n => (shape s).get? n) = _
  rw [RuleRequest.read, required (a := s.key.protocol) rfl (by decide),
    required (c := .str) (a := showIp s.key.listen.ip) rfl (by decide),
    required (a := s.key.listen.port) rfl (by decide), readOptional_listenPortEnd, hextra,
    hfreebind, readDefault_remote s (c := .str) (a := s.remoteHost) (.inl rfl) rfl,
    readDefault_remote s (a := s.remotePort) (.inr rfl) rfl, htargets, readDefault_balance,
    optional (a := s.healthCheck) rfl (by decide),
    optional (a := s.connectTimeout.map showDuration) rfl (by decide),
    optional (a := s.idleTimeout.map showDuration) rfl (by decide),
    optional (a := s.halfCloseTimeout.map showDuration) rfl (by decide),
    shown (a := s.sourceIp) rfl (by decide),
    optional (a := some (UInt64.ofNat (s.udpIdle / 1000))) rfl (by decide),
    optional (a := some s.tls) rfl (by decide), hstarttls,
    optional (c := .bool) (a := some s.starttlsRequired) rfl (by decide),
    shown (a := s.allowFrom.map Cidr.text) rfl (by decide),
    optional (a := s.proxyProtocol.map view) rfl (by decide),
    optional (a := s.http) rfl (by decide), hcrowdsec, readDefault_labels,
    optional (a := s.limits) rfl (by decide), optional (a := s.bandwidth) rfl (by decide),
    optional (a := s.geoip) rfl (by decide), optional (a := s.outlierDetection) rfl (by decide)]
  rfl

end Rproxy
