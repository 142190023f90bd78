import Rproxy.Rule.RoundTrip
import Rproxy.Rule.Update

/-!
# Which patched rules POST would accept

A PATCH does not check every combination that `RuleRequest.validate` checks. `PatchFacts.valid_iff`:
it leaves a valid spec exactly if a `tls` that it replaces passes the three checks that only POST
makes (`PatchTlsChecked`).
-/

namespace Rproxy
open List Option Checks Plain Except

lemma port_le_of_validateTargetsFrom {n : UInt16} {ts ts' : List TargetSpec} :
    ∀ {i : Nat}, validateTargetsFrom n i ts = .ok ts' →
      ∀ t ∈ ts, t.port.toNat + n.toNat - 1 ≤ 65535 := by
  induction ts generalizing ts' with
  | nil => simp
  | cons t ts ih =>
    intro i h
    simp only [validateTargetsFrom, validateTargetAt, bind_eq_ok, refuseIf_eq_ok, exists_unit,
      mapError_eq_ok, pure_eq_ok] at h
    obtain ⟨_, ⟨_, _, _, _, hport, _⟩, rest, hrest, _⟩ := h
    intro x hx
    rcases mem_cons.mp hx with rfl | hx
    · omega
    · exact ih hrest x hx

lemma highestPort_le_of_validateBackends {host : String} {port n : UInt16}
    {targets : List TargetSpec} {http : Bool} {b : Backends}
    (h : validateBackends host port targets http n = .ok b)
    (hsingle : ¬ (targets = [] ∧ port.toNat + n.toNat - 1 > 65535)) :
    highestPort targets port + n.toNat - 1 ≤ 65535 := by
  by_cases hnil : targets = []
  · subst hnil
    simp only [true_and] at hsingle
    simp only [highestPort, map_nil, max?_nil, getD_none]
    omega
  simp only [validateBackends, if_neg hnil, validateTargets, bind_eq_ok, refuseIf_eq_ok,
    exists_unit, pure_eq_ok] at h
  obtain ⟨_, _, ts, ⟨_, ts', hts, _, _⟩, _⟩ := h
  rcases hmax : (targets.map (·.port.toNat)).max? with _ | m
  · rw [max?_eq_none_iff, map_eq_nil_iff] at hmax
    exact absurd hmax hnil
  have hmem := max?_mem hmax
  rw [List.mem_map] at hmem
  obtain ⟨t, ht, rfl⟩ := hmem
  rw [highestPort, hmax]
  exact port_le_of_validateTargetsFrom hts t ht

lemma orKeep_of_patchUdpIdle {given : Option UInt64} {idle : Option Nat} {current : Nat}
    (h : patchUdpIdle given = .ok idle) :
    orKeep given (fun secs => validateUdpIdle (some secs)) current = .ok (idle.getD current) := by
  cases given with
  | none =>
    obtain rfl : none = idle := by simpa [patchUdpIdle] using h
    rfl
  | some secs =>
    simp only [patchUdpIdle, bind_eq_ok, pure_eq_ok] at h
    obtain ⟨d, hd, rfl⟩ := h
    exact hd

lemma starttlsNeeded_idem (starttls : Option StartTls) (given : Option Bool) :
    starttlsNeeded starttls (some (starttlsNeeded starttls given))
      = starttlsNeeded starttls given := by
  unfold starttlsNeeded
  cases starttls != some .smtp <;> simp

section
variable [External]

/-- The combinations of a replaced `tls` that only POST checks: `misdirected` needs `http`, PROXY v2
over udp does not go inside DTLS, and an `http` rule takes neither mode `sni` nor STARTTLS. -/
def PatchTlsChecked (s : RuleSpec) (u : UpdateRequest) : Prop :=
  ∀ tls, u.tls = some tls →
    (tls.misdirected.isSome → s.http.isSome) ∧
    ¬ (s.key.protocol = .udp ∧ s.sourceIp = .proxyV2 ∧ tls.upstream.tls) ∧
    (s.http.isSome → u.http = none → tls.mode ≠ .sni ∧ u.starttls = none)

lemma isSome_of_patchHttp {protocol : Protocol} {part : TlsPart} {current given : Option HttpSpec}
    {http : Option HttpSpec}
    (h : orKeep given (patchHttp protocol part current) current = .ok http) :
    http.isSome = current.isSome ∧ (given.isSome || current.isSome) = current.isSome := by
  cases given with
  | none =>
    obtain rfl : current = http := by simpa [orKeep] using h
    simp
  | some g =>
    simp only [orKeep, patchHttp, bind_eq_ok, refuseIf_eq_ok, exists_unit, pure_eq_ok] at h
    obtain ⟨hcurrent, -, -, rfl⟩ := h
    cases current with
    | none => exact absurd rfl hcurrent
    | some c => simp

structure PatchFacts (caps : Caps) (s : RuleSpec) (u : UpdateRequest) (s' : RuleSpec) : Prop where
  key : s'.key = s.key
  count : s'.portCount = s.portCount
  sourceIp : s'.sourceIp = s.sourceIp
  allowFrom : orKeep u.allowFrom Cidr.parseList s.allowFrom = .ok s'.allowFrom
  proxyProtocol : orKeep u.proxyProtocol (fun p => ProxyProtocol.validate (some p)) s.proxyProtocol
    = .ok s'.proxyProtocol
  extra : orKeep u.extraListenAddrs (validateExtraListen s.key.listen.ip) s.extraListen
    = .ok s'.extraListen
  room : ¬ (u.targets = [] ∧ u.remotePort.toNat + s.portCount.toNat - 1 > 65535)
  backends : validateBackends u.remoteAddr u.remotePort u.targets
    (u.http.isSome || s.http.isSome) s.portCount = .ok ⟨s'.remoteHost, s'.remotePort, s'.targets⟩
  balance : s'.balance = u.balance.getD .default
  healthCheck : checkHealthCheck s'.healthCheck s.key.protocol (u.http.isSome || s.http.isSome)
    = .ok ()
  udpIdle : orKeep u.udpIdleSecs (fun secs => validateUdpIdle (some secs)) s.udpIdle
    = .ok s'.udpIdle
  connectTimeout : orKeep u.connectTimeout (fun t => validateConnectTimeout (some t) s.key.protocol
    (u.http.isSome || s.http.isSome)) s.connectTimeout = .ok s'.connectTimeout
  idleTimeout : orKeep u.idleTimeout (fun t => validateRelayTimeout "idle_timeout" (some t)
    s.key.protocol (u.http.isSome || s.http.isSome)) s.idleTimeout = .ok s'.idleTimeout
  halfCloseTimeout : orKeep u.halfCloseTimeout (fun t => validateRelayTimeout "half_close_timeout"
    (some t) s.key.protocol (u.http.isSome || s.http.isSome)) s.halfCloseTimeout
    = .ok s'.halfCloseTimeout
  tls : orKeep u.tls (patchTls s.key.protocol s.portCount u.starttls u.starttlsRequired)
    ⟨s.tls, s.starttls, s.starttlsRequired⟩ = .ok ⟨s'.tls, s'.starttls, s'.starttlsRequired⟩
  http : orKeep u.http (patchHttp s.key.protocol ⟨s'.tls, s'.starttls, s'.starttlsRequired⟩ s.http)
    s.http = .ok s'.http
  httpTls : ∀ h, s'.http = some h → checkHttpTls s'.tls s.sourceIp h = .ok ()
  v04 : ∃ v : V04Settings, v.validate s.key.protocol s'.http.isSome s'.labels
    = .ok ⟨s'.limits, s'.bandwidth, s'.geoip, s'.outlierDetection⟩
  features : caps.features.check s'.tls s'.http = .ok ()
  v04Features : caps.features.checkV04 s' = .ok ()
  families : s'.sourceIp = .transparent →
    checkTransparentFamilies s'.extraListen s'.members caps = .ok ()

lemma patchFacts_of_updatedSpec {caps : Caps} {s s' : RuleSpec} {u : UpdateRequest}
    (h : updatedSpec caps s.key s u = .ok s') : PatchFacts caps s u s' := by
  simp only [updatedSpec, patchedSpec, checkPatched, bind_eq_ok, exists_unit, refuseIf_eq_ok,
    onlyIf_eq_ok, pure_eq_ok] at h
  obtain ⟨idle, hidle, _, _, allow, hallow, proxy, hproxy, extra, hextra, _, hroom, b, hb, hhealth,
    connect, hconnect, idleT, hidleT, half, hhalf, part, hpart, http, hhttp, hhttpTls, v04, hv04,
    hfeatures, hv04f, hfamilies, rfl⟩ := h
  exact
    { key := rfl, count := rfl, sourceIp := rfl, allowFrom := hallow, proxyProtocol := hproxy
      extra := hextra, room := hroom, backends := hb, balance := rfl, healthCheck := hhealth
      udpIdle := orKeep_of_patchUdpIdle hidle, connectTimeout := hconnect, idleTimeout := hidleT
      halfCloseTimeout := hhalf, tls := hpart, http := hhttp
      httpTls := onSome_eq_ok.mp hhttpTls, v04 := ⟨_, hv04⟩, features := hfeatures
      v04Features := hv04f, families := hfamilies }

namespace PatchFacts
variable {caps : Caps} {s s' : RuleSpec} {u : UpdateRequest}
section
variable (h : PatchFacts caps s u s')
include h

lemma isHttp :
    s'.http.isSome = s.http.isSome ∧ (u.http.isSome || s.http.isSome) = s.http.isSome :=
  isSome_of_patchHttp h.http

lemma tls_cases : (∃ tls, u.tls = some tls ∧ s'.tls = tls ∧ s'.starttls = u.starttls ∧
      s'.starttlsRequired = starttlsNeeded u.starttls u.starttlsRequired ∧
      validateRange s.key.protocol tls u.starttls s.portCount = .ok ()) ∨
    (u.tls = none ∧ s'.tls = s.tls ∧ s'.starttls = s.starttls ∧
      s'.starttlsRequired = s.starttlsRequired) := by
  have htls := h.tls
  cases hu : u.tls with
  | none =>
    rw [hu] at htls
    simp only [orKeep, ok.injEq, TlsPart.mk.injEq] at htls
    exact .inr ⟨rfl, htls.1.symm, htls.2.1.symm, htls.2.2.symm⟩
  | some tls =>
    rw [hu] at htls
    simp only [orKeep, patchTls, bind_eq_ok, exists_unit, refuseIf_eq_ok, pure_eq_ok,
      TlsPart.mk.injEq] at htls
    obtain ⟨hrange, -, rfl, hstarttls, hneeded⟩ := htls
    exact .inl ⟨_, rfl, rfl, hstarttls.symm, hneeded.symm, hrange⟩

lemma http_cases :
    (∃ http, u.http = some http ∧ s'.http = some http ∧ s'.tls.mode ≠ .sni ∧ s'.starttls = none ∧
      External.httpValidate http = .ok ()) ∨
    (u.http = none ∧ s'.http = s.http) := by
  have hhttp := h.http
  cases hu : u.http with
  | none =>
    rw [hu] at hhttp
    simp only [orKeep, ok.injEq] at hhttp
    exact .inr ⟨rfl, hhttp.symm⟩
  | some http =>
    rw [hu] at hhttp
    simp only [orKeep, patchHttp, bind_eq_ok, exists_unit, refuseIf_eq_ok, pure_eq_ok, not_or,
      not_not, Bool.not_eq_true, isSome_eq_false_iff, isNone_iff_eq_none] at hhttp
    obtain ⟨-, ⟨-, hmode, hstarttls⟩, hvalidate, hs'⟩ := hhttp
    exact .inl ⟨http, rfl, hs'.symm, hmode, hstarttls, hvalidate⟩

lemma checkHttpRule_ok (hs : s.Valid caps) (hu : PatchTlsChecked s u) {http : HttpSpec}
    (hhttp : s'.http = some http) :
    checkHttpRule s'.key.protocol s'.tls s'.starttls s'.portCount s'.sourceIp http = .ok () := by
  have hsome : s.http.isSome := by
    rw [← h.isHttp.1, hhttp]
    rfl
  obtain ⟨current, hcurrent⟩ := isSome_iff_exists.mp hsome
  have hold := hs.http current hcurrent
  simp only [checkHttpRule, bind_eq_ok, exists_unit, refuseIf_eq_ok] at hold ⊢
  obtain ⟨htcp, hmode, hstarttls, hcount, -, hvalidate⟩ := hold
  rw [h.key, h.count, h.sourceIp]
  rcases h.http_cases with ⟨given, -, hgiven, hmode', hstarttls', hvalidate'⟩ | ⟨hnone, hkept⟩
  · have heq : given = http := Option.some.inj (hgiven.symm.trans hhttp)
    subst heq
    exact ⟨htcp, hmode', by simp [hstarttls'], hcount, h.httpTls _ hhttp, hvalidate'⟩
  have heq : current = http := Option.some.inj (hcurrent.symm.trans (hkept.symm.trans hhttp))
  subst heq
  have hboth : s'.tls.mode ≠ .sni ∧ ¬ s'.starttls.isSome := by
    rcases h.tls_cases with ⟨tls, htls, heq, hst, -⟩ | ⟨-, htls, hst, -⟩
    · obtain ⟨-, -, hkeep⟩ := hu tls htls
      obtain ⟨hm, hs⟩ := hkeep hsome hnone
      rw [heq, hst, hs]
      exact ⟨hm, by simp⟩
    rw [htls, hst]
    exact ⟨hmode, hstarttls⟩
  exact ⟨htcp, hboth.1, hboth.2, hcount, h.httpTls _ hhttp, hvalidate⟩

lemma checkSourceIp_ok (hs : s.Valid caps) (hu : PatchTlsChecked s u) :
    checkSourceIp s'.key.protocol s'.sourceIp s'.tls s'.key.listen caps = .ok () := by
  have hold := hs.sourceIp
  rw [h.key, h.sourceIp]
  rcases h.tls_cases with ⟨tls, htls, heq, -⟩ | ⟨-, htls, -⟩
  · simp only [checkSourceIp, bind_eq_ok, exists_unit, refuseIf_eq_ok] at hold ⊢
    rw [heq]
    exact ⟨hold.1, (hu tls htls).2.1, hold.2.2⟩
  rw [htls]
  exact hold

lemma checked_of_valid (hs' : s'.Valid caps) : PatchTlsChecked s u := by
  have hhttp := h.isHttp.1
  intro tls htls
  have heq : s'.tls = tls ∧ s'.starttls = u.starttls := by
    rcases h.tls_cases with ⟨tls', htls', heq, hst, -⟩ | ⟨hnone, -⟩
    · rw [htls] at htls'
      cases htls'
      exact ⟨heq, hst⟩
    rw [htls] at hnone
    cases hnone
  obtain ⟨rfl, hst⟩ := heq
  refine ⟨?_, ?_, ?_⟩
  · intro hmis
    rw [← hhttp, ← ne_none_iff_isSome]
    exact fun hnone => hs'.misdirected ⟨hmis, hnone⟩
  · have hsource := hs'.sourceIp
    rw [h.key, h.sourceIp] at hsource
    simp only [checkSourceIp, bind_eq_ok, exists_unit, refuseIf_eq_ok] at hsource
    exact hsource.2.1
  intro hsome hnone
  rw [← hhttp] at hsome
  obtain ⟨http, hhttp'⟩ := isSome_iff_exists.mp hsome
  have hrule := hs'.http http hhttp'
  simp only [checkHttpRule, bind_eq_ok, exists_unit, refuseIf_eq_ok] at hrule
  rw [← hst]
  exact ⟨hrule.2.1, by simpa using hrule.2.2.1⟩

lemma misdirected_ok (hs : s.Valid caps) (hu : PatchTlsChecked s u) :
    ¬ (s'.tls.misdirected.isSome ∧ s'.http = none) := by
  rintro ⟨hmis, hnone⟩
  have hhttp := h.isHttp.1
  rw [hnone] at hhttp
  rcases h.tls_cases with ⟨tls, htls, heq, -⟩ | ⟨-, heq, -⟩
  · rw [heq] at hmis
    have hsome := (hu tls htls).1 hmis
    rw [← hhttp] at hsome
    cases hsome
  rw [heq] at hmis
  refine hs.misdirected ⟨hmis, ?_⟩
  simpa using hhttp.symm

lemma valid_of_checked (hs : s.Valid caps) (hu : PatchTlsChecked s u) : s'.Valid caps := by
  obtain ⟨hhttp, hgiven⟩ := h.isHttp
  obtain ⟨hbackends, hhighest, -⟩ := validateBackends_show h.backends
  have hroom := highestPort_le_of_validateBackends h.backends h.room
  rw [← hhighest, hgiven, ← hhttp] at hroom
  rw [hgiven, ← hhttp] at hbackends
  have hroom' : highestPort s'.targets s'.request.remotePort + s.portCount.toNat - 1 ≤ 65535 :=
    hroom
  have hhealth := h.healthCheck
  have hconnect := h.connectTimeout
  have hidleT := h.idleTimeout
  have hhalf := h.halfCloseTimeout
  rw [hgiven, ← hhttp, ← h.key] at hhealth hconnect hidleT hhalf
  exact
    { port := by rw [h.key]; exact hs.port
      extra := by
        rw [h.key]
        exact of_orKeep h.extra (p := fun l => l.length ≤ maxExtraListen ∧
          (s.key.listen.ip :: l).Nodup) (fun _ _ => of_validateExtraListen) fun _ => hs.extra
      udpIdle := of_orKeep h.udpIdle (p := fun d => ∃ secs : UInt64,
          ¬ (secs = 0 ∨ secs > 86400) ∧ d = secs.toNat * 1000)
        (fun secs _ hd => by
          simp only [validateUdpIdle, bind_eq_ok, refuseIf_eq_ok, exists_unit, pure_eq_ok] at hd
          exact ⟨_, hd.1, hd.2.symm⟩) fun _ => hs.udpIdle
      count := by rw [h.key, h.count]; exact hs.count
      range := by
        intro hone
        rw [h.count] at hone ⊢
        exact ⟨(hs.range hone).1, by omega⟩
      backends := by rw [h.count]; exact hbackends
      healthCheck := hhealth
      connectTimeout := of_orKeep hconnect
        (p := fun o => ∀ d, o = some d → ConnectTimeoutOk s'.key.protocol s'.http.isSome d)
        (fun _ _ ho d hd => connectTimeoutOk_of_validate (ho.trans (congrArg ok hd)))
        fun _ => by rw [h.key, hhttp]; exact hs.connectTimeout
      idleTimeout := of_orKeep hidleT
        (p := fun o => ∀ d, o = some d → RelayTimeoutOk s'.key.protocol s'.http.isSome d)
        (fun _ _ ho d hd => relayTimeoutOk_of_validate (ho.trans (congrArg ok hd)))
        fun _ => by rw [h.key, hhttp]; exact hs.idleTimeout
      halfCloseTimeout := of_orKeep hhalf
        (p := fun o => ∀ d, o = some d → RelayTimeoutOk s'.key.protocol s'.http.isSome d)
        (fun _ _ ho d hd => relayTimeoutOk_of_validate (ho.trans (congrArg ok hd)))
        fun _ => by rw [h.key, hhttp]; exact hs.halfCloseTimeout
      allowFrom := of_orKeep h.allowFrom (p := fun l => l.length ≤ maxAllowFrom)
        (fun _ _ => Cidr.length_le_of_parseList) fun _ => hs.allowFrom
      proxyProtocol := of_orKeep h.proxyProtocol (p := fun o => ∀ p, o = some p →
          p.from ≠ [] ∧ p.from.length ≤ maxAllowFrom ∧ ∀ c ∈ p.from, c.prefixLen ≠ 0)
        (fun _ _ ho p hp => ProxyProtocol.validate_ok (ho.trans (congrArg ok hp)))
        fun _ => hs.proxyProtocol
      tls := by
        rw [h.key, h.count]
        rcases h.tls_cases with ⟨tls, -, heq, hst, -, hrange⟩ | ⟨-, heq, hst, -⟩
        · rw [heq, hst]
          exact hrange
        rw [heq, hst]
        exact hs.tls
      misdirected := h.misdirected_ok hs hu
      starttls := by
        rcases h.tls_cases with ⟨tls, -, -, hst, hneeded, -⟩ | ⟨-, -, hst, hneeded⟩
        · rw [hst, hneeded]
          exact starttlsNeeded_idem _ _
        rw [hst, hneeded]
        exact hs.starttls
      http := fun http hhttp' => h.checkHttpRule_ok hs hu hhttp'
      v04 := by
        obtain ⟨v, hv⟩ := h.v04
        rw [h.key]
        exact V04Settings.validate_idem hv
      features := h.features
      sourceIp := h.checkSourceIp_ok hs hu
      families := h.families
      v04Features := h.v04Features }

/-- **A patched spec is valid exactly when the `tls` it was given passes the checks of POST.** -/
theorem valid_iff (hs : s.Valid caps) : s'.Valid caps ↔ PatchTlsChecked s u :=
  ⟨h.checked_of_valid, h.valid_of_checked hs⟩

end
end PatchFacts

/-- **A patched rule reads back from its stored shape exactly when** the balance it was given is
shown (it has targets, or the default) and its new `tls` passes the checks that only POST makes. -/
theorem readsBack_updatedSpec_iff [LawfulIpText] {r : RuleRequest} {caps : Caps}
    {s s' : RuleSpec} {o : Origin} {u : UpdateRequest} (hs : r.validate caps = .ok s)
    (hu : updatedSpec caps s.key { s with origin := o } u = .ok s') :
    ReadsBack caps s' ↔
      (u.targets ≠ [] ∨ u.balance = none ∨ u.balance = some .roundRobin) ∧
        PatchTlsChecked s u := by
  have hvalid : RuleSpec.Valid caps { s with origin := o } :=
    RuleSpec.valid_origin_iff.mpr (valid_of_validate hs).1
  have hfacts : PatchFacts caps { s with origin := o } u s' := patchFacts_of_updatedSpec hu
  have hbalance : s'.balance = .default ↔ u.balance = none ∨ u.balance = some .roundRobin := by
    rw [hfacts.balance]
    cases u.balance with
    | none => simp
    | some b => simp [Balance.default]
  have htargets : s'.targets = [] ↔ u.targets = [] := (validateBackends_show hfacts.backends).2.2
  rw [readsBack_iff, hfacts.valid_iff hvalid, ne_eq, hbalance, htargets, and_comm]
  exact Iff.rfl

end

section
open scoped Plain

def Plain.update : UpdateRequest where
  remoteAddr := "other"
  remotePort := 81
  targets := []
  balance := none
  healthCheck := none
  connectTimeout := none
  idleTimeout := none
  halfCloseTimeout := none
  udpIdleSecs := none
  sourceIp := none
  listenFreebind := none
  tls := none
  starttls := none
  starttlsRequired := none
  listenPortEnd := none
  allowFrom := none
  proxyProtocol := none
  http := none
  crowdsec := none
  extraListenAddrs := none
  labels := none
  limits := none
  bandwidth := none
  geoip := none
  outlierDetection := none

/-- Other targets, a further route, and other lists and limits. -/
def Plain.rangedUpdate : UpdateRequest :=
  { update with
    remoteAddr := ""
    remotePort := 0
    targets := [target "192.0.2.3" 9100, target "192.0.2.2" 65532]
    balance := some .leastConn
    tls := some { routed with
      routes := routed.routes ++
        [⟨"b.example", [], "backend", 443, false, [], .default, none, none⟩] }
    allowFrom := some ["10.0.0.0/8", "192.0.2.7"]
    limits := some ⟨some 200, none⟩ }

def Plain.misdirectedTls : TlsSpec :=
  { TlsSpec.default with
    mode := .terminate
    certificates := [⟨"", none, "", none, [], some "site"⟩]
    misdirected := some ⟨[["a.example"]]⟩ }

def Plain.patched (r : RuleRequest) (u : UpdateRequest) : Except ApiError RuleSpec := do
  let s ← r.validate caps
  updatedSpec caps s.key s u

lemma exists_of_patched_isOk {r : RuleRequest} {u : UpdateRequest}
    (h : (patched r u).isOk) :
    ∃ s s', r.validate caps = .ok s ∧ s.origin = .dynamic ∧
      updatedSpec caps s.key s u = .ok s' := by
  obtain ⟨s', hs'⟩ := Checks.exists_ok_of_isOk h
  simp only [patched, bind_eq_ok] at hs'
  obtain ⟨s, hs, hu⟩ := hs'
  exact ⟨s, s', hs, (valid_of_validate hs).2.1, hu⟩

theorem readsBack_updatedSpec_plain :
    ∃ s s', Plain.ranged.validate caps = .ok s ∧
      updatedSpec caps s.key s Plain.rangedUpdate = .ok s' ∧ ReadsBack caps s' := by
  obtain ⟨s, s', hs, -, hu⟩ := exists_of_patched_isOk (r := Plain.ranged) (u := Plain.rangedUpdate)
    (by decide +kernel)
  refine ⟨s, s', hs, hu, (readsBack_updatedSpec_iff (o := s.origin) hs hu).mpr ?_⟩
  have hhttp : (Plain.ranged.validate caps).toOption.map (·.http.isSome) = some false := by
    decide +kernel
  rw [hs] at hhttp
  refine ⟨.inl (List.cons_ne_nil _ _), fun tls htls => ?_⟩
  cases htls
  exact ⟨nofun, fun h => absurd h.2.2 (by decide),
    fun h => absurd (Option.some.inj hhttp) (by simp [h])⟩

/-- A PATCH that gives a rule without `http` a `tls` with `misdirected` is accepted, and the rule it
makes does not read back. -/
theorem misdirected_not_readsBack :
    ∃ s s', (request .tcp 8080).validate caps = .ok s ∧ s.origin = .dynamic ∧
      updatedSpec caps s.key s { update with tls := some misdirectedTls }
        = .ok s' ∧
      ¬ ReadsBack caps s' := by
  obtain ⟨s, s', hs, horigin, hu⟩ := exists_of_patched_isOk (r := request .tcp 8080)
    (u := { update with tls := some misdirectedTls }) (by decide)
  refine ⟨s, s', hs, horigin, hu, fun h => ?_⟩
  have hfacts := patchFacts_of_updatedSpec hu
  have hhttp : ((request .tcp 8080).validate caps).toOption.map (·.http.isSome)
      = some false := by decide
  have hsome := (hfacts.checked_of_valid (readsBack_iff.mp h).1 _ rfl).1 rfl
  rw [hs] at hhttp
  exact absurd (hsome.symm.trans (Option.some.inj hhttp)) (by decide)

end
end Rproxy
