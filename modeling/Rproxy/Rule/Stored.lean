import Rproxy.Rule.View

/-!
# Which specs can be stored and read back

`RuleSpec.Valid caps s` lists what `RuleRequest.validate` establishes of the spec it gives, field by
field.
-/

namespace Rproxy
open List Checks
variable {http : Bool} {caps : Caps} {primary : IpAddr} {l : List IpAddr} {d : Nat}
  {protocol : Protocol}

lemma of_portCount {start count : UInt16} {last : Option UInt16} {remote : Nat}
    (h : portCount start last remote caps = .ok count) (hstart : start ≠ 0) :
    count ≠ 0 ∧ start.toNat + count.toNat ≤ 65536 ∧
      (count > 1 → count ≤ caps.maxRangePorts ∧ remote + count.toNat ≤ 65536) := by
  have hstart' : 0 < start.toNat := by
    rw [Nat.pos_iff_ne_zero]
    intro h0
    exact hstart (UInt16.toNat_inj.mp h0)
  unfold portCount at h
  split at h
  · simp only [pure_eq_ok] at h
    subst h
    have := start.toNat_lt
    exact ⟨by decide, by simp; omega, fun h => absurd h (by decide)⟩
  rename_i last
  simp only [bind_eq_ok, refuseIf_eq_ok, exists_unit, pure_eq_ok] at h
  obtain ⟨hle, hmax, hroom, rfl⟩ := h
  have hlast := last.toNat_lt
  have hle' : start.toNat ≤ last.toNat := by
    rw [UInt16.lt_iff_toNat_lt] at hle
    omega
  -- the length of the range is computed without wrapping, as `start` is not zero
  have hcount : (last - start + 1).toNat = last.toNat - start.toNat + 1 := by
    rw [UInt16.toNat_add, UInt16.toNat_sub]
    simp only [UInt16.toNat_one]
    omega
  refine ⟨?_, by rw [hcount]; omega, fun _ => ⟨?_, by omega⟩⟩
  · intro h0
    rw [h0] at hcount
    simp at hcount
  rw [UInt16.le_iff_toNat_le]
  rw [gt_iff_lt, UInt16.lt_iff_toNat_lt] at hmax
  omega

lemma portCount_show {start count : UInt16} {remote : Nat} (hcount : count ≠ 0)
    (hend : start.toNat + count.toNat ≤ 65536)
    (hrange : count > 1 → count ≤ caps.maxRangePorts ∧ remote + count.toNat ≤ 65536) :
    portCount start (if count > 1 then some (start + count - 1) else none) remote caps
      = .ok count := by
  have hpos : 0 < count.toNat := by
    rw [Nat.pos_iff_ne_zero]
    intro h0
    exact hcount (UInt16.toNat_inj.mp h0)
  by_cases hone : count > 1
  · obtain ⟨hmax, hroom⟩ := hrange hone
    have hlast : (start + count - 1).toNat = start.toNat + count.toNat - 1 := by
      rw [UInt16.toNat_sub, UInt16.toNat_add]
      simp only [UInt16.toNat_one]
      omega
    have hlen : start + count - 1 - start + 1 = count := by
      apply UInt16.toNat_inj.mp
      have := count.toNat_lt
      rw [UInt16.toNat_add, UInt16.toNat_sub]
      simp only [UInt16.toNat_one]
      omega
    have hle : ¬ start + count - 1 < start := by
      rw [UInt16.lt_iff_toNat_lt]
      omega
    simp only [portCount, if_pos hone, hlen, bind_eq_ok, refuseIf_eq_ok, exists_unit, pure_eq_ok,
      and_true]
    refine ⟨hle, ?_, by omega⟩
    rw [gt_iff_lt, UInt16.lt_iff_toNat_lt]
    rw [UInt16.le_iff_toNat_le] at hmax
    omega
  have : count = 1 := by
    apply UInt16.toNat_inj.mp
    rw [gt_iff_lt, UInt16.lt_iff_toNat_lt] at hone
    simp only [UInt16.toNat_one] at hone ⊢
    omega
  subst this
  rfl

lemma validateBackends_show {host : String} {port n : UInt16} {targets : List TargetSpec}
    {b : Backends} (h : validateBackends host port targets http n = .ok b) :
    validateBackends (if b.targets ≠ [] ∨ http then "" else b.host)
        (if b.targets ≠ [] ∨ http then 0 else b.port) b.targets http n = .ok b ∧
      highestPort b.targets (if b.targets ≠ [] ∨ http then 0 else b.port)
        = highestPort targets port ∧
      (b.targets = [] ↔ targets = []) := by
  unfold validateBackends at h
  split at h
  next hnil =>
    subst hnil
    simp only [bind_eq_ok, pure_eq_ok] at h
    obtain ⟨host', hhost, rfl⟩ := h
    cases http with
    | false =>
      have hremote : validateRemote host' port = .ok host' := by
        have hhost' : validateRemote host port = .ok host' := by
          simpa [validateTarget] using hhost
        exact validateRemote_idem hhost'
      simp [validateBackends, validateTarget, hremote, highestPort, bind, Except.bind, pure,
        Except.pure]
    | true =>
      simp only [validateTarget, not_true_eq_false, if_false, bind_eq_ok, refuseIf_eq_ok,
        exists_unit, pure_eq_ok, not_or, not_not] at hhost
      obtain ⟨⟨-, rfl⟩, rfl⟩ := hhost
      simp only [or_true, if_true, and_self, and_true]
      rfl
  rename_i hne
  simp only [bind_eq_ok, refuseIf_eq_ok, exists_unit, pure_eq_ok] at h
  obtain ⟨hhttp, -, ts, hts, rfl⟩ := h
  obtain ⟨hidem, hports⟩ := validateTargets_idem hts
  have hts' : ts ≠ [] := by
    rintro rfl
    exact hne (by simpa using hports.symm)
  have hhighest : highestPort ts 0 = highestPort targets port := by
    have hmap : ts.map (·.port.toNat) = targets.map (·.port.toNat) := by
      simpa [Function.comp_def] using congrArg (List.map UInt16.toNat) hports
    have hsome : ((targets.map (·.port.toNat)).max?).isSome := by
      cases targets with
      | nil => exact absurd rfl hne
      | cons t targets => simp
    obtain ⟨m, hm⟩ := Option.isSome_iff_exists.mp hsome
    rw [highestPort, highestPort, hmap, hm]
    rfl
  have hblank : Text.trim "" = "" := by decide
  refine ⟨?_, ?_, by simp [hts', hne]⟩
  · simp only [validateBackends, hts', if_false, ne_eq, not_false_eq_true, true_or, if_true,
      bind_eq_ok, refuseIf_eq_ok, exists_unit, pure_eq_ok, hblank, not_true_eq_false, or_self]
    exact ⟨hhttp, trivial, ts, hidem, rfl⟩
  · simpa only [ne_eq, hts', not_false_eq_true, true_or, if_true] using hhighest

lemma validateUdpIdle_show {secs : UInt64} (h : ¬ (secs = 0 ∨ secs > 86400)) :
    validateUdpIdle (some (UInt64.ofNat (secs.toNat * 1000 / 1000))) = .ok (secs.toNat * 1000) := by
  have hback : UInt64.ofNat (secs.toNat * 1000 / 1000) = secs := by
    rw [Nat.mul_div_cancel _ (by decide)]
    exact UInt64.ofNat_toNat
  simp only [validateUdpIdle, hback, Option.getD_some, bind_eq_ok, refuseIf_eq_ok, exists_unit,
    pure_eq_ok, and_true]
  exact h

variable [External]

/-! ## What the checks of single fields establish -/

def ConnectTimeoutOk (protocol : Protocol) (http : Bool) (d : Nat) : Prop :=
  protocol = .tcp ∧ http = false ∧ 100 ≤ d ∧ d ≤ 600000

def RelayTimeoutOk (protocol : Protocol) (http : Bool) (d : Nat) : Prop :=
  protocol = .tcp ∧ http = false ∧ (d = 0 ∨ 1000 ≤ d) ∧ d ≤ maxDuration

lemma le_maxDuration_of_parseDuration {s : String} (h : parseDuration s = .ok d) :
    d ≤ maxDuration := by
  simp only [parseDuration, bind_eq_ok, okOr_eq_ok, refuseIf_eq_ok, exists_unit, pure_eq_ok] at h
  omega

lemma connectTimeoutOk_of_validate {v : Option String}
    (h : validateConnectTimeout v protocol http = .ok (some d)) :
    ConnectTimeoutOk protocol http d := by
  unfold validateConnectTimeout at h
  split at h
  · simp at h
  simp only [bind_eq_ok, mapError_eq_ok] at h
  obtain ⟨d', -, h⟩ := h
  split at h
  · simp at h
  simp only [bind_eq_ok, refuseIf_eq_ok, exists_unit, pure_eq_ok, Option.some.injEq] at h
  obtain ⟨htcp, hhttp, hrange, rfl⟩ := h
  refine ⟨not_not.mp htcp, by simpa using hhttp, ?_, ?_⟩ <;> omega

lemma relayTimeoutOk_of_validate {what : String} {v : Option String}
    (h : validateRelayTimeout what v protocol http = .ok (some d)) :
    RelayTimeoutOk protocol http d := by
  unfold validateRelayTimeout at h
  split at h
  · simp at h
  simp only [bind_eq_ok, mapError_eq_ok, refuseIf_eq_ok, exists_unit, pure_eq_ok,
    Option.some.injEq] at h
  obtain ⟨d', hparse, htcp, hhttp, hmin, rfl⟩ := h
  refine ⟨not_not.mp htcp, by simpa using hhttp, ?_, le_maxDuration_of_parseDuration hparse⟩
  omega

lemma validateConnectTimeout_show {o : Option Nat}
    (h : ∀ d, o = some d → ConnectTimeoutOk protocol http d) :
    validateConnectTimeout (o.map showDuration) protocol http = .ok o := by
  cases o with
  | none => rfl
  | some d =>
    obtain ⟨htcp, hhttp, hmin, hmax⟩ := h d rfl
    have hparse := parseDuration_showDuration (hmax.trans (by decide))
    have hzero : ¬ d = 0 := by omega
    simp only [validateConnectTimeout, Option.map_some, bind_eq_ok, mapError_eq_ok,
      trim_showDuration, hparse,
      Except.ok.injEq, exists_eq_left', if_neg hzero, refuseIf_eq_ok, exists_unit, pure_eq_ok,
      and_true, htcp, hhttp, ne_eq, not_true_eq_false, not_false_eq_true, true_and,
      Bool.false_eq_true]
    omega

lemma validateRelayTimeout_show {what : String} {o : Option Nat}
    (h : ∀ d, o = some d → RelayTimeoutOk protocol http d) :
    validateRelayTimeout what (o.map showDuration) protocol http = .ok o := by
  cases o with
  | none => rfl
  | some d =>
    obtain ⟨htcp, hhttp, hmin, hmax⟩ := h d rfl
    simp only [validateRelayTimeout, Option.map_some, bind_eq_ok, mapError_eq_ok, trim_showDuration,
      parseDuration_showDuration hmax, Except.ok.injEq, exists_eq_left', refuseIf_eq_ok,
        exists_unit,
      pure_eq_ok, and_true, htcp, hhttp, ne_eq, not_true_eq_false, not_false_eq_true, true_and,
      Bool.false_eq_true]
    omega

lemma nodup_of_extraListenLoop {addrs : List String} :
    ∀ {out l : List IpAddr}, extraListenLoop primary out addrs = .ok l → (primary :: out).Nodup →
      (primary :: l).Nodup ∧ l.length = out.length + addrs.length := by
  induction addrs with
  | nil =>
    intro out l h hnodup
    simp only [extraListenLoop, Except.ok.injEq] at h
    subst h
    exact ⟨hnodup, rfl⟩
  | cons a rest ih =>
    intro out l h hnodup
    simp only [extraListenLoop, bind_eq_ok, okOr_eq_ok, refuseIf_eq_ok, exists_unit, not_or] at h
    obtain ⟨ip, -, ⟨hprimary, hout⟩, hrest⟩ := h
    have hnext : (primary :: (out ++ [ip])).Nodup := by
      rw [nodup_cons] at hnodup ⊢
      refine ⟨by simp [hnodup.1, Ne.symm hprimary], ?_⟩
      rw [nodup_append]
      refine ⟨hnodup.2, by simp, ?_⟩
      intro a ha b hb hab
      rw [mem_singleton] at hb
      exact hout (by rw [← hb, ← hab]; exact ha)
    obtain ⟨hl, hlen⟩ := ih hrest hnext
    simp only [length_append, length_cons, length_nil] at hlen ⊢
    exact ⟨hl, by omega⟩

lemma extraListenLoop_show [LawfulIpText] : ∀ (out : List IpAddr), (primary :: (out ++ l)).Nodup →
      extraListenLoop primary out (l.map showIp) = .ok (out ++ l) := by
  induction l with
  | nil =>
    simp [extraListenLoop]
  | cons ip l ih =>
    intro out hnodup
    have hne : ¬ (ip = primary ∨ ip ∈ out) := by
      rw [nodup_cons] at hnodup
      rintro (rfl | hmem)
      · exact hnodup.1 (by simp)
      · exact (nodup_append.mp hnodup.2).2.2 ip hmem ip (by simp) rfl
    have hnext : (primary :: ((out ++ [ip]) ++ l)).Nodup := by simpa using hnodup
    simp only [map_cons, extraListenLoop, (parseIp_trim_show ip).1, bind_eq_ok, okOr_eq_ok,
      Option.some.injEq, exists_eq_left', refuseIf_eq_ok, exists_unit]
    exact ⟨hne, by simpa using ih _ hnext⟩

lemma validateExtraListen_show [LawfulIpText] (hlen : l.length ≤ maxExtraListen)
    (hnodup : (primary :: l).Nodup) :
    validateExtraListen primary (l.map showIp) = .ok l := by
  simp only [validateExtraListen, length_map, bind_eq_ok, refuseIf_eq_ok, exists_unit,
    gt_iff_lt, Nat.not_lt]
  exact ⟨hlen, extraListenLoop_show [] hnodup⟩

lemma of_validateExtraListen {primary : IpAddr} {addrs : List String} {l : List IpAddr}
    (h : validateExtraListen primary addrs = .ok l) :
    l.length ≤ maxExtraListen ∧ (primary :: l).Nodup := by
  simp only [validateExtraListen, bind_eq_ok, refuseIf_eq_ok, exists_unit, gt_iff_lt,
    Nat.not_lt] at h
  obtain ⟨hnodup, hlen⟩ := nodup_of_extraListenLoop h.2 (by simp)
  exact ⟨by simpa [hlen] using h.1, hnodup⟩

/-- What `RuleRequest.validate` establishes of the spec it gives. -/
structure RuleSpec.Valid (caps : Caps) (s : RuleSpec) : Prop where
  port : s.key.listen.port ≠ 0
  extra : s.extraListen.length ≤ maxExtraListen ∧ (s.key.listen.ip :: s.extraListen).Nodup
  udpIdle : ∃ secs : UInt64, ¬ (secs = 0 ∨ secs > 86400) ∧ s.udpIdle = secs.toNat * 1000
  count : s.portCount ≠ 0 ∧ s.key.listen.port.toNat + s.portCount.toNat ≤ 65536
  range : s.portCount > 1 → s.portCount ≤ caps.maxRangePorts ∧
    highestPort s.targets s.request.remotePort + s.portCount.toNat ≤ 65536
  backends : validateBackends s.request.remoteAddr s.request.remotePort s.targets s.http.isSome
    s.portCount = .ok ⟨s.remoteHost, s.remotePort, s.targets⟩
  healthCheck : checkHealthCheck s.healthCheck s.key.protocol s.http.isSome = .ok ()
  connectTimeout : ∀ d, s.connectTimeout = some d → ConnectTimeoutOk s.key.protocol s.http.isSome d
  idleTimeout : ∀ d, s.idleTimeout = some d → RelayTimeoutOk s.key.protocol s.http.isSome d
  halfCloseTimeout : ∀ d, s.halfCloseTimeout = some d →
    RelayTimeoutOk s.key.protocol s.http.isSome d
  allowFrom : s.allowFrom.length ≤ maxAllowFrom
  proxyProtocol : ∀ p, s.proxyProtocol = some p →
    p.from ≠ [] ∧ p.from.length ≤ maxAllowFrom ∧ ∀ c ∈ p.from, c.prefixLen ≠ 0
  tls : validateRange s.key.protocol s.tls s.starttls s.portCount = .ok ()
  misdirected : ¬ (s.tls.misdirected.isSome ∧ s.http = none)
  starttls : starttlsNeeded s.starttls (some s.starttlsRequired) = s.starttlsRequired
  http : ∀ h, s.http = some h →
    checkHttpRule s.key.protocol s.tls s.starttls s.portCount s.sourceIp h = .ok ()
  v04 : V04Settings.validate
    ⟨s.limits, s.bandwidth, s.geoip, s.outlierDetection⟩ s.key.protocol s.http.isSome s.labels
      = .ok ⟨s.limits, s.bandwidth, s.geoip, s.outlierDetection⟩
  features : caps.features.check s.tls s.http = .ok ()
  sourceIp : checkSourceIp s.key.protocol s.sourceIp s.tls s.key.listen caps = .ok ()
  families : s.sourceIp = .transparent →
    checkTransparentFamilies s.extraListen s.members caps = .ok ()
  v04Features : caps.features.checkV04 s = .ok ()

lemma valid_of_validate {r : RuleRequest} {s : RuleSpec} (h : r.validate caps = .ok s) :
    s.Valid caps ∧ s.origin = .dynamic ∧ s.ruleset = none ∧ s.balance = r.balance ∧
      (s.targets = [] ↔ r.targets = []) := by
  simp only [RuleRequest.validate, checkBuilt, bind_eq_ok, exists_unit, refuseIf_eq_ok,
    onlyIf_eq_ok, pure_eq_ok] at h
  obtain ⟨listen, hlisten, extra, hextra, udpIdle, hidle, count, hcount, b, hb, hhealth, connect,
    hconnect, idle, hidleT, half, hhalf, allow, hallow, proxy, hproxy, htls, hmis, hstarttls, hhttp,
    v04, hv04, hfeatures, hsource, hfamilies, hv04f, rfl⟩ := h
  simp only [parseListen, bind_eq_ok, okOr_eq_ok, refuseIf_eq_ok, exists_unit, pure_eq_ok]
    at hlisten
  obtain ⟨ip, -, hport, rfl⟩ := hlisten
  simp only [validateUdpIdle, bind_eq_ok, refuseIf_eq_ok, exists_unit, pure_eq_ok] at hidle
  obtain ⟨hsecs, rfl⟩ := hidle
  obtain ⟨hne, hend, hrange⟩ := of_portCount hcount hport
  obtain ⟨hbackends, hhighest, hnil⟩ := validateBackends_show hb
  refine ⟨?_, rfl, rfl, rfl, hnil⟩
  exact
    { port := hport
      extra := of_validateExtraListen hextra
      udpIdle := ⟨_, hsecs, rfl⟩
      count := ⟨hne, hend⟩
      range := by
        intro hone
        obtain ⟨hmax, hroom⟩ := hrange hone
        rw [← hhighest] at hroom
        exact ⟨hmax, hroom⟩
      backends := hbackends
      healthCheck := hhealth
      connectTimeout := fun d hd =>
      connectTimeoutOk_of_validate (hconnect.trans (congrArg Except.ok hd))
      idleTimeout := fun d hd => relayTimeoutOk_of_validate (hidleT.trans (congrArg Except.ok hd))
      halfCloseTimeout := fun d hd =>
      relayTimeoutOk_of_validate (hhalf.trans (congrArg Except.ok hd))
      allowFrom := Cidr.length_le_of_parseList hallow
      proxyProtocol := fun p hp => ProxyProtocol.validate_ok (hproxy.trans (congrArg Except.ok hp))
      tls := htls
      misdirected := hmis
      starttls := by
        unfold starttlsNeeded
        cases hs : r.starttls != some .smtp <;> simp
      http := onSome_eq_ok.mp hhttp
      v04 := V04Settings.validate_idem hv04
      features := hfeatures
      sourceIp := hsource
      families := hfamilies
      v04Features := hv04f }

lemma validate_proxyProtocol_show [LawfulIpText] {o : Option ProxyProtocol} (h : ∀ p, o = some p →
      p.from ≠ [] ∧ p.from.length ≤ maxAllowFrom ∧ ∀ c ∈ p.from, c.prefixLen ≠ 0) :
    ProxyProtocol.validate (o.map ProxyProtocol.view) = .ok o := by
  cases o with
  | none => rfl
  | some p =>
    obtain ⟨hne, hlen, hlong⟩ := h p rfl
    exact ProxyProtocol.validate_view hne hlen hlong

/-- **The stored shape of a valid spec validates**, to the spec with the balance the shape shows. -/
theorem validate_request [LawfulIpText] {s : RuleSpec} (h : s.Valid caps) : s.request.validate caps
      = .ok { s with balance := s.request.balance, origin := .dynamic, ruleset := none } := by
  obtain ⟨secs, hsecs, hidle⟩ := h.udpIdle
  simp only [RuleRequest.validate, bind_eq_ok, exists_unit, refuseIf_eq_ok]
  refine ⟨s.key.listen, ?listen, s.extraListen, validateExtraListen_show h.extra.1 h.extra.2,
    s.udpIdle, ?idle, s.portCount, portCount_show h.count.1 h.count.2 h.range, _, h.backends,
    h.healthCheck, _, validateConnectTimeout_show h.connectTimeout, _,
    validateRelayTimeout_show h.idleTimeout, _, validateRelayTimeout_show h.halfCloseTimeout, _,
    Cidr.parseList_text h.allowFrom, _, validate_proxyProtocol_show h.proxyProtocol, h.tls,
    h.misdirected, ?starttls, onSome_eq_ok.mpr h.http, _, h.v04, h.features, h.sourceIp, ?built⟩
  case listen =>
    change parseListen (showIp s.key.listen.ip) s.key.listen.port = .ok s.key.listen
    simp only [parseListen, (parseIp_trim_show _).2, bind_eq_ok, okOr_eq_ok, Option.some.injEq,
      exists_eq_left', refuseIf_eq_ok, exists_unit, pure_eq_ok, and_true]
    exact h.port
  case idle =>
    simp only [RuleSpec.request, hidle]
    exact validateUdpIdle_show hsecs
  case starttls =>
    -- without STARTTLS the view shows that TLS is required
    rintro ⟨hnone, hfalse⟩
    have hneeded := h.starttls
    simp only [RuleSpec.request, Option.some.injEq] at hnone hfalse
    rw [hnone, hfalse] at hneeded
    exact absurd hneeded (by decide)
  case built =>
    have hstarttls : starttlsNeeded s.request.starttls s.request.starttlsRequired
        = s.starttlsRequired := h.starttls
    simp only [checkBuilt, bind_eq_ok, exists_unit, onlyIf_eq_ok, pure_eq_ok, hstarttls]
    exact ⟨h.families, h.v04Features, rfl⟩

end Rproxy
