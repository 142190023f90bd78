import Rproxy.Rule.Cidr
import Rproxy.Rule.Targets

/-!
# Limits, lists and labels of a rule

The optional settings that a PATCH replaces as a whole: `proxy_protocol`, `limits`, `bandwidth`,
`geoip`, `outlier_detection` and `labels`.
-/

namespace Rproxy
open Checks

/-! ## `proxy_protocol` -/

open ApiError Text

structure ProxyProtocolSpec where
  «from» : Option (List String)
  required : Option Bool
deriving DecidableEq

structure ProxyProtocol where
  «from» : List Cidr
  required : Bool
deriving DecidableEq

namespace ProxyProtocolSpec

def codec : Codec ProxyProtocolSpec :=
  .record true
    (.and (.optional "from" (.list .str) («from»)) <| .optional "required" .bool required)
    fun (f, required) => { «from» := f, required }

def isEmpty (s : ProxyProtocolSpec) : Bool :=
  s.from.isNone && s.required.isNone

end ProxyProtocolSpec

namespace ProxyProtocol
variable [External]

def parseFrom (s : String) : Except ApiError Cidr := do
  let c ← (Cidr.fromStr s).mapError fun _ =>
    .invalid s!"proxy_protocol.from: not an address or CIDR: {s}"
  refuseIf (c.prefixLen = 0)
    (.invalid (s!"proxy_protocol.from: {s} would believe headers from everyone; list the front " ++
      "ends' addresses"))
  return c

def validate (spec : Option ProxyProtocolSpec) : Except ApiError (Option ProxyProtocol) := do
  match spec.filter (!·.isEmpty) with
  | none => return none
  | some spec =>
    let list := spec.from.getD []
    refuseIf (list = [])
      (.invalid ("proxy_protocol.from must list the front ends whose headers are believed " ++
        "(rproxy does not believe headers from everyone)"))
    refuseIf (list.length > maxAllowFrom)
      (.invalid s!"proxy_protocol.from may hold at most {maxAllowFrom} entries")
    let cidrs ← collect parseFrom list
    return some { «from» := cidrs, required := spec.required.getD true }

def view (p : ProxyProtocol) : ProxyProtocolSpec where
  «from» := some (p.from.map Cidr.text)
  required := some p.required

lemma validate_ok {spec : Option ProxyProtocolSpec} {p : ProxyProtocol}
    (h : validate spec = .ok (some p)) :
    p.from ≠ [] ∧ p.from.length ≤ maxAllowFrom ∧ ∀ c ∈ p.from, c.prefixLen ≠ 0 := by
  unfold validate at h
  split at h
  · simp at h
  simp only [bind_eq_ok, refuseIf_eq_ok, exists_unit, pure_eq_ok, Option.some.injEq] at h
  obtain ⟨hne, hlen, cidrs, hcidrs, rfl⟩ := h
  have hlength := (collect_eq_ok.mp hcidrs).length_eq
  refine ⟨?_, by dsimp only; omega, ?_⟩
  · rintro rfl
    exact hne (List.eq_nil_of_length_eq_zero (by simpa using hlength))
  intro c hc
  obtain ⟨s, -, hs⟩ := exists_of_mem_collect hcidrs hc
  simp only [parseFrom, bind_eq_ok, mapError_eq_ok, refuseIf_eq_ok, exists_unit, pure_eq_ok] at hs
  obtain ⟨c', -, hc', rfl⟩ := hs
  exact hc'

lemma validate_view [LawfulIpText] {p : ProxyProtocol} (hne : p.from ≠ [])
    (hlen : p.from.length ≤ maxAllowFrom) (hlong : ∀ c ∈ p.from, c.prefixLen ≠ 0) :
    validate (some p.view) = .ok (some p) := by
  have hparse : ∀ c ∈ p.from, parseFrom c.text = .ok c := by
    intro c hc
    simp only [parseFrom, Cidr.fromStr_text, bind_eq_ok, mapError_eq_ok, Except.ok.injEq,
      refuseIf_eq_ok, exists_unit, pure_eq_ok, exists_eq_left', and_true]
    exact hlong c hc
  have hfilter : (some p.view).filter (!·.isEmpty) = some p.view := rfl
  simp only [validate, hfilter, bind_eq_ok, refuseIf_eq_ok, exists_unit, pure_eq_ok]
  refine ⟨by simpa [view] using hne, by simpa [view] using hlen, p.from, ?_, rfl⟩
  exact collect_map hparse

end ProxyProtocol

/-! ## `limits` -/

structure RateSpec where
  average : UInt64
  period : Option String
  burst : Option UInt64
deriving DecidableEq

structure PerSourceLimits where
  prefixV4 : Option UInt8
  prefixV6 : Option UInt8
  maxConnections : Option UInt64
  newConnections : Option RateSpec
  packets : Option RateSpec
  maxSources : Option UInt64
deriving DecidableEq

structure LimitsSpec where
  maxConnections : Option UInt64
  perSource : Option PerSourceLimits
deriving DecidableEq

def RateSpec.codec : Codec RateSpec :=
  .record true
    (.and (.required "average" .u64 average) <| .and (.optional "period" .str period) <|
      .optional "burst" .u64 burst)
    fun (average, period, burst) => { average, period, burst }

def PerSourceLimits.codec : Codec PerSourceLimits :=
  .record true
    (.and (.optional "prefix_v4" .u8 prefixV4) <| .and (.optional "prefix_v6" .u8 prefixV6) <|
      .and (.optional "max_connections" .u64 maxConnections) <|
      .and (.optional "new_connections" RateSpec.codec newConnections) <|
      .and (.optional "packets" RateSpec.codec packets) <|
      .optional "max_sources" .u64 maxSources)
    fun (prefixV4, prefixV6, maxConnections, newConnections, packets, maxSources) =>
      { prefixV4, prefixV6, maxConnections, newConnections, packets, maxSources }

def LimitsSpec.codec : Codec LimitsSpec :=
  .record true
    (.and (.optional "max_connections" .u64 maxConnections) <|
      .optional "per_source" PerSourceLimits.codec perSource)
    fun (maxConnections, perSource) => { maxConnections, perSource }

section
variable [External]

def RateSpec.validate (r : RateSpec) (what : String) : Except ApiError Nat := do
  refuseIf (r.average = 0) (.invalid s!"{what}.average must be at least 1")
  let period ← match r.period with
    | some p => (parseDuration p).mapError fun e => invalid s!"{what}.period: {e}"
    | none => .ok 1000
  refuseIf (period < 1 ∨ period > 3600 * 1000) (.invalid s!"{what}.period must be 1ms-1h")
  refuseIf (r.burst.any (· < r.average)) (.invalid s!"{what}.burst must not be below average")
  return period

def range (what : String) (value : Option UInt64) (max : Nat) : Except ApiError Unit :=
  onSome value fun v =>
    refuseIf (v = 0 ∨ v.toNat > max) (.invalid s!"{what} must be 1-{max}")

def checkPrefixes (what : String) (v4 v6 : Option UInt8) : Except ApiError Unit := do
  onSome v4 fun n => refuseIf (n = 0 ∨ n > 32) (.invalid s!"{what}.prefix_v4 must be 1-32")
  onSome v6 fun n => refuseIf (n = 0 ∨ n > 128) (.invalid s!"{what}.prefix_v6 must be 1-128")

def LimitsSpec.validate (l : LimitsSpec) (protocol : Protocol) : Except ApiError Unit := do
  range "limits.max_connections" l.maxConnections 10000000
  onSome l.perSource fun p => do
    checkPrefixes "limits.per_source" p.prefixV4 p.prefixV6
    range "limits.per_source.max_connections" p.maxConnections 1000000
    range "limits.per_source.max_sources" p.maxSources 1000000
    onSome p.newConnections fun r => do
      let _ ← r.validate "limits.per_source.new_connections"
    onSome p.packets fun r => do
      refuseIf (protocol ≠ .udp) (.invalid "limits.per_source.packets is for udp rules only")
      let _ ← r.validate "limits.per_source.packets"
    refuseIf (p.maxConnections = none ∧ p.newConnections = none ∧ p.packets = none)
      (.invalid "limits.per_source needs max_connections, new_connections or packets")

end

def LimitsSpec.isEmpty (l : LimitsSpec) : Bool :=
  l.maxConnections.isNone && l.perSource.isNone

/-! ## `bandwidth` -/

structure PerSourceBandwidth where
  upload : Option String
  download : Option String
  prefixV4 : Option UInt8
  prefixV6 : Option UInt8
  maxSources : Option UInt64
deriving DecidableEq

structure BandwidthSpec where
  upload : Option String
  download : Option String
  burst : Option String
  perSource : Option PerSourceBandwidth
deriving DecidableEq

def PerSourceBandwidth.codec : Codec PerSourceBandwidth :=
  .record true
    (.and (.optional "upload" .str upload) <| .and (.optional "download" .str download) <|
      .and (.optional "prefix_v4" .u8 prefixV4) <| .and (.optional "prefix_v6" .u8 prefixV6) <|
      .optional "max_sources" .u64 maxSources)
    fun (upload, download, prefixV4, prefixV6, maxSources) =>
      { upload, download, prefixV4, prefixV6, maxSources }

def BandwidthSpec.codec : Codec BandwidthSpec :=
  .record true
    (.and (.optional "upload" .str upload) <| .and (.optional "download" .str download) <|
      .and (.optional "burst" .str burst) <|
      .optional "per_source" PerSourceBandwidth.codec perSource)
    fun (upload, download, burst, perSource) => { upload, download, burst, perSource }

def BandwidthSpec.isEmpty (b : BandwidthSpec) : Bool :=
  b == { upload := none, download := none, burst := none, perSource := none }

def unitFactor (table : List (String × Nat)) (unit : String) : Option Nat :=
  (table.find? fun u => u.1 == unit).map (·.2)

section
variable [External]

def parseRate (s : String) : Except String Nat := do
  let bad := s!"{debugStr s} is not a rate (e.g. 500kbps, 10Mbps, 1Gbps)"
  let parts := splitDigits s
  -- no unit at all is not a rate either
  refuseIf (parts.2 = "") bad
  let n ← okOr bad (parseUnsigned maxU64 parts.1)
  let mult ← okOr bad <|
    unitFactor [("bps", 1), ("kbps", 1000), ("Mbps", 1000000), ("Gbps", 1000000000)] parts.2
  refuseIf (n * mult > maxU64) bad
  refuseIf (n * mult < 8000 ∨ n * mult > 100000000000) s!"{debugStr s} must be 8kbps-100Gbps"
  return n * mult

def parseSize (s : String) : Except String Nat := do
  let bad := s!"{debugStr s} is not a size (e.g. 4096, 64KiB, 1MiB)"
  let parts := splitDigits s
  let n ← okOr bad (parseUnsigned maxU64 parts.1)
  let mult ← okOr bad <|
    unitFactor [("", 1), ("B", 1), ("KiB", 2 ^ 10), ("MiB", 2 ^ 20), ("GiB", 2 ^ 30)] parts.2
  refuseIf (n * mult > maxU64) bad
  return n * mult

def rate (what : String) (value : Option String) : Except ApiError Unit :=
  onSome value fun v => do
    let _ ← (parseRate v).mapError fun e => invalid s!"{what}: {e}"

def BandwidthSpec.validate (b : BandwidthSpec) : Except ApiError Unit := do
  rate "bandwidth.upload" b.upload
  rate "bandwidth.download" b.download
  onSome b.burst fun s => do
    let n ← (parseSize s).mapError fun e => invalid s!"bandwidth.burst: {e}"
    refuseIf (n < 2 ^ 10 ∨ n > 2 ^ 30) (.invalid "bandwidth.burst must be 1KiB-1GiB")
  onSome b.perSource fun p => do
    rate "bandwidth.per_source.upload" p.upload
    rate "bandwidth.per_source.download" p.download
    checkPrefixes "bandwidth.per_source" p.prefixV4 p.prefixV6
    range "bandwidth.per_source.max_sources" p.maxSources 1000000
    refuseIf (p.upload = none ∧ p.download = none)
      (.invalid "bandwidth.per_source needs upload or download")
  refuseIf (b.upload = none ∧ b.download = none ∧ b.perSource = none)
    (.invalid "bandwidth needs a rate (upload, download or per_source)")

end

inductive Unknown where
  | allow
  | deny
deriving DecidableEq

def Unknown.codec : Codec Unknown :=
  .enum (fun | .allow => "allow" | .deny => "deny") [.allow, .deny] fun a => by cases a <;> decide

structure GeoipSpec where
  allowCountries : List String
  denyCountries : List String
  allowAsns : List UInt32
  denyAsns : List UInt32
  unknown : Unknown
deriving DecidableEq

namespace GeoipSpec

def codec : Codec GeoipSpec :=
  .record true
    (.and (.default "allow_countries" (.list .str) [] allowCountries) <|
      .and (.default "deny_countries" (.list .str) [] denyCountries) <|
      .and (.default "allow_asns" (.list .u32) [] allowAsns) <|
      .and (.default "deny_asns" (.list .u32) [] denyAsns) <|
      .default "unknown" Unknown.codec .allow unknown)
    fun (allowCountries, denyCountries, allowAsns, denyAsns, unknown) =>
      { allowCountries, denyCountries, allowAsns, denyAsns, unknown }

def isEmpty (g : GeoipSpec) : Bool :=
  g == { allowCountries := [], denyCountries := [], allowAsns := [], denyAsns := [],
         unknown := .allow }

def validate [External] (g : GeoipSpec) (what : String) : Except ApiError Unit := do
  refuseIf (g.allowCountries = [] ∧ g.denyCountries = [] ∧ g.allowAsns = [] ∧ g.denyAsns = [])
    (.invalid s!"{what} needs a list (allow_countries, deny_countries, allow_asns or deny_asns)")
  forEach (fun c => refuseIf (c.toList.length ≠ 2 ∨ ¬ c.toList.all Char.isUpper)
      (.invalid s!"{what}: {debugStr c} is not a country code (ISO 3166-1 alpha-2, e.g. JP)"))
    (g.allowCountries ++ g.denyCountries)
  onSome (g.allowCountries.find? (g.denyCountries.contains ·)) fun c =>
    throw (.invalid s!"{what}: {c} is in both allow_countries and deny_countries")
  refuseIf (0 ∈ g.allowAsns ++ g.denyAsns) (.invalid s!"{what}: ASNs are 1-4294967295")
  onSome (g.allowAsns.find? (g.denyAsns.contains ·)) fun a =>
    throw (.invalid s!"{what}: AS{a.toNat} is in both allow_asns and deny_asns")

end GeoipSpec

/-! ## `outlier_detection` -/

structure L4OutlierSpec where
  consecutiveFailures : Option UInt32
  shortLived : Option String
  ejectionTime : Option String
  maxEjectionTime : Option String
  maxEjectedPercent : Option UInt8
deriving DecidableEq

def fmtSeconds (ms : Nat) : String :=
  let s := ms / 1000
  if s = 0 then "0s"
  else if s % 3600 = 0 then s!"{s / 3600}h"
  else if s % 60 = 0 then s!"{s / 60}m"
  else s!"{s}s"

namespace L4OutlierSpec

def codec : Codec L4OutlierSpec :=
  .record true
    (.and (.optional "consecutive_failures" .u32 consecutiveFailures) <|
      .and (.optional "short_lived" .str shortLived) <|
      .and (.optional "ejection_time" .str ejectionTime) <|
      .and (.optional "max_ejection_time" .str maxEjectionTime) <|
      .optional "max_ejected_percent" .u8 maxEjectedPercent)
    fun (consecutiveFailures, shortLived, ejectionTime, maxEjectionTime, maxEjectedPercent) =>
      { consecutiveFailures, shortLived, ejectionTime, maxEjectionTime, maxEjectedPercent }

def isEmpty (o : L4OutlierSpec) : Bool :=
  o == { consecutiveFailures := none, shortLived := none, ejectionTime := none,
         maxEjectionTime := none, maxEjectedPercent := none }

variable [External]

def duration (what : String) (value : Option String) (min max : Nat) :
    Except ApiError (Option Nat) := do
  match value with
  | none => return none
  | some v =>
    let d ← if v = "0s" then .ok 0
      else (parseDuration v).mapError fun e => invalid s!"{what}: {e}"
    refuseIf (d < min ∨ d > max) (.invalid s!"{what} must be {fmtSeconds min}-{fmtSeconds max}")
    return some d

def ejection (what : String) (first max : Option String) (defaultFirst : Nat) :
    Except ApiError Unit := do
  let first ← duration s!"{what}.ejection_time" first 1000 3600000
  let max ← duration s!"{what}.max_ejection_time" max 1000 3600000
  onSome max fun m => refuseIf (m < first.getD defaultFirst)
    (.invalid s!"{what}.max_ejection_time must not be below ejection_time")

def percent (what : String) (value : Option UInt8) (min : UInt8) : Except ApiError Unit :=
  onSome value fun p =>
    refuseIf (p < min ∨ p > 100) (.invalid s!"{what} must be {min.toNat}-100")

def validate (o : L4OutlierSpec) : Except ApiError Unit := do
  onSome o.consecutiveFailures fun n => refuseIf (n = 0 ∨ n > 1000)
    (.invalid "outlier_detection.consecutive_failures must be 1-1000")
  let _ ← duration "outlier_detection.short_lived" o.shortLived 0 60000
  ejection "outlier_detection" o.ejectionTime o.maxEjectionTime 10000
  percent "outlier_detection.max_ejected_percent" o.maxEjectedPercent 0

end L4OutlierSpec

abbrev Labels := List (String × String)

namespace Labels

def codec : Codec Labels where
  enc l := .obj (l.map fun (k, v) => (k, .str v))
  dec
    | .obj fields => fields.mapM fun (k, j) => (Codec.str.dec j).map fun v => (k, v)
    | _ => none
  dec_enc l := by
    induction l with
    | nil => rfl
    | cons a l ih =>
      simp only [List.map_cons, List.mapM_cons] at ih ⊢
      rw [ih]
      rfl
  enc_ne_null _ := nofun

def validate [External] (labels : Labels) : Except ApiError Unit := do
  refuseIf (labels.length > 16) (.invalid "labels: at most 16")
  forEach (fun (k, v) => do
      let edge : Option Char → Bool := fun c => c.any isAlphanumeric
      let inner := k.toList.all fun c => isAlphanumeric c || "._/-".toList.contains c
      refuseIf (k = "" ∨ byteLen k > 63 ∨ ¬ inner ∨ ¬ edge k.toList.head? ∨
          ¬ edge k.toList.getLast?)
        (.invalid s!"labels: {debugStr k} is not a key (letters, digits, . _ / -, at most 63)")
      refuseIf (v.toList.length > 253 ∨ v.toList.any isControl)
        (.invalid s!"labels.{k}: at most 253 characters, no control characters"))
    labels

end Labels

structure V04Settings where
  limits : Option LimitsSpec
  bandwidth : Option BandwidthSpec
  geoip : Option GeoipSpec
  outlierDetection : Option L4OutlierSpec
deriving DecidableEq

namespace V04Settings
variable [External]

def validate (v : V04Settings) (protocol : Protocol) (http : Bool) (labels : Labels) :
    Except ApiError V04Settings := do
  labels.validate
  let limits := v.limits.filter (!·.isEmpty)
  onSome limits fun l => l.validate protocol
  let bandwidth := v.bandwidth.filter (!·.isEmpty)
  onSome bandwidth fun b => b.validate
  let geoip := v.geoip.filter (!·.isEmpty)
  onSome geoip fun g => g.validate "geoip"
  let outlierDetection := v.outlierDetection.filter (!·.isEmpty)
  onSome outlierDetection fun o => do
    refuseIf http
      (.invalid ("outlier_detection of a rule is not used with http; use " ++
        "http.services.<name>.outlier_detection"))
    o.validate
  return { limits, bandwidth, geoip, outlierDetection }

lemma validate_idem {v v' : V04Settings} {protocol : Protocol} {http : Bool} {labels : Labels}
    (h : v.validate protocol http labels = .ok v') :
    v'.validate protocol http labels = .ok v' := by
  simp only [validate, bind_eq_ok, exists_unit, onSome_eq_ok, refuseIf_eq_ok, pure_eq_ok] at h ⊢
  obtain ⟨hlabels, hlimits, hbandwidth, hgeoip, houtlier, rfl⟩ := h
  simp only [Option.filter_filter, Bool.and_self]
  exact ⟨hlabels, hlimits, hbandwidth, hgeoip, houtlier, trivial⟩

end V04Settings
end Rproxy
