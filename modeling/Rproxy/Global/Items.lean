import Rproxy.Data.Family
import Rproxy.Rule.Stored

/-!
# The items of `global`

The settings of the whole process: whom to believe about a client's address, the access log,
CrowdSec, the limits of `http`, the caps on sessions and cache memory, GeoIP and ACME.
-/

namespace Rproxy
open Checks Codec Function Json Text

structure CrowdsecGlobal where
  lapiUrl : String
  apiKeyFile : String
  appsecUrl : Option String
  updateInterval : Option String
deriving DecidableEq

def CrowdsecGlobal.codec : Codec CrowdsecGlobal :=
  .record true
    (.and (.required "lapi_url" .str lapiUrl) <| .and (.required "api_key_file" .str apiKeyFile) <|
      .and (.optional "appsec_url" .str appsecUrl) <|
      .optional "update_interval" .str updateInterval)
    fun (lapiUrl, apiKeyFile, appsecUrl, updateInterval) =>
      { lapiUrl, apiKeyFile, appsecUrl, updateInterval }

structure GeoipGlobal where
  countryDb : Option String
  asnDb : Option String
  checkInterval : Option String
  logCountry : Bool
deriving DecidableEq

namespace GeoipGlobal

def codec : Codec GeoipGlobal :=
  .record true
    (.and (.optional "country_db" .str countryDb) <| .and (.optional "asn_db" .str asnDb) <|
      .and (.optional "check_interval" .str checkInterval) <|
      .shown "log_country" .bool false logCountry)
    fun (countryDb, asnDb, checkInterval, logCountry) =>
      { countryDb, asnDb, checkInterval, logCountry }

def databases (g : GeoipGlobal) : List (String × String) :=
  (g.countryDb.map fun p => ("country_db", p)).toList ++ (g.asnDb.map fun p => ("asn_db", p)).toList

end GeoipGlobal

/-! ## Items -/

inductive LiveItem where
  | trustedProxies
  | accessLog
  | crowdsec
  | httpTimeouts
  | udpMaxSessions
  | cacheMaxMemory
  | acme
  | geoip
deriving DecidableEq

namespace LiveItem

def all : List LiveItem :=
  [trustedProxies, accessLog, crowdsec, httpTimeouts, udpMaxSessions, cacheMaxMemory, acme, geoip]

lemma mem_all (i : LiveItem) : i ∈ all := by
  cases i <;> decide

def name : LiveItem → String
  | trustedProxies => "trusted_proxies"
  | accessLog => "access_log"
  | crowdsec => "crowdsec"
  | httpTimeouts => "http.timeouts"
  | udpMaxSessions => "udp_max_sessions"
  | cacheMaxMemory => "cache_max_memory"
  | acme => "acme"
  | geoip => "geoip"

def path : LiveItem → String × Option String
  | httpTimeouts => ("http", some "timeouts")
  | i => (i.name, none)

end LiveItem

/-- The items of `GET /config/global`: the last three are read once at the start. -/
inductive Item where
  | live (i : LiveItem)
  | performance
  | files
  | controlApi
deriving DecidableEq

namespace Item

def all : List Item := LiveItem.all.map live ++ [performance, files, controlApi]

def name : Item → String
  | live i => i.name
  | performance => "performance"
  | files => "files"
  | controlApi => "control_api"

def ofName (name : String) : Option Item := all.find? fun i => i.name = name

def live? : Item → Option LiveItem
  | live i => some i
  | _ => none

end Item

/-! ## Values -/

/-- The settings that `global` takes from elsewhere, with the readings it makes of them. -/
class GlobalExternal [External] where
  Timeouts : Type
  timeoutsDecEq : DecidableEq Timeouts
  timeoutsCodec : Codec Timeouts
  timeoutsCheck : Timeouts → Except String Unit
  Acme : Type
  acmeDecEq : DecidableEq Acme
  acmeDec : Json → Option Acme
  /-- How `Values::get` writes it: without nulls and empty lists or maps (`pruned`). -/
  acmeEnc : Acme → Json
  acmeCheck : Acme → Except String Unit
  /-- A value that passes its check reads back, as every account and provider has names. -/
  acme_dec_enc : ∀ a, acmeCheck a = .ok () → acmeDec (acmeEnc a) = some a
  acmePaths : Acme → List (String × String)
  acmeSecretsInFiles : Acme → Except String Unit
  /-- `AcmeGlobal::check_names`: whether a certificate for these names may be obtained through the
  resolver. -/
  checkNames : Acme → String → List String → Except String Unit
  http01Listen : Acme → List SocketAddr
  /-- The `crowdsec` middlewares of `http` settings: whether each uses AppSec. -/
  crowdsecMiddlewares : HttpSpec → List Bool
  geoipMiddlewares : HttpSpec → List GeoipSpec
  parseBase : String → Except String Unit
  shown : LiveItem → Json → Json
  readError : Json → String

export GlobalExternal (Timeouts Acme)

section
variable [External] [GlobalExternal]
open GlobalExternal

instance : DecidableEq Timeouts := timeoutsDecEq

instance : DecidableEq Acme := acmeDecEq

namespace LiveItem

@[reducible]
def Ty : LiveItem → Type
  | trustedProxies => List String
  | accessLog => String
  | crowdsec => CrowdsecGlobal
  | httpTimeouts => Timeouts
  | udpMaxSessions => UInt64
  | cacheMaxMemory => UInt64
  | acme => Acme
  | geoip => GeoipGlobal

@[reducible]
def Held : LiveItem → Type
  | trustedProxies => List String
  | accessLog => Option String
  | crowdsec => Option CrowdsecGlobal
  | httpTimeouts => Option Timeouts
  | udpMaxSessions => UInt64
  | cacheMaxMemory => UInt64
  | acme => Option Acme
  | geoip => Option GeoipGlobal

instance : (i : LiveItem) → DecidableEq i.Held
  | trustedProxies => inferInstanceAs (DecidableEq (List String))
  | accessLog => inferInstanceAs (DecidableEq (Option String))
  | crowdsec => inferInstanceAs (DecidableEq (Option CrowdsecGlobal))
  | httpTimeouts => inferInstanceAs (DecidableEq (Option Timeouts))
  | udpMaxSessions => inferInstanceAs (DecidableEq UInt64)
  | cacheMaxMemory => inferInstanceAs (DecidableEq UInt64)
  | acme => inferInstanceAs (DecidableEq (Option Acme))
  | geoip => inferInstanceAs (DecidableEq (Option GeoipGlobal))

def held : (i : LiveItem) → Option i.Ty → i.Held
  | trustedProxies, v => v.getD []
  | accessLog, v => v
  | crowdsec, v => v
  | httpTimeouts, v => v
  | udpMaxSessions, v => v.getD 16384
  | cacheMaxMemory, v => v.getD (512 * 2 ^ 20)
  | acme, v => v
  | geoip, v => v

end LiveItem

abbrev Values : Type := Family LiveItem.Ty

abbrev Live : Type := (i : LiveItem) → i.Held

/-! ## Reading a value -/

namespace LiveItem

def parse : (i : LiveItem) → Json → Option i.Ty
  | trustedProxies => (list .str).dec
  | accessLog => str.dec
  | crowdsec => CrowdsecGlobal.codec.dec
  | httpTimeouts => timeoutsCodec.dec
  | udpMaxSessions => u64.dec
  | cacheMaxMemory => u64.dec
  | acme => acmeDec
  | geoip => GeoipGlobal.codec.dec

def toJson : (i : LiveItem) → i.Ty → Json
  | trustedProxies => (list .str).enc
  | accessLog => str.enc
  | crowdsec => CrowdsecGlobal.codec.enc
  | httpTimeouts => timeoutsCodec.enc
  | udpMaxSessions => u64.enc
  | cacheMaxMemory => u64.enc
  | acme => acmeEnc
  | geoip => GeoipGlobal.codec.enc

end LiveItem

def checkAbsolute (what p : String) : Except String Unit :=
  refuseIf (trim p = "" ∨ startsWith "/" p = false)
    s!"{what}: {debugStr p} is not an absolute path"

def GeoipGlobal.check (g : GeoipGlobal) : Except String Unit := do
  refuseIf (g.countryDb = none ∧ g.asnDb = none) "global.geoip needs country_db or asn_db"
  forEach (fun d => refuseIf (trim d.2 = "") s!"global.geoip.{d.1} must not be empty")
    g.databases
  onSome (g.checkInterval.filter (· ≠ "0s")) fun i =>
    (parseDuration i).map (fun _ => ()) |>.mapError fun e => s!"global.geoip.check_interval: {e}"

def LiveItem.check : (i : LiveItem) → i.Ty → Except String Unit
  | .trustedProxies, list =>
    forEach (fun c => (Cidr.fromStr c).map (fun _ => ()) |>.mapError fun e =>
      s!"global.trusted_proxies: {e.message}") list
  | .accessLog, p => checkAbsolute "global.access_log" p
  | .crowdsec, c => do
    checkAbsolute "global.crowdsec.api_key_file" c.apiKeyFile
    (parseBase (trim c.lapiUrl)).mapError fun e =>
      s!"global.crowdsec.lapi_url: {e}"
    onSome c.appsecUrl fun u => (parseBase (trim u)).mapError fun e =>
      s!"global.crowdsec.appsec_url: {e}"
    onSome c.updateInterval fun i => (parseDuration i).map (fun _ => ()) |>.mapError fun e =>
      s!"global.crowdsec.update_interval: {e}"
  | .httpTimeouts, t => timeoutsCheck t
  | .udpMaxSessions, _ => .ok ()
  | .cacheMaxMemory, _ => .ok ()
  | .acme, a => do
    acmeCheck a
    forEach (fun p => checkAbsolute s!"global.acme.{p.1}" p.2) (acmePaths a)
    acmeSecretsInFiles a
  | .geoip, g => do
    g.check
    forEach (fun d => checkAbsolute s!"global.geoip.{d.1}" d.2) g.databases

namespace LiveItem

def read (i : LiveItem) (j : Json) : Except String i.Ty := do
  let v ← okOr s!"global.{i.name}: {GlobalExternal.readError j}" (i.parse j)
  i.check v
  return v

lemma read_toJson {i : LiveItem} {v : i.Ty} (h : i.check v = .ok ()) :
    i.read (i.toJson v) = .ok v := by
  have hparse : i.parse (i.toJson v) = some v := by
    cases i with
    | acme =>
      refine acme_dec_enc v ?_
      simp only [check, bind_eq_ok, exists_unit] at h
      exact h.1
    | _ => exact dec_enc _ v
  simp only [read, hparse, bind_eq_ok, okOr_eq_ok, exists_unit, pure_eq_ok]
  exact ⟨v, rfl, h, rfl⟩

lemma check_of_read {i : LiveItem} {j : Json} {v : i.Ty} (h : i.read j = .ok v) :
    i.check v = .ok () := by
  simp only [read, bind_eq_ok, okOr_eq_ok, exists_unit, pure_eq_ok] at h
  obtain ⟨w, -, hcheck, rfl⟩ := h
  exact hcheck

end LiveItem

namespace Values

def get (v : Values) (i : LiveItem) : Option Json := (v i).map i.toJson

def set (v : Values) (i : LiveItem) (value : Option Json) : Except String Values :=
  match value with
  | none => .ok (update v i none)
  | some j => (i.read j).map fun x => update v i (some x)

variable {i : LiveItem}

lemma set_of_read {v : Values} {j : Json} {x : i.Ty} (h : i.read j = .ok x) :
    v.set i (some j) = .ok (update v i (some x)) := by
  simp only [set, h, Except.map]

def Checked (v : Values) : Prop := ∀ (i : LiveItem) (x : i.Ty), v i = some x → i.check x = .ok ()

variable {value : Option Json}

lemma exists_of_set {v w : Values} (h : v.set i value = .ok w) :
    ∃ y, w = update v i y ∧ ∀ x, y = some x → i.check x = .ok () := by
  cases value with
  | none =>
    cases h
    exact ⟨none, rfl, nofun⟩
  | some j =>
    cases hread : i.read j with
    | error e =>
      rw [set, hread] at h
      cases h
    | ok x =>
      rw [set_of_read hread] at h
      cases h
      refine ⟨some x, rfl, fun y hy => ?_⟩
      cases hy
      exact LiveItem.check_of_read hread

lemma Checked.set {v w : Values} (hv : v.Checked) (h : v.set i value = .ok w) : w.Checked := by
  obtain ⟨y, rfl, hy⟩ := exists_of_set h
  intro k x hx
  by_cases hk : k = i
  · subst hk
    rw [update_self] at hx
    exact hy x hx
  rw [update_of_ne hk] at hx
  exact hv k x hx

end Values

/-! ## Values as they are stored -/

def Json.removeKey (name : String) (fields : List (String × Json)) : List (String × Json) :=
  fields.filter fun f => f.1 ≠ name

def Json.insertKey (name : String) (j : Json) : List (String × Json) → List (String × Json)
  | [] => [(name, j)]
  | f :: fields => if f.1 = name then (name, j) :: fields else f :: insertKey name j fields

namespace LiveItem

def takeAt (i : LiveItem) : Json → Json × Option Json
  | .obj fields =>
    match i.path.2 with
    | none => (.obj (removeKey i.path.1 fields), fields.lookup i.path.1)
    | some sub =>
      match fields.lookup i.path.1 with
      | some (.obj inner) =>
        let left := removeKey sub inner
        (.obj (if left.isEmpty then removeKey i.path.1 fields
          else insertKey i.path.1 (.obj left) fields), inner.lookup sub)
      | _ => (.obj fields, none)
  | j => (j, none)

def putAt (i : LiveItem) (v value : Json) : Json :=
  let fields :=
    match v with
    | .obj fields => fields
    | _ => []
  match i.path.2 with
  | none => .obj (insertKey i.path.1 value fields)
  | some sub =>
    let inner :=
      match fields.lookup i.path.1 with
      | some (.obj inner) => inner
      | _ => []
    .obj (insertKey i.path.1 (.obj (insertKey sub value inner)) fields)

end LiveItem

structure Stored where
  values : Values
  rest : Json
  errors : LiveItem → Option String

def Stored.step (s : Stored) (i : LiveItem) : Stored :=
  match i.takeAt s.rest with
  | (rest, none) => { s with rest }
  | (rest, some v) =>
    match s.values.set i (some v) with
    | .ok values => { s with values, rest }
    | .error e =>
      { s with rest := i.putAt rest v, errors := update s.errors i (some e) }

open Stored

def Values.readStored (spec : Json) : Stored :=
  let rest :=
    match spec with
    | .obj fields => .obj fields
    | _ => .obj []
  LiveItem.all.foldl step { values := Family.none, rest, errors := fun _ => none }

lemma Stored.checked_step {s : Stored} (hs : s.values.Checked) (j : LiveItem) :
    (s.step j).values.Checked := by
  unfold step
  split
  · exact hs
  split
  next hset => exact hs.set hset
  · exact hs

lemma Values.checked_readStored (spec : Json) : (readStored spec).values.Checked := by
  have hfold : ∀ (items : List LiveItem) (s : Stored), s.values.Checked →
      (items.foldl step s).values.Checked := by
    intro items
    induction items with
    | nil => exact fun s hs => hs
    | cons j items ih => exact fun s hs => ih _ (checked_step hs j)
  exact hfold _ _ fun i v hv => by cases hv

end
end Rproxy
