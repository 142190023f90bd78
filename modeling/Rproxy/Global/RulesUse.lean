import Rproxy.Global.Settings
import Rproxy.Registry.State

/-!
# What the rules use of `global`

A rule may ask CrowdSec about its clients, look them up in the GeoIP databases, and take its
certificates from ACME.
-/

namespace Rproxy.Global
open GlobalExternal

section
variable [External] [GlobalExternal]

/-! ## Needs -/

structure CrowdsecUse where
  any : Bool
  appsec : Bool
deriving DecidableEq

def CrowdsecUse.refuses (u : CrowdsecUse) : Option CrowdsecGlobal → Option String
  | none => if u.any then some "rules use crowdsec" else none
  | some c =>
    if u.appsec ∧ c.appsecUrl = none then
      some "rules use crowdsec appsec, which needs appsec_url"
    else none

structure GeoipUse where
  countries : Bool
  asns : Bool
deriving DecidableEq

def GeoipUse.refuses (u : GeoipUse) (g : Option GeoipGlobal) : Option String :=
  if u.countries ∧ g.bind GeoipGlobal.countryDb = none then
    some "rules use country lists, which need global.geoip.country_db"
  else if u.asns ∧ g.bind GeoipGlobal.asnDb = none then
    some "rules use ASN lists, which need global.geoip.asn_db"
  else none

def CrowdsecUse.of (spec : RuleSpec) : CrowdsecUse :=
  let middlewares := spec.http.toList.flatMap crowdsecMiddlewares
  { any := spec.crowdsec || !middlewares.isEmpty, appsec := middlewares.any id }

def geoipLists (spec : RuleSpec) : List GeoipSpec :=
  spec.geoip.toList ++ spec.http.toList.flatMap geoipMiddlewares

def GeoipUse.of (spec : RuleSpec) : GeoipUse where
  countries := (geoipLists spec).any fun g => g.allowCountries ≠ [] ∨ g.denyCountries ≠ []
  asns := (geoipLists spec).any fun g => g.allowAsns ≠ [] ∨ g.denyAsns ≠ []

def acmeNeeds (spec : RuleSpec) : List (String × List String) :=
  spec.tls.certificates.filterMap fun c => c.acme.map fun resolver => (resolver, c.domains)

structure Listening where
  key : String
  ips : List IpAddr
  v6only : Bool
  ports : Nat × Nat

structure RulesUse where
  crowdsec : CrowdsecUse
  geoip : GeoipUse
  acme : List (String × List String)
  sockets : Nat
  tcp : List Listening

namespace RulesUse

def acmeRefuses (u : RulesUse) (acme : Option Acme) : Option String :=
  match u.acme, acme with
  | [], _ => none
  | (resolver, _) :: _, none =>
    some s!"rules use acme certificates (resolver {debugStr resolver})"
  | needs, some a =>
    needs.findSome? fun (resolver, names) =>
      match checkNames a resolver names with
      | .ok () => none
      | .error e => some (s!"rules use acme resolver {debugStr resolver} for " ++
          s!"{names.map debugStr}: {e}")

def refused (u : RulesUse) (target : Live) (applied : List LiveItem) : Option String :=
  ((u.crowdsec.refuses (target .crowdsec)).filter fun _ => .crowdsec ∈ applied).or
    (((u.geoip.refuses (target .geoip)).filter fun _ => .geoip ∈ applied).or
      ((u.acmeRefuses (target .acme)).filter fun _ => .acme ∈ applied))

end RulesUse

def rulesUse (s : Rproxy.State) : RulesUse :=
  let specs := s.rules.pairs.map fun e => e.2.spec
  let others := specs.filter fun spec => spec.origin ≠ .static
  { crowdsec :=
      { any := specs.any fun spec => (CrowdsecUse.of spec).any
        appsec := specs.any fun spec => (CrowdsecUse.of spec).appsec }
    geoip :=
      { countries := others.any fun spec => (GeoipUse.of spec).countries
        asns := others.any fun spec => (GeoipUse.of spec).asns }
    -- a `BTreeSet`: each once, in order
    acme := ((others.flatMap acmeNeeds).insertionSort fun a b =>
      a.1 < b.1 ∨ a.1 = b.1 ∧ a.2 ≤ b.2).dedup
    sockets := (specs.map Quota.sockets).sum
    tcp := (specs.filter fun spec => spec.key.protocol = .tcp).map fun spec =>
      { key := spec.key.text, ips := spec.listenIps, v6only := spec.v6only
        ports := (spec.firstPort, spec.lastPort) } }

structure Provided (live : Live) (spec : RuleSpec) : Prop where
  crowdsec : (CrowdsecUse.of spec).refuses (live .crowdsec) = none
  geoip : (GeoipUse.of spec).refuses (live .geoip) = none
  acme : ∀ n ∈ acmeNeeds spec, ∃ a, live .acme = some a ∧
    checkNames a n.1 n.2 = .ok ()

def crowdsecGate (live : Live) (spec : RuleSpec) : Except ApiError Unit :=
  let u := CrowdsecUse.of spec
  if !u.any then .ok ()
  else
    match live .crowdsec with
    | none => .error (.needs .needsCrowdsec
        "crowdsec needs global.crowdsec (the settings file or PATCH /config/global)")
    | some c =>
      if u.appsec ∧ c.appsecUrl = none then
        .error (.needs .needsCrowdsec "crowdsec appsec needs global.crowdsec.appsec_url")
      else .ok ()

def geoipGate (live : Live) (spec : RuleSpec) : Except ApiError Unit :=
  match (GeoipUse.of spec).refuses (live .geoip) with
  | some why => .error (.needs .needsGeoip
      s!"geoip: {why} (the settings file or PATCH /config/global)")
  | none => .ok ()

def checkAcme (live : Live) (spec : RuleSpec) : Except ApiError Unit :=
  Checks.forEach (fun (resolver, names) =>
    match live .acme with
    | none =>
        .error (.needs .needsAcme (s!"acme resolver {debugStr resolver}: global.acme is not " ++
        "configured (the settings file or PATCH /config/global)"))
    | some a =>
      if spec.key.protocol ≠ .tcp then
        .error (.tlsConfig "acme certificates are for tcp rules (DTLS takes cert_file / key_file)")
      else (checkNames a resolver names).mapError (.needs .needsAcme))
    (acmeNeeds spec)

def gates (live : Live) (spec : RuleSpec) : Except ApiError Unit := do
  crowdsecGate live spec
  geoipGate live spec
  checkAcme live spec

end
end Rproxy.Global
