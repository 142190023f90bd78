import Rproxy.Global.Changes
import Rproxy.Registry.Plain

/-!
# A plain `global`

Time limits are a text, and an `acme` is the name of its one resolver, which allows every name.
-/

namespace Rproxy.Plain

scoped instance global : GlobalExternal where
  Timeouts := String
  timeoutsDecEq := inferInstance
  timeoutsCodec := .str
  timeoutsCheck _ := .ok ()
  Acme := String
  acmeDecEq := inferInstance
  acmeDec := Codec.str.dec
  acmeEnc := Codec.str.enc
  acmeCheck _ := .ok ()
  acme_dec_enc a _ := Codec.str.dec_enc a
  acmePaths _ := []
  acmeSecretsInFiles _ := .ok ()
  checkNames a resolver _ := if resolver = a then .ok () else .error "no such resolver"
  http01Listen _ := []
  crowdsecMiddlewares _ := []
  geoipMiddlewares _ := []
  parseBase _ := .ok ()
  shown _ j := j
  readError _ := "not of the item's shape"

open Global

def quietBuilds : Builds where
  openAccessLog _ := .ok
  newBouncer _ := none
  notSynced _ := none
  openGeoip _ _ := none
  newAcme _ := none
  storageProblem _ := none
  bindFailed _ := []

def openPaths : Paths where
  protecting _ := none
  protectingAcme _ := none
  accessLogAllowed _ := .ok ()
  geoipAllowed _ := .ok ()
  acmeAllowed _ := .ok ()

def noUses : RulesUse := ⟨⟨false, false⟩, ⟨false, false⟩, [], 0, []⟩

def patchEnv : PatchEnv where
  cfg := settings
  paths := openPaths
  builds := quietBuilds
  usesFirst := noUses
  usesLast := noUses
  isFile _ := true
  accessLogDir _ := none
  now := 0

def fresh : Process := init Family.none ⟨none, none⟩ false

end Rproxy.Plain
