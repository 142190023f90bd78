import Rproxy.Registry.Calls
import Rproxy.Rule.Plain

/-!
# A plain process

Settings, addresses and environments to run the registry in, with the plain `External` of
`Rproxy.Rule.Plain`; `exists_reach_of_trace` turns what was computed into a run of the system.
-/

namespace Rproxy
open scoped Plain

def Env.unresolved : Env :=
  { Env.calm with prepare := some ⟨.resolveFailed "no address", by decide⟩ }

def Env.inUse : Env :=
  { Env.calm with start := some ⟨.bindFailed "address in use", by decide⟩ }

namespace Plain

def settings : Settings where
  caps := Plain.caps
  reserved := []
  http01Listen := []
  maxRules := 10000
  maxListeners := 16384
  maxRulesets := 1000

def loopback (port : UInt16) : Key := ⟨.tcp, ⟨.v4 0x7f000001#32, port⟩⟩

def wildcard (port : UInt16) : Key := ⟨.tcp, ⟨.v4 0#32, port⟩⟩

def options : Registry.PutOptions where
  ifMatch := none
  dryRun := false
  token := "ops"
  admin := true
  owner := none
  mayUsePorts := fun _ _ => true
  limits := none

end Plain

namespace Registry

def Config.quiet (x : Config) : Bool := x.threads.all fun t => t.rest.next?.isNone

open Config

lemma Config.quiet_iff {x : Config} : x.quiet ↔ x.Quiet := by
  simp [quiet, Config.Quiet, Prog.done]

variable {cond : Config → Event Env Call → Prop} {ok : Config → Event Env Call → Bool}

lemma exists_reachWith_of_trace {H : Type} (evs : List (Event Env Call))
    (note : Config → Event Env Call → Config → H → H) (a₀ : H) (p : Config × H → Bool)
    (hok : ∀ x ev, ok x ev → cond x ev)
    (h : ((system Plain.settings).trace ok note evs initial a₀).any p) :
    ∃ x a, (system Plain.settings).ReachWith cond note initial a₀ x a ∧
      p (x, a) := by
  rw [Option.any_eq_true] at h
  obtain ⟨⟨x, a⟩, hx, hp⟩ := h
  exact ⟨x, a, System.reachWith_of_trace (fun ev _ x => hok x ev) .refl hx, hp⟩

lemma exists_reach_of_trace (evs : List (Event Env Call)) (p : Config → Bool)
    (hok : ∀ x ev, ok x ev → cond x ev)
    (h : ((system Plain.settings).trace ok (fun _ _ _ => id) evs initial ()).any
      (fun x => p x.1) = true) :
    ∃ x, (system Plain.settings).Reach cond initial x ∧ p x = true :=
  System.exists_reach_of_trace (fun ev _ x => hok x ev) h

end Registry
end Rproxy
