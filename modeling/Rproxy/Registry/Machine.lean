import Rproxy.Programs.Threads
import Rproxy.Registry.Sections

/-!
# The registry as a machine

`Registry.Op` names every atomic section of the registry and every other step on what its operations
share, `Registry.Ret` what each answers, and `Registry.machine` what each does.
-/

namespace Rproxy.Registry
open Locked

section
variable [External]

inductive Op where
  /-- `prepare`: name resolution, certificates, files. -/
  | prepare (spec : RuleSpec)
  /-- `prepare` of a retry task, after its sleep. -/
  | prepareRetry (task : RetryTask)
  /-- `build_parts`: what `prepare` does short of name resolution. -/
  | buildParts (spec : RuleSpec)
  | create (spec : RuleSpec) (fixing : Bool) (token : Option String)
  | apply (key : Key) (spec : RuleSpec)
  | register (spec : RuleSpec) (e : ApiError)
  | insertFailed (generation : Nat) (spec : RuleSpec) (e : ApiError) (retry : Option Nat)
  | specOf (key : Key)
  | invalidOf (key : Key)
  | noteInvalid (key : Key) (invalid : Invalid)
  | forgetInvalid (key : Key)
  | take (key : Key)
  | removeOwner (key : Key)
  | remove (key : Key)
  | removeMember (key : Key) (set : Option String)
  | dropMembers (name : String) (keys : List Key)
  | takeMembers (name : String) (mayUsePorts : UInt16 → UInt16 → Bool)
  | drain
  | drainInPlace
  | stop (generation : Nat)
  | kill (generation : Nat)
  | abort (retry : Option Nat)
  | waiting (reason : Reason)
  | restartWaiting (spec : RuleSpec) (generation : Nat) (prepared : Except ApiError Unit)
  | sleepAgain (task : RetryTask)
  | retryFailed (task : RetryTask) (e : ApiError)
  | retry (task : RetryTask)
  | scanCerts
  | certFailed (spec : RuleSpec) (generation : Nat) (e : ApiError)
  | certStart (spec : RuleSpec) (generation : Nat)
  | supervise (key : Key) (generation : Nat) (error : String)
  | staticRules
  | snapshot
  | invalidKeys
  | outcome (name : String) (keys : List Key)
  | setOf (name : String)
  | sets
  | putSet (name : String) (state : Option SetState)
  | ownedBy (token : String) (specs : List RuleSpec)

@[reducible]
def Ret : Op → Type
  | .prepare _ | .buildParts _ | .create _ _ _ | .apply _ _ => Except ApiError Unit
  -- `none`: the task was told to stop
  | .prepareRetry _ => Option (Except ApiError Unit)
  | .register _ _ => Nat × Option Nat
  | .specOf _ => Option RuleSpec
  | .invalidOf _ => Option Invalid
  | .forgetInvalid _ | .restartWaiting _ _ _ | .certStart _ _ => Bool
  | .take _ => Except ApiError (Option Entry)
  | .remove _ | .removeMember _ _ => Option Entry
  | .dropMembers _ _ | .drain => List Entry
  | .takeMembers _ _ => Except ApiError (List Entry)
  | .waiting _ => List (RuleSpec × Nat)
  | .scanCerts => CertScan
  | .staticRules => List (Key × RuleSpec × Bool)
  | .snapshot => List (Key × Current)
  | .invalidKeys => List Key
  | .outcome _ _ => List (Option (RunState × Option String)) × List RuleSpec
  | .setOf _ => Option SetState
  | .sets => List (String × SetState)
  | .ownedBy _ _ => Nat
  | _ => Unit

def exec (cfg : Settings) : (o : Op) → Env → State → State × Ret o
  | .prepare _, env, s => (s, Fault.result env.prepare)
  | .prepareRetry task, env, s =>
    (s, if task.id ∈ s.aborted then none else some (Fault.result env.prepare))
  | .buildParts _, env, s => (s, Fault.result env.prepare)
  | .create spec fixing token, env, s => create cfg env s spec fixing token
  | .apply key spec, env, s => Locked.apply env s key spec
  | .register spec e, _, s => register s spec e
  | .insertFailed generation spec e retry, _, s =>
    (Locked.insertFailed s generation spec e retry, ())
  | .specOf key, _, s => (s, s.specAt key)
  | .invalidOf key, _, s => (s, s.invalid.lookup key)
  | .noteInvalid key invalid, _, s =>
    (if key ∈ s.rules ∨ key ∈ s.invalid then s
      else { s with invalid := s.invalid.insert key invalid }, ())
  | .forgetInvalid key, _, s => (s.forgetInvalid key, decide (key ∈ s.invalid))
  | .take key, _, s => Locked.take s key
  | .removeOwner key, _, s => ({ s with owners := s.owners.erase key }, ())
  | .remove key, _, s => remove s key
  | .removeMember key set, _, s => removeMember s key set
  | .dropMembers name keys, _, s => dropMembers s name keys
  | .takeMembers name mayUsePorts, _, s => takeMembers s name mayUsePorts
  | .drain, _, s => drain s
  | .drainInPlace, _, s => (drainInPlace s, ())
  | .stop generation, _, s => ({ s with stopped := generation :: s.stopped }, ())
  | .kill generation, _, s => ({ s with killed := generation :: s.killed }, ())
  | .abort retry, _, s => (s.abort retry, ())
  | .waiting reason, _, s => (s, waiting s reason)
  | .restartWaiting spec generation prepared, env, s =>
    restartWaiting env s spec generation prepared
  | .sleepAgain task, _, s => ({ s with tasks := s.tasks ++ [task] }, ())
  | .retryFailed task e, env, s =>
    (if task.id ∈ s.aborted ∧ env.cancelled then s else retryFailed s task.spec.key e, ())
  | .retry task, env, s =>
    (if task.id ∈ s.aborted ∧ env.cancelled then s
      else Locked.retry env s task.spec task.generation, ())
  | .scanCerts, env, s => scanCerts env s
  | .certFailed spec generation e, _, s => (certFailed s spec generation e, ())
  | .certStart spec generation, env, s => certStart env s spec generation
  | .supervise key generation error, _, s => (Locked.supervise s key generation error, ())
  | .staticRules, _, s => (s, staticRules s)
  | .snapshot, _, s => (s, snapshot s)
  | .invalidKeys, _, s => (s, s.invalid.keys)
  | .outcome name keys, _, s => (s, outcome s name keys)
  | .setOf name, _, s => (s, s.sets.lookup name)
  | .sets, _, s => (s, s.sets.pairs)
  | .putSet name (some state), _, s => ({ s with sets := s.sets.insert name state }, ())
  | .putSet name none, _, s => ({ s with sets := s.sets.erase name }, ())
  | .ownedBy token specs, env, s =>
    (s, (specs.filter fun spec => Locked.ownerOf env s spec = .token token).length)

def machine (cfg : Settings) : Machine Op Ret Env State where
  exec := exec cfg

abbrev Program := Prog Op Ret

abbrev perform (o : Op) : Program (Ret o) := Prog.perform o

end
end Rproxy.Registry
