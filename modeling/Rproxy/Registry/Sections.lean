import Rproxy.Registry.State
import Rproxy.Rule.Update
import Rproxy.Rule.View

/-!
# The atomic sections of the registry

Each operation takes the lock of the table several times and works without it in between: it
resolves names, reads files, waits for connections to end.
-/

namespace Rproxy.Registry
open Prod

section
variable [External]

/-- What `apply_certs` found under the lock: how many rules it updated or could not, the runtimes of
those taken out of service, and the rules to restart. -/
structure CertScan where
  ok : Nat
  failed : Nat
  stopped : List Nat
  restart : List (RuleSpec × Nat)

structure Current where
  spec : RuleSpec
  running : Bool
  retrying : Bool

def Current.of : Entry → Current
  | .running r => ⟨r.spec, true, false⟩
  | .failed f => ⟨f.spec, false, f.retry.isSome⟩

inductive Owner where
  | static
  | token (name : String)
  | restored
deriving DecidableEq

namespace Locked

/-! ## Making and changing a rule -/

def createCheck (cfg : Settings) (s : State) (spec : RuleSpec) (fixing : Bool)
    (token : Option String) : Except ApiError Unit :=
  if spec.key ∈ s.rules then .error (.alreadyExists spec.key.text)
  else if !fixing ∧ spec.key ∈ s.invalid then
    .error (.alreadyExists (s!"{spec.key.text} is a restored rule that does not validate (state " ++
      "failed in GET /rules); fix it with PATCH or delete it first"))
  else
    match s.rules.find? fun _ e => overlaps e.spec spec with
    | some (_, e) => .error (.alreadyExists (overlapMessage spec e.spec))
    | none =>
      -- a token's new rule: within the limits of the process
      if token.isSome then
        let sockets := (s.rules.pairs.map fun e => Quota.sockets e.2.spec).sum
          + cfg.http01Listen.length
        let added := Quota.sockets spec
        Quota.checkProcess cfg (s.rules.pairs.length + 1) 1 (sockets + added) added
      else .ok ()

/-- `create_spec_in` with the table's lock held; `fixing`: in place of the rule of the key that did
not validate; `token`: who owns it. -/
def create (cfg : Settings) (env : Env) (s : State) (spec : RuleSpec) (fixing : Bool)
    (token : Option String) : State × Except ApiError Unit :=
  match createCheck cfg s spec fixing token with
  | .error e => (s, .error e)
  | .ok () =>
    match env.start with
    | some f => (s, .error f.error)
    | none =>
      let s := s.putRunning spec.key spec
      let owners :=
        match token with
        | some t => s.owners.insert spec.key t
        -- a fixed rule keeps who made it; another has none recorded
        | none => if fixing then s.owners else s.owners.erase spec.key
      let s := { s with owners }
      (if fixing then s.forgetInvalid spec.key else s, .ok ())

def addedIps (old new : RuleSpec) : List IpAddr :=
  new.listenIps.filter fun ip => !old.listenIps.contains ip

def applyRunningCheck (env : Env) (key : Key) (old new : RuleSpec) : Except ApiError Unit :=
  if old.extraListen ≠ new.extraListen ∧ isDualStackWildcard key ∧ old.v6only ≠ new.v6only then
    .error (.unsupported ("a rule on :: listens dual-stack alone and IPv6-only with " ++
      "extra_listen_addrs; delete and re-create it to switch"))
  else if addedIps old new = [] then .ok ()
  else Fault.result env.start

def apply (env : Env) (s : State) (key : Key) (spec : RuleSpec) : State × Except ApiError Unit :=
  match s.rules.find? fun k e => k != key && overlaps e.spec spec with
  | some (other, _) => (s, .error (.alreadyExists s!"{key.text} overlaps with {other.text}"))
  | none =>
    match env.gate with
    | some f => (s, .error f.error)
    | none =>
      match s.rules.lookup key with
      | none => (s, .error (.notFound key.text))
      | some (.running r) =>
        match applyRunningCheck env key r.spec spec with
        | .error e => (s, .error e)
        | .ok () => ({ s with rules := s.rules.insert key (.running { r with spec }) }, .ok ())
      | some (.failed f) =>
        let s := s.abort f.retry
        match env.start with
        | none => (s.putRunning key spec, .ok ())
        -- the spec stays changed, under the same generation
        | some e =>
          (s.putFailed key ({ f with spec, retry := none }.withError e.error), .error e.error)

variable (s : State)

/-- The beginning of `insert_failed`: a generation, and the task that tries the rule again if its
names did not resolve. -/
def register (spec : RuleSpec) (e : ApiError) : State × Nat × Option Nat :=
  let generation := s.nextGeneration
  let s := { s with nextGeneration := generation + 1 }
  if e.code = .resolveFailed then (s.spawnRetry spec generation, generation, some s.nextTask)
  else (s, generation, none)

def insertFailed (generation : Nat) (spec : RuleSpec) (e : ApiError) (retry : Option Nat) : State :=
  (s.forgetInvalid spec.key).putFailed spec.key
    { generation, spec, error := e.message, code := e.code, reason := e.reason, retry }

/-! ## Taking rules out -/

def take (key : Key) : State × Except ApiError (Option Entry) :=
  match s.rules.lookup key with
  | none =>
    -- a rule that did not validate has nothing to stop
    if key ∈ s.invalid then
      ({ s.forgetInvalid key with owners := s.owners.erase key }, .ok none)
    else (s, .error (.notFound key.text))
  | some e =>
    if e.spec.origin = .static then
      (s, .error (.staticRule (s!"{key.text} is a static rule; edit the settings file " ++
        "(RPROXY_CONFIG), which is re-read when it changes")))
    else
      match e.spec.ruleset with
      | some set => (s, .error (ownedError key set))
      | none => ({ s with rules := s.rules.erase key }, .ok (some e))

def remove (key : Key) : State × Option Entry :=
  ({ s with rules := s.rules.erase key }, s.rules.lookup key)

def removeMember (key : Key) (set : Option String) : State × Option Entry :=
  match s.rules.lookup key with
  | some e => if e.spec.ruleset = set then remove s key else (s, none)
  | none => (s, none)

def membersAt (name : String) (keys : List Key) : List (Key × Entry) :=
  keys.filterMap fun k =>
    match s.rules.lookup k with
    | some e => if e.spec.ruleset = some name then some (k, e) else none
    | none => none

def dropMembers (name : String) (keys : List Key) : State × List Entry :=
  let gone := membersAt s name keys
  ({ s with rules := s.rules.eraseAll (gone.map fst) }, gone.map snd)

def portRange (spec : RuleSpec) : UInt16 × UInt16 :=
  let first := spec.key.listen.port
  (first, UInt16.ofNat (min (first.toNat + (spec.portCount.toNat - 1)) 65535))

def takeMembers (name : String) (mayUsePorts : UInt16 → UInt16 → Bool) :
    State × Except ApiError (List Entry) :=
  let members := s.rules.pairs.filter fun e => e.2.spec.ruleset = some name
  match members.find? fun e => !mayUsePorts (portRange e.2.spec).1 (portRange e.2.spec).2 with
  | some (k, e) =>
    let (first, last) := portRange e.spec
    (s, .error (.forbidden
      s!"{k.text}: this token may not use listen port {first.toNat}-{last.toNat}"))
  | none =>
    ({ s with rules := s.rules.eraseAll (members.map fst) }, .ok (members.map snd))

def drain : State × List Entry :=
  ({ s with rules := ∅ }, s.rules.pairs.map snd)

/-! ## Trying failed rules again -/

def noteError (key : Key) (f : Failed) (e : ApiError) : State :=
  s.putFailed key (f.withError e)

def waiting (reason : Reason) : List (RuleSpec × Nat) :=
  s.rules.pairs.filterMap fun e =>
    match e.2 with
    | .failed f => if f.reason = some reason then some (f.spec, f.generation) else none
    | .running _ => none

def restartWaiting (env : Env) (s : State) (spec : RuleSpec) (generation : Nat)
    (prepared : Except ApiError Unit) : State × Bool :=
  match s.rules.lookup spec.key with
  | some (.failed f) =>
    -- still the same failed rule: not replaced, nor changed in place meanwhile
    if f.generation = generation ∧ f.spec = spec then
      match prepared.bind fun _ => Fault.result env.start with
      | .ok () => (s.putRunning spec.key spec, true)
      | .error e =>
        if e.code = .resolveFailed ∧ f.retry = none then
          (noteError (s.spawnRetry spec generation) spec.key { f with retry := some s.nextTask } e,
            false)
        else (noteError s spec.key f e, false)
    else (s, false)
  | _ => (s, false)

/-- `retry_start` when `prepare` failed for another reason than a name: the table's failed entry of
the key takes the error, whichever rule it is of. -/
def retryFailed (key : Key) (e : ApiError) : State :=
  match s.rules.lookup key with
  | some (.failed f) => noteError s key { f with retry := none } e
  | _ => s

/-- `retry_start` with the table's lock held: starts the rule if the failed entry of its generation
is still there. -/
def retry (env : Env) (s : State) (spec : RuleSpec) (generation : Nat) : State :=
  match s.rules.lookup spec.key with
  | some (.failed f) =>
    if f.generation = generation then
      match env.start with
      | none => s.putRunning spec.key spec
      | some e => noteError s spec.key { f with retry := none } e.error
    else s
  | _ => s

def certFailed (spec : RuleSpec) (generation : Nat) (e : ApiError) : State :=
  match s.rules.lookup spec.key with
  | some (.failed f) => if f.generation = generation then noteError s spec.key f e else s
  | _ => s

def certStart (env : Env) (s : State) (spec : RuleSpec) (generation : Nat) : State × Bool :=
  match s.rules.lookup spec.key with
  | some (.failed f) =>
    if f.generation = generation then
      match env.start with
      | none => (s.putRunning spec.key spec, true)
      | some e => (noteError s spec.key f e.error, false)
    else (s, false)
  | _ => (s, false)

def waitsForCertificate (error : String) : Bool :=
  Text.startsWith "certificate expired" error ||
    Text.contains " is not in the certificate store" error

def scanCert (env : Env) (acc : State × CertScan) (key : Key) : State × CertScan :=
  let (s, scan) := acc
  match s.rules.lookup key with
  | some (.running r) =>
    match env.certs key with
    | .expired error =>
      -- taken out of service under a new generation
      ({ s with nextGeneration := s.nextGeneration + 1 }.putFailed key
          { generation := s.nextGeneration, spec := r.spec, error, code := .tlsConfig,
            reason := none, retry := none },
        { scan with stopped := scan.stopped ++ [r.generation] })
    | .rebuilt => (s, { scan with ok := scan.ok + 1 })
    | .failed => (s, { scan with failed := scan.failed + 1 })
    | .nothing => acc
  | some (.failed f) =>
    if waitsForCertificate f.error && env.renewed key then
      (s, { scan with restart := scan.restart ++ [(f.spec, f.generation)] })
    else acc
  | none => acc

def scanCerts (env : Env) (s : State) : State × CertScan :=
  s.rules.keys.foldl (scanCert env) (s, ⟨0, 0, [], []⟩)

def supervise (key : Key) (generation : Nat) (error : String) : State :=
  match s.rules.lookup key with
  | some (.running r) =>
    if r.generation = generation then
      s.putFailed key
        { generation, spec := r.spec, error, code := .failed, reason := none, retry := none }
    else s
  | _ => s

def drainOne : Key × Entry → State
  | (_, .running r) => { s with stopped := r.generation :: s.stopped }
  -- a failed rule is not started again now
  | (key, .failed f) => (s.abort f.retry).putFailed key { f with retry := none }

def drainInPlace : State :=
  s.rules.pairs.foldl drainOne s

def staticRules : List (Key × RuleSpec × Bool) :=
  (s.rules.pairs.filter fun e => e.2.spec.origin = .static).map fun e =>
    (e.1, e.2.spec, e.2.isRunning)

def snapshot : List (Key × Current) :=
  s.rules.pairs.map fun e => (e.1, Current.of e.2)

def viewState : Entry → RunState × Option String
  | .running _ => (.running, none)
  | .failed f => (.failed, some f.error)

def outcome (name : String) (keys : List Key) :
    List (Option (RunState × Option String)) × List RuleSpec :=
  let ours (e : Entry) : Bool := e.spec.ruleset = some name
  (keys.map fun k => ((s.rules.lookup k).filter ours).map viewState,
    (s.rules.pairs.filter fun e => ours e.2).map fun e => e.2.spec)

def ownerOf (env : Env) (s : State) (spec : RuleSpec) : Owner :=
  if spec.origin = .static then .static
  else
    match spec.ruleset with
    | some set => ((s.sets.lookup set).map fun st => Owner.token st.owner).getD .restored
    | none =>
      match s.owners.lookup spec.key with
      | some t => .token t
      | none =>
        if spec.origin = .api then ((env.createdBy spec.key).map Owner.token).getD .restored
        else .restored

end Locked
end
end Rproxy.Registry
