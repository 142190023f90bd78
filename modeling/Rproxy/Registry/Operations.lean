import Rproxy.Registry.Machine

/-!
# The operations of the registry

One program per function of the source, under its name, made of the sections of
`Rproxy.Registry.Machine`.
-/

namespace Rproxy.Registry
section
variable [External]
open Prog (forEach mapEach)

/-! ## Creating, changing and deleting -/

variable (cfg : Settings) (reqs : List (String × RuleRequest))

def createSpecIn (spec : RuleSpec) (fixing : Bool) (token : Option String) :
    Program (Except ApiError Unit) :=
  match reservedClash cfg spec with
  | some api => return .error (reservedError spec api)
  | none => do
    match ← perform (.prepare spec) with
    | .error e => return .error e
    | .ok () => perform (.create spec fixing token)

def createSpec (spec : RuleSpec) : Program (Except ApiError Unit) :=
  createSpecIn cfg spec false none

def createAs (req : RuleRequest) (origin : Origin) : Program (Except ApiError Unit) :=
  match req.validate cfg.caps with
  | .error e => return .error e
  | .ok spec => createSpec cfg { spec with origin }

def createBy (req : RuleRequest) (origin : Origin) (token : String) :
    Program (Except ApiError Unit) :=
  match req.validate cfg.caps with
  | .error e => return .error e
  | .ok spec => createSpecIn cfg { spec with origin } false (some token)

def insertFailed (spec : RuleSpec) (e : ApiError) : Program Unit := do
  let (generation, retry) ← perform (.register spec e)
  perform (.insertFailed generation spec e retry)

def fixInvalid (key : Key) (req : RuleRequest) : Program (Except ApiError Unit) := do
  match ← perform (.invalidOf key) with
  | none => return .error (.notFound key.text)
  | some i =>
    match req.validate cfg.caps with
    | .error e => return .error e
    | .ok spec =>
      if spec.key ≠ key then
        return .error (.invalid (s!"the PATCH would move {key.text} to {spec.key.text}; delete " ++
          "and re-create the rule"))
      else
        match ← createSpecIn cfg { spec with origin := i.origin } true none with
        | .ok () => return .ok ()
        | .error e =>
          if e.code = .alreadyExists ∨ e.code = .reserved then return .error e
          else
            insertFailed { spec with origin := i.origin } e
            return .error e

def updatedSpec (key : Key) (u : UpdateRequest) : Program (Except ApiError RuleSpec) :=
  match patchUdpIdle u.udpIdleSecs with
  | .error e => return .error e
  | .ok udpIdle => do
    match ← perform (.specOf key) with
    | none => return .error (.notFound key.text)
    | some spec => return patchedSpec cfg.caps key spec u udpIdle

def apply (cfg : Settings) (key : Key) (spec : RuleSpec) : Program (Except ApiError Unit) :=
  match reservedClash cfg spec with
  | some api =>
    return .error (.reserved s!"{key.text} would take rproxy's control API ({api.text})")
  | none => do
    match ← perform (.prepare spec) with
    | .error e => return .error e
    | .ok () => perform (.apply key spec)

def update (key : Key) (u : UpdateRequest) : Program (Except ApiError Unit) := do
  match ← perform (.invalidOf key) with
  | some i => fixInvalid cfg key (patchedRequest i.request u)
  | none =>
    match ← updatedSpec cfg key u with
    | .error e => return .error e
    | .ok spec => apply cfg key spec

def dropInvalid (key : Key) : Program Bool := do
  let gone ← perform (.forgetInvalid key)
  if gone then
    perform (.removeOwner key)
    return true
  else return false

def stopAccepting : Entry → Program Unit
  | .running r => perform (.stop r.generation)
  | .failed _ => return ()

def stopEntry : Entry → Program Unit
  | .failed f => perform (.abort f.retry)
  | .running r => do
    perform (.stop r.generation)
    perform (.kill r.generation)

def take (key : Key) : Program (Except ApiError (Option Entry)) := do
  match ← perform (.take key) with
  | .error e => return .error e
  | .ok none => return .ok none
  | .ok (some entry) =>
    perform (.removeOwner key)
    stopAccepting entry
    return .ok (some entry)

def delete (key : Key) : Program (Except ApiError Unit) := do
  match ← take key with
  | .error e => return .error e
  | .ok none => return .ok ()
  | .ok (some entry) =>
    stopEntry entry
    return .ok ()

def shutdown : Program Unit := do
  let entries ← perform .drain
  forEach stopEntry entries

def drainAll : Program Unit := do
  let entries ← perform .drain
  forEach stopAccepting entries
  forEach stopEntry entries

def validateAtStartup (caps : Caps) (req : RuleRequest) :
    Except ApiError (RuleSpec × Option String) :=
  match req.validate caps with
  | .ok spec => .ok (spec, none)
  | .error e =>
    if e.code = .unsupported then
      -- still unsupported with everything available: a real mistake
      match req.validate
          { caps with transparent := true, transparentIpv6 := true, features := .all }
      with
      | .ok spec => .ok (spec, some e.message)
      | .error e => .error e
    else .error e

def noteInvalid (req : RuleRequest) (origin : Origin) (e : ApiError) : Program Unit :=
  match parseListen req.listenAddr req.listenPort with
  | .error _ => return ()
  | .ok listen =>
    perform (.noteInvalid ⟨req.protocol, listen⟩ { request := req, origin, error := e.message })

def restoreOne (origin : Origin) (req : RuleRequest) : Program Unit :=
  match validateAtStartup cfg.caps req with
  | .ok (spec, some missing) => insertFailed { spec with origin } (.unsupported missing)
  | .error e => noteInvalid req origin e
  | .ok (spec, none) => do
    match ← createSpec cfg { spec with origin } with
    | .ok () => return ()
    | .error e =>
      if e.code = .alreadyExists then return ()
      else insertFailed { spec with origin } e

def restoreAs (reqs : List RuleRequest) (origin : Origin) : Program Unit :=
  forEach (restoreOne cfg origin) reqs

/-! ## The rules of the settings file -/

abbrev FileRule := RuleSpec × Option String

def validateStaticFrom (cfg : Settings) :
    List (FileRule × String) → List (String × RuleRequest) →
      Except String (List (FileRule × String))
  | checked, [] => .ok checked
  | checked, (label, req) :: reqs =>
    match validateAtStartup cfg.caps req with
    | .error e => .error s!"{label}: {e.message}"
    | .ok (spec, missing) =>
      let spec := { spec with origin := .static }
      match checked.find? fun c => overlaps c.1.1 spec with
      | some (other, otherLabel) =>
        .error s!"{label}: {spec.key.text} overlaps with {other.1.key.text} ({otherLabel})"
      | none =>
        match reservedClash cfg spec with
        | some api =>
          .error s!"{label}: {spec.key.text} would take the control API ({api.text})"
        | none => validateStaticFrom cfg (checked ++ [((spec, missing), label)]) reqs

def validateStatic : Except String (List FileRule) :=
  (validateStaticFrom cfg [] reqs).map fun checked => checked.map Prod.fst

def startStatic (rule : FileRule) : Program Bool :=
  match rule with
  | (spec, some missing) => do
    insertFailed spec (.unsupported missing)
    return false
  | (spec, none) => do
    match ← createSpec cfg spec with
    | .ok () => return true
    | .error e =>
      -- a rule made through the API already holds the key: leave it alone
      if e.code = .alreadyExists then return false
      else
        insertFailed spec e
        return false

def loadStatic : Program (Except String Nat) :=
  match validateStatic cfg reqs with
  | .error e => return .error e
  | .ok rules => do
    let _ ← mapEach (startStatic cfg) rules
    return .ok rules.length

structure ReloadCounts where
  added : Nat
  removed : Nat
  changed : Nat
  unchanged : Nat
  failed : Nat
deriving DecidableEq

inductive Reloaded where
  | added (started : Bool)
  | unchanged
  | changed (started : Bool)

def ReloadCounts.of (removed : Nat) (rules : List Reloaded) : ReloadCounts where
  added := (rules.filter fun r => match r with | .added _ => true | _ => false).length
  removed := removed
  changed := (rules.filter fun r => match r with | .changed _ => true | _ => false).length
  unchanged := (rules.filter fun r => match r with | .unchanged => true | _ => false).length
  failed := (rules.filter fun r =>
    match r with | .added started | .changed started => !started | .unchanged => false).length

def removeStatic (key : Key) : Program Bool := do
  match ← perform (.remove key) with
  | some entry =>
    stopEntry entry
    return true
  | none => return false

def recreateStatic (rule : FileRule) : Program Reloaded := do
  match ← perform (.remove rule.1.key) with
  | some entry => stopEntry entry
  | none => pure ()
  let started ← startStatic cfg rule
  return .changed started

def reloadRule (current : List (Key × RuleSpec × Bool)) (rule : FileRule) : Program Reloaded :=
  match current.lookup rule.1.key with
  | none => do
    let started ← startStatic cfg rule
    return .added started
  | some (old, running) =>
    if old = rule.1 then return .unchanged
    else if running ∧ rule.2 = none ∧ inPlace old rule.1 then do
      match ← apply cfg rule.1.key rule.1 with
      | .ok () => return .changed true
      | .error _ => recreateStatic cfg rule
    else recreateStatic cfg rule

def reloadStatic : Program (Except String ReloadCounts) :=
  match validateStatic cfg reqs with
  | .error e => return .error e
  | .ok rules => do
    let current ← perform .staticRules
    -- removed first, so a rule that moved to another key or range does not overlap itself
    let unwanted := (current.map Prod.fst).filter fun k => !(rules.map fun r => r.1.key).contains k
    let removed ← mapEach removeStatic unwanted
    let reloaded ← mapEach (reloadRule cfg current) rules
    return .ok (.of (removed.filter id).length reloaded)

/-! ## The tasks in the background -/

def retryStart (task : RetryTask) : Program Unit := do
  match ← perform (.prepareRetry task) with
  | none => return ()
  | some (.error e) =>
    if e.code = .resolveFailed then perform (.sleepAgain task)
    else perform (.retryFailed task e)
  | some (.ok ()) => perform (.retry task)

def restartOne (waiting : RuleSpec × Nat) : Program Bool := do
  let prepared ← perform (.prepare waiting.1)
  perform (.restartWaiting waiting.1 waiting.2 prepared)

def retryWaitingFor (reason : Reason) : Program Nat := do
  let waiting ← perform (.waiting reason)
  let started ← mapEach restartOne waiting
  return (started.filter id).length

def certRestart (rule : RuleSpec × Nat) : Program Bool := do
  match ← perform (.prepare rule.1) with
  | .error e =>
    perform (.certFailed rule.1 rule.2 e)
    return false
  | .ok () => perform (.certStart rule.1 rule.2)

def stopRuntime (generation : Nat) : Program Unit := do
  perform (.stop generation)
  perform (.kill generation)

def applyCerts : Program (Nat × Nat) := do
  let scan ← perform .scanCerts
  forEach stopRuntime scan.stopped
  let started ← mapEach certRestart scan.restart
  return (scan.ok + (started.filter id).length, scan.failed)

def supervise (key : Key) (generation : Nat) (error : String) : Program Unit := do
  perform (.kill generation)
  perform (.supervise key generation error)

end
end Rproxy.Registry
