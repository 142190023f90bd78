import Rproxy.Data.Table
import Rproxy.Registry.Overlap

/-!
# The state of the registry

The table of rules, who made which rule, the restored rules that did not validate, and the rule
sets.
-/

namespace Rproxy
section
variable [External]

structure Running where
  generation : Nat
  spec : RuleSpec
deriving DecidableEq

structure Failed where
  generation : Nat
  spec : RuleSpec
  error : String
  code : Code
  reason : Option Reason
  retry : Option Nat
deriving DecidableEq

inductive Entry where
  | running (r : Running)
  | failed (f : Failed)
deriving DecidableEq

namespace Entry

def spec : Entry → RuleSpec
  | running r => r.spec
  | failed f => f.spec

def generation : Entry → Nat
  | running r => r.generation
  | failed f => f.generation

def isRunning : Entry → Bool
  | running _ => true
  | failed _ => false

end Entry

structure Invalid where
  request : RuleRequest
  origin : Origin
  error : String

structure SetState where
  generation : UInt64
  etag : String
  updatedBy : String
  owner : String
deriving DecidableEq

structure RetryTask where
  id : Nat
  spec : RuleSpec
  generation : Nat
deriving DecidableEq

structure State where
  rules : Table Key Entry
  owners : Table Key String
  invalid : Table Key Invalid
  sets : Table String SetState
  nextGeneration : Nat
  nextTask : Nat
  tasks : List RetryTask
  /-- The retry tasks told to stop (`JoinHandle::abort`). -/
  aborted : List Nat
  runtimes : List Nat
  /-- The runtimes whose `stop` token is cancelled. -/
  stopped : List Nat
  /-- The runtimes whose `kill` token is cancelled. -/
  killed : List Nat

namespace State

def empty : State where
  rules := ∅
  owners := ∅
  invalid := ∅
  sets := ∅
  nextGeneration := 1
  nextTask := 0
  tasks := []
  aborted := []
  runtimes := []
  stopped := []
  killed := []

variable (s : State)

def specAt (key : Key) : Option RuleSpec :=
  (s.rules.lookup key).map Entry.spec

def abort (retry : Option Nat) : State :=
  { s with aborted := retry.toList ++ s.aborted }

def spawnRetry (spec : RuleSpec) (generation : Nat) : State :=
  { s with
    tasks := s.tasks ++ [{ id := s.nextTask, spec, generation }]
    nextTask := s.nextTask + 1 }

def putRunning (key : Key) (spec : RuleSpec) : State :=
  { s with
    rules := s.rules.insert key (.running { generation := s.nextGeneration, spec })
    nextGeneration := s.nextGeneration + 1
    runtimes := s.nextGeneration :: s.runtimes }

def putFailed (key : Key) (f : Failed) : State :=
  { s with rules := s.rules.insert key (.failed f) }

def forgetInvalid (key : Key) : State :=
  { s with invalid := s.invalid.erase key }

end State

def Failed.withError (f : Failed) (e : ApiError) : Failed :=
  { f with error := e.message, code := e.code, reason := e.reason }

/-- An error of name resolution, of reading certificates and files, of the gates of `global` or of
binding. -/
structure Fault where
  error : ApiError
  code_ne : error.code ≠ .alreadyExists ∧ error.code ≠ .reserved

inductive CertOutcome where
  | nothing
  | failed
  | rebuilt
  | expired (error : String)

structure Env where
  /-- Why `prepare` or `build_parts` fails. -/
  prepare : Option Fault
  /-- Why the gates of `apply` refuse the rule. -/
  gate : Option Fault
  /-- Why `start` fails, or the added addresses of a running rule cannot be bound. It is left open,
  also where a rule that is out of the table still listens: then the real bind fails. -/
  start : Option Fault
  certs : Key → CertOutcome
  /-- Whether the certificates of a failed rule changed (or all are to be looked at). -/
  renewed : Key → Bool
  createdBy : Key → Option String
  cancelled : Bool

def Env.calm : Env where
  prepare := none
  gate := none
  start := none
  certs := fun _ => .nothing
  renewed := fun _ => false
  createdBy := fun _ => none
  cancelled := false

def Fault.result : Option Fault → Except ApiError Unit
  | some f => .error f.error
  | none => .ok ()

end
end Rproxy
