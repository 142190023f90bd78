import Rproxy.Data.Total
import Rproxy.Programs.Exclusive
import Rproxy.Registry.PutSet

/-!
# The limits of the process and of its tokens

A token makes and changes rules and rule sets within limits of the process (its rules, listening
sockets and rule sets) and of its own.
-/

namespace Rproxy.Registry
section
variable [External]

/-! ## The handlers of the control API -/

structure TokenLimits where
  maxRules : Option Nat
  maxRulesets : Option Nat
  /-- `Principal::may_freebind`, for a rule and for a rule set. -/
  freebind : Bool
  freebindSets : Bool

variable (cfg : Settings) (s : State) (limits : TokenLimits) (token : String)

def ownedNow : Program Nat := do
  let current ← perform .snapshot
  perform (.ownedBy token (current.map fun c => c.2.spec))

def checkLimits (req : RuleRequest) : Program (Except ApiError Unit) :=
  match Quota.checkFreebind req.listenFreebind limits.freebind with
  | .error e => return .error e
  | .ok () =>
    if limits.maxRules.isSome then do
      let owned ← ownedNow token
      return Quota.checkToken "rules" (owned + 1) 1 limits.maxRules
    else return .ok ()

def apiCreate (persist : Bool) (req : RuleRequest) : Program (Except ApiError Unit) := do
  match ← checkLimits limits token req with
  | .error e => return .error e
  | .ok () => createBy cfg req (if persist then .api else .dynamic) token

def socketsOf (specs : List RuleSpec) : Nat :=
  (specs.map Quota.sockets).sum + cfg.http01Listen.length

def checkUpdateLimits (key : Key) (u : UpdateRequest) : Program (Except ApiError Unit) :=
  match patchUdpIdle u.udpIdleSecs with
  | .error _ => return .ok ()
  | .ok udpIdle => do
    match ← perform (.specOf key) with
    | none => return .ok ()
    | some old =>
      match patchedSpec cfg.caps key old u udpIdle with
      -- refused by the PATCH itself
      | .error _ => return .ok ()
      | .ok new =>
        let added := Quota.sockets new - Quota.sockets old
        if added > 0 then do
          let current ← perform .snapshot
          let sockets := socketsOf cfg (current.map fun c => c.2.spec)
          return Quota.checkProcess cfg current.length 0 (sockets + added) added
        else return .ok ()

def apiUpdate (key : Key) (u : UpdateRequest) : Program (Except ApiError Unit) := do
  match ← checkUpdateLimits cfg key u with
  | .error e => return .error e
  | .ok () => update cfg key u

structure PutHeaders where
  ifMatch : Option String
  dryRun : Bool
  admin : Bool
  mayUsePorts : UInt16 → UInt16 → Bool

def PutHeaders.options (h : PutHeaders) (limits : TokenLimits) (token : String) : PutOptions where
  ifMatch := h.ifMatch
  dryRun := h.dryRun
  token := token
  admin := h.admin
  owner := none
  mayUsePorts := h.mayUsePorts
  limits := some
    { maxRules := limits.maxRules, maxRulesets := limits.maxRulesets
      freebind := limits.freebindSets }

def apiPut (name : String) (req : RulesetRequest) (h : PutHeaders) :
    Program (Except SetError RulesetApplied) :=
  putRuleset cfg name req (h.options limits token)

inductive ApiCall where
  | create (token : String) (persist : Bool) (req : RuleRequest)
  | update (token : String) (key : Key) (u : UpdateRequest)
  | put (token name : String) (req : RulesetRequest) (h : PutHeaders)

def apiSystem (tokens : String → TokenLimits) : System Op Ret Env State ApiCall where
  toMachine := machine cfg
  program
    | .create token persist req => do let _ ← apiCreate cfg (tokens token) token persist req
    | .update _ key u => do let _ ← apiUpdate cfg key u
    | .put token name req h => do let _ ← apiPut cfg (tokens token) token name req h
  begins := fun _ s => some s

abbrev CreatedBy := Key → Option String

def ownerOf (createdBy : CreatedBy) (s : State) (spec : RuleSpec) : Owner :=
  Locked.ownerOf { Env.calm with createdBy } s spec

def owned (createdBy : CreatedBy) (s : State) (token : String) : Nat :=
  s.rules.total fun e => if ownerOf createdBy s e.spec = .token token then 1 else 0

def sockets (s : State) : Nat := s.rules.total fun e => Quota.sockets e.spec

def ownedSets : Nat :=
  s.sets.total fun st => if st.owner = token then 1 else 0

structure WithinLimits (cfg : Settings) (tokens : String → TokenLimits) (createdBy : CreatedBy)
    (s : State) : Prop where
  rules : s.rules.pairs.length ≤ cfg.maxRules
  sockets : sockets s + cfg.http01Listen.length ≤ cfg.maxListeners
  sets : s.sets.pairs.length ≤ cfg.maxRulesets
  owned : ∀ token max, (tokens token).maxRules = some max → owned createdBy s token ≤ max
  ownedSets : ∀ token max, (tokens token).maxRulesets = some max → ownedSets s token ≤ max

/-- The most listening sockets while a PUT is applied: of a rule that is in the set already, those
of its old or its new shape. -/
def peak (name : String) (req : RulesetRequest) : Nat :=
  (s.rules.total fun e => if e.spec.ruleset = some name then 0 else Quota.sockets e.spec) +
    ((bodySpecs cfg name req).map fun spec =>
      max (Quota.sockets spec) (((s.specAt spec.key).map Quota.sockets).getD 0)).sum

def ApiCall.free (tokens : String → TokenLimits) : ApiCall → Prop
  | .create token _ _ => (tokens token).maxRules = none
  | .update _ _ _ | .put _ _ _ _ => False

/-- What the checks of a call leave out: a PATCH of a rule that did not validate makes a new rule,
an admin may put another token's set, and a PUT makes rules larger before others become smaller. -/
def ApiCall.Counted : ApiCall → Prop
  | .create _ _ _ => True
  | .update _ key _ => key ∉ s.invalid
  | .put token name req _ => (∀ st, s.sets.lookup name = some st → st.owner = token) ∧
    peak cfg s name req + cfg.http01Listen.length ≤ cfg.maxListeners

instance decidableCounted (cfg : Settings) (s : State) : (c : ApiCall) → Decidable (c.Counted cfg s)
  | .create _ _ _ => .isTrue trivial
  | .update _ key _ => inferInstanceAs (Decidable (key ∉ s.invalid))
  | .put token name req _ =>
    inferInstanceAs (Decidable ((∀ st ∈ s.sets.lookup name, st.owner = token) ∧
      peak cfg s name req + cfg.http01Listen.length ≤ cfg.maxListeners))

/-- Nothing runs beside a call that counts only once, its checks count everything, and the store's
answers stay. -/
def CountedAlone (tokens : String → TokenLimits) (createdBy : CreatedBy)
    (x : Configuration Op Ret State ApiCall) : Event Env ApiCall → Prop
  | .start c => c.Counted cfg x.state ∧
    ((∀ t ∈ x.threads, t.rest.done) ∨
      c.free tokens ∧ ∀ t ∈ x.threads, t.rest.done ∨ t.call.free tokens)
  | .step _ e => e.createdBy = createdBy

end
end Rproxy.Registry
