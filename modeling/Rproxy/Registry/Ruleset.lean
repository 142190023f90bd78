import Rproxy.Registry.Operations

/-!
# Rule sets

`PUT /rulesets/{name}` makes the rules of a set exactly those of its body.
-/

namespace Rproxy

/-! ## The order of keys -/

open List

def IpAddr.rank : IpAddr → Nat
  | v4 bits => bits.toNat
  | v6 bits => 2 ^ 128 + bits.toNat

def Key.rank (k : Key) : Nat :=
  ((if k.protocol = .udp then 1 else 0) * 2 ^ 129 + k.listen.ip.rank) * 2 ^ 16 + k.listen.port.toNat

lemma IpAddr.rank_lt (ip : IpAddr) : ip.rank < 2 ^ 129 := by
  cases ip with
  | v4 bits =>
    simp only [rank]
    omega
  | v6 bits =>
    simp only [rank]
    omega

lemma IpAddr.rank_injective : Function.Injective IpAddr.rank := by
  intro a b h
  cases a with
  | v4 x =>
    cases b with
    | v4 y => exact congrArg v4 (BitVec.eq_of_toNat_eq h)
    | v6 y =>
      simp only [rank] at h
      omega
  | v6 x =>
    cases b with
    | v4 y =>
      simp only [rank] at h
      omega
    | v6 y => exact congrArg v6 (BitVec.eq_of_toNat_eq (Nat.add_left_cancel h))

lemma eq_of_mul_add_eq {n a b c d : Nat} (hb : b < n) (hd : d < n) (h : a * n + b = c * n + d) :
    a = c ∧ b = d := by
  have hbd := congrArg (· % n) h
  simp only [Nat.mul_add_mod', Nat.mod_eq_of_lt hb, Nat.mod_eq_of_lt hd] at hbd
  subst hbd
  exact ⟨Nat.eq_of_mul_eq_mul_right (by omega) (Nat.add_right_cancel h), rfl⟩

lemma Key.rank_injective : Function.Injective Key.rank := by
  rintro ⟨p, ⟨ip, port⟩⟩ ⟨p', ⟨ip', port'⟩⟩ h
  obtain ⟨h, hport⟩ := eq_of_mul_add_eq (UInt16.toNat_lt port) (UInt16.toNat_lt port') h
  obtain ⟨hp, hip⟩ := eq_of_mul_add_eq (IpAddr.rank_lt ip) (IpAddr.rank_lt ip') h
  obtain rfl := UInt16.toNat_inj.mp hport
  obtain rfl := IpAddr.rank_injective hip
  cases p <;> cases p' <;> first | rfl | simp at hp

section
variable [External]

def sortByKey (specs : List RuleSpec) : List RuleSpec :=
  specs.insertionSort fun a b => a.key.rank ≤ b.key.rank

lemma sortByKey_eq_of_perm {l l' : List RuleSpec} (h : l.Perm l')
    (hkeys : (l.map RuleSpec.key).Nodup) : sortByKey l = sortByKey l' := by
  have hperm : (sortByKey l).Perm (sortByKey l') :=
    ((perm_insertionSort _ l).trans h).trans (perm_insertionSort _ l').symm
  refine hperm.eq_of_pairwise ?_ (pairwise_insertionSort _ l)
    (pairwise_insertionSort _ l')
  intro a b ha hb hab hba
  have hkey : a.key = b.key := Key.rank_injective (le_antisymm hab hba)
  have hmem : ∀ {x}, x ∈ sortByKey l → x ∈ l := (mem_insertionSort _).mp
  exact inj_on_of_nodup_map hkeys (hmem ha) (hmem (hperm.mem_iff.mpr hb)) hkey

end

namespace Json

mutual

def sorted : Json → Json
  | obj fields => obj ((sortedFields fields).insertionSort fun a b => a.1 ≤ b.1)
  | arr elements => arr (sortedList elements)
  | j => j

def sortedList : List Json → List Json
  | [] => []
  | j :: js => j.sorted :: sortedList js

def sortedFields : List (String × Json) → List (String × Json)
  | [] => []
  | (n, j) :: fields => (n, j.sorted) :: sortedFields fields

end
end Json

namespace Registry

/-! ## Problems of a body -/

structure SetFinding where
  index : Nat
  rule : String
  code : Code
  message : String
  status : Nat

structure SetError where
  error : ApiError
  errors : List SetFinding

def finding (index : Nat) (rule : String) (e : ApiError) : SetFinding where
  index := index
  rule := rule
  code := e.code
  message := e.message
  status := e.status

def SetError.ofError (error : ApiError) : SetError := ⟨error, []⟩

def refuse (problems : List SetFinding) : Except SetError Unit :=
  match problems.insertionSort fun a b => a.index ≤ b.index with
  | [] => .ok ()
  | first :: rest =>
    .error
      { error :=
          { status := first.status, code := first.code
            message := s!"rules[{first.index}]: {first.message}", reason := none }
        errors := first :: rest }

lemma refuse_eq_ok {problems : List SetFinding} : refuse problems = .ok () ↔ problems = [] := by
  have hperm := List.perm_insertionSort (fun a b : SetFinding => a.index ≤ b.index) problems
  unfold refuse
  constructor
  · intro h
    split at h
    next hnil =>
      rw [hnil] at hperm
      exact hperm.symm.eq_nil
    · cases h
  rintro rfl
  rfl

end Registry

section
variable [External]
namespace Registry
open Prog (forEach mapEach)
open Locked (portRange)

def specJson (spec : RuleSpec) : Json :=
  (Json.obj ((Json.filledSlots (RuleView.new spec .running none [] 0).slots).filter
    fun f => f.1 ∉ stateKeys)).sorted

def etag (generation : UInt64) (specs : List RuleSpec) : String :=
  s!"g{generation.toNat}-{External.digest (.arr ((sortByKey specs).map specJson))}"

def ifMatch (header etag : String) : Bool :=
  (Text.splitOn ',' header).any fun t =>
    let t := Text.trimStartMatches "W/" (Text.trim t)
    let t := String.ofList (Text.trimMatches (· == '"') t.toList)
    t == "*" || t == etag

/-! ## The body of a PUT -/

structure RulesetRequest where
  generation : UInt64
  rules : List RuleRequest

structure SetLimits where
  maxRules : Option Nat
  maxRulesets : Option Nat
  freebind : Bool

structure PutOptions where
  ifMatch : Option String
  dryRun : Bool
  token : String
  admin : Bool
  /-- The owner to keep (handoff); `none`: the set's own, or the token for a new set. -/
  owner : Option String
  mayUsePorts : UInt16 → UInt16 → Bool
  limits : Option SetLimits

def maxName : Nat := 253
def maxRules : Nat := 10000
def maxGeneration : Nat := 2 ^ 53 - 1

def validateName (name : String) : Except ApiError Unit :=
  let alnum (c : Char) : Bool := c.isLower || c.isDigit
  let inner (c : Char) : Bool := alnum c || c == '.' || c == '_' || c == '/' || c == '-'
  if name = "" ∨ Text.byteLen name > maxName ∨ !name.toList.all inner ∨
      !name.toList.head?.any alnum ∨ !name.toList.getLast?.any alnum then
    .error (.invalid
      (s!"{debugStr name} is not a rule set name (lower-case letters, digits, . _ / " ++
      s!"-, at most {maxName})"))
  else .ok ()

def validateKeys (seen : List Key) : Nat → List RuleRequest → Except ApiError Unit
  | _, [] => .ok ()
  | i, r :: rs =>
    match parseListen r.listenAddr r.listenPort with
    | .error e => .error (.invalid s!"rules[{i}]: {e.message}")
    | .ok listen =>
      if ⟨r.protocol, listen⟩ ∈ seen then
        .error (.invalid s!"rules[{i}]: {r.protocol.asStr}/{listen.text} is in the set twice")
      else validateKeys (⟨r.protocol, listen⟩ :: seen) (i + 1) rs

def RulesetRequest.validateShape (req : RulesetRequest) : Except ApiError Unit :=
  if req.generation.toNat > maxGeneration then
    .error (.invalid s!"generation must be at most {maxGeneration} (2^53 - 1)")
  else if req.rules.length > maxRules then
    .error (.invalid s!"a rule set holds at most {maxRules} rules")
  else validateKeys [] 0 req.rules

def checkOwner (name : String) (current : Option SetState) (token : String) (admin : Bool) :
    Except ApiError Unit :=
  match current with
  | some s =>
    if s.owner ≠ token ∧ !admin then
      .error (.forbidden
        (s!"rule set {debugStr name} belongs to token {debugStr s.owner}; only it " ++
        "or an admin token may change it"))
    else .ok ()
  | none => .ok ()

def checkIfMatch (header : Option String) (current : Option SetState) : Except ApiError Unit :=
  match header, current with
  | none, _ => .ok ()
  | some h, some s =>
    if ifMatch h s.etag then .ok ()
    else .error (.preconditionFailed
      s!"If-Match {h} does not match the rule set's etag \"{s.etag}\"")
  | some h, none => .error (.preconditionFailed s!"If-Match {h}: there is no such rule set")

def checkSet (name : String) (req : RulesetRequest) (opts : PutOptions)
    (current : Option SetState) : Except ApiError Unit := do
  checkOwner name current opts.token opts.admin
  checkIfMatch opts.ifMatch current
  match current with
  | some s =>
    if req.generation < s.generation then
      .error (.staleGeneration
        (s!"generation {req.generation.toNat} is older than the rule set's " ++
        s!"{s.generation.toNat}"))
    else .ok ()
  | none => .ok ()

/-! ## Planning a PUT -/

def labelOf (r : RuleRequest) : String :=
  match parseListen r.listenAddr r.listenPort with
  | .ok listen => s!"{r.protocol.asStr}/{listen.text}"
  | .error _ => s!"{r.protocol.asStr}/{r.listenAddr}:{r.listenPort.toNat}"

def validRules (caps : Caps) (name : String) : Nat → List RuleRequest → List (Nat × RuleSpec)
  | _, [] => []
  | i, r :: rs =>
    match r.validate caps with
    | .ok spec => (i, { spec with ruleset := some name }) :: validRules caps name (i + 1) rs
    | .error _ => validRules caps name (i + 1) rs

def shapeProblems (caps : Caps) : Nat → List RuleRequest → List SetFinding
  | _, [] => []
  | i, r :: rs =>
    match r.validate caps with
    | .ok _ => shapeProblems caps (i + 1) rs
    | .error e => finding i (labelOf r) e :: shapeProblems caps (i + 1) rs

def overlapProblems : List (Nat × RuleSpec) → List (Nat × RuleSpec) → List SetFinding
  | _, [] => []
  | before, (i, spec) :: rest =>
    match before.find? fun o => overlaps o.2 spec with
    | some (j, other) =>
      finding i spec.key.text
          (.invalid s!"{spec.key.text} overlaps with rules[{j}] ({other.key.text})")
        :: overlapProblems (before ++ [(i, spec)]) rest
    | none => overlapProblems (before ++ [(i, spec)]) rest

def Current.ours (name : String) (c : Current) : Bool :=
  c.spec.ruleset = some name

def portsText (ports : UInt16 × UInt16) : String :=
  s!"{ports.1.toNat}-{ports.2.toNat}"

def taken (name : String) (current : List (Key × Current)) (invalid : List Key) (spec : RuleSpec) :
    Option ApiError :=
  match (current.lookup spec.key).filter fun c => !c.ours name with
  | some c =>
    if c.spec.origin = .static then
      some (.staticRule s!"{spec.key.text} is a static rule of the settings file")
    else
      match c.spec.ruleset with
      | some other => some (ownedError spec.key other)
      | none =>
        some (.alreadyExists s!"{spec.key.text} exists and does not belong to this rule set")
  | none =>
    if spec.key ∈ invalid then
      some (.alreadyExists (s!"{spec.key.text} exists and does not belong to this rule set (a " ++
        "restored rule that does not validate)"))
    else
      match current.find? fun c => c.1 != spec.key && !c.2.ours name && overlaps c.2.spec spec with
      | some (_, c) => some (.alreadyExists (overlapMessage spec c.spec))
      | none => none

variable (cfg : Settings)

def conflict (name : String) (opts : PutOptions) (current : List (Key × Current))
    (invalid : List Key) (spec : RuleSpec) : Option ApiError :=
  match reservedClash cfg spec with
  | some api => some (reservedError spec api)
  | none =>
    match taken name current invalid spec with
    | some e => some e
    | none =>
      if !opts.mayUsePorts (portRange spec).1 (portRange spec).2 then
        some (.forbidden s!"this token may not use listen port {portsText (portRange spec)}")
      else
        -- changing a rule of the set also takes away what it listens on now
        match (current.lookup spec.key).filter fun c => c.ours name with
        | some c =>
          if !opts.mayUsePorts (portRange c.spec).1 (portRange c.spec).2 then
            some (.forbidden
              s!"this token may not change the rule listening on {portsText (portRange c.spec)}")
          else none
        | none => none

def conflicts (name : String) (opts : PutOptions) (current : List (Key × Current))
    (invalid : List Key) (specs : List (Nat × RuleSpec)) : List SetFinding :=
  specs.filterMap fun r =>
    (conflict cfg name opts current invalid r.2).map (finding r.1 r.2.key.text)

def check {α : Type} (r : Except ApiError α) : ExceptT SetError Program α :=
  ExceptT.mk (return r.mapError SetError.ofError)

def refuseWith (problems : List SetFinding) : ExceptT SetError Program Unit :=
  ExceptT.mk (return refuse problems)

def freebindProblems (name : String) (current : List (Key × Current))
    (specs : List (Nat × RuleSpec)) (limits : SetLimits) : List SetFinding :=
  let changes := specs.filter fun r =>
    match (current.lookup r.2.key).filter fun c => c.ours name with
    | some c => c.spec ≠ r.2
    | none => true
  changes.filterMap fun r =>
    match Quota.checkFreebind r.2.listenFreebind limits.freebind with
    | .error e => some (finding r.1 r.2.key.text e)
    | .ok () => none

def checkOwnRules (name : String) (currentSet : Option SetState) (current : List (Key × Current))
    (specs : List (Nat × RuleSpec)) (opts : PutOptions) (limits : SetLimits) :
    ExceptT SetError Program Unit :=
  if ((currentSet.map SetState.owner).or opts.owner).getD opts.token = opts.token then do
    let kept := current.filter fun c => !c.2.ours name
    let others ← perform (.ownedBy opts.token (kept.map fun c => c.2.spec))
    let had := (current.filter fun c => c.2.ours name).length
    check (Quota.checkToken "rules" (others + specs.length) (specs.length - had) limits.maxRules)
  else return ()

def checkNewSet (currentSet : Option SetState) (opts : PutOptions) (limits : SetLimits) :
    ExceptT SetError Program Unit :=
  if currentSet = none then do
    let sets ← perform .sets
    check (Quota.checkRulesets cfg (sets.length + 1))
    let mine := (sets.filter fun s => s.2.owner = opts.token).length
    check (Quota.checkToken "rulesets" (mine + 1) 1 limits.maxRulesets)
  else return ()

def checkSetLimits (name : String) (currentSet : Option SetState) (current : List (Key × Current))
    (specs : List (Nat × RuleSpec)) (opts : PutOptions) : ExceptT SetError Program Unit :=
  match opts.limits with
  | none => return ()
  | some limits => do
    refuseWith (freebindProblems name current specs limits)
    let kept := current.filter fun c => !c.2.ours name
    let rulesAfter := kept.length + specs.length
    let socketsOf (l : List RuleSpec) : Nat := (l.map Quota.sockets).sum + cfg.http01Listen.length
    let before := socketsOf (current.map fun c => c.2.spec)
    let after := socketsOf (kept.map (fun c => c.2.spec) ++ specs.map Prod.snd)
    check (Quota.checkProcess cfg rulesAfter (rulesAfter - current.length) after (after - before))
    checkOwnRules name currentSet current specs opts limits
    checkNewSet cfg currentSet opts limits

inductive Action where
  | create
  | update
  | delete
  | none
deriving DecidableEq

inductive Change where
  | inPlace
  | recreate
  | none
deriving DecidableEq

structure Step where
  /-- Its place in the body; `none` for a rule the set drops. -/
  index : Option Nat
  key : Key
  action : Action
  change : Change
  spec : Option RuleSpec
  old : Option RuleSpec

def stepOf (current : List (Key × Current)) (r : Nat × RuleSpec) : Step :=
  match current.lookup r.2.key with
  | none =>
    { index := some r.1, key := r.2.key, action := .create, change := .none, spec := some r.2
      old := none }
  | some c =>
    let (action, change) :=
      if c.spec = r.2 ∧ (c.running ∨ c.retrying) then (Action.none, Change.none)
      else if c.running ∧ inPlace c.spec r.2 then (.update, .inPlace)
      -- a failed rule is started again even when unchanged
      else (.update, .recreate)
    { index := some r.1, key := r.2.key, action, change, spec := some r.2, old := some c.spec }

def buildStep (step : Step) : Program (List SetFinding) :=
  match step.action, step.spec, step.index with
  | .none, _, _ => return []
  | _, some spec, some i => do
    match ← perform (.buildParts spec) with
    | .error e => return [finding i spec.key.text e]
    | .ok () => return []
  | _, _, _ => return []

def droppedRules (name : String) (current : List (Key × Current)) (wanted : List Key) :
    List (Key × Current) :=
  (current.filter fun c => c.2.ours name && !wanted.contains c.1).insertionSort
    fun a b => a.1.rank ≤ b.1.rank

def dropSteps (opts : PutOptions) : List (Key × Current) → Except ApiError (List Step)
  | [] => .ok []
  | (key, c) :: rest =>
    if !opts.mayUsePorts (portRange c.spec).1 (portRange c.spec).2 then
      .error (.forbidden
        s!"{key.text}: this token may not use listen port {portsText (portRange c.spec)}")
    else do
      let steps ← dropSteps opts rest
      return { index := none, key, action := .delete, change := .none, spec := none
               old := some c.spec } :: steps

def planRuleset (name : String) (req : RulesetRequest) (opts : PutOptions)
    (currentSet : Option SetState) : ExceptT SetError Program (List Step) := do
  -- 1. the shape of every rule
  let specs := validRules cfg.caps name 0 req.rules
  refuseWith (shapeProblems cfg.caps 0 req.rules ++ overlapProblems [] specs)
  -- 2. against the rules that run now
  let current ← perform .snapshot
  let invalid ← perform .invalidKeys
  let invalid := invalid.filter fun k => !(current.map Prod.fst).contains k
  refuseWith (conflicts cfg name opts current invalid specs)
  checkSetLimits cfg name currentSet current specs opts
  -- 3. what changes; the files of what is created or changed
  let steps := specs.map (stepOf current)
  let problems ← (mapEach buildStep steps : Program _)
  let wanted := specs.map fun r => r.2.key
  let drops ← check (dropSteps opts (droppedRules name current wanted))
  refuseWith problems.flatten
  return steps ++ drops

/-! ## Applying it -/

def startMember (spec : RuleSpec) : Program (Except ApiError Unit) := do
  match ← createSpec cfg spec with
  | .ok () => return .ok ()
  | .error e =>
    if e.code = .alreadyExists ∨ e.code = .reserved then return .error e
    else
      insertFailed spec e
      return .ok ()

def recreateMember (spec : RuleSpec) : Program (Except ApiError Unit) := do
  match ← perform (.removeMember spec.key spec.ruleset) with
  | some entry => stopEntry entry
  | none => pure ()
  startMember cfg spec

/-- `ApplyResult`, without the differences that a dry run shows. -/
structure ApplyResult where
  rule : String
  action : Action
  change : Change
  state : Option RunState
  error : Option String

structure RulesetApplied where
  name : String
  generation : UInt64
  etag : String
  dryRun : Bool
  results : List ApplyResult

def errorText : Except ApiError Unit → Option String
  | .ok () => none
  | .error e => some e.message

def applyStep (step : Step) : Program ApplyResult :=
  let result : ApplyResult :=
    { rule := step.key.text, action := step.action, change := step.change, state := none
      error := none }
  match step.action, step.spec with
  | .update, some spec =>
    if step.change = .inPlace then do
      match ← apply cfg step.key spec with
      | .ok () => return result
      | .error _ => do
        let r ← recreateMember cfg spec
        return { result with change := .recreate, error := errorText r }
    else do
      let r ← recreateMember cfg spec
      return { result with error := errorText r }
  | .create, some spec => do
    let r ← startMember cfg spec
    return { result with error := errorText r }
  | _, _ => return result

def ApplyResult.settle (step : Step) (r : ApplyResult) :
    Option (RunState × Option String) → ApplyResult
  | some (state, error) =>
    if step.index.isSome then { r with state := some state, error := r.error.or error } else r
  | none => r

def applySteps (name : String) (req : RulesetRequest) (opts : PutOptions)
    (currentSet : Option SetState) (steps : List Step) : Program RulesetApplied := do
  -- 4. dropped rules first (a rule that moved must not overlap itself)
  let removed ← perform (.dropMembers name
    ((steps.filter fun s => s.action = .delete).map Step.key))
  forEach stopEntry removed
  let results ← mapEach (applyStep cfg) steps
  -- 5. the outcome
  let (states, members) ← perform (.outcome name (steps.map Step.key))
  let etag := etag req.generation members
  let owner := (opts.owner.or (currentSet.map SetState.owner)).getD opts.token
  perform (.putSet name (some
    { generation := req.generation, etag, updatedBy := opts.token, owner }))
  return {
    name
    generation := req.generation
    etag
    dryRun := false
    results := (steps.zip (results.zip states)).map fun r => .settle r.1 r.2.1 r.2.2 }

def rulesetDryRun (name : String) (req : RulesetRequest) (steps : List Step) : RulesetApplied where
  name := name
  generation := req.generation
  etag := etag req.generation (steps.filterMap Step.spec)
  dryRun := true
  results := steps.map fun s =>
    { rule := s.key.text, action := s.action, change := s.change, state := none, error := none }

def putRuleset (name : String) (req : RulesetRequest) (opts : PutOptions) :
    Program (Except SetError RulesetApplied) :=
  match (do validateName name; req.validateShape : Except ApiError Unit) with
  | .error e => return .error (.ofError e)
  | .ok () => do
    let currentSet ← perform (.setOf name)
    match checkSet name req opts currentSet with
    | .error e => return .error (.ofError e)
    | .ok () =>
      match ← (planRuleset cfg name req opts currentSet).run with
      | .error e => return .error e
      | .ok steps =>
        if opts.dryRun then return .ok (rulesetDryRun name req steps)
        else do
          let applied ← applySteps cfg name req opts currentSet steps
          return .ok applied

def deleteRuleset (name : String) (header : Option String)
    (mayUsePorts : UInt16 → UInt16 → Bool) (token : String) (admin : Bool) :
    Program (Except ApiError Nat) :=
  match validateName name with
  | .error e => return .error e
  | .ok () => do
    match ← perform (.setOf name) with
    | none => return .error (.notFound s!"no rule set {debugStr name}")
    | some current =>
      match (do
        checkOwner name (some current) token admin
        checkIfMatch header (some current) : Except ApiError Unit) with
      | .error e => return .error e
      | .ok () =>
        match ← perform (.takeMembers name mayUsePorts) with
        | .error e => return .error e
        | .ok entries =>
          forEach stopAccepting entries
          perform (.putSet name none)
          forEach stopEntry entries
          return .ok entries.length

end Registry
end
end Rproxy
