import Rproxy.Registry.Ruleset

/-!
# The registry as a system of interleaved calls

`Registry.Call` are the operations of the control API, the settings file, the database and the
background tasks; `Registry.system` runs them interleaved at their sections.
-/

namespace Rproxy.Registry
open Op

section
variable [External]

inductive Call where
  | createAs (req : RuleRequest) (origin : Origin)
  | createBy (req : RuleRequest) (origin : Origin) (token : String)
  | update (key : Key) (u : UpdateRequest)
  | delete (key : Key)
  | dropInvalid (key : Key)
  | restoreAs (reqs : List RuleRequest) (origin : Origin)
  | loadStatic (reqs : List (String × RuleRequest))
  | reloadStatic (reqs : List (String × RuleRequest))
  | putRuleset (name : String) (req : RulesetRequest) (opts : PutOptions)
  | deleteRuleset (name : String) (header : Option String)
      (mayUsePorts : UInt16 → UInt16 → Bool) (token : String) (admin : Bool)
  | retryStart (task : RetryTask)
  | retryWaitingFor (reason : Reason)
  | applyCerts
  | supervise (key : Key) (generation : Nat) (error : String)
  | shutdown
  | drainAll
  | drainInPlace

def program (cfg : Settings) : Call → Program Unit
  | .createAs req origin => do let _ ← createAs cfg req origin
  | .createBy req origin token => do let _ ← createBy cfg req origin token
  | .update key u => do let _ ← update cfg key u
  | .delete key => do let _ ← delete key
  | .dropInvalid key => do let _ ← dropInvalid key
  | .restoreAs reqs origin => restoreAs cfg reqs origin
  | .loadStatic reqs => do let _ ← loadStatic cfg reqs
  | .reloadStatic reqs => do let _ ← reloadStatic cfg reqs
  | .putRuleset name req opts => do let _ ← putRuleset cfg name req opts
  | .deleteRuleset name header mayUsePorts token admin => do
    let _ ← deleteRuleset name header mayUsePorts token admin
  | .retryStart task => retryStart task
  | .retryWaitingFor reason => do let _ ← retryWaitingFor reason
  | .applyCerts => do let _ ← applyCerts
  | .supervise key generation error => supervise key generation error
  | .shutdown => shutdown
  | .drainAll => drainAll
  | .drainInPlace => perform .drainInPlace

def begins (s : State) : Call → Option State
  | .retryStart task => if task ∈ s.tasks then some { s with tasks := s.tasks.erase task } else none
  | .supervise _ generation _ => if generation ∈ s.runtimes then some s else none
  | _ => some s

variable {c : Call}

lemma begins_eq {s s' : State} (h : begins s c = some s') :
    s' = { s with tasks := s'.tasks } ∧ s'.tasks ⊆ s.tasks := by
  unfold begins at h
  split at h
  · split at h
    · cases h
      exact ⟨rfl, List.erase_subset⟩
    · cases h
  · split at h
    · cases h
      exact ⟨rfl, List.Subset.refl _⟩
    · cases h
  cases h
  exact ⟨rfl, List.Subset.refl _⟩

lemma begins_rules {s s' : State} (h : begins s c = some s') : s'.rules = s.rules := by
  rw [(begins_eq h).1]

def system (cfg : Settings) : System Op Ret Env State Call where
  toMachine := machine cfg
  program := program cfg
  begins := fun c s => begins s c

abbrev Config := Configuration Op Ret State Call

def Config.initial : Config := ⟨.empty, []⟩

def Config.Quiet (x : Config) : Prop := ∀ t ∈ x.threads, t.rest.done

def nextOp (x : Config) : Event Env Call → Option Op
  | .start _ => none
  | .step i _ => (x.threads[i]?).bind fun t => t.rest.next?

variable {o : Op}

lemma nextOp_step {x : Config} {i : Nat} {env : Env}
    {k : Ret o → Program Unit} (h : x.threads[i]? = some ⟨c, .op o k⟩) :
    nextOp x (.step i env) = some o := by
  rw [nextOp, h]
  rfl

/-- The section that an event performs has the property `P`, in the state it meets. -/
def Next (P : State → Op → Prop) (x : Config) (ev : Event Env Call) : Prop :=
  ∀ o, nextOp x ev = some o → P x.state o

def nextAll (f : Op → Bool) (x : Config) (ev : Event Env Call) : Bool := (nextOp x ev).all f

lemma next_of_nextAll {P : State → Op → Prop} {f : Op → Bool} (hf : ∀ s o, f o → P s o)
    (x : Config) (ev : Event Env Call) (h : nextAll f x ev) : Next P x ev := by
  intro o ho
  rw [nextAll, ho] at h
  exact hf x.state o h

def Call.single : Call → Prop
  | .reloadStatic _ | .putRuleset _ _ _ | .deleteRuleset _ _ _ _ _ | .shutdown | .drainAll => False
  | _ => True

instance : DecidablePred Call.single := fun c => by
  unfold Call.single
  split <;> infer_instance

def SingleCalls (_ : Config) (ev : Event Env Call) : Prop := ∀ c, ev = .start c → c.single

def startsSingle (_ : Config) : Event Env Call → Bool
  | .start c => decide c.single
  | .step _ _ => true

lemma startsSingle_sound (x : Config) (ev : Event Env Call) (h : startsSingle x ev) :
    SingleCalls x ev := by
  rintro c rfl
  exact of_decide_eq_true h

/-! ## What the programs perform -/

def Op.creating : Op → Prop
  | .prepare _ | .buildParts _ | .create _ _ _ | .register _ _ | .insertFailed _ _ _ _
  | .invalidOf _ | .noteInvalid _ _ | .staticRules | .snapshot | .invalidKeys
  | .outcome _ _ | .setOf _ | .sets | .ownedBy _ _ => True
  | _ => False

def Op.ordinary : Op → Prop
  | .apply _ _ | .specOf _ => True
  | o => o.creating

lemma Op.ordinary_of_creating (h : o.creating) : o.ordinary := by
  cases o <;> trivial

open Prog (All)
variable {cfg : Settings} (spec : RuleSpec)

lemma all_createSpecIn (fixing : Bool) (token : Option String) :
    (createSpecIn cfg spec fixing token).All creating := by
  unfold createSpecIn
  split
  · trivial
  refine ⟨trivial, fun r => ?_⟩
  rcases r with e | _
  · trivial
  · exact ⟨trivial, fun _ => trivial⟩

lemma all_createSpec : (createSpec cfg spec).All creating := all_createSpecIn spec false none

lemma all_insertFailed (e : ApiError) : (insertFailed spec e).All creating :=
  ⟨trivial, fun _ => ⟨trivial, fun _ => trivial⟩⟩

variable (key : Key)

lemma all_apply (spec : RuleSpec) : (apply cfg key spec).All ordinary := by
  unfold apply
  split
  · trivial
  refine ⟨trivial, fun r => ?_⟩
  rcases r with e | _
  · trivial
  · exact ⟨trivial, fun _ => trivial⟩

lemma all_createAs (req : RuleRequest) (origin : Origin) :
    (createAs cfg req origin).All creating := by
  unfold createAs
  split
  · trivial
  · exact all_createSpec _

lemma all_createBy (req : RuleRequest) (origin : Origin) (token : String) :
    (createBy cfg req origin token).All creating := by
  unfold createBy
  split
  · trivial
  · exact all_createSpecIn _ _ _

lemma all_fixInvalid (req : RuleRequest) : (fixInvalid cfg key req).All creating := by
  refine ⟨trivial, fun r => ?_⟩
  rcases r with _ | i
  · trivial
  split
  · trivial
  split
  · trivial
  refine (all_createSpecIn _ _ _).bind fun r => ?_
  rcases r with e | _
  · dsimp only
    split
    · trivial
    · exact (all_insertFailed _ _).bind fun _ => trivial
  · trivial

lemma all_updatedSpec (u : UpdateRequest) : (updatedSpec cfg key u).All ordinary := by
  unfold updatedSpec
  split
  · trivial
  refine ⟨trivial, fun r => ?_⟩
  rcases r with _ | spec <;> trivial

lemma all_update (u : UpdateRequest) : (update cfg key u).All ordinary := by
  refine ⟨trivial, fun r => ?_⟩
  rcases r with _ | i
  · refine (all_updatedSpec key u).bind fun r => ?_
    rcases r with e | spec
    · trivial
    · exact all_apply key spec
  · exact (all_fixInvalid key _).mono fun _ => ordinary_of_creating

lemma all_restoreOne (origin : Origin) (req : RuleRequest) :
    (restoreOne cfg origin req).All creating := by
  unfold restoreOne
  split
  · exact all_insertFailed _ _
  · unfold noteInvalid
    split
    · trivial
    · exact ⟨trivial, fun _ => trivial⟩
  refine (all_createSpec _).bind fun r => ?_
  rcases r with e | _
  · dsimp only
    split
    · trivial
    · exact all_insertFailed _ _
  · trivial

lemma all_restoreAs (reqs : List RuleRequest) (origin : Origin) :
    (restoreAs cfg reqs origin).All creating :=
  All.forEach fun req _ => all_restoreOne origin req

lemma all_startStatic (rule : FileRule) : (startStatic cfg rule).All creating := by
  unfold startStatic
  split
  · exact (all_insertFailed _ _).bind fun _ => trivial
  refine (all_createSpec _).bind fun r => ?_
  rcases r with e | _
  · dsimp only
    split
    · trivial
    · exact (all_insertFailed _ _).bind fun _ => trivial
  · trivial

lemma all_loadStatic (reqs : List (String × RuleRequest)) :
    (loadStatic cfg reqs).All creating := by
  unfold loadStatic
  split
  · trivial
  · exact (All.mapEach fun rule _ => all_startStatic rule).bind fun _ => trivial

lemma all_startMember : (startMember cfg spec).All creating := by
  refine (all_createSpec spec).bind fun r => ?_
  rcases r with e | _
  · dsimp only
    split
    · trivial
    · exact (all_insertFailed _ _).bind fun _ => trivial
  · trivial

/-- What puts the rule `spec` at `key`, in place of a rule that may be there, performs. -/
def Op.installs (key : Key) (spec : RuleSpec) : Op → Prop
  | .create s fixing token => s = spec ∧ fixing = false ∧ token = none
  | .insertFailed _ s _ _ => s = spec
  | .apply k s => k = key ∧ s = spec
  | .removeMember k _ => k = spec.key
  | .prepare _ | .register _ _ | .stop _ | .kill _ | .abort _ => True
  | _ => False

lemma installs_createSpec : (createSpec cfg spec).All (installs key spec) := by
  unfold createSpec createSpecIn
  split
  · trivial
  refine ⟨trivial, fun r => ?_⟩
  rcases r with e | _
  · trivial
  · exact ⟨⟨rfl, rfl, rfl⟩, fun _ => trivial⟩

lemma installs_insertFailed (e : ApiError) : (insertFailed spec e).All (installs key spec) :=
  ⟨trivial, fun _ => ⟨rfl, fun _ => trivial⟩⟩

lemma installs_apply : (apply cfg key spec).All (installs key spec) := by
  unfold apply
  split
  · trivial
  refine ⟨trivial, fun r => ?_⟩
  rcases r with e | _
  · trivial
  · exact ⟨⟨rfl, rfl⟩, fun _ => trivial⟩

lemma all_stopEntry {P : Op → Prop} (hstop : ∀ n, P (.stop n)) (hkill : ∀ n, P (.kill n))
    (habort : ∀ n, P (.abort n)) (e : Entry) : (stopEntry e).All P := by
  cases e with
  | running r => exact ⟨hstop _, fun _ => ⟨hkill _, fun _ => trivial⟩⟩
  | failed f => exact ⟨habort _, fun _ => trivial⟩

lemma installs_startMember : (startMember cfg spec).All (installs key spec) := by
  refine (installs_createSpec spec key).bind fun r => ?_
  rcases r with e | _
  · dsimp only
    split
    · trivial
    · exact (installs_insertFailed spec key e).bind fun _ => trivial
  · trivial

lemma installs_recreateMember : (recreateMember cfg spec).All (installs key spec) := by
  refine ⟨rfl, fun r => ?_⟩
  rcases r with _ | entry
  · exact installs_startMember spec key
  refine (all_stopEntry ?_ ?_ ?_ entry).bind fun _ => installs_startMember spec key
  all_goals exact fun _ => trivial

/-- A step of a PUT installs its rule, and performs nothing else. -/
theorem all_applyStep {step : Step} {P : Op → Prop}
    (h : ∀ spec, step.spec = some spec → ∀ o : Op, o.installs step.key spec → P o) :
    (applyStep cfg step).All P := by
  unfold applyStep
  split
  next spec _ hspec =>
    have hre : (recreateMember cfg spec).All P :=
      (installs_recreateMember spec step.key).mono (h spec hspec)
    split
    · refine ((installs_apply spec step.key).mono (h spec hspec)).bind fun r => ?_
      rcases r with e | _
      · exact hre.bind fun _ => trivial
      · trivial
    · exact hre.bind fun _ => trivial
  next spec _ hspec =>
    exact ((installs_startMember spec step.key).mono (h spec hspec)).bind fun _ => trivial
  · trivial

/-- What the retries and the restarts perform. -/
def Op.restarts : Op → Prop
  | .prepareRetry _ | .sleepAgain _ | .retryFailed _ _ | .retry _ | .waiting _ | .prepare _
  | .restartWaiting _ _ _ | .certFailed _ _ _ | .certStart _ _ => True
  | _ => False

lemma all_retryStart (task : RetryTask) : (retryStart task).All restarts := by
  refine ⟨trivial, fun r => ?_⟩
  rcases r with _ | e | _
  · trivial
  · change Prog.All _ (if _ then _ else _)
    split <;> exact ⟨trivial, fun _ => trivial⟩
  · exact ⟨trivial, fun _ => trivial⟩

lemma all_retryWaitingFor (reason : Reason) : (retryWaitingFor reason).All restarts := by
  refine ⟨trivial, fun waiting => ?_⟩
  refine (All.mapEach fun w _ => ?_).bind fun _ => trivial
  exact ⟨trivial, fun _ => ⟨trivial, fun _ => trivial⟩⟩

lemma all_certRestart (rule : RuleSpec × Nat) : (certRestart rule).All restarts := by
  refine ⟨trivial, fun r => ?_⟩
  rcases r with e | _ <;> exact ⟨trivial, fun _ => trivial⟩

lemma all_applyCerts {P : Op → Prop} (hscan : P .scanCerts) (hstop : ∀ n, P (.stop n))
    (hkill : ∀ n, P (.kill n)) (h : ∀ o : Op, o.restarts → P o) : applyCerts.All P := by
  refine ⟨hscan, fun scan => ?_⟩
  have hone : ∀ n ∈ scan.stopped, (stopRuntime n).All P := fun n _ =>
    ⟨hstop n, fun _ => ⟨hkill n, fun _ => trivial⟩⟩
  refine (All.forEach hone).bind fun _ => ?_
  exact (All.mapEach fun rule _ => (all_certRestart rule).mono h).bind fun _ => trivial

def Op.readOnly : Op → Prop
  | .prepare _ | .buildParts _ | .specOf _ | .invalidOf _ | .staticRules | .snapshot
  | .invalidKeys | .outcome _ _ | .setOf _ | .sets | .ownedBy _ _ => True
  | _ => False

lemma all_check {α : Type} (r : Except ApiError α) : (check r).run.All readOnly := trivial

lemma all_refuseWith (problems : List SetFinding) :
    (refuseWith problems).run.All readOnly := trivial

lemma all_lift (ho : o.readOnly) :
    (liftM (perform o) : ExceptT SetError Program (Ret o)).run.All readOnly :=
  ⟨ho, fun _ => trivial⟩

lemma all_checkSetLimits (name : String) (currentSet : Option SetState)
    (current : List (Key × Current)) (specs : List (Nat × RuleSpec)) (opts : PutOptions) :
    (checkSetLimits cfg name currentSet current specs opts).run.All readOnly := by
  unfold checkSetLimits
  split
  · trivial
  refine All.bind_except (all_refuseWith _) fun _ => ?_
  refine All.bind_except (all_check _) fun _ => ?_
  refine All.bind_except ?_ fun _ => ?_
  · unfold checkOwnRules
    split
    · exact All.bind_except (all_lift trivial) fun _ => all_check _
    · trivial
  unfold checkNewSet
  split
  · refine All.bind_except (all_lift trivial) fun _ => ?_
    exact All.bind_except (all_check _) fun _ => all_check _
  · trivial

lemma all_buildStep (step : Step) : (buildStep step).All readOnly := by
  unfold buildStep
  split
  · trivial
  · refine ⟨trivial, fun r => ?_⟩
    rcases r with e | _ <;> trivial
  · trivial

lemma all_planRuleset (name : String) (req : RulesetRequest) (opts : PutOptions)
    (currentSet : Option SetState) :
    (planRuleset cfg name req opts currentSet).run.All readOnly := by
  refine All.bind_except (all_refuseWith _) fun _ => ?_
  refine All.bind_except (all_lift trivial) fun current => ?_
  refine All.bind_except (all_lift trivial) fun invalid => ?_
  refine All.bind_except (all_refuseWith _) fun _ => ?_
  refine All.bind_except (all_checkSetLimits _ _ _ _ _) fun _ => ?_
  refine All.bind_except ?_ fun problems => ?_
  · exact (All.mapEach fun step _ => all_buildStep step).bind fun _ => trivial
  refine All.bind_except (all_check _) fun drops => ?_
  exact All.bind_except (all_refuseWith _) fun _ => trivial

lemma Op.ordinary_of_readOnly (h : o.readOnly) : o.ordinary := by
  cases o <;> trivial

lemma exec_readOnly (h : o.readOnly) (env : Env) (s : State) : (exec cfg o env s).1 = s := by
  cases o <;> first | rfl | exact absurd h id

end
end Rproxy.Registry
