import Rproxy.Registry.Changes
import Rproxy.Registry.Plain

/-!
# A refused PUT changes nothing

All sections of `put_ruleset` up to the point where the dropped rules are stopped only read.
-/

namespace Rproxy
section
variable [External]
namespace Registry
open Prog (All)
open Checks (bind_eq_ok exists_unit)
variable {cfg : Settings} {name : String} {req : RulesetRequest} {opts : PutOptions}

variable {s s' : State}

lemma runs_readOnly {α : Type} {p : Program α} (hp : p.All Op.readOnly) {a : α}
    (h : p.Runs (machine cfg) s s' a) : s' = s :=
  h.keeps (I := fun t => t = s) (fun o e t ho ht => by rw [← ht]; exact exec_readOnly ho e t) hp rfl

variable {a : Except SetError RulesetApplied}

/-- **How a PUT runs**: it is refused or only asked for, and nothing has changed; or it was planned
in the state it began in, and the plan is applied. -/
theorem runs_putRuleset (h : (putRuleset cfg name req opts).Runs (machine cfg) s s' a) :
    s' = s ∧ ((∃ e, a = .error e) ∨ opts.dryRun = true) ∨
      ∃ steps applied, checkSet name req opts (s.sets.lookup name) = .ok () ∧
        (planRuleset cfg name req opts (s.sets.lookup name)).run.Runs (machine cfg) s s
          (.ok steps) ∧
        (applySteps cfg name req opts (s.sets.lookup name) steps).Runs (machine cfg) s s' applied ∧
        a = .ok applied := by
  unfold putRuleset at h
  split at h
  · obtain ⟨rfl, rfl⟩ := h
    exact .inl ⟨rfl, .inl ⟨_, rfl⟩⟩
  -- the state of the set is read first
  obtain ⟨env, h⟩ := h
  change Prog.Runs _ ((Prog.ret (s.sets.lookup name)).bind _) s s' a at h
  rw [Prog.bind] at h
  split at h
  · obtain ⟨rfl, rfl⟩ := h
    exact .inl ⟨rfl, .inl ⟨_, rfl⟩⟩
  rename_i hcheck
  obtain ⟨s₁, r, hplan, h⟩ := Prog.runs_bind.mp h
  obtain rfl := runs_readOnly (all_planRuleset _ _ _ _) hplan
  rcases r with e | steps
  · obtain ⟨rfl, rfl⟩ := h
    exact .inl ⟨rfl, .inl ⟨_, rfl⟩⟩
  dsimp only at h
  split at h
  next hdry =>
    obtain ⟨rfl, rfl⟩ := h
    exact .inl ⟨rfl, .inr hdry⟩
  · obtain ⟨s₂, applied, happly, rfl, rfl⟩ := Prog.runs_bind.mp h
    exact .inr ⟨steps, applied, hcheck, hplan, happly, rfl⟩

/-! ## The state of a set -/

lemma Op.keepsSets_of_installs {o : Op} {key : Key} {spec : RuleSpec}
    (h : o.installs key spec) : o.keepsSets := by
  cases o <;> first | exact h.elim | trivial

lemma keepsSets_stopEntry : ∀ e : Entry, (stopEntry e).All Op.keepsSets :=
  all_stopEntry (fun _ => trivial) (fun _ => trivial) fun _ => trivial

lemma runs_keepsSets {α : Type} {p : Program α} (hp : p.All Op.keepsSets) {a : α}
    (h : p.Runs (machine cfg) s s' a) : s'.sets = s.sets :=
  h.keeps (I := fun t => t.sets = s.sets)
    (fun o e t ho ht => ((frame_exec cfg o e t).sets ho).trans ht) hp rfl

lemma sets_applySteps {currentSet : Option SetState} {steps : List Step}
    {applied : RulesetApplied}
    (h : (applySteps cfg name req opts currentSet steps).Runs (machine cfg) s s' applied) :
    s'.sets = s.sets.insert name
      { generation := req.generation
        etag := applied.etag
        updatedBy := opts.token
        owner := (opts.owner.or (currentSet.map SetState.owner)).getD opts.token } := by
  obtain ⟨s₁, removed, hdrop, h⟩ := Prog.runs_bind.mp h
  obtain ⟨s₂, _, hstop, h⟩ := Prog.runs_bind.mp h
  obtain ⟨s₃, results, hsteps, h⟩ := Prog.runs_bind.mp h
  have h₁ := runs_keepsSets (by exact ⟨trivial, fun _ => trivial⟩) hdrop
  have h₂ := runs_keepsSets (All.forEach fun e _ => keepsSets_stopEntry e) hstop
  have h₃ := runs_keepsSets
    (All.mapEach fun step _ => all_applyStep fun _ _ _ => Op.keepsSets_of_installs) hsteps
  obtain ⟨-, -, rfl, rfl⟩ := h
  rw [← h₁, ← h₂, ← h₃]
  rfl

lemma set_putRuleset {set : SetState}
    (h : (putRuleset cfg name req opts).Runs (machine cfg) s s' a)
    (hset : s.sets.lookup name = some set) :
    ∃ set', s'.sets.lookup name = some set' ∧ set.generation ≤ set'.generation ∧
      (opts.owner = none → set'.owner = set.owner) := by
  rcases runs_putRuleset h with ⟨rfl, -⟩ | ⟨steps, applied, hcheck, -, happly, -⟩
  · exact ⟨set, hset, UInt64.le_refl _, fun _ => rfl⟩
  rw [sets_applySteps happly, hset]
  refine ⟨_, AList.lookup_insert _, ?_, fun howner => ?_⟩
  · rw [hset] at hcheck
    simp only [checkSet, bind_eq_ok, exists_unit] at hcheck
    obtain ⟨-, -, hgen⟩ := hcheck
    split at hgen
    · cases hgen
    next hlt => exact UInt64.not_lt.mp hlt
  · simp [howner]

lemma checkSet_refuses {set : SetState} (h : req.generation < set.generation ∨
      ∃ header, opts.ifMatch = some header ∧ ifMatch header set.etag = false) :
    checkSet name req opts (some set) ≠ .ok () := by
  intro hcheck
  simp only [checkSet, bind_eq_ok, exists_unit] at hcheck
  obtain ⟨-, hmatch, hgen⟩ := hcheck
  rcases h with hlt | ⟨header, hheader, hno⟩
  · rw [if_pos hlt] at hgen
    cases hgen
  · simp [checkIfMatch, hheader, hno] at hmatch

lemma checkSet_refuses_missing {header : String} (h : opts.ifMatch = some header) :
    checkSet name req opts none ≠ .ok () := by
  intro hcheck
  simp only [checkSet, bind_eq_ok, exists_unit] at hcheck
  obtain ⟨-, hmatch, -⟩ := hcheck
  simp [checkIfMatch, h] at hmatch

lemma runs_putRuleset_refused (h : (putRuleset cfg name req opts).Runs (machine cfg) s s' a)
    (hcheck : checkSet name req opts (s.sets.lookup name) ≠ .ok ()) : s' = s := by
  rcases runs_putRuleset h with ⟨rfl, -⟩ | ⟨_, _, hok, -⟩
  · rfl
  · exact absurd hok hcheck

/-- The history of a set between its deletions: PUTs on it, one at a time, and sections of other
operations that do not write the set. -/
inductive History (cfg : Settings) (name : String) (s₀ : State) :
    State → List PutOptions → Prop where
  | refl : History cfg name s₀ s₀ []
  | put {s s' : State} {l : List PutOptions} {req : RulesetRequest} {opts : PutOptions}
      {a : Except SetError RulesetApplied} : History cfg name s₀ s l →
      (putRuleset cfg name req opts).Runs (machine cfg) s s' a →
      History cfg name s₀ s' (l ++ [opts])
  | other {s : State} {l : List PutOptions} {o : Op} {env : Env} : History cfg name s₀ s l →
      (∀ state, o ≠ .putSet name state) → History cfg name s₀ (exec cfg o env s).1 l

lemma lookup_sets_exec {o : Op} (ho : ∀ state, o ≠ .putSet name state) (env : Env) (s : State) :
    (exec cfg o env s).1.sets.lookup name = s.sets.lookup name := by
  by_cases hkeeps : o.keepsSets
  · rw [(frame_exec cfg o env s).sets hkeeps]
  cases o with
  | putSet other state =>
    have hne : name ≠ other := fun h => ho state (h ▸ rfl)
    cases state with
    | some st => exact AList.lookup_insert_ne hne
    | none => exact AList.lookup_erase_ne hne
  | _ => exact absurd trivial hkeeps

lemma History.set {s₀ : State} {l : List PutOptions} {set : SetState}
    (h : History cfg name s₀ s l) (hset : s₀.sets.lookup name = some set) :
    ∃ set', s.sets.lookup name = some set' ∧ set.generation ≤ set'.generation ∧
      ((∀ opts ∈ l, opts.owner = none) → set'.owner = set.owner) := by
  induction h with
  | refl => exact ⟨set, hset, UInt64.le_refl _, fun _ => rfl⟩
  | put _ hrun ih =>
    obtain ⟨set₁, hset₁, hgen₁, howner₁⟩ := ih
    obtain ⟨set₂, hset₂, hgen₂, howner₂⟩ := set_putRuleset hrun hset₁
    refine ⟨set₂, hset₂, UInt64.le_trans hgen₁ hgen₂, fun hall => ?_⟩
    rw [howner₂ (hall _ (by simp)), howner₁ fun opts hopts => hall opts (by simp [hopts])]
  | other _ ho ih => rwa [lookup_sets_exec ho]

/-- **A refused PUT changes nothing, and generations never go back.** -/
theorem putRuleset_refused (cfg : Settings) (name : String) :
    (∀ (req : RulesetRequest) (opts : PutOptions) (s s' : State) (e : SetError),
      (putRuleset cfg name req opts).Runs (machine cfg) s s' (.error e) → s' = s) ∧
    (∀ (s s' : State) (l : List PutOptions) (set : SetState), History cfg name s s' l →
      s.sets.lookup name = some set →
      ∃ set', s'.sets.lookup name = some set' ∧ set.generation ≤ set'.generation ∧
        ((∀ opts ∈ l, opts.owner = none) → set'.owner = set.owner)) ∧
    (∀ (req : RulesetRequest) (opts : PutOptions) (s s' : State) (set : SetState)
      (a : Except SetError RulesetApplied),
      (putRuleset cfg name req opts).Runs (machine cfg) s s' a → s.sets.lookup name = some set →
      (req.generation < set.generation ∨
        ∃ header, opts.ifMatch = some header ∧ ifMatch header set.etag = false) → s' = s) ∧
    (∀ (req : RulesetRequest) (opts : PutOptions) (s s' : State) (header : String)
      (a : Except SetError RulesetApplied),
      (putRuleset cfg name req opts).Runs (machine cfg) s s' a → s.sets.lookup name = none →
      opts.ifMatch = some header → s' = s) := by
  refine ⟨fun req opts s s' e h => ?_, fun s s' l set h hset => h.set hset,
    fun req opts s s' set a h hset hrefuse => ?_, fun req opts s s' header a h hnone hheader => ?_⟩
  · rcases runs_putRuleset h with ⟨rfl, -⟩ | ⟨_, _, _, _, _, hok⟩
    · rfl
    · cases hok
  · exact runs_putRuleset_refused h (hset ▸ checkSet_refuses hrefuse)
  · exact runs_putRuleset_refused h (hnone ▸ checkSet_refuses_missing hheader)

end Registry
end
open scoped Plain
open Plain

def Plain.web : State :=
  ((Registry.putRuleset settings "web" ⟨5, [request .tcp 8080]⟩ options).run
    (Registry.machine settings) .calm .empty).1

namespace Registry

theorem put_older_refused : (web.sets.lookup "web").map SetState.generation = some 5 ∧
      ((putRuleset settings "web" ⟨3, []⟩ options).run
        (machine settings) .calm web).1 = web := by
  have hgen : (web.sets.lookup "web").map SetState.generation = some 5 := by decide +kernel
  refine ⟨hgen, ?_⟩
  obtain ⟨set, hset, hfive⟩ := Option.map_eq_some_iff.mp hgen
  have hlt : (3 : UInt64) < set.generation := by
    rw [hfive]
    decide
  exact (putRuleset_refused settings "web").2.2.1 ⟨3, []⟩ _ _ _ set _
    (Prog.runs_run Env.calm _ _) hset (.inl hlt)

end Registry
end Rproxy
