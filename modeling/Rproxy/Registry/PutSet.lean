import Rproxy.Registry.Installing
import Rproxy.Registry.Refusals

/-!
# A PUT makes the set its body

`put_ruleset` plans against one look at the table.
-/

namespace Rproxy
open List Option Prod RuleSpec Table Replace
section
variable [External]
namespace Registry
open Prog (All)
open Checks (bind_eq_ok)
variable {cfg : Settings} {env : Env} {s : State} {name : String} {req : RulesetRequest}
variable {e : Entry} {k : Key} {l : List (Nat × RuleSpec)} {currentSet : Option SetState}
  {spec : RuleSpec} {s' t : State}
variable {opts : PutOptions}
open Locked

def plannedInvalid (s : State) : List Key :=
  s.invalid.keys.filter fun k => !((snapshot s).map fst).contains k

structure Planned (cfg : Settings) (name : String) (req : RulesetRequest) (opts : PutOptions)
    (s : State) (steps : List Step) : Prop where
  shape : shapeProblems cfg.caps 0 req.rules = []
  clear : overlapProblems [] (validRules cfg.caps name 0 req.rules) = []
  free : ∀ r ∈ validRules cfg.caps name 0 req.rules,
    conflict cfg name opts (snapshot s) (plannedInvalid s) r.2 = none
  steps : ∃ drops, dropSteps opts (droppedRules name (snapshot s)
      ((validRules cfg.caps name 0 req.rules).map fun r => r.2.key)) = .ok drops ∧
    steps = (validRules cfg.caps name 0 req.rules).map (stepOf (snapshot s)) ++ drops

lemma runs_refuseWith {problems : List SetFinding} {u : Unit} :
    (refuseWith problems).run.Runs (machine cfg) s s' (.ok u) ↔ s' = s ∧ problems = [] := by
  have h : (.ok u : Except SetError Unit) = refuse problems ↔ problems = [] := by
    rw [eq_comm]
    exact refuse_eq_ok
  exact and_congr Iff.rfl h

lemma runs_check {α : Type} {r : Except ApiError α} {a : α} :
    (check r).run.Runs (machine cfg) s s' (.ok a) ↔ s' = s ∧ r = .ok a := by
  refine and_congr Iff.rfl ?_
  cases r with
  | error e => simp [Except.mapError]
  | ok b => simp [Except.mapError, eq_comm]

lemma runs_lift {o : Op} {s' : State} {r : Ret o}
    (h : (liftM (perform o) : ExceptT SetError Program (Ret o)).run.Runs (machine cfg) s s'
      (.ok r)) : ∃ env, s' = (exec cfg o env s).1 ∧ r = (exec cfg o env s).2 := by
  obtain ⟨env, hs, hr⟩ := h
  exact ⟨env, hs, Except.ok.inj hr⟩

variable {steps : List Step}

lemma planned_of_runs
    (h : (planRuleset cfg name req opts currentSet).run.Runs (machine cfg) s s' (.ok steps)) :
    Planned cfg name req opts s steps := by
  obtain ⟨s₁, u, hshape, h₁⟩ := Prog.runs_bind_except.mp h
  obtain ⟨rfl, hproblems⟩ := runs_refuseWith.mp hshape
  obtain ⟨s₂, current, hcurrent, h₂⟩ := Prog.runs_bind_except.mp h₁
  obtain ⟨env₁, rfl, rfl⟩ := runs_lift hcurrent
  obtain ⟨s₃, invalid, hinvalid, h₃⟩ := Prog.runs_bind_except.mp h₂
  obtain ⟨env₂, rfl, rfl⟩ := runs_lift hinvalid
  obtain ⟨s₄, u, hfree, h₄⟩ := Prog.runs_bind_except.mp h₃
  obtain ⟨-, hfree⟩ := runs_refuseWith.mp hfree
  obtain ⟨s₅, u, -, h₅⟩ := Prog.runs_bind_except.mp h₄
  obtain ⟨s₆, problems, -, h₆⟩ := Prog.runs_bind_except.mp h₅
  obtain ⟨s₇, drops, hdrops, h₇⟩ := Prog.runs_bind_except.mp h₆
  obtain ⟨-, hdrops⟩ := runs_check.mp hdrops
  obtain ⟨s₈, u, -, -, hsteps⟩ := Prog.runs_bind_except.mp h₇
  obtain ⟨hvalid, hclear⟩ := append_eq_nil_iff.mp hproblems
  refine ⟨hvalid, hclear, fun r hr => ?_, drops, hdrops, Except.ok.inj hsteps⟩
  have hr' := filterMap_eq_nil_iff.mp hfree r hr
  exact map_eq_none_iff.mp hr'

/-! ## The rules of the body -/

def bodySpecs (cfg : Settings) (name : String) (req : RulesetRequest) : List RuleSpec :=
  (validRules cfg.caps name 0 req.rules).map snd

lemma mem_validRules {caps : Caps} {n : Nat} {rs : List RuleRequest} :
    spec ∈ (validRules caps name n rs).map snd ↔
      ∃ r ∈ rs, ∃ spec₀, r.validate caps = .ok spec₀ ∧
        spec = { spec₀ with ruleset := some name } := by
  induction rs generalizing n with
  | nil => simp [validRules]
  | cons r rs ih =>
    rw [validRules]
    cases hr : r.validate caps with
    | ok spec₀ | error e => simp [ih, hr]

lemma ruleset_of_mem_bodySpecs (h : spec ∈ bodySpecs cfg name req) :
    spec.ruleset = some name ∧ spec.portCount ≠ 0 := by
  obtain ⟨r, -, spec₀, hvalid, rfl⟩ := mem_validRules.mp h
  exact ⟨rfl, (valid_of_validate hvalid).1.count.1⟩

lemma pairwise_of_overlapProblems {before : List (Nat × RuleSpec)}
    (h : overlapProblems before l = []) :
    l.Pairwise (fun a b => overlaps a.2 b.2 = false) ∧
      ∀ a ∈ before, ∀ b ∈ l, overlaps a.2 b.2 = false := by
  induction l generalizing before with
  | nil => exact ⟨.nil, by simp⟩
  | cons r l ih =>
    obtain ⟨i, spec⟩ := r
    rw [overlapProblems] at h
    split at h
    · cases h
    rename_i hfind
    obtain ⟨hpair, hbefore⟩ := ih h
    have hfind' := find?_eq_none.mp hfind
    refine ⟨pairwise_cons.mpr ⟨fun b hb => hbefore (i, spec) (by simp) b hb, hpair⟩, ?_⟩
    intro a ha b hb
    rcases mem_cons.mp hb with rfl | hb
    · simpa using hfind' a ha
    · exact hbefore a (by simp [ha]) b hb

variable {current : List (Key × Current)} {invalid : List Key}

lemma reservedClash_of_conflict (h : conflict cfg name opts current invalid spec = none) :
    reservedClash cfg spec = none ∧ taken name current invalid spec = none := by
  unfold conflict at h
  split at h
  · cases h
  rename_i hres
  split at h
  · cases h
  next htaken => exact ⟨hres, htaken⟩

lemma taken_eq_none (h : taken name current invalid spec = none) :
    (∀ c, current.lookup spec.key = some c → c.ours name) ∧ spec.key ∉ invalid ∧
      ∀ c ∈ current, c.1 ≠ spec.key → c.2.ours name = false → overlaps c.2.spec spec = false := by
  unfold taken at h
  split at h
  · split at h
    · cases h
    · split at h <;> cases h
  rename_i hours
  split at h
  · cases h
  rename_i hinvalid
  split at h
  · cases h
  rename_i hfind
  refine ⟨fun c hc => ?_, hinvalid, fun c hc hne hother => ?_⟩
  · simpa [hc] using hours
  · simpa [hne, hother] using find?_eq_none.mp hfind c hc

open Current

lemma lookup_snapshot (k : Key) : (snapshot s).lookup k = (s.rules.lookup k).map of :=
  lookup_map_pairs s.rules of k

lemma mem_snapshot (h : s.rules.lookup k = some e) : (k, of e) ∈ snapshot s :=
  mem_map.mpr ⟨(k, e), mem_pairs.mpr h, rfl⟩

lemma spec_current (e : Entry) : (of e).spec = e.spec := by
  cases e <;> rfl

lemma ours_current : (of e).ours name ↔ e.spec.ruleset = some name := by
  rw [ours, spec_current, decide_eq_true_eq]

structure Admitted (cfg : Settings) (name : String) (s : State) (spec : RuleSpec) : Prop where
  reserved : reservedClash cfg spec = none
  ours : ∀ e, s.rules.lookup spec.key = some e → e.spec.ruleset = some name
  invalid : spec.key ∉ s.invalid
  others : ∀ k e, s.rules.lookup k = some e → k ≠ spec.key → e.spec.ruleset ≠ some name →
    overlaps e.spec spec = false

namespace Planned
variable {steps : List Step}

lemma admitted (h : Planned cfg name req opts s steps) (hapart : s.InvalidApart)
    (hspec : spec ∈ bodySpecs cfg name req) : Admitted cfg name s spec := by
  obtain ⟨r, hr, rfl⟩ := mem_map.mp hspec
  obtain ⟨hres, htaken⟩ := reservedClash_of_conflict (h.free r hr)
  obtain ⟨hours, hinvalid, hothers⟩ := taken_eq_none htaken
  refine ⟨hres, fun e he => ?_, fun hmem => ?_, fun k e he hk hother => ?_⟩
  · exact ours_current.mp (hours _ (by rw [lookup_snapshot, he]; rfl))
  · refine hinvalid (mem_filter.mpr ⟨AList.mem_keys.mp hmem, ?_⟩)
    have hnot : r.2.key ∉ s.rules := fun hrules => hapart _ hrules hmem
    have hnot' : r.2.key ∉ (snapshot s).map fst := by
      intro hk
      obtain ⟨c, hc, hkey⟩ := mem_map.mp hk
      obtain ⟨⟨k, e⟩, he, rfl⟩ := mem_map.mp hc
      exact hnot (mem_rules_iff.mpr ⟨e, hkey ▸ mem_pairs.mp he⟩)
    simpa using hnot'
  have hfalse : (of e).ours name = false := by
    rw [← Bool.not_eq_true, ours_current]
    exact hother
  have := hothers _ (mem_snapshot he) hk hfalse
  rwa [spec_current] at this

lemma pairwise (h : Planned cfg name req opts s steps) :
    (bodySpecs cfg name req).Pairwise fun a b => overlaps a b = false :=
  pairwise_map.mpr (pairwise_of_overlapProblems h.clear).1

lemma nodup (h : Planned cfg name req opts s steps) :
    ((bodySpecs cfg name req).map key).Nodup := by
  rw [nodup_iff_pairwise_ne, pairwise_map]
  refine h.pairwise.imp_of_mem fun ha hb hclear hkey => ?_
  rw [overlaps_of_key_eq hkey (ruleset_of_mem_bodySpecs ha).2 (ruleset_of_mem_bodySpecs hb).2]
    at hclear
  cases hclear

end Planned

/-! ## One rule of the body -/

def upToDate (s : State) (spec : RuleSpec) : Bool :=
  (s.rules.lookup spec.key).any fun e =>
    e.spec = spec && ((of e).running || (of e).retrying)

def setItem (s : State) (spec : RuleSpec) : Replace.Item Key RuleSpec where
  key := spec.key
  val := spec
  mode := if upToDate s spec then .kept else .checked true

lemma specAt_of_upToDate (h : upToDate s spec) : s.specAt spec.key = some spec := by
  obtain ⟨e, he, hspec⟩ := any_eq_true _ _ |>.mp h
  rw [State.specAt, he]
  simp only [Bool.and_eq_true, decide_eq_true_eq] at hspec
  exact congrArg some hspec.1

lemma run_startMember (henv : env.Smooth) (hres : reservedClash cfg spec = none) :
    ((startMember cfg spec).run (machine cfg) env s).1
      = ((createSpec cfg spec).run (machine cfg) env s).1 := by
  rw [startMember, Prog.run_bind]
  rcases run_createSpec (s := s) henv hres with ⟨-, -, hok⟩ | ⟨-, -, e, herr, hcode⟩
  · rw [hok]
    rfl
  rw [herr]
  simp only [hcode, true_or, if_true]
  rfl

lemma outcome_recreateMember (henv : env.Smooth) (hres : reservedClash cfg spec = none)
    (he : s.rules.lookup spec.key = some e) (hset : e.spec.ruleset = spec.ruleset) :
    Outcome s spec ((recreateMember cfg spec).run (machine cfg) env s).1 := by
  simp only [recreateMember, Prog.perform_bind, Prog.run_op]
  simp only [machine, exec, removeMember, he, hset, if_true, remove]
  obtain ⟨hr, hi, -⟩ := run_stopEntry cfg env { s with rules := s.rules.erase spec.key } e
  rw [Prog.run_bind]
  change Outcome s spec ((startMember cfg spec).run (machine cfg) env _).1
  rw [run_startMember henv hres]
  exact outcome_recreate henv hres hr hi

lemma key_stepOf (current : List (Key × Current)) (r : Nat × RuleSpec) :
    (stepOf current r).key = r.2.key ∧ (stepOf current r).spec = some r.2 ∧
      (stepOf current r).action ≠ .delete := by
  unfold stepOf
  split
  · exact ⟨rfl, rfl, by simp⟩
  refine ⟨rfl, rfl, ?_⟩
  dsimp only
  repeat' split
  all_goals simp_all

lemma applyStep_upToDate {i : Nat} (h : upToDate s spec) :
    ((applyStep cfg (stepOf (snapshot s) (i, spec))).run (machine cfg) env t).1 = t := by
  obtain ⟨e, he, hspec⟩ := any_eq_true _ _ |>.mp h
  simp only [Bool.and_eq_true, decide_eq_true_eq, Bool.or_eq_true] at hspec
  have hcond : (of e).spec = spec ∧
      ((of e).running ∨ (of e).retrying) := by
    rw [spec_current]
    exact hspec
  simp only [stepOf, lookup_snapshot, he, map_some, if_pos hcond]
  rfl

lemma outcome_applyStep (henv : env.Smooth) {i : Nat} {spec : RuleSpec} {t : State}
    (hadm : Admitted cfg name s spec) (hset : spec.ruleset = some name)
    (hsame : SameAt spec.key s t) (hnew : upToDate s spec = false) :
    Outcome t spec
      ((applyStep cfg (stepOf (snapshot s) (i, spec))).run (machine cfg) env t).1 := by
  cases hold : s.rules.lookup spec.key with
  | none =>
    have hkey : spec.key ∉ t.rules := by
      rw [← AList.lookup_eq_none, hsame.rules, hold]
    simp only [stepOf, lookup_snapshot, hold, map_none, applyStep, Prog.run_bind]
    rw [run_startMember henv hadm.reserved]
    exact outcome_createSpec henv hadm.reserved hkey
  | some e =>
    have he : t.rules.lookup spec.key = some e := hsame.rules.trans hold
    have hre : Outcome t spec ((recreateMember cfg spec).run (machine cfg) env t).1 :=
      outcome_recreateMember henv hadm.reserved he ((hadm.ours e hold).trans hset.symm)
    have hcond : ¬ ((of e).spec = spec ∧
        ((of e).running ∨ (of e).retrying)) := by
      rw [spec_current]
      simpa [upToDate, hold] using hnew
    simp only [stepOf, lookup_snapshot, hold, map_some, if_neg hcond]
    split
    next hplace =>
      -- in place: what `apply` refuses is created again
      cases e with
      | failed f => cases hplace.1
      | running r =>
        simp only [applyStep, if_true, Prog.run_bind]
        rcases run_apply cfg henv hadm.reserved he with ⟨err, hrun⟩ | ⟨hclear, s', hrun, hspec⟩
        · rw [hrun]
          simp only [Prog.run_bind]
          exact hre
        rw [hrun]
        exact .inl ⟨⟨hsame.invalid.not.mpr hadm.invalid, hclear⟩, hspec⟩
    · simp only [applyStep, reduceCtorEq, if_false, Prog.run_bind]
      exact hre

variable {r : Nat × RuleSpec}

lemma local_applyStep : Local r.2.key t
      ((applyStep cfg (stepOf (snapshot s) r)).run (machine cfg) env t).1 := by
  obtain ⟨hkey, hspec, -⟩ := key_stepOf (snapshot s) r
  rw [← hkey]
  refine local_run (all_applyStep fun spec h _ => Op.onlyAt_of_installs ?_)
  rw [hspec] at h
  rw [hkey, Option.some.inj h]

lemma run_applyStep (henv : env.Smooth) (hadm : Admitted cfg name s r.2)
    (hset : r.2.ruleset = some name) (hsame : SameAt r.2.key s t) :
    ((applyStep cfg (stepOf (snapshot s) r)).run (machine cfg) env t).1.specAt
      = put State.Clash t.specAt (setItem s r.2) := by
  cases hnew : upToDate s r.2 with
  | true =>
    rw [setItem, if_pos hnew, applyStep_upToDate hnew]
    rfl
  | false =>
    have hput := specAt_eq_put local_applyStep
      (outcome_applyStep (i := r.1) henv hadm hset hsame hnew)
    have hfree : r.2.key ∉ t.invalid := hsame.invalid.not.mpr hadm.invalid
    rw [hput, setItem, if_neg (by simp [hnew]), decide_eq_true hfree]

lemma run_applyBody (henv : env.Smooth) (hkeys : (l.map fun r => r.2.key).Nodup)
    (hadm : ∀ r ∈ l, Admitted cfg name s r.2 ∧ r.2.ruleset = some name)
    (hsame : ∀ r ∈ l, SameAt r.2.key s t) :
    ((Prog.mapEach (applyStep cfg) (l.map (stepOf (snapshot s)))).run (machine cfg) env t).1.specAt
      = putAll State.Clash t.specAt (l.map fun r => setItem s r.2) := by
  induction l generalizing t with
  | nil => rfl
  | cons r l ih =>
    obtain ⟨hnot, hkeys⟩ := nodup_cons.mp hkeys
    obtain ⟨hadmR, hset⟩ := hadm r mem_cons_self
    have hstep := run_applyStep henv hadmR hset (hsame r mem_cons_self)
    rw [map_cons, Prog.run_mapEach_cons,
      ih hkeys (fun r' hr' => hadm r' (mem_cons_of_mem _ hr')) fun r' hr' => ?_, hstep]
    · rfl
    have hne : r'.2.key ≠ r.2.key := fun h => hnot (mem_map.mpr ⟨r', hr', h⟩)
    exact (hsame r' (mem_cons_of_mem _ hr')).trans_local hne local_applyStep

lemma lookup_applyBody (hk : k ∉ l.map fun r => r.2.key) :
    ((Prog.mapEach (applyStep cfg) (l.map (stepOf (snapshot s)))).run (machine cfg)
      env t).1.rules.lookup k = t.rules.lookup k := by
  induction l generalizing t with
  | nil => rfl
  | cons r l ih =>
    simp only [map_cons, mem_cons, not_or] at hk
    rw [map_cons, Prog.run_mapEach_cons, ih hk.2]
    exact local_applyStep.rules k hk.1

variable {drops : List Step}

lemma of_dropSteps {l : List (Key × Current)} (h : dropSteps opts l = .ok drops) :
    drops.map Step.key = l.map fst ∧
      ∀ step ∈ drops, step.action = .delete ∧ step.spec = none := by
  induction l generalizing drops with
  | nil =>
    cases h
    exact ⟨rfl, by simp⟩
  | cons c l ih =>
    rw [dropSteps] at h
    split at h
    · cases h
    obtain ⟨rest, hrest, h⟩ := bind_eq_ok.mp h
    cases h
    obtain ⟨hkeys, hdelete⟩ := ih hrest
    refine ⟨by rw [map_cons, hkeys]; rfl, fun step hstep => ?_⟩
    rcases mem_cons.mp hstep with rfl | hstep
    · exact ⟨rfl, rfl⟩
    · exact hdelete step hstep

lemma run_applyDrops (h : ∀ step ∈ drops, step.action = .delete) :
    ((Prog.mapEach (applyStep cfg) drops).run (machine cfg) env t).1 = t := by
  induction drops generalizing t with
  | nil => rfl
  | cons step drops ih =>
    have hstep : ((applyStep cfg step).run (machine cfg) env t).1 = t := by
      simp only [applyStep, h step mem_cons_self]
      rfl
    rw [Prog.run_mapEach_cons, hstep]
    exact ih fun d hd => h d (mem_cons_of_mem _ hd)

lemma mem_droppedRules {wanted : List Key} :
    k ∈ (droppedRules name (snapshot s) wanted).map fst ↔
      k ∉ wanted ∧ ∃ e, s.rules.lookup k = some e ∧ e.spec.ruleset = some name := by
  simp only [droppedRules, List.mem_map, List.mem_insertionSort, List.mem_filter, Bool.and_eq_true,
    snapshot, Prod.exists]
  constructor
  · rintro ⟨k', c, ⟨⟨k'', e, he, heq⟩, hours, hwanted⟩, rfl⟩
    cases heq
    exact ⟨by simpa using hwanted, e, mem_pairs.mp he, ours_current.mp hours⟩
  rintro ⟨hwanted, e, he, hours⟩
  exact ⟨k, _, ⟨⟨k, e, mem_pairs.mpr he, rfl⟩, ours_current.mpr hours,
    by simpa using hwanted⟩, rfl⟩

variable {keys : List Key}

lemma lookup_dropMembers_of_mem (hk : k ∈ keys) (he : s.rules.lookup k = some e)
    (hset : e.spec.ruleset = some name) :
    (dropMembers s name keys).1.rules.lookup k = none := by
  have hmem : (k, e) ∈ membersAt s name keys := mem_membersAt.mpr ⟨hk, he, hset⟩
  rw [dropMembers, lookup_eraseAll, if_pos (mem_map.mpr ⟨_, hmem, rfl⟩)]

lemma lookup_dropMembers_of_notMem (hk : k ∉ keys) :
    (dropMembers s name keys).1.rules.lookup k = s.rules.lookup k := by
  rw [dropMembers, lookup_eraseAll, if_neg]
  intro h
  obtain ⟨⟨k', e⟩, hmem, rfl⟩ := mem_map.mp h
  exact hk (mem_membersAt.mp hmem).1

lemma run_stopEntries (cfg : Settings) (env : Env) (l : List Entry) (t : State) :
    ((Prog.forEach stopEntry l).run (machine cfg) env t).1.rules = t.rules ∧
      ((Prog.forEach stopEntry l).run (machine cfg) env t).1.invalid = t.invalid := by
  induction l generalizing t with
  | nil => exact ⟨rfl, rfl⟩
  | cons e l ih =>
    obtain ⟨hr, hi, -⟩ := run_stopEntry cfg env t e
    obtain ⟨hr', hi'⟩ := ih ((stopEntry e).run (machine cfg) env t).1
    rw [Prog.run_forEach_cons]
    exact ⟨hr'.trans hr, hi'.trans hi⟩

/-! ## The whole PUT -/

def wantedKeys (cfg : Settings) (name : String) (req : RulesetRequest) : List Key :=
  (validRules cfg.caps name 0 req.rules).map fun r => r.2.key

lemma run_applySteps_eq (cfg : Settings) (env : Env) (req : RulesetRequest) (opts : PutOptions)
    (currentSet : Option SetState) {removed : State × List Entry} {s' : State × RulesetApplied}
    (hs' : s' = (applySteps cfg name req opts currentSet steps).run (machine cfg) env s)
    (h : removed = dropMembers s name ((steps.filter fun s => s.action = .delete).map Step.key)) :
    s'.1.rules = ((Prog.mapEach (applyStep cfg) steps).run (machine cfg) env
        ((Prog.forEach stopEntry removed.2).run (machine cfg) env removed.1).1).1.rules ∧
      s'.2.etag = etag req.generation (outcome s'.1 name []).2 := by
  subst h hs'
  simp only [applySteps, Prog.perform_bind, Prog.run_op, Prog.run_bind, Prog.run_ret, Prog.pure_def]
  exact ⟨rfl, rfl⟩

/-- **How a plan is applied**: without the dropped rules, the rules of the body go in one by one;
the etag is that of the set then. -/
theorem run_applySteps {s' : State × RulesetApplied} (h : Planned cfg name req opts s steps)
    (hs' : s' = (applySteps cfg name req opts currentSet steps).run (machine cfg) env s) :
    ∃ t : State, (∀ k ∈ wantedKeys cfg name req, SameAt k s t) ∧
      (∀ k ∉ wantedKeys cfg name req, ∀ e, t.rules.lookup k = some e ↔
        s.rules.lookup k = some e ∧ e.spec.ruleset ≠ some name) ∧
      s'.1.rules = ((Prog.mapEach (applyStep cfg) ((validRules cfg.caps name 0 req.rules).map
        (stepOf (snapshot s)))).run (machine cfg) env t).1.rules ∧
      s'.2.etag = etag req.generation (outcome s'.1 name []).2 := by
  obtain ⟨drops, hdrops, rfl⟩ := h.steps
  obtain ⟨hkeys, hdelete⟩ := of_dropSteps hdrops
  generalize hsteps : (validRules cfg.caps name 0 req.rules).map (stepOf (snapshot s)) = body
    at hs' ⊢
  have hbody : ∀ step ∈ body, step.action ≠ .delete := by
    intro step hstep
    rw [← hsteps] at hstep
    obtain ⟨r, -, rfl⟩ := mem_map.mp hstep
    exact (key_stepOf _ r).2.2
  have hfilter : ((body ++ drops).filter fun s => s.action = .delete).map Step.key
      = (droppedRules name (snapshot s) (wantedKeys cfg name req)).map fst := by
    have hnone : (body.filter fun s => s.action = .delete) = [] := by
      simpa [filter_eq_nil_iff] using hbody
    have hall : (drops.filter fun s => s.action = .delete) = drops := by
      simpa [filter_eq_self] using fun step hstep => (hdelete step hstep).1
    rw [filter_append, hnone, hall, nil_append, hkeys]
    rfl
  obtain ⟨removed, hremoved⟩ : ∃ removed, removed = dropMembers s name
    ((droppedRules name (snapshot s) (wantedKeys cfg name req)).map fst) := ⟨_, rfl⟩
  obtain ⟨hr, hi⟩ := run_stopEntries cfg env removed.2 removed.1
  obtain ⟨hrules, hetag⟩ := run_applySteps_eq cfg env req opts currentSet hs'
    (hremoved.trans (by rw [← hfilter]))
  refine ⟨((Prog.forEach stopEntry removed.2).run (machine cfg) env removed.1).1, fun k hk => ?_,
    fun k hk e => ?_, ?_, hetag⟩
  · refine ⟨?_, by rw [hi, hremoved]; rfl⟩
    rw [hr, hremoved]
    exact lookup_dropMembers_of_notMem fun hmem => (mem_droppedRules.mp hmem).1 hk
  · rw [hr, hremoved]
    by_cases hmem : k ∈ (droppedRules name (snapshot s) (wantedKeys cfg name req)).map fst
    · obtain ⟨-, e', he', hset⟩ := mem_droppedRules.mp hmem
      rw [lookup_dropMembers_of_mem hmem he' hset, he']
      simp only [reduceCtorEq, Option.some.injEq, false_iff, not_and, not_not]
      rintro rfl
      exact hset
    rw [lookup_dropMembers_of_notMem hmem]
    refine (and_iff_left_of_imp fun he hset => ?_).symm
    exact hmem (mem_droppedRules.mpr ⟨hk, e, he, hset⟩)
  · rw [hrules, Prog.run_mapEach_append, run_applyDrops fun step hstep => (hdelete step hstep).1]

lemma run_putRuleset_eq (opts : PutOptions) :
    (putRuleset cfg name req opts).run (machine cfg) env s =
      match (do validateName name; req.validateShape : Except ApiError Unit) with
      | .error e => (s, .error (.ofError e))
      | .ok () =>
        match checkSet name req opts (s.sets.lookup name) with
        | .error e => (s, .error (.ofError e))
        | .ok () =>
          match ((planRuleset cfg name req opts (s.sets.lookup name)).run.run (machine cfg) env s).2
          with
          | .error e => (s, .error e)
          | .ok steps =>
            if opts.dryRun then (s, .ok (rulesetDryRun name req steps))
            else
              let applied := (applySteps cfg name req opts (s.sets.lookup name) steps).run
                (machine cfg) env s
              (applied.1, .ok applied.2) := by
  have hsame : ((planRuleset cfg name req opts (s.sets.lookup name)).run.run (machine cfg) env s).1
      = s := runs_readOnly (all_planRuleset _ _ _ _) (Prog.runs_run env _ s)
  have hset : (machine cfg).exec (.setOf name) env s = (s, s.sets.lookup name) := rfl
  unfold putRuleset
  cases (do validateName name; req.validateShape : Except ApiError Unit) with
  | error e => rfl
  | ok u =>
    simp only [Prog.perform_bind, Prog.run_op, hset]
    cases checkSet name req opts (s.sets.lookup name) with
    | error e => rfl
    | ok u =>
      simp only [Prog.run_bind, hsame]
      cases ((planRuleset cfg name req opts (s.sets.lookup name)).run.run (machine cfg) env
        s).2 with
      | error e => rfl
      | ok steps =>
        dsimp only
        split
        · rfl
        rw [Prog.run_bind]
        rfl

lemma planRuleset_dryRun : planRuleset cfg name req { opts with dryRun := true } currentSet
      = planRuleset cfg name req opts currentSet := by
  have hdrops : ∀ l, dropSteps { opts with dryRun := true } l = dropSteps opts l := by
    intro l
    induction l with
    | nil => rfl
    | cons c l ih =>
      simp only [dropSteps, ih]
  unfold planRuleset
  simp only [hdrops]
  rfl

lemma run_putRuleset {applied : RulesetApplied} (hdry : opts.dryRun = false)
    (h : ((putRuleset cfg name req opts).run (machine cfg) env s).2 = .ok applied) :
    ∃ steps, Planned cfg name req opts s steps ∧
      (putRuleset cfg name req opts).run (machine cfg) env s
        = (((applySteps cfg name req opts (s.sets.lookup name) steps).run (machine cfg) env s).1,
          .ok ((applySteps cfg name req opts (s.sets.lookup name) steps).run (machine cfg) env
            s).2) ∧
      ((putRuleset cfg name req { opts with dryRun := true }).run (machine cfg) env s).2
        = .ok (rulesetDryRun name req steps) := by
  have hruns := Prog.runs_run (M := machine cfg) env
    (planRuleset cfg name req opts (s.sets.lookup name)).run s
  have hcheckDry : checkSet name req { opts with dryRun := true } (s.sets.lookup name)
      = checkSet name req opts (s.sets.lookup name) := rfl
  rw [run_putRuleset_eq] at h
  rw [run_putRuleset_eq, run_putRuleset_eq, hcheckDry, planRuleset_dryRun]
  split at h
  · cases h
  split at h
  · cases h
  split at h
  · cases h
  rename_i steps hplan
  rw [hplan] at hruns
  exact ⟨steps, planned_of_runs hruns, by simp [hdry], by simp⟩

def SetMovable (s : State) : List RuleSpec → Prop
  | [] => True
  | spec :: rest =>
    (upToDate s spec = false → ∀ later ∈ rest, ∀ old ∈ s.specAt later.key,
      overlaps old spec = false) ∧ SetMovable s rest

instance decidableSetMovable (s : State) : (l : List RuleSpec) → Decidable (SetMovable s l)
  | [] => .isTrue trivial
  | _ :: rest =>
    haveI := decidableSetMovable s rest
    inferInstanceAs (Decidable (_ ∧ _))

lemma ordered_iff_setMovable {l : List RuleSpec} :
    Replace.Ordered State.Clash s.specAt (l.map (setItem s)) ↔ SetMovable s l := by
  induction l with
  | nil => exact Iff.rfl
  | cons spec l ih =>
    refine and_congr ?_ ih
    simp only [setItem, List.forall_mem_map]
    cases hnew : upToDate s spec with
    | true => simp
    | false =>
      simp only [Bool.false_eq_true, if_false, forall_const]
      constructor
      · intro h later hlater old hold
        simpa using (h true rfl).2 later hlater old hold
      intro h free hmode
      cases hmode
      exact ⟨rfl, fun later hlater old hold => by simpa using h later hlater old hold⟩

def MembersAre (name : String) (specs : List RuleSpec) (s : State) : Prop :=
  ∀ k spec, (s.specAt k = some spec ∧ spec.ruleset = some name) ↔ spec.key = k ∧ spec ∈ specs

lemma etag_of_membersAre {specs : List RuleSpec} {generation : UInt64}
    (hkeys : (specs.map key).Nodup) (h : MembersAre name specs s) :
    etag generation (outcome s name []).2 = etag generation specs := by
  have hmem : ∀ p ∈ s.rules.pairs.filter fun p => p.2.spec.ruleset = some name,
      p.2.spec.key = p.1 ∧ p.2.spec ∈ specs := by
    rintro ⟨k, e⟩ hp
    obtain ⟨hp, hset⟩ := mem_filter.mp hp
    refine (h k e.spec).mp ⟨?_, of_decide_eq_true hset⟩
    rw [State.specAt, mem_pairs.mp hp]
    rfl
  have hnodup : ((outcome s name []).2.map key).Nodup := by
    have hfst : (outcome s name []).2.map key
        = (s.rules.pairs.filter fun p => p.2.spec.ruleset = some name).map fst := by
      rw [outcome, List.map_map]
      exact map_congr_left fun p hp => (hmem p hp).1
    rw [hfst]
    exact (nodup_map_fst_pairs s.rules).sublist (filter_sublist.map _)
  have hperm : ((outcome s name []).2).Perm specs := by
    refine (perm_ext_iff_of_nodup hnodup.of_map hkeys.of_map).mpr fun spec => ⟨?_, ?_⟩
    · intro hspec
      obtain ⟨p, hp, rfl⟩ := mem_map.mp hspec
      exact (hmem p hp).2
    intro hspec
    obtain ⟨hat, hset⟩ := (h spec.key spec).mpr ⟨rfl, hspec⟩
    obtain ⟨e, he, rfl⟩ := map_eq_some_iff.mp hat
    exact mem_map.mpr ⟨(_, e), mem_filter.mpr ⟨mem_pairs.mpr he, decide_eq_true hset⟩, rfl⟩
  rw [etag, etag, sortByKey_eq_of_perm hperm hnodup]

lemma Planned.specs (h : Planned cfg name req opts s steps) :
    steps.filterMap Step.spec = bodySpecs cfg name req := by
  obtain ⟨drops, hdrops, rfl⟩ := h.steps
  have hnone : drops.filterMap Step.spec = [] :=
    filterMap_eq_nil_iff.mpr fun step hstep => ((of_dropSteps hdrops).2 step hstep).2
  have hbody : Step.spec ∘ stepOf (snapshot s) = some ∘ snd :=
    funext fun r => (key_stepOf _ r).2.1
  rw [filterMap_append, hnone, append_nil, filterMap_map, bodySpecs, hbody, filterMap_eq_map]

/-- **Each rule of the body is in the table at the end exactly if the body can be moved to**; and
what the other keys hold is known. -/
theorem run_applySteps_iff (henv : env.Smooth) (hapart : s.InvalidApart)
    (hplan : Planned cfg name req opts s steps)
    (hs' : s' = ((applySteps cfg name req opts currentSet steps).run (machine cfg) env s).1) :
    ((∀ spec ∈ bodySpecs cfg name req, s'.specAt spec.key = some spec) ↔
        SetMovable s (bodySpecs cfg name req)) ∧
      ∀ k ∉ (bodySpecs cfg name req).map key, ∀ e, s'.rules.lookup k = some e ↔
        s.rules.lookup k = some e ∧ e.spec.ruleset ≠ some name := by
  obtain ⟨t, hsame, hother, hrules, -⟩ := run_applySteps hplan rfl
  have hwanted : wantedKeys cfg name req = (bodySpecs cfg name req).map key := by
    rw [bodySpecs, List.map_map]
    rfl
  have hitems : ((validRules cfg.caps name 0 req.rules).map fun r => setItem s r.2)
      = (bodySpecs cfg name req).map (setItem s) := by
    rw [bodySpecs, List.map_map]
    rfl
  have hkeys : ((bodySpecs cfg name req).map (setItem s)).map Replace.Item.key
      = (bodySpecs cfg name req).map key := by
    rw [List.map_map]
    rfl
  have hsame' : ∀ spec ∈ bodySpecs cfg name req, SameAt spec.key s t := fun spec hspec =>
    hsame _ (hwanted ▸ mem_map_of_mem hspec)
  rw [← hs'] at hrules
  have hspecAt : s'.specAt
      = putAll State.Clash t.specAt ((bodySpecs cfg name req).map (setItem s)) := by
    have hnodup : (wantedKeys cfg name req).Nodup := hwanted ▸ hplan.nodup
    have hmem : ∀ r ∈ validRules cfg.caps name 0 req.rules, r.2 ∈ bodySpecs cfg name req :=
      fun r hr => mem_map_of_mem hr
    rw [← hitems, ← run_applyBody henv hnodup
      (fun r hr => ⟨hplan.admitted hapart (hmem r hr), (ruleset_of_mem_bodySpecs (hmem r hr)).1⟩)
      fun r hr => hsame' _ (hmem r hr)]
    funext k
    rw [State.specAt, hrules, State.specAt]
  refine ⟨?_, fun k hk e => ?_⟩
  · have hclear : ((bodySpecs cfg name req).map (setItem s)).Pairwise
        fun i j => ¬ State.Clash i.val j.val := by
      refine pairwise_map.mpr (hplan.pairwise.imp fun {a b} h => ?_)
      change ¬ overlaps a b = true
      simp [h]
    have hkept : ∀ i ∈ (bodySpecs cfg name req).map (setItem s), i.mode = .kept →
        t.specAt i.key = some i.val := by
      refine forall_mem_map.mpr fun spec hspec hmode => ?_
      refine (hsame' spec hspec).specAt.trans (specAt_of_upToDate ?_)
      by_contra hnew
      simp [setItem, hnew] at hmode
    have hall := putAll_iff (by rw [hkeys]; exact hplan.nodup) hclear hkept ?_
    · rw [← hspecAt, List.forall_mem_map, ordered_congr (m := s.specAt)
        (forall_mem_map.mpr fun spec hspec => (hsame' spec hspec).specAt),
        ordered_iff_setMovable] at hall
      exact hall
    -- what the table holds besides is outside the set, and was looked at
    refine forall_mem_map.mpr fun spec hspec free _ k w hk hw hc => ?_
    rw [hkeys] at hk
    obtain ⟨e, he, rfl⟩ := map_eq_some_iff.mp hw
    obtain ⟨hold, hset⟩ := (hother k (hwanted ▸ hk) e).mp he
    have hne : k ≠ spec.key := fun h => hk (h ▸ mem_map_of_mem hspec)
    have hno := (hplan.admitted hapart hspec).others k e hold hne hset
    exact Bool.false_ne_true (hno.symm.trans hc)
  have hk' : k ∉ wantedKeys cfg name req := hwanted ▸ hk
  rw [hrules, lookup_applyBody hk']
  exact hother k hk' e

/-- What a PUT is for: the rules of the set are the validated rules of the body, the rules outside
the set are as they were, and the etag is the one a dry run shows. -/
structure MakesSet (cfg : Settings) (env : Env) (name : String) (req : RulesetRequest)
    (opts : PutOptions) (s s' : State) (applied : RulesetApplied) : Prop where
  members : ∀ k spec, (s'.specAt k = some spec ∧ spec.ruleset = some name) ↔
    spec.key = k ∧ ∃ r ∈ req.rules, ∃ spec₀, r.validate cfg.caps = .ok spec₀ ∧
      spec = { spec₀ with ruleset := some name }
  others : ∀ k e, e.spec.ruleset ≠ some name →
    (s'.rules.lookup k = some e ↔ s.rules.lookup k = some e)
  etag : ∃ shown, ((putRuleset cfg name req { opts with dryRun := true }).run (machine cfg)
    env s).2 = .ok shown ∧ shown.etag = applied.etag

/-- **A PUT that is accepted makes the set its body exactly if no rule meets the old shape of a
later one**, in a process where nothing fails. -/
theorem putRuleset_makesSet_iff (henv : env.Smooth) (hapart : s.InvalidApart)
    (hdry : opts.dryRun = false) {s' : State} {applied : RulesetApplied}
    (hok : (putRuleset cfg name req opts).run (machine cfg) env s = (s', .ok applied)) :
    MakesSet cfg env name req opts s s' applied ↔ SetMovable s (bodySpecs cfg name req) := by
  obtain ⟨steps, hplan, hrun, hshown⟩ := run_putRuleset hdry (congrArg snd hok)
  obtain ⟨hs', happlied⟩ := Prod.mk.inj (hok.symm.trans hrun)
  obtain ⟨-, -, -, -, hetag⟩ := run_applySteps hplan rfl
  rw [← Except.ok.inj happlied, ← hs'] at hetag
  obtain ⟨hiff, hother⟩ := run_applySteps_iff henv hapart hplan hs'
  constructor
  · intro h
    refine hiff.mp fun spec hspec => ?_
    exact ((h.members spec.key spec).mpr ⟨rfl, mem_validRules.mp hspec⟩).1
  intro h
  have hin := hiff.mpr h
  have hmembers : MembersAre name (bodySpecs cfg name req) s' := by
    intro k spec
    constructor
    · rintro ⟨hat, hset⟩
      by_cases hk : k ∈ (bodySpecs cfg name req).map key
      · obtain ⟨spec', hspec', rfl⟩ := mem_map.mp hk
        obtain rfl := Option.some.inj (hat.symm.trans (hin spec' hspec'))
        exact ⟨rfl, hspec'⟩
      obtain ⟨e, he, rfl⟩ := map_eq_some_iff.mp hat
      exact absurd hset ((hother k hk e).mp he).2
    · rintro ⟨rfl, hspec⟩
      exact ⟨hin spec hspec, (ruleset_of_mem_bodySpecs hspec).1⟩
  refine ⟨fun k spec => (hmembers k spec).trans (and_congr Iff.rfl mem_validRules),
    fun k e hset => ?_, _, hshown, ?_⟩
  · by_cases hk : k ∈ (bodySpecs cfg name req).map key
    · obtain ⟨spec, hspec, rfl⟩ := mem_map.mp hk
      refine ⟨fun he => absurd ?_ hset, fun he => ?_⟩
      · have hat : s'.specAt spec.key = some e.spec := by rw [State.specAt, he]; rfl
        rw [Option.some.inj (hat.symm.trans (hin spec hspec))]
        exact (ruleset_of_mem_bodySpecs hspec).1
      · exact absurd ((hplan.admitted hapart hspec).ours e he) hset
    rw [hother k hk e]
    exact and_iff_left hset
  · rw [hetag, etag_of_membersAre hplan.nodup hmembers, rulesetDryRun, hplan.specs]

end Registry
end

/-! ## Runs -/

open scoped Plain
namespace Plain

def member (addr : String) (extra : List String) : RuleRequest :=
  { request .tcp 8080 with listenAddr := addr, extraListenAddrs := extra }

def pair : State :=
  ((Registry.putRuleset settings "web"
      ⟨1, [member "127.0.0.1" [], member "127.0.0.2" ["127.0.0.3"]]⟩ options).run
    (Registry.machine settings) .calm .empty).1

def pairMovedLast : Registry.RulesetRequest :=
  ⟨2, [member "127.0.0.2" [], member "127.0.0.1" ["127.0.0.3"]]⟩

def pairMovedFirst : Registry.RulesetRequest :=
  ⟨2, [member "127.0.0.1" ["127.0.0.3"], member "127.0.0.2" []]⟩

lemma invalidApart_pair : pair.InvalidApart := by
  have hall : pair.rules.keys.all (fun k => k ∉ pair.invalid) = true := by decide +kernel
  intro k hk
  simpa using all_eq_true.mp hall k (AList.mem_keys.mp hk)

end Plain

namespace Registry
open Plain

theorem put_makesSet : ∃ s' applied, (putRuleset settings "web" pairMovedLast options).run
      (machine settings) .calm pair = (s', .ok applied) ∧
    (bodySpecs settings "web" pairMovedLast).length = 2 ∧
    MakesSet settings .calm "web" pairMovedLast options pair s'
      applied := by
  obtain ⟨applied, hok⟩ := Checks.exists_ok_of_isOk (x := ((putRuleset settings "web"
    pairMovedLast options).run (machine settings) .calm pair).2)
    (by decide +kernel)
  have hrun : (putRuleset settings "web" pairMovedLast options).run
      (machine settings) .calm pair = (_, .ok applied) := Prod.ext rfl hok
  refine ⟨_, applied, hrun, by decide +kernel, ?_⟩
  exact (putRuleset_makesSet_iff Env.smooth_calm invalidApart_pair rfl hrun).mpr (by decide +kernel)

/-- With that rule first it meets the old shape of the other: the PUT is accepted, and the rule is
gone from the set. -/
theorem put_loses_member : ∃ s' applied, (putRuleset settings "web" pairMovedFirst options).run
      (machine settings) .calm pair = (s', .ok applied) ∧
    ¬ MakesSet settings .calm "web" pairMovedFirst options pair s'
      applied := by
  obtain ⟨applied, hok⟩ := Checks.exists_ok_of_isOk (x := ((putRuleset settings "web"
    pairMovedFirst options).run (machine settings) .calm pair).2)
    (by decide +kernel)
  refine ⟨_, applied, Prod.ext rfl hok, fun h => ?_⟩
  obtain ⟨spec₀, hvalid⟩ := Checks.exists_ok_of_isOk
    (x := (member "127.0.0.1" ["127.0.0.3"]).validate settings.caps) (by decide +kernel)
  have hat := ((h.members spec₀.key { spec₀ with ruleset := some "web" }).mpr
    ⟨rfl, _, mem_cons_self, spec₀, hvalid, rfl⟩).1
  have hnone : ((member "127.0.0.1" ["127.0.0.3"]).validate settings.caps).toOption.all
      (fun spec₀ => (((putRuleset settings "web" pairMovedFirst options).run
        (machine settings) .calm pair).1.specAt spec₀.key).isNone) = true := by
    decide +kernel
  rw [hvalid] at hnone
  change (State.specAt _ spec₀.key).isNone = true at hnone
  rw [hat] at hnone
  cases hnone

end Registry
end Rproxy
