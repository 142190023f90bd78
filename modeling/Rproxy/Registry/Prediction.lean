import Rproxy.Registry.Background
import Rproxy.Registry.ConfigPlan

/-!
# The plan against the reload

A reload is followed rule by rule.
-/

namespace Rproxy.Registry
open List Option Place Prog Table
section
variable [External]

variable {cfg : Settings} {env : Env} {s t : State}
variable {running : Bool} {key : Key} {p : Place}
open Locked

lemma nextGeneration_scanCerts (env : Env) (s : State) :
    s.nextGeneration ≤ (scanCerts env s).1.nextGeneration := by
  refine List.foldlRecOn
    (motive := fun acc : State × CertScan => s.nextGeneration ≤ acc.1.nextGeneration) _ _ le_rfl
    fun acc hacc key _ => ?_
  rw [scanCert]
  repeat' split
  all_goals first | exact hacc | exact Nat.le_succ_of_le hacc

lemma nextGeneration_exec (cfg : Settings) (o : Op) (env : Env) (s : State) :
    s.nextGeneration ≤ (exec cfg o env s).1.nextGeneration := by
  cases o with
  | create spec fixing token =>
    simp only [exec, Locked.create]
    split
    · exact le_rfl
    split
    · exact le_rfl
    · cases fixing <;> exact Nat.le_succ _
  | scanCerts => exact nextGeneration_scanCerts env s
  | drainInPlace =>
    rw [exec, drainInPlace_eq]
  | register =>
    simp only [exec, register]
    split <;> exact Nat.le_succ _
  | putSet _ state => cases state <;> exact le_rfl
  | apply | restartWaiting | certStart | retry | take | removeMember | takeMembers | noteInvalid
  | retryFailed | certFailed | supervise =>
    simp only [exec, Locked.apply, restartWaiting, certStart, Locked.retry,
      Locked.take, removeMember, takeMembers, retryFailed, certFailed,
      Locked.supervise]
    repeat' split
    all_goals first | exact le_rfl | exact Nat.le_succ _
  | _ => exact le_rfl

def Numbered (s : State) : Prop :=
  ∀ k r, s.rules.lookup k = some (.running r) → r.generation < s.nextGeneration

/-- Each rule is under its own key, no rule that did not validate holds the key of one, and the
runtimes are numbered in order. -/
structure State.Sound (s : State) : Prop where
  keyed : State.Keyed s
  apart : s.InvalidApart
  numbered : Numbered s

lemma numbered_exec (hs : Numbered s) (o : Op) (env : Env) : Numbered (exec cfg o env s).1 := by
  intro k r hr
  have heff := effect_exec cfg o env s k
  have hle := nextGeneration_exec cfg o env s
  rw [hr] at heff
  generalize hbefore : s.rules.lookup k = before at heff
  generalize hafter : some (Entry.running r) = after at heff
  cases heff
  case keep => exact (hs k r (hbefore.trans hafter.symm)).trans_le hle
  case' restarted hkey hp _ =>
    subst hkey
    cases o <;> cases hp
  all_goals cases hafter
  case changed => exact (hs k _ hbefore).trans_le hle
  -- the sections that start a rule
  all_goals
    revert hr
    simp only [exec, Locked.create, Locked.apply, restartWaiting, Locked.retry, certStart, hbefore]
    repeat' split
  all_goals first
    | exact fun _ => Nat.lt_succ_self _
    | exact fun hr => by cases hbefore.symm.trans hr
    | exact fun hr => by cases (AList.lookup_insert _).symm.trans hr

/-- **The table is sound in every run of single calls**, whatever their interleaving. -/
theorem reach_sound {cond : Config → Event Env Call → Prop}
    (hcond : ∀ x ev, cond x ev → SingleCalls x ev) {x : Config}
    (hx : (system cfg).Reach cond Config.initial x) : State.Sound x.state := by
  have h := hx.state (I := fun s => s.InvalidApart ∧ Numbered s)
    ⟨fun k hk => absurd hk (AList.notMem_empty k), fun k r hr => by cases hr⟩
    (fun c s s' h hbegins => by rw [(begins_eq hbegins).1]; exact h)
    fun x i e c o k h _ _ => ⟨invalidApart_exec h.1 o e, numbered_exec h.2 o e⟩
  exact ⟨reach_keyed hcond hx, h.1, h.2⟩

def Foreign (s : State) (key : Key) (e : Entry) : Prop :=
  s.rules.lookup key = some e ∧ e.spec.origin ≠ .static

lemma mem_foreign {spec : RuleSpec} :
    (key, spec) ∈ foreign s ↔ ∃ e, Foreign s key e ∧ e.spec = spec := by
  simp only [foreign, List.mem_map, List.mem_filter, Prod.mk.injEq, Foreign, decide_eq_true_eq]
  constructor
  · rintro ⟨⟨k, e⟩, ⟨he, horigin⟩, rfl, rfl⟩
    exact ⟨e, ⟨mem_pairs.mp he, horigin⟩, rfl⟩
  rintro ⟨e, ⟨he, horigin⟩, rfl⟩
  exact ⟨(key, e), ⟨mem_pairs.mpr he, horigin⟩, rfl, rfl⟩

lemma staticAt_eq_some {old : RuleSpec} :
    staticAt s key = some (old, running) ↔ ∃ e, s.rules.lookup key = some e ∧
      e.spec.origin = .static ∧ e.spec = old ∧ e.isRunning = running := by
  simp only [staticAt, map_eq_some_iff, filter_eq_some_iff, decide_eq_true_eq,
    Prod.mk.injEq, and_assoc]

lemma staticAt_eq_none :
    staticAt s key = none ↔ s.rules.lookup key = none ∨ ∃ e, Foreign s key e := by
  simp only [staticAt, map_eq_none_iff, Foreign]
  cases s.rules.lookup key with
  | none => simp
  | some e => simp [filter_some]

variable {spec : RuleSpec} {missing : String}

lemma startStatic_of_fits (henv : env.Smooth) (hres : reservedClash cfg spec = none)
    (hkey : spec.key ∉ t.rules) (hfits : t.Fits spec) :
    ((startStatic cfg (spec, none)).run (machine cfg) env t).1.rules.lookup spec.key
        = some (.running ⟨t.nextGeneration, spec⟩) ∧
      ((startStatic cfg (spec, none)).run (machine cfg) env t).2 := by
  have hcheck : createCheck cfg t spec false none = .ok () :=
    createCheck_eq_ok_iff.mpr ⟨hkey, hfits⟩
  rw [startStatic, run_bind, createSpec_run henv hres]
  simp only [create, hcheck, henv.start]
  exact ⟨AList.lookup_insert _, rfl⟩

lemma startStatic_of_not_fits (henv : env.Smooth) (hres : reservedClash cfg spec = none)
    (h : ¬ (spec.key ∉ t.rules ∧ t.Fits spec)) :
    (startStatic cfg (spec, none)).run (machine cfg) env t = (t, false) := by
  rw [startStatic, run_bind, createSpec_run henv hres]
  cases hcheck : createCheck cfg t spec false none with
  | ok u => exact absurd (createCheck_eq_ok_iff.mp hcheck) h
  | error e =>
    simp only [create, hcheck, code_of_createCheck hcheck, if_true]
    rfl

lemma startStatic_missing (cfg : Settings) (env : Env) (t : State) (spec : RuleSpec)
    (missing : String) :
    (∃ f, ((startStatic cfg (spec, some missing)).run (machine cfg) env t).1.rules.lookup spec.key
        = some (.failed f) ∧ f.spec = spec) ∧
      ((startStatic cfg (spec, some missing)).run (machine cfg) env t).2 = false :=
  ⟨⟨_, AList.lookup_insert _, rfl⟩, rfl⟩

lemma apply_of_clear (henv : env.Smooth) (hres : reservedClash cfg spec = none) {r : Running}
    (hr : t.rules.lookup spec.key = some (.running r)) (hplace : inPlace r.spec spec)
    (hclear : t.Clear spec.key spec) :
    (apply cfg spec.key spec).run (machine cfg) env t
      = ({ t with rules := t.rules.insert spec.key (.running { r with spec }) }, .ok ()) := by
  have hfind : (t.rules.find? fun k e => k != spec.key && overlaps e.spec spec) = none := by
    refine Table.find?_eq_none.mpr fun k e he => ?_
    by_cases hk : k = spec.key
    · simp [hk]
    · simp [hclear k e he hk]
  have hcheck : applyRunningCheck env spec.key r.spec spec = .ok () := by
    simp only [inPlace, Bool.and_eq_true, beq_iff_eq, Bool.not_eq_true', Bool.and_eq_false_iff,
      bne_eq_false_iff_eq] at hplace
    have hdual : ¬ (isDualStackWildcard spec.key ∧ r.spec.v6only ≠ spec.v6only) := by
      rintro ⟨hwild, hv6⟩
      rw [← hplace.1.1.1.1.1] at hwild
      rcases hplace.2 with h | h
      · rw [hwild] at h
        cases h
      · exact hv6 h
    rw [applyRunningCheck, if_neg fun h => hdual h.2, henv.start]
    split <;> rfl
  rw [apply_run henv hres, Locked.apply, hfind]
  simp only [henv.gate, hr, hcheck]

lemma apply_of_not_clear (henv : env.Smooth) (hres : reservedClash cfg spec = none)
    (hclear : ¬ t.Clear spec.key spec) :
    ∃ e, (apply cfg spec.key spec).run (machine cfg) env t = (t, .error e) := by
  rw [apply_run henv hres, Locked.apply]
  cases hfind : t.rules.find? fun k e => k != spec.key && overlaps e.spec spec with
  | none => exact absurd (clear_of_find?_eq_none hfind) hclear
  | some other => exact ⟨_, rfl⟩

/-! ## One rule of the document -/

def ChangedInPlace (s s' : State) (key : Key) : Prop :=
  ∃ (r : Running) (new : RuleSpec), s.rules.lookup key = some (.running r) ∧ new ≠ r.spec ∧
    s'.rules.lookup key = some (.running { r with spec := new })

lemma not_changedInPlace {s' : State} (h : s'.rules.lookup key = s.rules.lookup key) :
    ¬ ChangedInPlace s s' key := by
  rintro ⟨r, new, hr, hne, hr'⟩
  rw [h, hr] at hr'
  injection hr' with hr'
  injection hr' with hr'
  exact hne (congrArg Running.spec hr').symm

variable {rule : FileRule}

lemma recreateStatic_run (henv : env.Smooth) (hres : reservedClash cfg rule.1 = none) :
    (∀ fails : Bool, (fails ↔ ¬ (rule.2 = none ∧ t.Fits rule.1)) →
      ((recreateStatic cfg rule).run (machine cfg) env t).2 = .changed !fails) ∧
    ∀ e, ((recreateStatic cfg rule).run (machine cfg) env t).1.rules.lookup rule.1.key = some e →
      e.spec = rule.1 ∧ ∀ r, e = .running r → t.nextGeneration ≤ r.generation := by
  obtain ⟨u, hrules, hinvalid, hnext, hrun⟩ := run_recreateStatic cfg env t rule
  rw [hrun]
  obtain ⟨spec, missing⟩ := rule
  have hkey : spec.key ∉ u.rules := by
    rw [hrules, AList.mem_erase]
    exact fun h => h.1 rfl
  have hfits : u.Fits spec ↔ t.Fits spec := by
    refine fits_congr ⟨fun k hk => ?_, fun k _ => by rw [hinvalid]⟩ hinvalid
    rw [hrules, AList.lookup_erase_ne hk]
  cases missing with
  | some m =>
    obtain ⟨⟨f, hf, hspec⟩, hfalse⟩ := startStatic_missing cfg env u spec m
    refine ⟨fun fails hfails => ?_, fun e he => ?_⟩
    · rw [hfails.mpr (by simp)]
      rfl
    cases he.symm.trans hf
    exact ⟨hspec, fun r hr => nomatch hr⟩
  | none =>
    by_cases hfit : t.Fits spec
    · obtain ⟨hlookup, htrue⟩ := startStatic_of_fits henv hres hkey (hfits.mpr hfit)
      refine ⟨fun fails hfails => ?_, fun e he => ?_⟩
      · have hno : fails = false := by
          rw [← Bool.not_eq_true, hfails]
          exact fun h => h ⟨rfl, hfit⟩
        rw [htrue, hno]
        rfl
      cases he.symm.trans hlookup
      refine ⟨rfl, fun r hr => ?_⟩
      cases hr
      exact hnext.symm.le
    have hsame := startStatic_of_not_fits (t := u) henv hres fun h => hfit (hfits.mp h.2)
    refine ⟨fun fails hfails => ?_, fun e he => ?_⟩
    · rw [hfails.mpr fun h => hfit h.2, hsame]
      rfl
    rw [hsame] at he
    exact absurd (mem_rules_iff.mpr ⟨e, he⟩) hkey

def Starts (s t : State) (rule : FileRule) : Prop :=
  rule.2 = none ∧ (∀ e, ¬ Foreign s rule.1.key e) ∧ t.Fits rule.1

structure RuleReloaded (s t : State) (rule : FileRule) (out : State × Reloaded) : Prop where
  result : ∀ fails : Bool, (fails = true ↔ ¬ Starts s t rule) → out.2 = reloadedAs s rule fails
  changed : ChangedInPlace s out.1 rule.1.key ↔
    changesInPlace s rule = true ∧ t.Clear rule.1.key rule.1
  kept : rule.2 = none → ∀ e, Foreign s rule.1.key e → out.1.rules.lookup rule.1.key = some e
  spec : ∀ e, out.1.rules.lookup rule.1.key = some e →
    e.spec = rule.1 ∨ rule.2 = none ∧ Foreign s rule.1.key e

lemma reloadRule_added (henv : env.Smooth) (hres : reservedClash cfg rule.1 = none)
    (hsame : SameAt rule.1.key s t) (hstatic : staticAt s rule.1.key = none) :
    RuleReloaded s t rule
      ((reloadRule cfg (staticRules s) rule).run (machine cfg) env t) := by
  obtain ⟨spec, missing⟩ := rule
  have hrun : (reloadRule cfg (staticRules s) (spec, missing)).run (machine cfg) env t
      = (((startStatic cfg (spec, missing)).run (machine cfg) env t).1,
        .added ((startStatic cfg (spec, missing)).run (machine cfg) env t).2) := by
    simp only [reloadRule, lookup_staticRules_eq, hstatic, run_bind]
    rfl
  have hplace : ¬ changesInPlace s (spec, missing) := by simp [changesInPlace, hstatic]
  have hcount : ∀ fails, reloadedAs s (spec, missing) fails = .added !fails := by
    intro fails
    simp only [reloadedAs, hstatic]
  have hforeign := staticAt_eq_none.mp hstatic
  rw [hrun]
  cases missing with
  | some m =>
    obtain ⟨⟨f, hf, hspec⟩, hfalse⟩ := startStatic_missing cfg env t spec m
    refine ⟨fun fails hfails => ?_, ⟨?_, fun h => absurd h.1 hplace⟩, by simp,
      fun e he => ?_⟩
    · rw [hfails.mpr (by simp [Starts]), hcount]
      rfl
    · rintro ⟨r, new, -, -, hr⟩
      cases hf.symm.trans hr
    cases he.symm.trans hf
    exact .inl hspec
  | none =>
    by_cases hfree : spec.key ∉ t.rules ∧ t.Fits spec
    · obtain ⟨hlookup, htrue⟩ := startStatic_of_fits henv hres hfree.1 hfree.2
      have hnone : s.rules.lookup spec.key = none := by
        rw [← hsame.rules]
        exact AList.lookup_eq_none.mpr hfree.1
      have hno : ∀ e, ¬ Foreign s spec.key e := fun e he => by cases hnone.symm.trans he.1
      refine ⟨fun fails hfails => ?_, ⟨?_, fun h => absurd h.1 hplace⟩,
        fun _ e he => absurd he (hno e), fun e he => ?_⟩
      · have hfails : fails = false := by
          rw [← Bool.not_eq_true, hfails]
          exact fun h => h ⟨rfl, hno, hfree.2⟩
        rw [hfails, hcount, htrue]
        rfl
      · rintro ⟨r, new, hr, -, -⟩
        cases hnone.symm.trans hr
      cases he.symm.trans hlookup
      exact .inl rfl
    have hleft := startStatic_of_not_fits (t := t) henv hres hfree
    rw [hleft]
    refine ⟨fun fails hfails => ?_, ⟨fun h => absurd h (not_changedInPlace hsame.rules),
      fun h => absurd h.1 hplace⟩, fun _ e he => hsame.rules.trans he.1, fun e he => ?_⟩
    · have hstarts : ¬ Starts s t (spec, none) := by
        rintro ⟨-, hno, hfits⟩
        refine hfree ⟨?_, hfits⟩
        rw [← AList.lookup_eq_none, hsame.rules]
        exact hforeign.resolve_right fun h => hno _ h.choose_spec
      rw [hfails.mpr hstarts, hcount]
      rfl
    rw [hsame.rules] at he
    rcases hforeign with hnone | ⟨e', he'⟩
    · cases hnone.symm.trans he
    cases he.symm.trans he'.1
    exact .inr ⟨rfl, he'⟩

lemma reloadRule_unchanged (cfg : Settings) (env : Env) (hsame : SameAt rule.1.key s t)
    (hstatic : staticAt s rule.1.key = some (rule.1, running)) :
    RuleReloaded s t rule
      ((reloadRule cfg (staticRules s) rule).run (machine cfg) env t) := by
  have hrun : (reloadRule cfg (staticRules s) rule).run (machine cfg) env t
      = (t, .unchanged) := by
    simp only [reloadRule, lookup_staticRules_eq, hstatic, if_true]
    rfl
  obtain ⟨e, he, -, hspec, -⟩ := staticAt_eq_some.mp hstatic
  rw [hrun]
  refine ⟨fun fails _ => ?_, ⟨fun h => absurd h (not_changedInPlace hsame.rules), fun h => ?_⟩,
    fun _ e he => hsame.rules.trans he.1, fun e' he' => ?_⟩
  · simp only [reloadedAs, hstatic, if_true]
  · simp [changesInPlace, hstatic] at h
  rw [hsame.rules, he] at he'
  cases he'
  exact .inl hspec

lemma reloadRule_changed (henv : env.Smooth) (hres : reservedClash cfg rule.1 = none)
    (hs : State.Sound s) (hsame : SameAt rule.1.key s t)
    (hnext : s.nextGeneration ≤ t.nextGeneration) {old : RuleSpec}
    (hstatic : staticAt s rule.1.key = some (old, running)) (hne : old ≠ rule.1) :
    RuleReloaded s t rule
      ((reloadRule cfg (staticRules s) rule).run (machine cfg) env t) := by
  obtain ⟨e, he, horigin, hspec, hrunning⟩ := staticAt_eq_some.mp hstatic
  have hcount : ∀ fails, reloadedAs s rule fails = .changed !fails := by
    intro fails
    simp only [reloadedAs, hstatic, if_neg hne]
  have hno : ∀ e', ¬ Foreign s rule.1.key e' := by
    rintro e' ⟨he', hforeign⟩
    cases he.symm.trans he'
    exact hforeign horigin
  have hstarts : Starts s t rule ↔ rule.2 = none ∧ t.Fits rule.1 :=
    ⟨fun h => ⟨h.1, h.2.2⟩, fun h => ⟨h.1, hno, h.2⟩⟩
  have hplace : changesInPlace s rule ↔
      running ∧ rule.2 = none ∧ inPlace old rule.1 := by
    simp [changesInPlace, hstatic, hne, and_assoc]
  -- created again: under another generation, so not in place
  have hre : ¬ (changesInPlace s rule ∧ t.Clear rule.1.key rule.1) →
      RuleReloaded s t rule ((recreateStatic cfg rule).run (machine cfg) env t) := by
    intro hnot
    obtain ⟨hresult, hlookup⟩ := recreateStatic_run (t := t) henv hres
    refine ⟨fun fails hfails => ?_, ⟨?_, fun h => absurd h hnot⟩, fun _ e he => absurd he (hno e),
      fun e' he' => .inl (hlookup e' he').1⟩
    · rw [hstarts] at hfails
      rw [hresult fails hfails, hcount]
    rintro ⟨r, new, hr, -, hr'⟩
    have hgen := (hlookup _ hr').2 _ rfl
    have hlt := hs.numbered _ _ hr
    dsimp only at hgen
    omega
  have hkey : rule.1.key ∉ t.invalid := by
    rw [hsame.invalid]
    exact hs.apart _ (mem_rules_iff.mpr ⟨e, he⟩)
  simp only [reloadRule, lookup_staticRules_eq, hstatic, if_neg hne]
  by_cases hcand : changesInPlace s rule
  · obtain ⟨hrun, hmissing, hin⟩ := hplace.mp hcand
    rw [if_pos ⟨hrun, hmissing, hin⟩, run_bind]
    cases e with
    | failed f => rw [← hrunning] at hrun; cases hrun
    | running r =>
      have hr : t.rules.lookup rule.1.key = some (.running r) := hsame.rules.trans he
      by_cases hclear : t.Clear rule.1.key rule.1
      · rw [← hspec] at hin hne
        rw [apply_of_clear henv hres hr hin hclear]
        refine ⟨fun fails hfails => ?_, ⟨fun _ => ⟨hcand, hclear⟩, fun _ => ?_⟩,
          fun _ e he => absurd he (hno e), fun e' he' => ?_⟩
        · have hfails : fails = false := by
            rw [← Bool.not_eq_true, hfails, hstarts]
            exact fun h => h ⟨hmissing, hkey, hclear⟩
          rw [hfails, hcount]
          rfl
        · exact ⟨r, rule.1, he, hne.symm, AList.lookup_insert _⟩
        cases he'.symm.trans (AList.lookup_insert _)
        exact .inl rfl
      obtain ⟨err, hrefused⟩ := apply_of_not_clear henv hres hclear
      rw [hrefused]
      exact hre fun h => hclear h.2
  · rw [if_neg fun h => hcand (hplace.mpr h)]
    exact hre fun h => hcand h.1

/-! ## The state in which a rule's turn comes -/

/-- The state once the rules that are not wanted any more are gone and those of `before` had their
turn. -/
structure Stage (s : State) (wanted : List Key) (before : List FileRule) (t : State) : Prop where
  toCome : ∀ k ∈ wanted, (∀ r ∈ before, r.1.key ≠ k) → SameAt k s t
  unwanted : ∀ k ∉ wanted, ∀ e, t.rules.lookup k = some e ↔ Foreign s k e
  kept : ∀ r ∈ before, r.2 = none → ∀ e, Foreign s r.1.key e → t.rules.lookup r.1.key = some e
  spec : ∀ r ∈ before, ∀ e, t.rules.lookup r.1.key = some e →
    e.spec = r.1 ∨ r.2 = none ∧ Foreign s r.1.key e
  next : s.nextGeneration ≤ t.nextGeneration

structure Apart (before : List FileRule) (rule : FileRule) (after : List FileRule) : Prop where
  fromBefore : ∀ r ∈ before, r.1.key ≠ rule.1.key
  fromAfter : ∀ r ∈ after, r.1.key ≠ rule.1.key
  across : ∀ r ∈ before, ∀ r' ∈ after, r.1.key ≠ r'.1.key
  same : ∀ r ∈ before, ∀ r' ∈ before, r.1.key = r'.1.key → r = r'
  clear : ∀ r ∈ before, overlaps r.1 rule.1 = false

variable {before after : List FileRule}

lemma FileChecked.apart (h : FileChecked cfg (before ++ rule :: after)) :
    Apart before rule after := by
  have hkeys := h.nodup
  rw [nodup_iff_pairwise_ne, pairwise_map, pairwise_append] at hkeys
  obtain ⟨hbefore, hafter, hacross⟩ := hkeys
  have hrule := (pairwise_cons.mp hafter).1
  refine ⟨fun r hr => hacross r hr rule mem_cons_self, fun r hr => (hrule r hr).symm,
    fun r hr r' hr' => hacross r hr r' (mem_cons_of_mem _ hr'), ?_, fun r hr => ?_⟩
  · have hnodup : (before.map fun r => r.1.key).Nodup := by
      rw [nodup_iff_pairwise_ne, pairwise_map]
      exact hbefore
    exact fun r hr r' hr' hkey => inj_on_of_nodup_map hnodup hr hr' hkey
  · exact (pairwise_append.mp h.clear).2.2 r hr rule mem_cons_self

lemma standing_eq_true : p.standing s = true ↔ ∃ k e, Foreign s k e ∧
    overlaps e.spec p.rule.1 ∧ ∀ r ∈ p.before, r.1.key = k → r.2 = none := by
  simp only [standing, List.any_eq_true, Bool.and_eq_true, Bool.not_eq_true',
    List.any_eq_false, decide_eq_true_eq, Prod.exists, mem_foreign]
  constructor
  · rintro ⟨k, spec, ⟨e, he, rfl⟩, hover, hfree⟩
    refine ⟨k, e, he, hover, fun r hr hk => ?_⟩
    rw [← Option.not_isSome_iff_eq_none]
    exact fun hsome => hfree r hr ⟨hsome, hk⟩
  rintro ⟨k, e, he, hover, hfree⟩
  refine ⟨k, e.spec, ⟨e, he, rfl⟩, hover, fun r hr hm => ?_⟩
  rw [hfree r hr hm.2] at hm
  cases hm.1

def laterClear (s : State) (rule : FileRule) (after : List FileRule) : Prop :=
  ∀ later ∈ after, ∀ old ∈ s.specAt later.1.key, overlaps old rule.1 = false

lemma hindered_eq_false : p.hindered s = false ↔ p.rule.1.key ∉ s.invalid ∧
    (∀ e, ¬ Foreign s p.rule.1.key e) ∧ laterClear s p.rule p.after := by
  simp only [hindered, Bool.or_eq_false_iff, decide_eq_false_iff_not, List.any_eq_false,
    decide_eq_true_eq, Prod.forall, mem_foreign, laterClear, Option.any_eq_true, and_assoc,
    not_exists, not_and, Bool.not_eq_true, Option.mem_def]
  refine and_congr Iff.rfl (and_congr ⟨fun h e he => ?_, fun h k spec hf hk => ?_⟩ ?_)
  · exact h _ _ ⟨e, he, rfl⟩ rfl
  · obtain ⟨e, he, -⟩ := hf
    exact h e (hk ▸ he)
  · exact Iff.rfl

abbrev keysOf (rules : List FileRule) : List Key := rules.map fun r => r.1.key

lemma mem_keysOf {k : Key} : k ∈ keysOf (before ++ rule :: after) ↔
    (∃ r ∈ before, r.1.key = k) ∨ rule.1.key = k ∨ ∃ r ∈ after, r.1.key = k := by
  simp only [keysOf, List.map_append, List.map_cons, List.mem_append, List.mem_cons, List.mem_map,
    eq_comm (a := k)]

lemma clear_iff (hapart : Apart before rule after)
    (hstage : Stage s (keysOf (before ++ rule :: after)) before t)
    (hno : ∀ e, ¬ Foreign s rule.1.key e) :
    t.Clear rule.1.key rule.1 ↔
      standing s ⟨before, rule, after⟩ = false ∧ laterClear s rule after := by
  have hcome : ∀ r ∈ after, SameAt r.1.key s t := fun r hr =>
    hstage.toCome _ (mem_keysOf.mpr (.inr (.inr ⟨r, hr, rfl⟩))) fun r' hr' =>
      hapart.across r' hr' r hr
  constructor
  · intro hclear
    refine ⟨?_, fun later hlater old hold => ?_⟩
    · rw [← Bool.not_eq_true, standing_eq_true]
      rintro ⟨k, e, he, hover, hfree⟩
      have hne : k ≠ rule.1.key := by
        rintro rfl
        exact hno e he
      have hlookup : t.rules.lookup k = some e := by
        by_cases hk : k ∈ keysOf (before ++ rule :: after)
        · rcases mem_keysOf.mp hk with ⟨r, hr, rfl⟩ | rfl | ⟨r, hr, rfl⟩
          · exact hstage.kept r hr (hfree r hr rfl) e he
          · exact absurd rfl hne
          · exact (hcome r hr).rules.trans he.1
        · exact (hstage.unwanted k hk e).mpr he
      rw [hclear k e hlookup hne] at hover
      cases hover
    · obtain ⟨e, he, rfl⟩ := map_eq_some_iff.mp hold
      exact hclear _ e ((hcome later hlater).rules.trans he) (hapart.fromAfter later hlater)
  rintro ⟨hstanding, hlater⟩ k e he hne
  rw [← Bool.not_eq_true, standing_eq_true] at hstanding
  by_contra hover
  rw [Bool.not_eq_false] at hover
  by_cases hk : k ∈ keysOf (before ++ rule :: after)
  · rcases mem_keysOf.mp hk with ⟨r, hr, rfl⟩ | rfl | ⟨r, hr, rfl⟩
    · rcases hstage.spec r hr e he with hspec | ⟨hmissing, hforeign⟩
      · rw [hspec, hapart.clear r hr] at hover
        cases hover
      refine hstanding ⟨_, e, hforeign, hover, fun r' hr' hkey => ?_⟩
      rw [hapart.same r' hr' r hr hkey, hmissing]
    · exact hne rfl
    rw [(hcome r hr).rules] at he
    have hold := hlater r hr e.spec (map_eq_some_iff.mpr ⟨e, he, rfl⟩)
    rw [hold] at hover
    cases hover
  · refine hstanding ⟨k, e, (hstage.unwanted k hk e).mp he, hover, fun r hr hkey => ?_⟩
    exact absurd (mem_keysOf.mpr (.inl ⟨r, hr, hkey⟩)) hk

lemma starts_iff (hapart : Apart before rule after)
    (hstage : Stage s (keysOf (before ++ rule :: after)) before t) :
    Starts s t rule ↔ fails s ⟨before, rule, after⟩ = false := by
  have hsame : SameAt rule.1.key s t :=
    hstage.toCome _ (mem_keysOf.mpr (.inr (.inl rfl))) hapart.fromBefore
  simp only [fails, Bool.or_eq_false_iff, hindered_eq_false, Starts, State.Fits,
    hsame.invalid, isSome_eq_false_iff, isNone_iff_eq_none]
  constructor
  · rintro ⟨hmissing, hno, hkey, hclear⟩
    obtain ⟨hstanding, hlater⟩ := (clear_iff hapart hstage hno).mp hclear
    exact ⟨⟨hmissing, hstanding⟩, hkey, hno, hlater⟩
  rintro ⟨⟨hmissing, hstanding⟩, hkey, hno, hlater⟩
  exact ⟨hmissing, hno, hkey, (clear_iff hapart hstage hno).mpr ⟨hstanding, hlater⟩⟩

lemma not_foreign_of_changesInPlace (h : changesInPlace s rule) :
    (∃ e, s.rules.lookup rule.1.key = some e) ∧ ∀ e, ¬ Foreign s rule.1.key e := by
  unfold changesInPlace at h
  cases hstatic : staticAt s rule.1.key with
  | none =>
    rw [hstatic] at h
    cases h
  | some old =>
    obtain ⟨e, he, horigin, -⟩ := staticAt_eq_some.mp hstatic
    refine ⟨⟨e, he⟩, ?_⟩
    rintro e' ⟨he', hforeign⟩
    cases he.symm.trans he'
    exact hforeign horigin

lemma nextGeneration_run {α : Type} (p : Program α) (t : State) :
    t.nextGeneration ≤ (p.run (machine cfg) env t).1.nextGeneration := by
  induction p generalizing t with
  | ret a => exact le_rfl
  | op o k ih => exact (nextGeneration_exec cfg o env t).trans (ih _ _)

lemma stage_reloadRule (henv : env.Smooth) (hs : State.Sound s)
    (hfile : FileChecked cfg (before ++ rule :: after))
    (hstage : Stage s (keysOf (before ++ rule :: after)) before t) :
    RuleReloaded s t rule ((reloadRule cfg (staticRules s) rule).run (machine cfg) env t) ∧
      Stage s (keysOf (before ++ rule :: after)) (before ++ [rule])
        ((reloadRule cfg (staticRules s) rule).run (machine cfg) env t).1 := by
  have hapart := hfile.apart
  have hres := hfile.reserved rule (by simp)
  have hsame : SameAt rule.1.key s t :=
    hstage.toCome _ (mem_keysOf.mpr (.inr (.inl rfl))) hapart.fromBefore
  have hout : RuleReloaded s t rule
      ((reloadRule cfg (staticRules s) rule).run (machine cfg) env t) := by
    cases hstatic : staticAt s rule.1.key with
    | none => exact reloadRule_added henv hres hsame hstatic
    | some old =>
      by_cases hold : old.1 = rule.1
      · exact reloadRule_unchanged cfg env hsame (hstatic.trans (by rw [← hold]))
      · exact reloadRule_changed henv hres hs hsame hstage.next hstatic hold
  have hlocal : Local rule.1.key t
      ((reloadRule cfg (staticRules s) rule).run (machine cfg) env t).1 :=
    local_run (onlyAt_reloadRule _ rule)
  refine ⟨hout, ?_, ?_, ?_, ?_, ?_⟩
  · intro k hk hbefore
    have hne : k ≠ rule.1.key := fun h => hbefore rule (by simp) h.symm
    exact (hstage.toCome k hk fun r hr => hbefore r (by simp [hr])).trans_local hne hlocal
  · intro k hk e
    have hne : k ≠ rule.1.key := fun h => hk (mem_keysOf.mpr (.inr (.inl h.symm)))
    rw [hlocal.rules k hne]
    exact hstage.unwanted k hk e
  · intro r hr
    rcases mem_append.mp hr with hr | hr
    · rw [hlocal.rules _ (hapart.fromBefore r hr)]
      exact hstage.kept r hr
    rw [mem_singleton.mp hr]
    exact hout.kept
  · intro r hr
    rcases mem_append.mp hr with hr | hr
    · rw [hlocal.rules _ (hapart.fromBefore r hr)]
      exact hstage.spec r hr
    rw [mem_singleton.mp hr]
    exact hout.spec
  · exact hstage.next.trans (nextGeneration_run _ t)

lemma run_reloadRules_places (henv : env.Smooth) (hs : State.Sound s)
    (hfile : FileChecked cfg (before ++ after))
    (hstage : Stage s (keysOf (before ++ after)) before t) {out : State × List Reloaded}
    (hout : (mapEach (reloadRule cfg (staticRules s)) after).run (machine cfg) env t = out) :
    out.2 = (ofRules before after).map (fun p => reloadedAs s p.rule (p.fails s)) ∧
      (∀ p ∈ ofRules before after, ChangedInPlace s out.1 p.rule.1.key ↔
        changesInPlace s p.rule ∧ p.standing s = false ∧ p.hindered s = false) ∧
      ∀ k ∉ keysOf after, out.1.rules.lookup k = t.rules.lookup k := by
  induction after generalizing before t out with
  | nil =>
    subst hout
    exact ⟨rfl, (fun p hp => nomatch hp), fun k _ => rfl⟩
  | cons rule after ih =>
    have hapart := hfile.apart
    obtain ⟨hone, hnext⟩ := stage_reloadRule henv hs hfile hstage
    have hassoc : before ++ rule :: after = (before ++ [rule]) ++ after := by simp
    rw [hassoc] at hfile hnext
    obtain ⟨hresults, hplaces, hrest⟩ := ih hfile hnext rfl
    have hnot : rule.1.key ∉ keysOf after := by
      simp only [keysOf, List.mem_map, not_exists, not_and]
      exact fun r hr => hapart.fromAfter r hr
    have hlocal : Local rule.1.key t
        ((reloadRule cfg (staticRules s) rule).run (machine cfg) env t).1 :=
      local_run (onlyAt_reloadRule _ rule)
    subst hout
    refine ⟨?_, fun p hp => ?_, fun k hk => ?_⟩
    · rw [result_mapEach_cons]
      congr 1
      refine hone.result _ ?_
      rw [starts_iff hapart hstage, Bool.not_eq_false]
    · rw [run_mapEach_cons]
      rcases List.mem_cons.mp hp with rfl | hp
      · rw [ChangedInPlace, hrest _ hnot]
        refine hone.changed.trans (and_congr_right fun hplace => ?_)
        obtain ⟨⟨e, he⟩, hno⟩ := not_foreign_of_changesInPlace hplace
        rw [clear_iff hapart hstage hno, hindered_eq_false]
        have hkey := hs.apart _ (mem_rules_iff.mpr ⟨e, he⟩)
        exact ⟨fun h => ⟨h.1, hkey, hno, h.2⟩, fun h => ⟨h.1, h.2.2.2⟩⟩
      · exact hplaces p hp
    · simp only [keysOf, List.map_cons, List.mem_cons, not_or] at hk
      rw [run_mapEach_cons, hrest k hk.2, hlocal.rules k hk.1]

/-! ## The whole reload -/

lemma result_removeStatics (cfg : Settings) (env : Env) (keys : List Key) (hkeys : keys.Nodup)
    (hmem : ∀ k ∈ keys, k ∈ t.rules) :
    ((mapEach removeStatic keys).run (machine cfg) env t).2
      = List.replicate keys.length true := by
  induction keys generalizing t with
  | nil => rfl
  | cons key keys ih =>
    obtain ⟨hnot, hkeys⟩ := nodup_cons.mp hkeys
    obtain ⟨e, he⟩ := mem_rules_iff.mp (hmem key mem_cons_self)
    have htrue : ((removeStatic key).run (machine cfg) env t).2 := by
      simp only [removeStatic, perform_bind, run_op]
      simp only [machine, exec, remove, he, run_bind]
      rfl
    rw [result_mapEach_cons, htrue, ih hkeys fun k hk => ?_, length_cons, replicate_succ]
    rw [(run_removeStatic cfg env t key).1, AList.mem_erase]
    exact ⟨fun h => hnot (h ▸ hk), hmem k (mem_cons_of_mem _ hk)⟩

abbrev unwantedOf (s : State) (rules : List FileRule) : List Key :=
  ((staticRules s).map Prod.fst).filter fun k => !(keysOf rules).contains k

lemma mem_unwantedOf {rules : List FileRule} {k : Key} : k ∈ unwantedOf s rules ↔
    (∃ e, s.rules.lookup k = some e ∧ e.spec.origin = .static) ∧ k ∉ keysOf rules := by
  simp only [unwantedOf, List.mem_filter, staticRules, List.map_map, List.mem_map,
    Function.comp, decide_eq_true_eq, Bool.not_eq_true', List.contains_eq_mem,
    decide_eq_false_iff_not]
  refine and_congr ⟨?_, ?_⟩ Iff.rfl
  · rintro ⟨⟨k, e⟩, ⟨he, horigin⟩, rfl⟩
    exact ⟨e, mem_pairs.mp he, horigin⟩
  rintro ⟨e, he, horigin⟩
  exact ⟨(k, e), ⟨mem_pairs.mpr he, horigin⟩, rfl⟩

lemma nodup_unwantedOf (s : State) (rules : List FileRule) : (unwantedOf s rules).Nodup := by
  refine List.Nodup.filter _ ?_
  rw [staticRules, List.map_map]
  exact (nodup_map_fst_pairs s.rules).sublist ((List.filter_sublist).map Prod.fst)

lemma stage_removeStatics (cfg : Settings) (env : Env) (s : State) (rules : List FileRule) :
    Stage s (keysOf rules) []
      ((mapEach removeStatic (unwantedOf s rules)).run (machine cfg) env s).1 := by
  obtain ⟨hremoved, hinvalid⟩ := run_removeStatics cfg env (unwantedOf s rules) s
  refine ⟨fun k hk _ => ⟨?_, by rw [hinvalid]⟩, fun k hk e => ?_, (fun r hr => nomatch hr),
    (fun r hr => nomatch hr), nextGeneration_run _ s⟩
  · rw [hremoved, if_neg fun h => (mem_unwantedOf.mp h).2 hk]
  rw [hremoved]
  by_cases hstatic : k ∈ unwantedOf s rules
  · obtain ⟨⟨e', he', horigin⟩, -⟩ := mem_unwantedOf.mp hstatic
    rw [if_pos hstatic]
    refine ⟨(fun h => nomatch h), fun h => ?_⟩
    cases he'.symm.trans h.1
    exact absurd horigin h.2
  rw [if_neg hstatic]
  refine ⟨fun h => ⟨h, fun horigin => ?_⟩, fun h => h.1⟩
  exact hstatic (mem_unwantedOf.mpr ⟨⟨e, h, horigin⟩, hk⟩)

lemma map_rule_ofRules (before rules : List FileRule) :
    (ofRules before rules).map Place.rule = rules := by
  induction rules generalizing before with
  | nil => rfl
  | cons rule rules ih => rw [ofRules, map_cons, ih]

lemma reloadStatic_run (henv : env.Smooth) (hs : State.Sound s)
    {reqs : List (String × RuleRequest)} {rules : List FileRule}
    (hrules : validateStatic cfg reqs = .ok rules) :
    ((reloadStatic cfg reqs).run (machine cfg) env s).2
        = .ok (.of (unwantedOf s rules).length
          ((ofRules [] rules).map fun p => reloadedAs s p.rule (p.fails s))) ∧
      (∀ p ∈ ofRules [] rules,
        ChangedInPlace s ((reloadStatic cfg reqs).run (machine cfg) env s).1 p.rule.1.key ↔
          changesInPlace s p.rule ∧ p.standing s = false ∧ p.hindered s = false) ∧
      ∀ k ∉ keysOf rules,
        ¬ ChangedInPlace s ((reloadStatic cfg reqs).run (machine cfg) env s).1 k := by
  have hfile := fileChecked_of_validateStatic hrules
  have hstage := stage_removeStatics cfg env s rules
  have hfile' : FileChecked cfg ([] ++ rules) := hfile
  obtain ⟨hresults, hplaces, hrest⟩ := run_reloadRules_places henv hs hfile' hstage rfl
  have hremoved := result_removeStatics (t := s) cfg env (unwantedOf s rules)
    (nodup_unwantedOf s rules) fun k hk => by
      obtain ⟨⟨e, he, -⟩, -⟩ := mem_unwantedOf.mp hk
      exact mem_rules_iff.mpr ⟨e, he⟩
  have hrun : (reloadStatic cfg reqs).run (machine cfg) env s =
      let removed := (mapEach removeStatic (unwantedOf s rules)).run (machine cfg) env s
      let reloaded :=
        (mapEach (reloadRule cfg (staticRules s)) rules).run (machine cfg) env removed.1
      (reloaded.1, .ok (.of (removed.2.filter id).length reloaded.2)) := by
    simp only [reloadStatic, hrules, perform_bind, run_op, run_bind]
    rfl
  rw [hrun]
  refine ⟨?_, hplaces, fun k hk => ?_⟩
  · dsimp only
    rw [hremoved, hresults]
    simp
  rintro ⟨r, new, hr, hne, hr'⟩
  rw [hrest k hk, hstage.unwanted k hk] at hr'
  have heq := Option.some.inj (hr.symm.trans hr'.1)
  injection heq with heq
  exact hne (congrArg Running.spec heq).symm

/-! ## The plan tells the reload -/

omit [External] in
lemma length_filter_eq_iff {α : Type} (l : List α) (a b : α → Bool) :
    (l.filter a).length = (l.filter b).length ↔
      (l.filter fun x => a x && !b x).length = (l.filter fun x => b x && !a x).length := by
  have ha := length_eq_length_filter_add (l := l.filter a) b
  have hb := length_eq_length_filter_add (l := l.filter b) a
  simp only [List.filter_filter, Bool.and_comm] at ha hb ⊢
  omega

lemma blocked_of_standing (h : p.standing s) : blocked s p.rule.1 := by
  obtain ⟨k, e, he, hover, -⟩ := standing_eq_true.mp h
  exact any_eq_true.mpr ⟨(k, e.spec), mem_foreign.mpr ⟨e, he, rfl⟩, hover⟩

structure Predicts (plan : ConfigPlan) (s : State) (out : State × Except String ReloadCounts) :
    Prop where
  counts : out.2 = .ok plan.counts
  inPlace : ∀ key, plan.InPlace key ↔ ChangedInPlace s out.1 key

lemma planned_not_fails (s : State) (p : Place) :
    ((p.isNew s && (p.rule.2.isSome || blocked s p.rule.1)) && !(p.isNew s && p.fails s))
      = p.freed s := by
  simp only [freed, fails]
  cases p.isNew s <;> cases p.rule.2 <;> simp

lemma fails_not_planned (s : State) (p : Place) :
    ((p.isNew s && p.fails s) && !(p.isNew s && (p.rule.2.isSome || blocked s p.rule.1)))
      = p.caught s := by
  have hstanding := blocked_of_standing (s := s) (p := p)
  simp only [caught, fails]
  cases p.isNew s <;> cases p.rule.2 <;> cases hst : p.standing s <;>
    cases hb : blocked s p.rule.1 <;> simp_all

/-- **The plan tells the reload exactly if no rule that would be changed in place meets another, and
as many rules are freed as are caught**, where nothing fails by itself. -/
theorem planConfig_predicts_iff (henv : env.Smooth) (hs : State.Sound s)
    {reqs : List (String × RuleRequest)} {rules : List FileRule}
    (hrules : validateStatic cfg reqs = .ok rules) :
    ∃ plan, planConfig cfg s reqs = .ok plan ∧
      (Predicts plan s ((reloadStatic cfg reqs).run (machine cfg) env s) ↔ Foreseen s rules) := by
  obtain ⟨plan, hplan, hcounts, hplace⟩ := planConfig_eq hs.keyed hrules
  obtain ⟨hresult, hchanged, hrest⟩ := reloadStatic_run henv hs hrules
  refine ⟨plan, hplan, ?_⟩
  have hmem : ∀ {rule}, rule ∈ rules ↔ ∃ p ∈ ofRules [] rules, p.rule = rule := by
    nth_rewrite 1 [← map_rule_ofRules [] rules]
    exact mem_map
  have hfailures : ((reloadStatic cfg reqs).run (machine cfg) env s).2 = .ok plan.counts ↔
      ((ofRules [] rules).filter (freed s)).length
        = ((ofRules [] rules).filter (caught s)).length := by
    have hexpected : (rules.map fun r => reloadedAs s r (r.2.isSome || blocked s r.1))
        = (ofRules [] rules).map fun p =>
          reloadedAs s p.rule (p.rule.2.isSome || blocked s p.rule.1) := by
      nth_rewrite 1 [← map_rule_ofRules [] rules]
      rw [List.map_map]
      rfl
    rw [hresult, hcounts, hexpected, of_reloadedAs, of_reloadedAs]
    simp only [Except.ok.injEq, ReloadCounts.mk.injEq, true_and]
    rw [eq_comm, length_filter_eq_iff]
    simp only [planned_not_fails, fails_not_planned]
  constructor
  · intro h
    refine ⟨fun p hp hcand => ?_, hfailures.mp h.counts⟩
    have hin : plan.InPlace p.rule.1.key :=
      (hplace _).mpr ⟨p.rule, hmem.mpr ⟨p, hp, rfl⟩, rfl, hcand⟩
    exact ((hchanged p hp).mp ((h.inPlace _).mp hin)).2
  intro h
  refine ⟨hfailures.mpr h.failures, fun key => ?_⟩
  rw [hplace]
  constructor
  · rintro ⟨rule, hrule, rfl, hcand⟩
    obtain ⟨p, hp, rfl⟩ := hmem.mp hrule
    exact (hchanged p hp).mpr ⟨hcand, h.inPlace p hp hcand⟩
  intro hkey
  have hwanted : key ∈ keysOf rules := by
    by_contra hnot
    exact hrest key hnot hkey
  obtain ⟨rule, hrule, rfl⟩ := mem_map.mp hwanted
  obtain ⟨p, hp, rfl⟩ := hmem.mp hrule
  exact ⟨p.rule, hrule, rfl, ((hchanged p hp).mp hkey).1⟩

end
open scoped Plain

instance decidableForeseen (s : State) (rules : List FileRule) : Decidable (Foreseen s rules) :=
  decidable_of_iff
    ((∀ p ∈ ofRules [] rules, changesInPlace s p.rule = true →
        p.standing s = false ∧ p.hindered s = false) ∧
      ((ofRules [] rules).filter (freed s)).length
        = ((ofRules [] rules).filter (caught s)).length)
    ⟨fun h => ⟨h.1, h.2⟩, fun h => ⟨h.1, h.2⟩⟩

open Plain

lemma sound_loaded : State.Sound loaded := by
  have hkeyed : loaded.rules.pairs.all (fun e => e.2.spec.key = e.1) = true := by
    decide +kernel
  have hnumbered : loaded.rules.pairs.all (fun e =>
      decide (e.2.generation < loaded.nextGeneration)) = true := by decide +kernel
  refine ⟨fun k e he => ?_, invalidApart_loaded, fun k r hr => ?_⟩
  · simpa using all_eq_true.mp hkeyed (k, e) (mem_pairs.mpr he)
  · exact of_decide_eq_true (all_eq_true.mp hnumbered _ (mem_pairs.mpr hr))

theorem plan_predicts : ∃ rules plan, validateStatic settings movedLast = .ok rules ∧
    rules.length = 2 ∧ planConfig settings loaded movedLast = .ok plan ∧
    Predicts plan loaded ((reloadStatic settings movedLast).run
      (machine settings) .calm loaded) := by
  have h : (validateStatic settings movedLast).toOption.any
      (fun rules => rules.length = 2 ∧ Foreseen loaded rules) = true := by decide +kernel
  cases hv : validateStatic settings movedLast with
  | error e =>
    rw [hv] at h
    cases h
  | ok rules =>
    rw [hv] at h
    obtain ⟨hlength, hforeseen⟩ := of_decide_eq_true h
    obtain ⟨plan, hplan, hiff⟩ := planConfig_predicts_iff Env.smooth_calm sound_loaded hv
    exact ⟨rules, plan, rfl, hlength, hplan, hiff.mpr hforeseen⟩

/-- With that rule first the plan has no failure, and the reload has one. -/
theorem plan_misses_failure : State.Sound loaded ∧ loaded.NonOverlapping ∧
    ∃ plan counts, planConfig settings loaded movedFirst = .ok plan ∧
      ((reloadStatic settings movedFirst).run (machine settings) .calm loaded).2 = .ok counts ∧
      plan.counts.changed = 2 ∧ plan.counts.failed = 0 ∧ counts.changed = 2 ∧
        counts.failed = 1 := by
  have hplan : (planConfig settings loaded movedFirst).toOption.any
      (fun plan => plan.counts.changed = 2 ∧ plan.counts.failed = 0) = true := by decide +kernel
  have hreload : ((reloadStatic settings movedFirst).run (machine settings) .calm
      loaded).2.toOption.any (fun counts => counts.changed = 2 ∧ counts.failed = 1) = true := by
    decide +kernel
  refine ⟨sound_loaded, nonOverlapping_loaded, ?_⟩
  cases hp : planConfig settings loaded movedFirst with
  | error e =>
    rw [hp] at hplan
    cases hplan
  | ok plan =>
    rw [hp] at hplan
    cases hr : ((reloadStatic settings movedFirst).run (machine settings) .calm
      loaded).2 with
    | error e =>
      rw [hr] at hreload
      cases hreload
    | ok counts =>
      rw [hr] at hreload
      obtain ⟨hchanged, hfailed⟩ := of_decide_eq_true hplan
      obtain ⟨hchanged', hfailed'⟩ := of_decide_eq_true hreload
      exact ⟨plan, counts, rfl, rfl, hchanged, hfailed, hchanged', hfailed'⟩

end Rproxy.Registry
