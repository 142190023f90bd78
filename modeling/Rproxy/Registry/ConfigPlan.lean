import Rproxy.Registry.Reload

/-!
# The plan of a reload

`plan_config` says what a reload would do: how many rules it would add, remove and change, how many
would end up failed, and which would be changed in place.
-/

namespace Rproxy.Registry
open List Locked
section
variable [External]

variable {cfg : Settings} {env : Env} {s : State}

/-! ## The plan -/

/-- `ConfigChange`, by the key of its rule and without the diff. -/
structure ConfigChange where
  rule : Key
  action : Action
  change : Change
deriving DecidableEq

structure Finding where
  rule : String
  message : String

structure ConfigPlan where
  counts : ReloadCounts
  changes : List ConfigChange
  warnings : List Finding

def ConfigPlan.empty : ConfigPlan := ⟨⟨0, 0, 0, 0, 0⟩, [], []⟩

def specs (s : State) : List (RuleSpec × Bool) :=
  s.rules.pairs.map fun e => (e.2.spec, e.2.isRunning)

def changeOf (old : RuleSpec) (running : Bool) (new : RuleSpec) : Action × Change :=
  if old = new then (.none, .none)
  else if running ∧ inPlace old new then (.update, .inPlace)
  else (.update, .recreate)

variable (plan : ConfigPlan)

def planRemoval (old : Key × RuleSpec × Bool) : ConfigPlan :=
  { plan with
    counts := { plan.counts with removed := plan.counts.removed + 1 }
    changes := plan.changes ++ [⟨old.2.1.key, .delete, .none⟩] }

def planRule (current : List (Key × RuleSpec × Bool)) (others : List RuleSpec) (plan : ConfigPlan)
    (rule : FileRule) : ConfigPlan :=
  let (spec, missing) := rule
  -- starting fails when a rule made through the API holds the address
  let blocked := others.find? fun o => overlaps o spec
  let fails := if missing.isSome || blocked.isSome then 1 else 0
  let warnings :=
    match blocked with
    | some other =>
      plan.warnings ++ [⟨spec.key.text, s!"{other.key.text} (not from the settings file) holds " ++
        "this address; the rule would be registered as failed"⟩]
    | none => plan.warnings
  let counts := plan.counts
  match current.lookup spec.key with
  | none =>
    { counts := { counts with added := counts.added + 1, failed := counts.failed + fails }
      changes := plan.changes ++ [⟨spec.key, .create, .none⟩]
      warnings }
  | some (old, running) =>
    if old = spec then
      { plan with counts := { counts with unchanged := counts.unchanged + 1 }, warnings }
    else
      { counts := { counts with changed := counts.changed + 1, failed := counts.failed + fails }
        changes := plan.changes ++
          [⟨spec.key, .update, (changeOf old (running && missing.isNone) spec).2⟩]
        warnings }

def planConfig (cfg : Settings) (s : State) (reqs : List (String × RuleRequest)) :
    Except String ConfigPlan :=
  match validateStatic cfg reqs with
  | .error e => .error e
  | .ok rules =>
    let all := specs s
    let current := (all.filter fun p => p.1.origin = .static).map fun p => (p.1.key, p.1, p.2)
    let others := (all.map Prod.fst).filter fun o => o.origin ≠ .static
    let wanted := rules.map fun r => r.1.key
    let removed := (current.filter fun c => !wanted.contains c.1).insertionSort
      fun a b => a.1.rank ≤ b.1.rank
    .ok (rules.foldl (planRule current others) (removed.foldl planRemoval .empty))

/-! ## What becomes of one rule -/

def staticAt (s : State) (key : Key) : Option (RuleSpec × Bool) :=
  ((s.rules.lookup key).filter fun e => decide (e.spec.origin = .static)).map fun e =>
    (e.spec, e.isRunning)

def foreign (s : State) : List (Key × RuleSpec) :=
  (s.rules.pairs.filter fun e => decide (e.2.spec.origin ≠ .static)).map fun e => (e.1, e.2.spec)

def reloadedAs (s : State) (rule : FileRule) (fails : Bool) : Reloaded :=
  match staticAt s rule.1.key with
  | none => .added !fails
  | some (old, _) => if old = rule.1 then .unchanged else .changed !fails

def blocked (s : State) (spec : RuleSpec) : Bool :=
  (foreign s).any fun o => overlaps o.2 spec

def changesInPlace (s : State) (rule : FileRule) : Bool :=
  match staticAt s rule.1.key with
  | some (old, running) =>
    decide (old ≠ rule.1) && running && rule.2.isNone && inPlace old rule.1
  | none => false

structure Place where
  before : List FileRule
  rule : FileRule
  after : List FileRule

namespace Place

def ofRules (before : List FileRule) : List FileRule → List Place
  | [] => []
  | rule :: after => ⟨before, rule, after⟩ :: ofRules (before ++ [rule]) after

/-- A rule that is not the settings file's clashes with it, and its key was not taken by an earlier
rule that cannot run here. -/
def standing (s : State) (p : Place) : Bool :=
  (foreign s).any fun o =>
    overlaps o.2 p.rule.1 && !p.before.any fun r => r.2.isSome && decide (r.1.key = o.1)

/-- Its key is that of a rule which did not validate or is not the file's, or a later rule's old
shape clashes with it. -/
def hindered (s : State) (p : Place) : Bool :=
  decide (p.rule.1.key ∈ s.invalid) || ((foreign s).any fun o => decide (o.1 = p.rule.1.key)) ||
    p.after.any fun later => (s.specAt later.1.key).any fun old => overlaps old p.rule.1

def fails (s : State) (p : Place) : Bool :=
  p.rule.2.isSome || p.standing s || p.hindered s

def isNew (s : State) (p : Place) : Bool :=
  decide ((staticAt s p.rule.1.key).map Prod.fst ≠ some p.rule.1)

def freed (s : State) (p : Place) : Bool :=
  p.isNew s && p.rule.2.isNone && blocked s p.rule.1 && !(p.standing s || p.hindered s)

def caught (s : State) (p : Place) : Bool :=
  p.isNew s && p.rule.2.isNone && !blocked s p.rule.1 && p.hindered s

end Place

/-- Where the plan tells the reload: no rule that is changed in place meets another, and as many are
freed as caught. -/
structure Foreseen (s : State) (rules : List FileRule) : Prop where
  inPlace : ∀ p ∈ Place.ofRules [] rules, changesInPlace s p.rule = true →
    p.standing s = false ∧ p.hindered s = false
  failures : ((Place.ofRules [] rules).filter (Place.freed s)).length
    = ((Place.ofRules [] rules).filter (Place.caught s)).length

def ReloadCounts.count (c : ReloadCounts) : Reloaded → ReloadCounts
  | .added started =>
    { c with added := c.added + 1, failed := c.failed + if started then 0 else 1 }
  | .unchanged => { c with unchanged := c.unchanged + 1 }
  | .changed started =>
    { c with changed := c.changed + 1, failed := c.failed + if started then 0 else 1 }

open ReloadCounts

omit [External] in
lemma foldl_count (l : List Reloaded) (c : ReloadCounts) : l.foldl ReloadCounts.count c =
    ⟨c.added + (ReloadCounts.of 0 l).added, c.removed, c.changed + (ReloadCounts.of 0 l).changed,
      c.unchanged + (ReloadCounts.of 0 l).unchanged, c.failed + (ReloadCounts.of 0 l).failed⟩ := by
  induction l generalizing c with
  | nil => rfl
  | cons r l ih =>
    rw [foldl_cons, ih]
    rcases r with (_ | _) | _ | (_ | _) <;>
      simp [ReloadCounts.count, ReloadCounts.of] <;> omega

omit [External] in
lemma foldl_count_eq_of (l : List Reloaded) (removed : Nat) :
    l.foldl ReloadCounts.count ⟨0, removed, 0, 0, 0⟩ = ReloadCounts.of removed l := by
  rw [foldl_count]
  simp [ReloadCounts.of]

lemma of_reloadedAs (s : State) (places : List Place) (f : Place → Bool) (removed : Nat) :
    of removed (places.map fun p => reloadedAs s p.rule (f p)) =
      { added := (places.filter fun p => (staticAt s p.rule.1.key).isNone).length
        removed
        changed := (places.filter fun p =>
          (staticAt s p.rule.1.key).any fun old => decide (old.1 ≠ p.rule.1)).length
        unchanged := (places.filter fun p =>
          (staticAt s p.rule.1.key).any fun old => decide (old.1 = p.rule.1)).length
        failed := (places.filter fun p => p.isNew s && f p).length } := by
  simp only [of, filter_map, length_map, mk.injEq, true_and]
  refine ⟨?_, ?_, ?_, ?_⟩ <;>
  · congr 2
    funext p
    simp only [Function.comp, reloadedAs, Place.isNew]
    cases staticAt s p.rule.1.key with
    | none => simp
    | some old => by_cases h : old.1 = p.rule.1 <;> simp [h]

/-! ## What the plan says -/

lemma lookup_staticRules_eq (s : State) (key : Key) :
    (staticRules s).lookup key = staticAt s key :=
  Table.lookup_filter_pairs s.rules (fun e => decide (e.spec.origin = .static))
    (fun e => (e.spec, e.isRunning)) key

lemma current_eq (hs : ∀ k e, s.rules.lookup k = some e → e.spec.key = k) :
    ((specs s).filter fun p => p.1.origin = .static).map (fun p => (p.1.key, p.1, p.2))
      = staticRules s := by
  rw [specs, filter_map, map_map]
  refine map_congr_left fun e he => ?_
  have hkey := hs e.1 e.2 (Table.mem_pairs.mp (mem_of_mem_filter he))
  simp only [Function.comp, hkey]

lemma others_eq (s : State) :
    ((specs s).map Prod.fst).filter (fun o => o.origin ≠ .static) = (foreign s).map Prod.snd := by
  rw [specs, map_map, filter_map, foreign, map_map]
  rfl

lemma isSome_find_others (s : State) (spec : RuleSpec) :
    (((foreign s).map Prod.snd).find? fun o => overlaps o spec).isSome = blocked s spec := by
  rw [Bool.eq_iff_iff, find?_isSome, blocked, any_eq_true]
  simp only [mem_map, exists_exists_and_eq_and]

lemma counts_planRule (rule : FileRule) :
    (planRule (staticRules s) ((foreign s).map Prod.snd) plan rule).counts =
      plan.counts.count (reloadedAs s rule (rule.2.isSome || blocked s rule.1)) := by
  obtain ⟨spec, missing⟩ := rule
  simp only [planRule, isSome_find_others, lookup_staticRules_eq, reloadedAs]
  cases staticAt s spec.key with
  | none => cases missing.isSome || blocked s spec <;> rfl
  | some old =>
    obtain ⟨old, running⟩ := old
    by_cases h : old = spec
    · simp [h, ReloadCounts.count]
    simp only [h, if_false]
    cases missing.isSome || blocked s spec <;> rfl

def ConfigPlan.InPlace (key : Key) : Prop :=
  ∃ c ∈ plan.changes, c.rule = key ∧ c.change = .inPlace

lemma inPlace_planRule (rule : FileRule) (key : Key) :
    (planRule (staticRules s) ((foreign s).map Prod.snd) plan rule).InPlace key ↔ plan.InPlace key ∨
      rule.1.key = key ∧ changesInPlace s rule := by
  obtain ⟨spec, missing⟩ := rule
  simp only [planRule, lookup_staticRules_eq, ConfigPlan.InPlace, changesInPlace]
  cases staticAt s spec.key with
  | none => simp [or_and_right, exists_or]
  | some old =>
    obtain ⟨old, running⟩ := old
    by_cases h : old = spec
    · simp [h]
    simp only [h, if_false, mem_append, mem_singleton, or_and_right, exists_or,
      exists_eq_left, changeOf]
    refine or_congr Iff.rfl (and_congr Iff.rfl ?_)
    cases running <;> cases missing <;> cases inPlace old spec <;> simp [h]

lemma foldl_planRemoval (l : List (Key × RuleSpec × Bool)) (plan : ConfigPlan) :
    (l.foldl planRemoval plan).counts
        = { plan.counts with removed := plan.counts.removed + l.length } ∧
      ∀ key, (l.foldl planRemoval plan).InPlace key ↔ plan.InPlace key := by
  induction l generalizing plan with
  | nil => exact ⟨rfl, fun _ => Iff.rfl⟩
  | cons old l ih =>
    obtain ⟨hcounts, hplace⟩ := ih (planRemoval plan old)
    refine ⟨?_, fun key => ?_⟩
    · rw [foldl_cons, hcounts]
      simp only [planRemoval, length_cons, mk.injEq, true_and, and_true]
      omega
    rw [foldl_cons, hplace]
    simp [ConfigPlan.InPlace, planRemoval, or_and_right, exists_or]

lemma foldl_planRule (rules : List FileRule) (plan : ConfigPlan) :
    (rules.foldl (planRule (staticRules s) ((foreign s).map Prod.snd)) plan).counts
        = (rules.map fun r => reloadedAs s r (r.2.isSome || blocked s r.1)).foldl
          ReloadCounts.count plan.counts ∧
      ∀ key, (rules.foldl (planRule (staticRules s) ((foreign s).map Prod.snd)) plan).InPlace
          key ↔
        plan.InPlace key ∨ ∃ rule ∈ rules, rule.1.key = key ∧ changesInPlace s rule = true := by
  induction rules generalizing plan with
  | nil => simp
  | cons rule rules ih =>
    obtain ⟨hcounts, hplace⟩ :=
      ih (planRule (staticRules s) ((foreign s).map Prod.snd) plan rule)
    refine ⟨?_, fun key => ?_⟩
    · rw [foldl_cons, hcounts, counts_planRule]
      rfl
    rw [foldl_cons, hplace, inPlace_planRule]
    simp only [mem_cons, or_and_right, exists_or, exists_eq_left, or_assoc]

lemma planConfig_eq (hs : ∀ k e, s.rules.lookup k = some e → e.spec.key = k)
    {reqs : List (String × RuleRequest)} {rules : List FileRule}
    (hrules : validateStatic cfg reqs = .ok rules) : ∃ plan, planConfig cfg s reqs = .ok plan ∧
      plan.counts = of
        (((staticRules s).map Prod.fst).filter fun k =>
          !(rules.map fun r => r.1.key).contains k).length
        (rules.map fun r => reloadedAs s r (r.2.isSome || blocked s r.1)) ∧
      ∀ key, plan.InPlace key ↔
        ∃ rule ∈ rules, rule.1.key = key ∧ changesInPlace s rule = true := by
  simp only [planConfig, hrules, current_eq hs, others_eq]
  refine ⟨_, rfl, ?_, fun key => ?_⟩
  · rw [(foldl_planRule rules _).1, (foldl_planRemoval _ _).1, length_insertionSort,
      ← foldl_count_eq_of, filter_map, length_map]
    simp only [ConfigPlan.empty, Nat.zero_add]
    rfl
  rw [(foldl_planRule rules _).2, (foldl_planRemoval _ _).2]
  simp [ConfigPlan.InPlace, ConfigPlan.empty]

end
end Rproxy.Registry
