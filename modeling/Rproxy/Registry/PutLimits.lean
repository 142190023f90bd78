import Rproxy.Registry.WithinLimits

/-!
# The limits during a PUT

A PUT of a rule set changes the table rule by rule.
-/

namespace Rproxy
open Table AList List Option
section
variable [External]
namespace Registry
open Prog (All Always)
variable {cfg : Settings} {tokens : String → TokenLimits} {createdBy : CreatedBy} {s t : State}
variable {name token : String} {req : RulesetRequest} {body : List RuleSpec}

/-! ## The rules while a PUT is applied -/

/-- The table while the rules of `body` go in: a key of the body has a rule of the set, in its old
or its new shape, and the other keys have the rules outside the set that they had. -/
structure Applying (s : State) (name : String) (body : List RuleSpec) (t : State) : Prop where
  owners : ∀ k ∉ body.map RuleSpec.key, t.owners.lookup k = s.owners.lookup k
  rules : ∀ k e, t.rules.lookup k = some e →
    (∃ spec ∈ body, spec.key = k ∧ (e.spec = spec ∨ s.specAt k = some e.spec)) ∨
    k ∉ body.map RuleSpec.key ∧ s.specAt k = some e.spec ∧ e.spec.ruleset ≠ some name

structure OwnBody (s : State) (name : String) (body : List RuleSpec) : Prop where
  rules : ∀ spec ∈ body, spec.ruleset = some name ∧ spec.origin ≠ .static
  ours : ∀ spec ∈ body, ∀ old, s.specAt spec.key = some old → old.ruleset = some name

def allowances (s : State) (name : String) (body : List RuleSpec) (f : RuleSpec → Nat)
    (w : RuleSpec → Nat) : List (Key × Nat) :=
  (s.rules.pairs.filter fun e => decide (e.2.spec.ruleset ≠ some name)).map
      (fun e => (e.1, f e.2.spec)) ++
    body.map fun spec => (spec.key, w spec)

lemma sum_allowances (f w : RuleSpec → Nat) : ((allowances s name body f w).map Prod.snd).sum
      = (s.rules.total fun e => if e.spec.ruleset ≠ some name then f e.spec else 0)
        + (body.map w).sum := by
  rw [allowances, List.map_append, List.sum_append, List.map_map, List.map_map,
    ← sum_filter_eq_total s.rules (fun e => e.spec.ruleset ≠ some name) fun e => f e.spec]
  rfl

lemma total_le_allowances (h : Applying s name body t) {f w : RuleSpec → Nat} {g : Entry → Nat}
    (hout : ∀ k e, t.rules.lookup k = some e → k ∉ body.map RuleSpec.key →
      s.specAt k = some e.spec → g e ≤ f e.spec)
    (hin : ∀ spec ∈ body, ∀ e, t.rules.lookup spec.key = some e →
      (e.spec = spec ∨ s.specAt spec.key = some e.spec) → g e ≤ w spec) :
    t.rules.total g ≤ ((allowances s name body f w).map Prod.snd).sum := by
  refine total_le_of_cover fun k e he => ?_
  rcases h.rules k e he with ⟨spec, hspec, rfl, hshape⟩ | ⟨hk, hold, hset⟩
  · exact ⟨w spec, mem_append_right _ (mem_map.mpr ⟨spec, hspec, rfl⟩), hin spec hspec e he hshape⟩
  obtain ⟨e₀, he₀, heq⟩ := map_eq_some_iff.mp hold
  refine ⟨f e₀.spec, mem_append_left _ (mem_map.mpr ⟨(k, e₀), ?_, rfl⟩), ?_⟩
  · refine mem_filter.mpr ⟨mem_pairs.mpr he₀, decide_eq_true ?_⟩
    rw [heq]
    exact hset
  rw [heq]
  exact hout k e he hk hold

lemma keyed_applying (hs : Settled cfg tokens createdBy s) (h : Applying s name body t)
    (k : Key) (e : Entry) (he : t.rules.lookup k = some e) : e.spec.key = k := by
  have hold : s.specAt k = some e.spec → e.spec.key = k := by
    intro hold
    obtain ⟨e₀, he₀, heq⟩ := map_eq_some_iff.mp hold
    rw [← heq]
    exact hs.keyed k e₀ he₀
  rcases h.rules k e he with ⟨spec, -, rfl, rfl | hshape⟩ | ⟨-, hshape, -⟩
  · rfl
  · exact hold hshape
  · exact hold hshape

lemma count_applying (h : Applying s name body t) : t.rules.pairs.length
    ≤ (s.rules.total fun e => if e.spec.ruleset ≠ some name then 1 else 0) + body.length := by
  have hle := total_le_allowances h (f := fun _ => 1) (w := fun _ => 1) (g := fun _ => 1)
    (fun _ _ _ _ _ => le_rfl) fun _ _ _ _ _ => le_rfl
  rw [sum_allowances, total_one] at hle
  simpa using hle

lemma sockets_applying (h : Applying s name (bodySpecs cfg name req) t) :
    sockets t ≤ peak cfg s name req := by
  have hle := total_le_allowances h (f := Quota.sockets) (g := fun e => Quota.sockets e.spec)
    (w := fun spec => max (Quota.sockets spec) (((s.specAt spec.key).map Quota.sockets).getD 0))
    (fun _ _ _ _ _ => le_rfl) fun spec _ e _ hshape => ?_
  · rw [sum_allowances] at hle
    refine hle.trans (Nat.add_le_add_right ?_ _)
    refine le_of_eq (total_congr fun k e _ => ?_)
    by_cases hset : e.spec.ruleset = some name <;> simp [hset]
  rcases hshape with rfl | hold
  · exact le_max_left _ _
  rw [hold]
  exact le_max_right _ _

lemma owned_applying (hs : Settled cfg tokens createdBy s) (hown : OwnBody s name body)
    (h : Applying s name body t) (hsets : ∀ n ≠ name, t.sets.lookup n = s.sets.lookup n)
    (hname : ∀ st, t.sets.lookup name = some st → st.owner = token) (other : String) :
    owned createdBy t other
      ≤ (s.rules.total fun e => if e.spec.ruleset ≠ some name then ownedOne createdBy s other e
          else 0) + if other = token then body.length else 0 := by
  have hle := total_le_allowances h (f := fun spec =>
      if ownerOf createdBy s spec = .token other then 1 else 0)
    (w := fun _ => if other = token then 1 else 0) (g := ownedOne createdBy t other) ?_ ?_
  · rw [sum_allowances] at hle
    refine hle.trans (Nat.add_le_add_left ?_ _)
    by_cases hother : other = token <;> simp [hother]
  · intro k e he hk hold
    have hkey : e.spec.key = k := keyed_applying hs h k e he
    have hset : e.spec.ruleset ≠ some name := by
      rcases h.rules k e he with ⟨spec, hspec, rfl, -⟩ | ⟨-, -, hset⟩
      · exact absurd (mem_map.mpr ⟨spec, hspec, rfl⟩) hk
      · exact hset
    have howner : ownerOf createdBy t e.spec = ownerOf createdBy s e.spec := by
      simp only [ownerOf, Locked.ownerOf]
      cases hrule : e.spec.ruleset with
      | none => simp only [h.owners e.spec.key (hkey ▸ hk)]
      | some n => simp only [hsets n fun heq => hset (hrule.trans (congrArg some heq))]
    rw [ownedOne, howner]
  intro spec hspec e he hshape
  have hset : e.spec.ruleset = some name := by
    rcases hshape with rfl | hold
    · exact (hown.rules _ hspec).1
    · exact hown.ours spec hspec _ hold
  by_cases hother : other = token
  · rw [if_pos hother]
    exact ownedOne_le_one _ _ _ _
  rw [if_neg hother, ownedOne, if_neg]
  simp only [ownerOf, Locked.ownerOf, hset]
  split
  · simp
  cases hst : t.sets.lookup name with
  | none => simp
  | some st =>
    intro heq
    rw [← hname st hst] at hother
    exact hother (Owner.token.inj heq).symm

structure PutRoom (cfg : Settings) (tokens : String → TokenLimits) (createdBy : CreatedBy)
    (s : State) (name token : String) (req : RulesetRequest) : Prop where
  rules : (s.rules.total fun e => if e.spec.ruleset ≠ some name then 1 else 0)
    + (bodySpecs cfg name req).length ≤ cfg.maxRules
  sockets : peak cfg s name req + cfg.http01Listen.length ≤ cfg.maxListeners
  owned : ∀ max, (tokens token).maxRules = some max →
    (s.rules.total fun e => if e.spec.ruleset ≠ some name then ownedOne createdBy s token e else 0)
      + (bodySpecs cfg name req).length ≤ max
  sets : s.sets.lookup name = none → s.sets.pairs.length + 1 ≤ cfg.maxRulesets ∧
    ∀ max, (tokens token).maxRulesets = some max → ownedSets s token + 1 ≤ max
  owner : ∀ st, s.sets.lookup name = some st → st.owner = token
  own : OwnBody s name (bodySpecs cfg name req)

lemma total_outside_le (f : Entry → Nat) (s : State) (name : String) :
    (s.rules.total fun e => if e.spec.ruleset ≠ some name then f e else 0) ≤ s.rules.total f := by
  refine total_mono (fun e => ?_) s.rules
  split
  · exact le_rfl
  · exact Nat.zero_le _

section
variable (hs : Settled cfg tokens createdBy s)
  (hroom : PutRoom cfg tokens createdBy s name token req)
  (h : Applying s name (bodySpecs cfg name req) t)
include hs hroom h

lemma owned_le_of_room (hsets : ∀ n ≠ name, t.sets.lookup n = s.sets.lookup n)
    (hname : ∀ st, t.sets.lookup name = some st → st.owner = token) {other : String} {max : Nat}
    (hmax : (tokens other).maxRules = some max) : owned createdBy t other ≤ max := by
  have hle := owned_applying hs hroom.own h hsets hname other
  by_cases hother : other = token
  · subst hother
    rw [if_pos rfl] at hle
    exact hle.trans (hroom.owned max hmax)
  rw [if_neg hother] at hle
  have hout := total_outside_le (ownedOne createdBy s other) s name
  have hbefore : s.rules.total (ownedOne createdBy s other) ≤ max := hs.within.owned other max hmax
  omega

lemma within_applying (hsets : t.sets = s.sets) : WithinLimits cfg tokens createdBy t := by
  refine ⟨(count_applying h).trans hroom.rules, ?_, ?_, fun other max hmax => ?_,
    fun other max hmax => ?_⟩
  · have := sockets_applying h
    have := hroom.sockets
    omega
  · rw [hsets]
    exact hs.within.sets
  · refine owned_le_of_room hs hroom h (fun n _ => by rw [hsets]) ?_ hmax
    rw [hsets]
    exact hroom.owner
  rw [ownedSets, hsets]
  exact hs.within.ownedSets other max hmax

lemma settled_putSet (hsets : t.sets = s.sets) {st : SetState} (howner : st.owner = token)
    (env : Env) : Settled cfg tokens createdBy (exec cfg (.putSet name (some st)) env t).1 := by
  have hwithin := within_applying hs hroom h hsets
  have happlied : Applying s name (bodySpecs cfg name req)
      { t with sets := t.sets.insert name st } := ⟨h.owners, h.rules⟩
  have herase : s.sets.lookup name = none → s.sets.erase name = s.sets := fun hold =>
    AList.ext (kerase_of_notMem_keys (lookup_eq_none.mp hold))
  refine ⟨⟨hwithin.rules, hwithin.sockets, ?_, fun other max hmax => ?_,
    fun other max hmax => ?_⟩, fun k e he => keyed_applying hs happlied k e he,
    fun k e n he hn => ?_⟩
  · change (Table.pairs (t.sets.insert name st)).length ≤ _
    rw [hsets, ← total_one, total_insert]
    cases hold : s.sets.lookup name with
    | none =>
      have := (hroom.sets hold).1
      rw [herase hold, total_one]
      omega
    | some old =>
      have hbefore := hs.within.sets
      rw [← total_one, total_of_lookup hold] at hbefore
      exact hbefore
  · refine owned_le_of_room hs hroom happlied (fun n hn => ?_) (fun st' hst' => ?_) hmax
    · rw [lookup_insert_ne hn, hsets]
    cases hst'.symm.trans (lookup_insert _)
    exact howner
  · change Table.total _ (t.sets.insert name st) ≤ _
    rw [hsets, total_insert]
    cases hold : s.sets.lookup name with
    | none =>
      have hbefore := hs.within.ownedSets other max hmax
      rw [herase hold]
      rw [ownedSets] at hbefore
      by_cases hother : other = token
      · subst hother
        have := (hroom.sets hold).2 max hmax
        rw [ownedSets] at this
        rw [if_pos howner]
        omega
      rw [if_neg fun heq => hother (heq.symm.trans howner)]
      omega
    | some old =>
      have hbefore := hs.within.ownedSets other max hmax
      rw [ownedSets, total_of_lookup hold, hroom.owner old hold] at hbefore
      rw [howner]
      exact hbefore
  change n ∈ t.sets.insert name st ∧ _
  rw [mem_insert]
  have hold : s.specAt k = some e.spec → n ∈ s.sets ∧ e.spec.origin ≠ .static := by
    intro hold
    obtain ⟨e₀, he₀, heq⟩ := map_eq_some_iff.mp hold
    rw [← heq] at hn ⊢
    exact hs.recorded k e₀ n he₀ hn
  rcases h.rules k e he with ⟨spec, hspec, rfl, rfl | hshape⟩ | ⟨-, hshape, -⟩
  · obtain ⟨hset, horigin⟩ := hroom.own.rules _ hspec
    exact ⟨.inl (Option.some.inj (hn.symm.trans hset)), horigin⟩
  · rw [hsets]
    exact ⟨.inr (hold hshape).1, (hold hshape).2⟩
  rw [hsets]
  exact ⟨.inr (hold hshape).1, (hold hshape).2⟩

end

/-! ## The sections of a PUT -/

def BodyOp (body : List RuleSpec) : Op → Prop
  | .create spec fixing token => spec ∈ body ∧ fixing = false ∧ token = none
  | .apply k spec => spec ∈ body ∧ spec.key = k
  | .insertFailed _ spec _ _ => spec ∈ body
  | .removeMember _ _ | .prepare _ | .register _ _ | .stop _ | .kill _ | .abort _
  | .outcome _ _ => True
  | _ => False

lemma owners_create {spec : RuleSpec} {k : Key} (env : Env) (hk : k ≠ spec.key) :
    (exec cfg (.create spec false none) env t).1.owners.lookup k = t.owners.lookup k := by
  simp only [exec, Locked.create]
  split
  · rfl
  split
  · rfl
  · exact lookup_erase_ne hk

lemma applying_exec {o : Op} (h : Applying s name body t) (ho : BodyOp body o) (env : Env) :
    Applying s name body (exec cfg o env t).1 := by
  refine ⟨fun k hk => ?_, fun k e he => ?_⟩
  · have hframe := (frame_exec cfg o env t).owners
    rw [← h.owners k hk]
    cases o with
    | create spec fixing token =>
      obtain ⟨hspec, rfl, rfl⟩ := ho
      refine owners_create env ?_
      rintro rfl
      exact hk (mem_map.mpr ⟨spec, hspec, rfl⟩)
    | apply | insertFailed | removeMember | prepare | register | stop | kill | abort | outcome =>
      rw [hframe trivial]
    | _ => exact ho.elim
  have heff := effect_exec cfg o env t k
  rw [he] at heff
  generalize hbefore : t.rules.lookup k = before at heff
  cases heff with
  | keep => exact h.rules k e hbefore
  | @created spec _ _ _ hkey => exact .inl ⟨spec, ho.1, hkey, .inl rfl⟩
  | @changed spec | @applied spec | @patched spec => exact .inl ⟨spec, ho.1, ho.2, .inl rfl⟩
  | @failed _ spec _ _ _ hkey => exact .inl ⟨spec, ho, hkey, .inl rfl⟩
  | @restarted o _ _ _ _ hp | @noted o _ _ _ _ _ hp =>
    cases o <;> first | exact ho.elim | cases hp
  | expired | supervised | quieted => exact ho.elim

lemma bodyOp_stopEntry : ∀ e : Entry, (stopEntry e).All (BodyOp body) :=
  all_stopEntry (fun _ => trivial) (fun _ => trivial) fun _ => trivial

variable {spec : RuleSpec}

lemma bodyOp_of_installs {o : Op} {key : Key} (hspec : spec ∈ body ∧ spec.key = key)
    (ho : o.installs key spec) : BodyOp body o := by
  cases o with
  | create s fixing token => exact ⟨ho.1 ▸ hspec.1, ho.2⟩
  | insertFailed generation s e retry => exact ho ▸ hspec.1
  | apply k s => exact ho.1 ▸ ho.2 ▸ hspec
  | removeMember | prepare | register | stop | kill | abort => trivial
  | _ => exact ho.elim

lemma Op.keepsSets_of_bodyOp {o : Op} (h : BodyOp body o) : o.keepsSets := by
  cases o <;> first | exact h.elim | trivial

def InProgress (s : State) (name : String) (body : List RuleSpec) (t : State) : Prop :=
  Applying s name body t ∧ t.sets = s.sets

variable {steps : List Step} {opts : PutOptions}

lemma inProgress_dropMembers (hplan : Planned cfg name req opts s steps) (env : Env) :
    InProgress s name (bodySpecs cfg name req) (exec cfg (.dropMembers name
      ((steps.filter fun st => st.action = .delete).map Step.key)) env s).1 := by
  have hkeys : ∀ k, k ∈ (steps.filter fun st => st.action = .delete).map Step.key ↔
      k ∉ (bodySpecs cfg name req).map RuleSpec.key ∧
        ∃ e, s.rules.lookup k = some e ∧ e.spec.ruleset = some name := by
    intro k
    obtain ⟨drops, hdrops, rfl⟩ := hplan.steps
    obtain ⟨hdropKeys, hdelete⟩ := of_dropSteps hdrops
    have hwanted : (validRules cfg.caps name 0 req.rules).map (fun r => r.2.key)
        = (bodySpecs cfg name req).map RuleSpec.key := by
      rw [bodySpecs, List.map_map]
      rfl
    rw [← hwanted, ← mem_droppedRules, ← hdropKeys, filter_append]
    have hnone : ((validRules cfg.caps name 0 req.rules).map (stepOf (Locked.snapshot s))).filter
        (fun st => st.action = .delete) = [] := by
      rw [filter_eq_nil_iff]
      intro step hstep
      obtain ⟨r, -, rfl⟩ := mem_map.mp hstep
      simpa using (key_stepOf (Locked.snapshot s) r).2.2
    have hall : drops.filter (fun st => st.action = .delete) = drops := by
      rw [filter_eq_self]
      intro step hstep
      exact decide_eq_true (hdelete step hstep).1
    rw [hnone, hall]
    simp
  refine ⟨⟨fun k _ => rfl, fun k e he => ?_⟩, rfl⟩
  change (Locked.dropMembers s name _).1.rules.lookup k = some e at he
  by_cases hk : k ∈ (steps.filter fun st => st.action = .delete).map Step.key
  · obtain ⟨hbody, e₀, he₀, hset⟩ := (hkeys k).mp hk
    rw [lookup_dropMembers_of_mem hk he₀ hset] at he
    cases he
  rw [lookup_dropMembers_of_notMem hk] at he
  have hold : s.specAt k = some e.spec := map_eq_some_iff.mpr ⟨e, he, rfl⟩
  by_cases hbody : k ∈ (bodySpecs cfg name req).map RuleSpec.key
  · obtain ⟨spec, hspec, rfl⟩ := mem_map.mp hbody
    exact .inl ⟨spec, hspec, rfl, .inr hold⟩
  · exact .inr ⟨hbody, hold, fun hset => hk ((hkeys k).mpr ⟨hbody, e, he, hset⟩)⟩

lemma spec_of_planned
    (hplan : Planned cfg name req opts s steps) {step : Step} (hstep : step ∈ steps) :
    ∀ spec, step.spec = some spec → spec ∈ bodySpecs cfg name req ∧ spec.key = step.key := by
  obtain ⟨drops, hdrops, rfl⟩ := hplan.steps
  intro spec hspec
  rcases mem_append.mp hstep with hstep | hstep
  · obtain ⟨r, hr, rfl⟩ := mem_map.mp hstep
    obtain ⟨hkey, hspec', -⟩ := key_stepOf (Locked.snapshot s) r
    cases hspec'.symm.trans hspec
    exact ⟨mem_map.mpr ⟨r, hr, rfl⟩, hkey.symm⟩
  have hnone := ((of_dropSteps hdrops).2 step hstep).2
  cases hnone.symm.trans hspec

lemma stays_applySteps (hs : Settled cfg tokens createdBy s)
    (hroom : PutRoom cfg tokens createdBy s name token req)
    (hplan : Planned cfg name req opts s steps)
    (howner : (opts.owner.or ((s.sets.lookup name).map SetState.owner)).getD opts.token = token) :
    Stays cfg tokens createdBy (applySteps cfg name req opts (s.sets.lookup name) steps)
      (fun _ => Settled cfg tokens createdBy) s := by
  have hkeep : ∀ (o : Op) (env : Env) (t : State), BodyOp (bodySpecs cfg name req) o →
      env.createdBy = createdBy → InProgress s name (bodySpecs cfg name req) t →
      InProgress s name (bodySpecs cfg name req) ((machine cfg).exec o env t).1 := by
    intro o env t ho _ ht
    exact ⟨applying_exec ht.1 ho env,
      ((frame_exec cfg o env t).sets (Op.keepsSets_of_bodyOp ho)).trans ht.2⟩
  have hwithin : ∀ t, InProgress s name (bodySpecs cfg name req) t →
      WithinLimits cfg tokens createdBy t := fun t ht => within_applying hs hroom ht.1 ht.2
  refine ⟨hs.within, fun env _ => ?_⟩
  have hstop : ∀ removed : List Entry, (Prog.forEach stopEntry removed).All
      (BodyOp (bodySpecs cfg name req)) := fun removed =>
    All.forEach fun e _ => bodyOp_stopEntry e
  have hdrop : InProgress s name (bodySpecs cfg name req) ((machine cfg).exec (.dropMembers name
      ((steps.filter fun st => st.action = .delete).map Step.key)) env s).1 :=
    inProgress_dropMembers hplan env
  refine (Always.of_all hkeep hwithin (hstop _) hdrop).bind fun _ t₁ _ ht₁ => ?_
  have hsteps : (Prog.mapEach (applyStep cfg) steps).All (BodyOp (bodySpecs cfg name req)) :=
    All.mapEach fun step hstep => all_applyStep fun spec hspec _ =>
      bodyOp_of_installs (spec_of_planned hplan hstep spec hspec)
  refine (Always.of_all hkeep hwithin hsteps ht₁).bind fun results t₂ hin₂ ht₂ => ?_
  refine ⟨hin₂, fun env₂ henv => ?_⟩
  have ht₃ := hkeep (.outcome name (steps.map Step.key)) env₂ t₂ trivial henv ht₂
  refine ⟨hwithin _ ht₃, fun env _ => ?_⟩
  have hset : ∀ etag, Settled cfg tokens createdBy (exec cfg (.putSet name (some
      { generation := req.generation, etag, updatedBy := opts.token
        owner := (opts.owner.or ((s.sets.lookup name).map SetState.owner)).getD opts.token })) env
      ((machine cfg).exec (.outcome name (steps.map Step.key)) env₂ t₂).1).1 := fun etag =>
    settled_putSet hs hroom ht₃.1 ht₃.2 howner env
  exact ⟨(hset _).within, hset _⟩

/-! ## The checks of a PUT -/

lemma kept_snapshot (s : State) (name : String) :
    ((Locked.snapshot s).filter fun c => !c.2.ours name)
      = (s.rules.pairs.filter fun e => decide (e.2.spec.ruleset ≠ some name)).map
        fun e => (e.1, Current.of e.2) := by
  rw [Locked.snapshot, List.filter_map]
  congr 2
  funext e
  simp [Function.comp, Current.ours, spec_current]

lemma length_kept (s : State) (name : String) :
    ((Locked.snapshot s).filter fun c => !c.2.ours name).length
      = s.rules.total fun e => if e.spec.ruleset ≠ some name then 1 else 0 := by
  have h := sum_filter_eq_total s.rules (fun e => e.spec.ruleset ≠ some name) fun _ => 1
  rw [kept_snapshot, ← h]
  simp

lemma length_ours (s : State) (name : String) :
    ((Locked.snapshot s).filter fun c => c.2.ours name).length
      = s.rules.total fun e => if e.spec.ruleset = some name then 1 else 0 := by
  have h := sum_filter_eq_total s.rules (fun e => e.spec.ruleset = some name) fun _ => 1
  rw [← h, Locked.snapshot, List.filter_map]
  simp [Function.comp_def, Current.ours, spec_current]

lemma ownedBy_kept (env : Env) (henv : env.createdBy = createdBy) (name token : String) :
    ((((Locked.snapshot s).filter fun c => !c.2.ours name).map fun c => c.2.spec).filter
        fun spec => Locked.ownerOf env s spec = .token token).length
      = s.rules.total fun e =>
        if e.spec.ruleset ≠ some name then ownedOne createdBy s token e else 0 := by
  subst henv
  rw [← sum_filter_eq_total s.rules (fun e => e.spec.ruleset ≠ some name), kept_snapshot,
    List.map_map]
  refine (length_filter_eq_sum _ fun spec =>
    ownerOf env.createdBy s spec = .token token).trans ?_
  rw [List.map_map]
  refine congrArg List.sum (List.map_congr_left fun e _ => ?_)
  simp only [Function.comp, spec_current, ownedOne]

section
variable (cfg : Settings) (createdBy : CreatedBy) (s : State) (name : String)
  (currentSet : Option SetState) (specs : List (Nat × RuleSpec)) (opts : PutOptions)
  (limits : SetLimits)

/-- A set of the token's own that adds rules is within its limit. -/
def OwnRulesFit : Prop :=
  ((currentSet.map SetState.owner).or opts.owner).getD opts.token = opts.token →
    ∀ max, limits.maxRules = some max →
      0 < specs.length - (s.rules.total fun e => if e.spec.ruleset = some name then 1 else 0) →
      (s.rules.total fun e =>
          if e.spec.ruleset ≠ some name then ownedOne createdBy s opts.token e else 0)
        + specs.length ≤ max

structure LimitsChecked : Prop where
  rules : let after :=
      (s.rules.total fun e => if e.spec.ruleset ≠ some name then 1 else 0) + specs.length
    0 < after - s.rules.pairs.length → after ≤ cfg.maxRules
  owned : OwnRulesFit createdBy s name currentSet specs opts limits
  sets : currentSet = none → s.sets.pairs.length + 1 ≤ cfg.maxRulesets ∧
    ∀ max, limits.maxRulesets = some max → ownedSets s opts.token + 1 ≤ max

end
section
variable (hs : WithinLimits cfg tokens createdBy s)
include hs

lemma stays_check {α : Type} (r : Except ApiError α) : Stays cfg tokens createdBy (check r).run
      (fun r' s' => s' = s ∧ ∀ a, r' = .ok a → r = .ok a) s := by
  refine ⟨hs, rfl, fun a ha => ?_⟩
  cases r with
  | error e => cases ha
  | ok b =>
    cases ha
    rfl

variable {currentSet : Option SetState} {specs : List (Nat × RuleSpec)} {opts : PutOptions}
variable {limits : SetLimits}

lemma stays_checkOwnRules : Stays cfg tokens createdBy
      (checkOwnRules name currentSet (Locked.snapshot s) specs opts limits).run
      (fun r s' => s' = s ∧ (r = .ok () →
        OwnRulesFit createdBy s name currentSet specs opts limits)) s := by
  unfold checkOwnRules
  split
  · refine ⟨hs, fun env henv => ?_⟩
    refine (stays_check (s := s) hs _).mono fun r s' _ hpost =>
      ⟨hpost.1, fun hr _ max hmax hadds => ?_⟩
    have hcheck := checkToken_eq_ok.mp (hpost.2 () hr) max hmax
    rw [length_ours] at hcheck
    have hothers : ((machine cfg).exec (.ownedBy opts.token
        (((Locked.snapshot s).filter fun c => !c.2.ours name).map fun c => c.2.spec)) env s).2
        = s.rules.total fun e =>
          if e.spec.ruleset ≠ some name then ownedOne createdBy s opts.token e else 0 :=
      ownedBy_kept env henv name opts.token
    rw [← hothers]
    exact hcheck hadds
  next hnot => exact ⟨hs, rfl, fun _ h => absurd h hnot⟩

lemma stays_checkNewSet : Stays cfg tokens createdBy (checkNewSet cfg currentSet opts limits).run
      (fun r s' => s' = s ∧ (r = .ok () → currentSet = none →
        s.sets.pairs.length + 1 ≤ cfg.maxRulesets ∧
          ∀ max, limits.maxRulesets = some max → ownedSets s opts.token + 1 ≤ max)) s := by
  unfold checkNewSet
  split
  · refine ⟨hs, fun env henv => ?_⟩
    refine Always.bind_except (stays_check (s := s) hs _) (fun e s' hpost => ⟨hpost.1, nofun⟩)
      fun u s' hpost => ?_
    obtain ⟨rfl, hsets⟩ := hpost
    refine (stays_check (s := s') hs _).mono fun r s'' _ hpost => ⟨hpost.1, fun hr _ => ⟨?_, ?_⟩⟩
    · exact checkRulesets_eq_ok.mp (hsets () rfl)
    intro max hmax
    have hcheck := checkToken_eq_ok.mp (hpost.2 () hr) max hmax Nat.one_pos
    refine le_trans (Nat.add_le_add_right (le_of_eq ?_) 1) hcheck
    exact (length_filter_eq_sum s'.sets.pairs fun p => p.2.owner = opts.token).symm
  next hnot => exact ⟨hs, rfl, fun _ h => absurd h hnot⟩

lemma stays_refuseWith (problems : List SetFinding) :
    Stays cfg tokens createdBy (refuseWith problems).run (fun _ s' => s' = s) s := ⟨hs, rfl⟩

lemma stays_checkSetLimits (hlimits : opts.limits = some limits) : Stays cfg tokens createdBy
      (checkSetLimits cfg name currentSet (Locked.snapshot s) specs opts).run
      (fun r s' => s' = s ∧
        (r = .ok () → LimitsChecked cfg createdBy s name currentSet specs opts limits)) s := by
  unfold checkSetLimits
  simp only [hlimits]
  refine Always.bind_except (stays_refuseWith hs _) (fun e s' hpost => ⟨hpost, nofun⟩)
    fun _ s₁ h₁ => ?_
  subst h₁
  refine Always.bind_except (stays_check hs _) (fun e s' hpost => ⟨hpost.1, nofun⟩)
    fun _ s₂ h₂ => ?_
  obtain ⟨rfl, hprocess⟩ := h₂
  refine Always.bind_except (stays_checkOwnRules hs) (fun e s' hpost => ⟨hpost.1, nofun⟩)
    fun _ s₃ h₃ => ?_
  obtain ⟨rfl, howned⟩ := h₃
  refine (stays_checkNewSet hs).mono fun r s₄ _ h₄ => ⟨h₄.1, fun hr => ?_⟩
  obtain ⟨hrules, -⟩ := checkProcess_eq_ok.mp (hprocess () rfl)
  rw [length_kept, length_snapshot] at hrules
  exact ⟨hrules, howned rfl, h₄.2 hr⟩

lemma stays_readOnly {α : Type} {p : Program α} (hp : p.All Op.readOnly) :
    Stays cfg tokens createdBy p (fun _ s' => s' = s) s := by
  refine Always.of_all (J := (· = s)) ?_ (fun t ht => ht ▸ hs) hp rfl
  rintro o env t ho - rfl
  exact exec_readOnly ho env t

lemma stays_planRuleset (hlimits : opts.limits = some limits) :
    Stays cfg tokens createdBy (planRuleset cfg name req opts currentSet).run
      (fun r s' => s' = s ∧ ∀ steps, r = .ok steps →
        LimitsChecked cfg createdBy s name currentSet (validRules cfg.caps name 0 req.rules) opts
          limits) s := by
  refine Always.bind_except (stays_refuseWith hs _) (fun e s' hpost => ⟨hpost, nofun⟩)
    fun _ s₁ h₁ => ?_
  subst h₁
  refine ⟨hs, fun env _ => ⟨hs, fun env' _ => ?_⟩⟩
  refine Always.bind_except (stays_refuseWith (s := s₁) hs _) (fun e s' hpost => ⟨hpost, nofun⟩)
    fun _ s₂ h₂ => ?_
  subst h₂
  refine Always.bind_except (stays_checkSetLimits hs hlimits)
    (fun e s' hpost => ⟨hpost.1, nofun⟩) fun _ s₃ h₃ => ?_
  obtain ⟨rfl, hchecked⟩ := h₃
  have hbuild : ∀ steps : List Step, ((liftM (Prog.mapEach buildStep steps) :
      ExceptT SetError Program (List (List SetFinding))).run).All Op.readOnly := fun steps =>
    (All.mapEach fun step _ => all_buildStep step).bind fun _ => trivial
  refine Always.bind_except (stays_readOnly hs (hbuild _)) (fun e s' hpost => ⟨hpost, nofun⟩)
    fun problems s₄ h₄ => ?_
  subst h₄
  refine Always.bind_except (stays_check hs _) (fun e s' hpost => ⟨hpost.1, nofun⟩)
    fun drops s₅ h₅ => ?_
  obtain ⟨rfl, -⟩ := h₅
  refine Always.bind_except (stays_refuseWith hs _) (fun e s' hpost => ⟨hpost, nofun⟩)
    fun _ s₆ h₆ => ?_
  subst h₆
  exact ⟨hs, rfl, fun _ _ => hchecked rfl⟩

end

lemma ownBody_of_planned (hplan : Planned cfg name req opts s steps) :
    OwnBody s name (bodySpecs cfg name req) := by
  refine ⟨fun spec hspec => ?_, fun spec hspec old hold => ?_⟩
  · obtain ⟨r, -, spec₀, hvalid, rfl⟩ := mem_validRules.mp hspec
    refine ⟨rfl, ?_⟩
    rw [(valid_of_validate hvalid).2.1]
    decide
  obtain ⟨r, hr, rfl⟩ := mem_map.mp hspec
  obtain ⟨e, he, rfl⟩ := map_eq_some_iff.mp hold
  obtain ⟨hours, -⟩ := taken_eq_none (reservedClash_of_conflict (hplan.free r hr)).2
  have h := hours (Current.of e) (by rw [lookup_snapshot, he]; rfl)
  rw [← spec_current e]
  exact of_decide_eq_true h

lemma owned_eq_outside_add (hs : Settled cfg tokens createdBy s)
    (howner : ∀ st, s.sets.lookup name = some st → st.owner = token) :
    owned createdBy s token
      = (s.rules.total fun e => if e.spec.ruleset ≠ some name then ownedOne createdBy s token e
          else 0)
        + s.rules.total fun e => if e.spec.ruleset = some name then 1 else 0 := by
  rw [← total_add]
  refine total_congr fun k e he => ?_
  by_cases hset : e.spec.ruleset = some name
  · obtain ⟨hrecorded, horigin⟩ := hs.recorded k e name he hset
    obtain ⟨st, hst⟩ := isSome_iff_exists.mp (lookup_isSome.mpr hrecorded)
    have hmine : ownerOf createdBy s e.spec = .token token := by
      simp only [ownerOf, Locked.ownerOf, hset, hst, if_neg horigin]
      exact congrArg Owner.token (howner st hst)
    simp [hset, hmine]
  · simp [hset, ownedOne]

variable {h : PutHeaders}

lemma putRoom_of_checked (hs : Settled cfg tokens createdBy s)
    (hplan : Planned cfg name req (h.options (tokens token) token) s steps)
    (hchecked : LimitsChecked cfg createdBy s name (s.sets.lookup name)
      (validRules cfg.caps name 0 req.rules) (h.options (tokens token) token) limits)
    (hrules : limits.maxRules = (tokens token).maxRules)
    (hsets : limits.maxRulesets = (tokens token).maxRulesets)
    (hcounted : (ApiCall.put token name req h).Counted cfg s) :
    PutRoom cfg tokens createdBy s name token req := by
  obtain ⟨howner, hpeak⟩ := hcounted
  have hlength : (validRules cfg.caps name 0 req.rules).length = (bodySpecs cfg name req).length :=
    (length_map _).symm
  have hmine : (((s.sets.lookup name).map SetState.owner).or none).getD token = token := by
    cases hst : s.sets.lookup name with
    | none => rfl
    | some st => exact howner st hst
  refine ⟨?_, hpeak, fun max hmax => ?_, ?_, howner, ownBody_of_planned hplan⟩
  · have hafter := hchecked.rules
    have := hs.within.rules
    omega
  · have hadds := hchecked.owned hmine max (hrules.trans hmax)
    rw [hlength] at hadds
    have hbefore := hs.within.owned token max hmax
    rw [owned_eq_outside_add hs howner] at hbefore
    -- a body no longer than the set leaves the token with no more rules than it had
    by_cases hmore : 0 < (bodySpecs cfg name req).length
        - s.rules.total fun e => if e.spec.ruleset = some name then 1 else 0
    · exact hadds hmore
    · omega
  intro hnew
  obtain ⟨hall, hown⟩ := hchecked.sets hnew
  exact ⟨hall, fun max hmax => hown max (hsets.trans hmax)⟩

lemma stays_apiPut (hs : Settled cfg tokens createdBy s)
    (hcounted : (ApiCall.put token name req h).Counted cfg s) :
    Stays cfg tokens createdBy (apiPut cfg (tokens token) token name req h)
      (fun _ => Settled cfg tokens createdBy) s := by
  unfold apiPut putRuleset
  split
  · exact ⟨hs.within, hs⟩
  rw [Prog.perform_bind]
  refine ⟨hs.within, fun env _ => ?_⟩
  dsimp only
  split
  · exact ⟨hs.within, hs⟩
  refine (stays_planRuleset hs.within rfl).and_runs.bind fun r s' _ hpost => ?_
  obtain ⟨⟨rfl, hchecked⟩, hruns⟩ := hpost
  rcases r with e | steps
  · exact ⟨hs.within, hs⟩
  have hplan := planned_of_runs hruns
  dsimp only
  split
  · exact ⟨hs.within, hs⟩
  have hroom := putRoom_of_checked hs hplan (hchecked steps rfl) rfl rfl hcounted
  refine (stays_applySteps hs hroom hplan ?_).bind fun _ t hin ht => ⟨hin, ht⟩
  cases hst : s'.sets.lookup name with
  | none => rfl
  | some st => exact hroom.owner st hst

/-! ## Runs -/

/-- **The limits are kept** in every state of a run, if the calls that count only once run alone and
count everything. -/
theorem withinLimits_of_countedAlone (cfg : Settings) (tokens : String → TokenLimits)
    (createdBy : CreatedBy) {s₀ : State} {x : Configuration Op Ret State ApiCall}
    (h₀ : Settled cfg tokens createdBy s₀)
    (hx : (apiSystem cfg tokens).Reach (CountedAlone cfg tokens createdBy) ⟨s₀, []⟩ x) :
    WithinLimits cfg tokens createdBy x.state := by
  refine hx.exclusive (J := Settled cfg tokens createdBy) (F := ApiCall.free tokens)
    (P := FreeOp tokens) (E := fun env => env.createdBy = createdBy) h₀ (fun _ hs => hs.within)
    (fun _ _ env (hcond : env.createdBy = createdBy) => hcond) (fun _ _ hcond => hcond.2) ?_
    (fun o env s ho _ hs => settled_free hs ho) ?_
  · intro x c s hfree _ hs hbegins
    cases hbegins
    refine ⟨hs, ?_⟩
    cases c with
    | create token persist req => exact (free_apiCreate hfree).bind fun _ => trivial
    | update token key u | put token name req h => exact hfree.elim
  intro x c s _ hcond hs hbegins
  cases hbegins
  obtain ⟨hcounted, -⟩ := hcond
  cases c with
  | create token persist req =>
    exact (stays_apiCreate hs).bind fun _ t hin ht => ⟨hin, ht⟩
  | update token key u =>
    exact (stays_apiUpdate hs hcounted).bind fun _ t hin ht => ⟨hin, ht⟩
  | put token name req h =>
    exact (stays_apiPut hs hcounted).bind fun _ t hin ht => ⟨hin, ht⟩

end Registry
end
open scoped Plain
namespace Plain
open Registry

def limited (n : Nat) (_ : String) : TokenLimits where
  maxRules := some n
  maxRulesets := some 1
  freebind := false
  freebindSets := false

def nobody : CreatedBy := fun _ => none

def oneRule : RulesetRequest := ⟨1, [Plain.request .tcp 9090]⟩

def headers : PutHeaders := ⟨none, false, false, fun _ _ => true⟩

def createThenPut : List (Event Env ApiCall) :=
  .start (.create "ops" false (Plain.request .tcp 8080)) :: List.replicate 4 (.step 0 Env.calm) ++
    .start (.put "ops" "web" oneRule headers) :: List.replicate 11 (.step 1 Env.calm)

def createTwice : List (Event Env ApiCall) :=
  [.start (.create "ops" false (Plain.request .tcp 8080)),
    .start (.create "ops" false (Plain.request .tcp 9090)),
    .step 0 Env.calm, .step 0 Env.calm, .step 1 Env.calm, .step 1 Env.calm,
    .step 0 Env.calm, .step 0 Env.calm, .step 1 Env.calm, .step 1 Env.calm]

def beginsAlone (x : Configuration Op Ret State ApiCall) : Event Env ApiCall → Bool
  | .start c => decide (c.Counted settings x.state) && x.threads.all fun t => t.rest.next?.isNone
  | .step _ _ => true

end Plain

namespace Registry

lemma settled_empty (tokens : String → TokenLimits) :
    Settled Plain.settings tokens Plain.nobody .empty := by
  refine ⟨⟨by decide, by decide, by decide, fun _ _ _ => Nat.zero_le _, fun _ _ _ => Nat.zero_le _⟩,
    fun k e he => ?_, fun k e name he => ?_⟩ <;> cases he

theorem create_then_put_within : ∃ x : Configuration Op Ret State ApiCall,
    owned Plain.nobody x.state "ops" = 2 ∧ ownedSets x.state "ops" = 1 ∧
      WithinLimits Plain.settings (Plain.limited 2) Plain.nobody x.state := by
  have hrun : ∃ x, (apiSystem Plain.settings (Plain.limited 2)).Reach
      (CountedAlone Plain.settings (Plain.limited 2) Plain.nobody) ⟨.empty, []⟩ x ∧
      (decide (owned Plain.nobody x.state "ops" = 2) &&
        decide (ownedSets x.state "ops" = 1)) = true := by
    have hok : ∀ ev ∈ Plain.createThenPut, ∀ x, Plain.beginsAlone x ev = true →
        CountedAlone Plain.settings (Plain.limited 2) Plain.nobody x ev := by
      intro ev hev x hok
      cases ev with
      | start c =>
        obtain ⟨hcounted, hquiet⟩ := Bool.and_eq_true_iff.mp hok
        refine ⟨of_decide_eq_true hcounted, .inl fun t ht => ?_⟩
        simpa [Prog.done] using all_eq_true.mp hquiet t ht
      | step i e =>
        have he : i = 0 ∧ e = Env.calm ∨ i = 1 ∧ e = Env.calm := by
          simpa [Plain.createThenPut] using hev
        rcases he with ⟨-, rfl⟩ | ⟨-, rfl⟩ <;> rfl
    exact System.exists_reach_of_trace hok (by decide +kernel)
  obtain ⟨x, hx, hp⟩ := hrun
  obtain ⟨howned, hsets⟩ := Bool.and_eq_true_iff.mp hp
  exact ⟨x, of_decide_eq_true howned, of_decide_eq_true hsets,
    withinLimits_of_countedAlone _ _ _ (settled_empty _) hx⟩

/-- Two requests of one token are counted before either rule is in the table. -/
theorem two_creates_exceed : ∃ x, (apiSystem Plain.settings (Plain.limited 1)).Reach
      (fun _ _ => True) ⟨.empty, []⟩ x ∧
    (Plain.limited 1 "ops").maxRules = some 1 ∧ owned Plain.nobody x.state "ops" = 2 ∧
    Settled Plain.settings (Plain.limited 1) Plain.nobody .empty ∧
    ¬ WithinLimits Plain.settings (Plain.limited 1) Plain.nobody x.state := by
  have hrun : ∃ x, (apiSystem Plain.settings (Plain.limited 1)).Reach (fun _ _ => True)
      ⟨.empty, []⟩ x ∧ decide (owned Plain.nobody x.state "ops" = 2) = true := by
    have hok : ∀ ev ∈ Plain.createTwice, ∀ x, (fun _ _ => true :
        Configuration Op Ret State ApiCall → Event Env ApiCall → Bool) x ev = true → True :=
      fun _ _ _ _ => trivial
    exact System.exists_reach_of_trace hok (by decide +kernel)
  obtain ⟨x, hx, hp⟩ := hrun
  have howned := of_decide_eq_true hp
  refine ⟨x, hx, rfl, howned, settled_empty _, fun hwithin => ?_⟩
  have := hwithin.owned "ops" 1 rfl
  omega

end Registry
end Rproxy
