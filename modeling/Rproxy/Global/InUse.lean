import Rproxy.Global.Patches
import Rproxy.Global.Reloads
import Rproxy.Programs.Runs
import Rproxy.Registry.Changes

/-!
# What the rules use stays in force

A rule that starts or changes passes the gates of what is in force, and a change of `global` looks
at what the rules use, both under the lock of the rules.
-/

namespace Rproxy
open List Option Checks GlobalExternal
section
variable [External] [GlobalExternal]
namespace Global
variable {live : Live} {spec : RuleSpec} {r : Running} {cfg : Settings}
open CrowdsecUse

lemma CrowdsecUse.any_of_appsec (h : (of spec).appsec) : (of spec).any := by
  obtain ⟨b, hb, -⟩ := any_eq_true.mp h
  have hne := ne_nil_of_mem hb
  simp only [of, Bool.or_eq_true, Bool.not_eq_true', isEmpty_eq_false_iff]
  exact .inr hne

lemma CrowdsecUse.refuses_of_none (h : (of spec).refuses none = none)
    (c : Option CrowdsecGlobal) :
    (of spec).refuses c = none := by
  have hany : (of spec).any = false := by
    by_contra hany
    simp [refuses, hany] at h
  have happsec : (of spec).appsec = false := by
    by_contra happsec
    rw [Bool.not_eq_false] at happsec
    rw [any_of_appsec happsec] at hany
    cases hany
  cases c with
  | none => exact h
  | some c => simp [refuses, happsec]

lemma crowdsecGate_eq_ok (h : crowdsecGate live spec = .ok ()) :
    (of spec).refuses (live .crowdsec) = none := by
  simp only [crowdsecGate] at h
  split at h
  next hany =>
    refine refuses_of_none ?_ _
    rw [Bool.not_eq_true'] at hany
    simp [refuses, hany]
  split at h
  · cases h
  rename_i c hc
  split at h
  · cases h
  next happsec => rw [hc, refuses, if_neg happsec]

lemma geoipGate_eq_ok (h : geoipGate live spec = .ok ()) :
    (GeoipUse.of spec).refuses (live .geoip) = none := by
  simp only [geoipGate] at h
  split at h
  · cases h
  next hnone => exact hnone

lemma checkAcme_eq_ok (h : checkAcme live spec = .ok ()) :
    ∀ n ∈ acmeNeeds spec, ∃ a, live .acme = some a ∧
      checkNames a n.1 n.2 = .ok () := by
  intro n hn
  have hn := (forEach_eq_ok.mp h) n hn
  dsimp only at hn
  split at hn
  · cases hn
  rename_i a ha
  split at hn
  · cases hn
  · exact ⟨a, ha, mapError_eq_ok.mp hn⟩

lemma provided_of_gates (h : gates live spec = .ok ()) : Provided live spec := by
  simp only [gates, bind_eq_ok, exists_unit] at h
  exact ⟨crowdsecGate_eq_ok h.1, geoipGate_eq_ok h.2.1, checkAcme_eq_ok h.2.2⟩

/-! ## The rules together -/

section
variable {s : Rproxy.State} {key : Key} {e : Entry}

omit [GlobalExternal] in
lemma mem_specs (he : s.rules.lookup key = some e) :
    e.spec ∈ s.rules.pairs.map fun e => e.2.spec :=
  mem_map.mpr ⟨(key, e), Table.mem_pairs.mpr he, rfl⟩

omit [GlobalExternal] in
lemma mem_others (he : s.rules.lookup key = some e) (horigin : e.spec.origin ≠ .static) :
    e.spec ∈ (s.rules.pairs.map fun e => e.2.spec).filter fun spec => spec.origin ≠ .static :=
  mem_filter.mpr ⟨mem_specs he, decide_eq_true horigin⟩

lemma crowdsec_of_rulesUse (he : s.rules.lookup key = some e) {c : Option CrowdsecGlobal}
    (h : (rulesUse s).crowdsec.refuses c = none) : (of e.spec).refuses c = none := by
  cases c with
  | none =>
    have hany : (rulesUse s).crowdsec.any = false := by
      by_contra hany
      simp [refuses, hany] at h
    have hspec := any_eq_false.mp hany _ (mem_specs he)
    simp [refuses, hspec]
  | some c =>
    by_cases hurl : c.appsecUrl = none
    · have happsec : (rulesUse s).crowdsec.appsec = false := by
        by_contra happsec
        simp [refuses, happsec, hurl] at h
      have hspec := any_eq_false.mp happsec _ (mem_specs he)
      simp [refuses, hspec]
    · simp [refuses, hurl]

variable {g : Option GeoipGlobal}

omit [External] [GlobalExternal] in
lemma GeoipUse.refuses_mono {u v : GeoipUse}
    (hcountries : u.countries → v.countries) (hasns : u.asns → v.asns)
    (h : v.refuses g = none) : u.refuses g = none := by
  unfold refuses at h ⊢
  split at h
  · cases h
  rename_i hc
  split at h
  · cases h
  next ha =>
    rw [if_neg fun hu => hc ⟨hcountries hu.1, hu.2⟩, if_neg fun hu => ha ⟨hasns hu.1, hu.2⟩]

lemma geoip_of_rulesUse (he : s.rules.lookup key = some e) (horigin : e.spec.origin ≠ .static)
    (h : (rulesUse s).geoip.refuses g = none) :
    (GeoipUse.of e.spec).refuses g = none := by
  refine GeoipUse.refuses_mono (fun hc => ?_) (fun ha => ?_) h
  · exact any_eq_true.mpr ⟨e.spec, mem_others he horigin, hc⟩
  · exact any_eq_true.mpr ⟨e.spec, mem_others he horigin, ha⟩

variable {acme : Option Acme}

lemma RulesUse.exists_of_acmeRefuses {u : RulesUse}
    (h : u.acmeRefuses acme = none) {n : String × List String} (hn : n ∈ u.acme) :
    ∃ a, acme = some a ∧ checkNames a n.1 n.2 = .ok () := by
  unfold acmeRefuses at h
  split at h
  next hnil =>
    rw [hnil] at hn
    cases hn
  · cases h
  rename_i a _
  refine ⟨a, rfl, ?_⟩
  have hnone := findSome?_eq_none_iff.mp h n hn
  dsimp only at hnone
  split at hnone
  next hok => exact hok
  · cases hnone

lemma acme_of_rulesUse (he : s.rules.lookup key = some e) (horigin : e.spec.origin ≠ .static)
    (h : (rulesUse s).acmeRefuses acme = none) :
    ∀ n ∈ acmeNeeds e.spec, ∃ a, acme = some a ∧ checkNames a n.1 n.2 = .ok () := by
  intro n hn
  exact RulesUse.exists_of_acmeRefuses h (mem_dedup.mpr ((mem_insertionSort _).mpr
    (mem_flatMap.mpr ⟨e.spec, mem_others he horigin, hn⟩)))

end

/-! ## The sections of the registry behind the gates -/

open Registry (Op)

def newSpec? : Op → Option RuleSpec
  | .create spec _ _ => some spec
  | .apply _ spec => some spec
  | .restartWaiting spec _ _ => some spec
  | .retry task => some task.spec
  | .certStart spec _ => some spec
  | _ => none

lemma code_of_gates {e : ApiError} (h : gates live spec = .error e) :
    e.code ≠ .alreadyExists ∧ e.code ≠ .reserved := by
  simp only [gates, bind_eq_error] at h
  rcases h with h | ⟨-, -, h | ⟨-, -, h⟩⟩
  · simp only [crowdsecGate] at h
    split at h
    · cases h
    split at h
    · cases h
      exact ⟨nofun, nofun⟩
    split at h <;> cases h
    exact ⟨nofun, nofun⟩
  · simp only [geoipGate] at h
    split at h <;> cases h
    exact ⟨nofun, nofun⟩
  obtain ⟨n, -, hn⟩ := exists_of_forEach_eq_error h
  dsimp only at hn
  split at hn
  · cases hn
    exact ⟨nofun, nofun⟩
  split at hn
  · cases hn
    exact ⟨nofun, nofun⟩
  obtain ⟨m, -, rfl⟩ := mapError_eq_error.mp hn
  exact ⟨nofun, nofun⟩

def gateFault (live : Live) (spec : RuleSpec) : Option Fault :=
  match h : gates live spec with
  | .error e => some ⟨e, code_of_gates h⟩
  | .ok () => none

lemma exists_gateFault {e : ApiError} (h : gates live spec = .error e) :
    ∃ f, gateFault live spec = some f := by
  unfold gateFault
  split
  · exact ⟨_, rfl⟩
  rename_i hok
  rw [h] at hok
  cases hok

def gated (live : Live) (o : Op) (env : Env) : Env :=
  match (newSpec? o).bind (gateFault live) with
  | some f => { env with gate := some f, start := some f }
  | none => env

variable {s : Rproxy.State} {key : Key}

omit [GlobalExternal] in
lemma running_of_effect {o : Op} {ret : Registry.Ret o}
    {before after : Option Entry} (h : Registry.Effect cfg s key o ret before after)
    (hr : after = some (.running r)) :
    before = some (.running r) ∨ newSpec? o = some r.spec := by
  cases h with
  | keep => exact .inl hr
  | removed => cases hr
  | created | changed | applied =>
    cases hr
    exact .inr rfl
  | restarted hp =>
    cases hr
    cases o <;> cases hp <;> exact .inr rfl
  | patched | failed | noted | expired | supervised | quieted => cases hr

omit [GlobalExternal] in
lemma running_of_putFailed {k : Key} {f : Failed}
    (h : (s.putFailed k f).rules.lookup key = some (.running r)) :
    s.rules.lookup key = some (.running r) := by
  rw [Rproxy.State.putFailed, Table.lookup_insert_eq] at h
  split at h
  · cases h
  · exact h

omit [GlobalExternal] in
lemma running_of_refused {o : Op} {env : Env} {f g : Fault}
    (hgate : env.gate = some f) (hstart : env.start = some g)
    (hr : (Registry.exec cfg o env s).1.rules.lookup key = some (.running r)) :
    s.rules.lookup key = some (.running r) := by
  have heffect := Registry.effect_exec cfg o env s key
  cases o with
  | create spec fixing token =>
    simp only [Registry.exec, Registry.Locked.create, hstart] at hr
    split at hr <;> exact hr
  | apply k spec =>
    simp only [Registry.exec, Registry.Locked.apply, hgate] at hr
    split at hr <;> exact hr
  | restartWaiting spec generation prepared =>
    simp only [Registry.exec, Registry.Locked.restartWaiting, hstart] at hr
    split at hr
    · split at hr
      · split at hr
        next hprepared => cases prepared <;> cases hprepared
        split at hr <;> exact running_of_putFailed hr
      · exact hr
    · exact hr
  | retry task =>
    simp only [Registry.exec, Registry.Locked.retry, hstart] at hr
    split at hr
    · exact hr
    split at hr
    · split at hr
      · exact running_of_putFailed hr
      · exact hr
    · exact hr
  | certStart spec generation =>
    simp only [Registry.exec, Registry.Locked.certStart, hstart] at hr
    split at hr
    · split at hr
      · exact running_of_putFailed hr
      · exact hr
    · exact hr
  | _ =>
    obtain h | h := running_of_effect heffect hr
    · exact h
    · cases h

/-! ## Rules and `global` together -/

structure World where
  registry : Rproxy.State
  process : Process

/-- What happens under the lock of the rules: a section of the registry, a PATCH of `global` with
`usesLast` as they are then, or the commit of a reloaded file. -/
inductive World.Act where
  | table (o : Op) (env : Env)
  | patch (env : PatchEnv) (body : List (String × Json)) (token : String) (dryRun : Bool)
  | reload (builds : Builds) (file : Values)

def World.step (cfg : Settings) (w : World) : World.Act → World
  | .table o env =>
    { w with registry := (Registry.exec cfg o (gated w.process.force o env) w.registry).1 }
  | .patch env body token dryRun =>
    { w with process :=
        (patch { env with usesLast := rulesUse w.registry } w.process body token dryRun).1 }
  | .reload builds file =>
    { w with process := (reload builds (rulesUse w.registry) w.process file).1 }

/-- What is recorded is what the running parts were built from (an access log may be the main log
for now), and every running rule that is not the settings file's finds in force what it uses. -/
structure Fed (w : World) : Prop where
  agrees : ∀ i ≠ .accessLog, w.process.force i = w.process.state.live i
  provided : ∀ key r, w.registry.rules.lookup key = some (.running r) →
    r.spec.origin ≠ .static → Provided w.process.force r.spec

variable {w : World}

lemma Fed.change (hw : Fed w) {x : Process}
    (hagrees : ∀ i ≠ .accessLog, x.force i = x.state.live i)
    (hcrowdsec : x.state.live .crowdsec = w.process.state.live .crowdsec ∨
      (rulesUse w.registry).crowdsec.refuses (x.state.live .crowdsec) = none ∨
      w.process.state.live .crowdsec = none)
    (hgeoip : x.state.live .geoip = w.process.state.live .geoip ∨
      (rulesUse w.registry).geoip.refuses (x.state.live .geoip) = none)
    (hacme : x.state.live .acme = w.process.state.live .acme ∨
      (rulesUse w.registry).acmeRefuses (x.state.live .acme) = none) :
    Fed { w with process := x } := by
  refine ⟨hagrees, fun key r hr horigin => ?_⟩
  obtain ⟨hc, hg, ha⟩ := hw.provided key r hr horigin
  rw [hw.agrees _ (by decide)] at hc hg ha
  refine ⟨?_, ?_, ?_⟩
  · rw [hagrees _ (by decide)]
    obtain heq | hdoes | hnone := hcrowdsec
    · rwa [heq]
    · exact crowdsec_of_rulesUse hr hdoes
    rw [hnone] at hc
    exact refuses_of_none hc _
  · rw [hagrees _ (by decide)]
    obtain heq | hdoes := hgeoip
    · rwa [heq]
    · exact geoip_of_rulesUse hr horigin hdoes
  rw [hagrees _ (by decide)]
  obtain heq | hdoes := hacme
  · rwa [heq]
  · exact acme_of_rulesUse hr horigin hdoes

lemma fed_table (hw : Fed w) (o : Op) (env : Env) : Fed (w.step cfg (.table o env)) := by
  refine ⟨hw.agrees, fun key r hr horigin => ?_⟩
  change (Registry.exec cfg o (gated w.process.force o env) w.registry).1.rules.lookup key
    = some (.running r) at hr
  obtain h | h := running_of_effect (Registry.effect_exec cfg o _ w.registry key) hr
  · exact hw.provided key r h horigin
  cases hspec : newSpec? o with
  | none => cases hspec.symm.trans h
  | some spec =>
    cases hgates : gates w.process.force spec with
    | error e =>
      obtain ⟨f, hf⟩ := exists_gateFault hgates
      have hgated : gated w.process.force o env = { env with gate := some f, start := some f } := by
        rw [gated, hspec, bind_some, hf]
      rw [hgated] at hr
      exact hw.provided key r (running_of_refused rfl rfl hr) horigin
    | ok u =>
      cases hspec.symm.trans h
      exact provided_of_gates hgates

lemma refused_of_usesRefuse {uses : RulesUse} {force target : Live} {applied : List LiveItem}
    (h : usesRefuse cfg uses force target applied = .ok ()) :
    (.crowdsec ∈ applied → uses.crowdsec.refuses (target .crowdsec) = none) ∧
      (.geoip ∈ applied → uses.geoip.refuses (target .geoip) = none) ∧
      (.acme ∈ applied → uses.acmeRefuses (target .acme) = none) := by
  simp only [usesRefuse, bind_eq_ok, exists_unit, onSome_throw_eq_ok, RulesUse.refused,
    or_eq_none_iff, filter_eq_none_iff] at h
  obtain ⟨⟨hcrowdsec, hgeoip, hacme⟩, -⟩ := h
  refine ⟨fun hi => ?_, fun hi => ?_, fun hi => ?_⟩
  all_goals refine eq_none_iff_forall_ne_some.mpr fun why hwhy => ?_
  · exact hcrowdsec why hwhy (by simpa using hi)
  · exact hgeoip why hwhy (by simpa using hi)
  · exact hacme why hwhy (by simpa using hi)

lemma fed_patch (hw : Fed w) (env : PatchEnv) (body : List (String × Json))
    (token : String) (dryRun : Bool) :
    Fed (w.step cfg (.patch env body token dryRun)) := by
  obtain ⟨e, he⟩ | ⟨plan, hplan, -, ⟨-, hsame⟩ | ⟨-, built, hbuilt, huses, hstate⟩⟩ :=
    patch_cases { env with usesLast := rulesUse w.registry } w.process body token dryRun
  · rw [World.step, he]
    exact hw
  · rw [World.step, hsame]
    exact hw
  rw [World.step, hstate]
  obtain ⟨hcrowdsec, hgeoip, hacme⟩ := refused_of_usesRefuse huses
  -- an item that was not built anew is as it was
  have hsame : ∀ i ∉ differing w.process.state.live plan.target,
      plan.target i = w.process.state.live i := by
    intro i hi
    rw [mem_differing, not_not] at hi
    exact hi.symm
  refine hw.change (fun i hlog => ?_) ?_ ?_ ?_
  · change commit built w.process.force i = plan.target i
    by_cases hi : i ∈ differing w.process.state.live plan.target
    · rw [commit, buildAll_of_mem hbuilt hi hlog]
      rfl
    rw [commit, buildAll_of_notMem hbuilt hi]
    exact (hw.agrees i hlog).trans (hsame i hi).symm
  · by_cases hi : .crowdsec ∈ differing w.process.state.live plan.target
    · exact .inr (.inl (hcrowdsec hi))
    · exact .inl (hsame _ hi)
  · by_cases hi : .geoip ∈ differing w.process.state.live plan.target
    · exact .inr (hgeoip hi)
    · exact .inl (hsame _ hi)
  by_cases hi : .acme ∈ differing w.process.state.live plan.target
  · exact .inr (hacme hi)
  · exact .inl (hsame _ hi)

/-- The cases in which `commit_file` does not look away: nothing of an item is missing already, or
the file gives all of it; and a CrowdSec kept for the rules is the one in force. -/
structure Reloadable (uses : RulesUse) (s : State) (file : Values) : Prop where
  geoip : uses.geoip.refuses (s.live .geoip) = none ∨
    uses.geoip.refuses (s.fileTarget file .geoip) = none
  acme : uses.acmeRefuses (s.live .acme) = none ∨ uses.acmeRefuses (s.fileTarget file .acme) = none
  crowdsec : s.keptCrowdsec = none ∨ s.keptCrowdsec = s.live .crowdsec

instance (uses : RulesUse) (s : State) (file : Values) : Decidable (Reloadable uses s file) :=
  decidable_of_iff (_ ∧ _ ∧ _) ⟨fun ⟨g, a, c⟩ => ⟨g, a, c⟩, fun ⟨g, a, c⟩ => ⟨g, a, c⟩⟩

variable {p : FilePrepared}

lemma Preparing.target_of_notChanged {s : State} {file : Values}
    (h : Preparing s file (differing s.live (s.fileTarget file)) p) {i : LiveItem}
    (hi : i ∉ p.changed) : p.target i = s.live i := by
  rw [h.target, Family.takeOver_apply]
  split
  · rfl
  rename_i hleft
  have hsame : i ∉ differing s.live (s.fileTarget file) := fun hd =>
    hi ((h.changed i).mpr ⟨hd, hleft⟩)
  rw [mem_differing, not_not] at hsame
  exact hsame.symm

lemma Preparing.commit_eq {s : State} {file : Values} {force : Live}
    (h : Preparing s file (differing s.live (s.fileTarget file)) p) {i : LiveItem}
    (hlog : i ≠ .accessLog) (hforce : force i = s.live i) :
    (p.built.values i).getD (force i) = p.target i := by
  by_cases hi : i ∈ p.changed
  · rw [h.built i hi hlog, h.target_of_notMem ((h.changed i).mp hi).2]
    rfl
  rw [h.notBuilt i hi, h.target_of_notChanged hi]
  exact hforce

lemma fed_reload (hw : Fed w) (builds : Builds) (file : Values)
    (hfile : Reloadable (rulesUse w.registry) w.process.state file) :
    Fed (w.step cfg (.reload builds file)) := by
  rw [World.step]
  unfold reload
  split
  · exact hw
  next p hp =>
  have hprep := prepareFile_spec hp
  have hc := committed (rulesUse w.registry) w.process p
  have hother : ∀ i ≠ .crowdsec, p.target i = w.process.state.fileTarget file i := fun i hi =>
    hprep.target_of_notMem fun hleft => hi (hprep.left i hleft).2
  have hgoes : (p.committing w.process.state).Goes (rulesUse w.registry) p.file →
      .crowdsec ∉ p.changed := by
    intro hgoes hchanged
    obtain ⟨hd, hleft⟩ := (hprep.changed _).mp hchanged
    have hkept := hfile.crowdsec.resolve_left hgoes.2.1
    refine mem_differing.mp hd ?_
    rw [← hprep.target_of_notMem hleft, ← hkept]
    exact hgoes.2.2.1.symm
  refine hw.change (fun i hlog => ?_) ?_ ?_ ?_
  · -- what is in force is what is recorded
    change ((committing _ w.process p).built.values i).getD (w.process.force i)
      = (committing _ w.process p).target i
    have hforce := hw.agrees i hlog
    by_cases htakes : Takes (rulesUse w.registry) w.process.state.live p.target i
    · rw [(hc.kept i htakes).values, (hc.kept i htakes).target]
      exact hforce
    by_cases hi : i = .crowdsec
    · subst hi
      by_cases hg : (p.committing w.process.state).Goes (rulesUse w.registry) p.file
      · obtain ⟨htarget, -, -, hvalues⟩ := hc.goes htakes hg
        rw [htarget, hvalues, if_neg (hgoes hg)]
        rfl
      obtain ⟨hsame, -⟩ := hc.crowdsec htakes hg
      rw [hsame.values, hsame.target]
      exact hprep.commit_eq hlog hforce
    · rw [(hc.passed i hi htakes).values, (hc.passed i hi htakes).target]
      exact hprep.commit_eq hlog hforce
  · change (committing _ w.process p).target .crowdsec = _ ∨
      (rulesUse w.registry).crowdsec.refuses ((committing _ w.process p).target .crowdsec) =
        none ∨ _
    by_cases htakes : Takes (rulesUse w.registry) w.process.state.live p.target .crowdsec
    · exact .inl (hc.kept _ htakes).target
    refine .inr ?_
    by_cases hg : (p.committing w.process.state).Goes (rulesUse w.registry) p.file
    · refine .inl ?_
      rw [(hc.goes htakes hg).1]
      exact hg.1
    rw [(hc.crowdsec htakes hg).1.target]
    by_contra hnot
    rw [not_or] at hnot
    exact htakes hnot
  · change (committing _ w.process p).target .geoip = _ ∨
      (rulesUse w.registry).geoip.refuses ((committing _ w.process p).target .geoip) = none
    by_cases htakes : Takes (rulesUse w.registry) w.process.state.live p.target .geoip
    · exact .inl (hc.kept _ htakes).target
    refine .inr ?_
    rw [(hc.passed _ (by decide) htakes).target]
    by_contra hrefused
    have hbefore := hfile.geoip.resolve_right (hother .geoip (by decide) ▸ hrefused)
    exact htakes ⟨hrefused, hbefore⟩
  change (committing _ w.process p).target .acme = _ ∨
    (rulesUse w.registry).acmeRefuses ((committing _ w.process p).target .acme) = none
  by_cases htakes : Takes (rulesUse w.registry) w.process.state.live p.target .acme
  · exact .inl (hc.kept _ htakes).target
  refine .inr ?_
  rw [(hc.passed _ (by decide) htakes).target]
  by_contra hrefused
  have hbefore := hfile.acme.resolve_right (hother .acme (by decide) ▸ hrefused)
  exact htakes ⟨hrefused, hbefore⟩

/-! ## Runs -/

def World.Act.Reloadable (w : World) : World.Act → Prop
  | .reload _ file => Global.Reloadable (rulesUse w.registry) w.process.state file
  | _ => True

instance (w : World) : (a : World.Act) → Decidable (a.Reloadable w)
  | .reload _ file =>
    inferInstanceAs (Decidable (Global.Reloadable (rulesUse w.registry) w.process.state file))
  | .table .. => .isTrue trivial
  | .patch .. => .isTrue trivial

lemma fed_step (hw : Fed w) {a : World.Act} (ha : a.Reloadable w) : Fed (w.step cfg a) := by
  cases a with
  | table o env => exact fed_table hw o env
  | patch env body token dryRun => exact fed_patch hw env body token dryRun
  | reload builds file => exact fed_reload hw builds file ha

/-- **A change of `global` takes nothing from a running rule.** In every interleaving of sections of
the registry, PATCHes and commits in which `commit_file` never looks away, each running rule that is
not the settings file's finds in force what it needs. -/
theorem running_provided (cfg : Settings) (w : World) (hw : Fed w) (acts : List World.Act)
    (h : Along (World.step cfg) (fun w a => a.Reloadable w) w acts) (key : Key) (r : Running)
    (hr : (after (World.step cfg) w acts).registry.rules.lookup key = some (.running r))
    (horigin : r.spec.origin ≠ .static) :
    Provided (after (World.step cfg) w acts).process.force r.spec :=
  (h.invariant hw fun _ _ hfed ha => fed_step hfed ha).provided key r hr horigin

end Global
end

namespace Plain
open Global

def withCountries : World :=
  ⟨State.empty, init (Family.only .geoip ⟨some "/var/lib/country.mmdb", none, none, false⟩)
    ⟨none, none⟩ false⟩

lemma fed_withCountries : Fed withCountries := ⟨fun _ _ => rfl, fun _ _ h => (nomatch h)⟩

def listsSpec (port : UInt16) (lists : GeoipSpec) : Option RuleSpec :=
  (RuleRequest.validate { request .tcp port with geoip := some lists } caps).toOption

def createCountryRule : List World.Act :=
  (listsSpec 8001 ⟨["JP"], [], [], [], .deny⟩).toList.map fun spec =>
    .table (.create spec false (some "ops")) Env.calm

def restoreAsnRule : List World.Act :=
  (listsSpec 8002 ⟨[], [], [64500], [], .deny⟩).toList.map fun spec =>
    .table (.insertFailed 2 spec (.needs .needsGeoip "geoip") none) Env.calm

def dropDatabases : World.Act := .reload quietBuilds Family.none

def lacksDatabase (w : World) : Entry → Bool
  | .running r =>
    decide (r.spec.origin ≠ .static ∧ (GeoipUse.of r.spec).refuses (w.process.force .geoip) ≠ none)
  | .failed _ => false

/-- A failed rule that lacks a database hides what a running rule needs: the file takes the country
database away. -/
theorem failed_rule_hides_need :
    let w := after (World.step settings) withCountries
      (createCountryRule ++ restoreAsnRule ++ [dropDatabases])
    Fed withCountries ∧ ∃ r, w.registry.rules.lookup (loopback 8001) = some (.running r) ∧
      r.spec.origin ≠ .static ∧ ¬Provided w.process.force r.spec := by
  intro w
  refine ⟨fed_withCountries, ?_⟩
  have hlacks : (w.registry.rules.lookup (loopback 8001)).any (lacksDatabase w) = true := by
    decide +kernel
  obtain ⟨e, he, hlacks⟩ := (any_eq_true _ _).mp hlacks
  cases e with
  | failed f => cases hlacks
  | running r =>
    have hboth := of_decide_eq_true hlacks
    exact ⟨r, he, hboth.1, fun hprovided => hboth.2 hprovided.geoip⟩

theorem country_rule_provided :
    let w := after (World.step settings) withCountries (createCountryRule ++ [dropDatabases])
    ∃ r, w.registry.rules.lookup (loopback 8001) = some (.running r) ∧
      Provided w.process.force r.spec := by
  intro w
  have hruns : (w.registry.rules.lookup (loopback 8001)).any
      (fun e => e.isRunning && decide (e.spec.origin ≠ .static)) = true := by decide +kernel
  obtain ⟨e, he, hruns⟩ := (any_eq_true _ _).mp hruns
  cases e with
  | failed f => cases hruns
  | running r =>
    refine ⟨r, he, running_provided settings withCountries fed_withCountries _ ?_ _ r he ?_⟩
    · decide +kernel
    · exact of_decide_eq_true hruns

end Plain
end Rproxy
