import Rproxy.Global.Plain

/-!
# What a reload of the settings file puts in force

`prepare_file` goes through the items that the new file would change, one by one; only a CrowdSec
whose LAPI does not answer is left as it was.
-/

namespace Rproxy
open Function List Option Checks
section
variable [External] [GlobalExternal]
namespace Global
variable {p : FilePrepared} {done : List LiveItem} {s : State}

/-! ## `prepare_file` -/

def State.fileTarget (s : State) (file : Values) : Live := (s.effectiveWith file s.apiInForce).1

def FilePrepared.left (p : FilePrepared) : List LiveItem := p.notInForce.map Prod.fst

/-- How far `prepare_file` has got, with the items of `done` gone through. -/
structure Preparing (s : State) (file : Values) (done : List LiveItem) (p : FilePrepared) :
    Prop where
  ofFile : p.file = file
  target : p.target = Family.takeOver (s.fileTarget file) s.live p.left
  changed : ∀ i, i ∈ p.changed ↔ i ∈ done ∧ i ∉ p.left
  left : ∀ i ∈ p.left, i ∈ done ∧ i = .crowdsec
  built : ∀ i ∈ p.changed, i ≠ .accessLog → p.built.values i = some (s.fileTarget file i)
  notBuilt : ∀ i ∉ p.changed, p.built.values i = none

variable {i : LiveItem} {b : Builds}

lemma eq_crowdsec_of_notSynced {mode : Mode} {fromApi : Bool} {target : Live}
    {built : Built} {e : String}
    (h : buildItem b mode fromApi target built i = .error (.notSynced e)) : i = .crowdsec := by
  cases i with
  | crowdsec => rfl
  | accessLog =>
    unfold buildItem buildAccessLog at h
    dsimp only at h
    split at h
    · cases h
    · cases h
    · split at h <;> cases h
  | trustedProxies =>
    simp only [buildItem, bind_eq_error, mapError_eq_error, pure_eq_error] at h
    simp at h
  | geoip =>
    simp only [buildItem, bind_eq_error, onSome_eq_error, throw_eq_error, pure_eq_error] at h
    simp at h
  | acme =>
    simp only [buildItem, buildAcme, bind_eq_error, onSome_eq_error, onlyIf_eq_error,
      throw_eq_error, pure_eq_error] at h
    simp at h
  | _ => cases h

variable {file : Values}

lemma Preparing.target_of_notMem (h : Preparing s file done p) (hi : i ∉ p.left) :
    p.target i = s.fileTarget file i := by
  rw [h.target, Family.takeOver_apply, if_neg hi]

variable {p' : FilePrepared}

lemma Preparing.step {sources : LiveItem → Source} (h : Preparing s file done p) (hi : i ∉ done)
    (hstep : FilePrepared.step b sources s.live p i = .ok p') :
    Preparing s file (done ++ [i]) p' := by
  have hleft : i ∉ p.left := fun hl => hi (h.left i hl).1
  unfold FilePrepared.step at hstep
  split at hstep
  next built hbuilt =>
    cases hstep
    refine ⟨h.ofFile, h.target, fun j => ?_, fun j hj => ?_, fun j hj hlog => ?_, fun j hj => ?_⟩
    · rw [mem_append, mem_append, h.changed, mem_singleton]
      constructor
      · rintro (⟨hj, hn⟩ | rfl)
        · exact ⟨.inl hj, hn⟩
        · exact ⟨.inr rfl, hleft⟩
      rintro ⟨hj | hj, hn⟩
      · exact .inl ⟨hj, hn⟩
      · exact .inr hj
    · exact ⟨mem_append_left _ (h.left j hj).1, (h.left j hj).2⟩
    · by_cases hji : j = i
      · subst hji
        rw [buildItem_self hbuilt hlog, h.target_of_notMem hleft]
      rw [buildItem_of_ne hbuilt hji]
      refine h.built j ?_ hlog
      exact (mem_append.mp hj).resolve_right fun hm => hji (mem_singleton.mp hm)
    have hj' : j ∉ p.changed ∧ j ∉ [i] := by
      rwa [mem_append, not_or] at hj
    rw [buildItem_of_ne hbuilt (fun hji => hj'.2 (mem_singleton.mpr hji))]
    exact h.notBuilt j hj'.1
  next e hbuilt =>
    cases hstep
    have hnew : FilePrepared.left { p with
        target := keepItem p.target s.live i
        notInForce := p.notInForce ++ [(i, e)] } = p.left ++ [i] := by
      simp [FilePrepared.left]
    refine ⟨h.ofFile, ?_, fun j => ?_, fun j hj => ?_, h.built, h.notBuilt⟩
    · rw [hnew, Family.takeOver_concat, ← h.target]
      rfl
    · rw [hnew]
      rw [h.changed, mem_append, mem_append, mem_singleton]
      constructor
      · rintro ⟨hj, hn⟩
        exact ⟨.inl hj, not_or.mpr ⟨hn, fun hji => hi (hji ▸ hj)⟩⟩
      rintro ⟨hj | hj, hn⟩
      · exact ⟨hj, fun hl => hn (.inl hl)⟩
      · exact absurd (.inr hj) hn
    rw [hnew, mem_append, mem_singleton] at hj
    rcases hj with hj | rfl
    · exact ⟨mem_append_left _ (h.left j hj).1, (h.left j hj).2⟩
    · exact ⟨mem_append_right _ (mem_singleton.mpr rfl), eq_crowdsec_of_notSynced hbuilt⟩
  · cases hstep

lemma Preparing.foldlM {sources : LiveItem → Source}
    {items : List LiveItem} (h : Preparing s file done p) (hnodup : (done ++ items).Nodup)
    (hrun : items.foldlM (FilePrepared.step b sources s.live) p = .ok p') :
    Preparing s file (done ++ items) p' := by
  induction items generalizing done p with
  | nil =>
    cases hrun
    rwa [append_nil]
  | cons i items ih =>
    rw [foldlM_cons, bind_eq_ok] at hrun
    obtain ⟨next, hnext, hrun⟩ := hrun
    have hi : i ∉ done := by
      intro hi
      exact (nodup_append.mp hnodup).2.2 i hi i (mem_cons_self ..) rfl
    rw [append_cons] at hnodup ⊢
    exact ih (h.step hi hnext) hnodup hrun

lemma prepareFile_spec (h : prepareFile b s file = .ok p) :
    Preparing s file (differing s.live (s.fileTarget file)) p := by
  have hstart : Preparing s file []
      { file, target := s.fileTarget file, built := .none, changed := [], notInForce := [] } :=
    ⟨rfl, rfl, fun i => by simp, nofun, nofun, fun _ _ => rfl⟩
  have hnodup : (differing s.live (s.fileTarget file)).Nodup := List.Nodup.filter _ (by decide)
  exact hstart.foldlM hnodup h

/-! ## `commit_file` -/

def Takes (uses : RulesUse) (before target : Live) : LiveItem → Prop
  | .geoip => uses.geoip.refuses (target .geoip) ≠ none ∧ uses.geoip.refuses (before .geoip) = none
  | .acme => uses.acmeRefuses (target .acme) ≠ none ∧ uses.acmeRefuses (before .acme) = none
  | .crowdsec => uses.crowdsec.refuses (target .crowdsec) ≠ none ∧ before .crowdsec ≠ none
  | _ => False

variable {uses : RulesUse}

lemma takes_congr {before target target' : Live}
    (h : target' i = target i) : Takes uses before target' i ↔ Takes uses before target i := by
  cases i <;> simp only [Takes, h]

namespace Committing

structure SameAt (c c' : Committing) (i : LiveItem) : Prop where
  target : c'.target i = c.target i
  values : c'.built.values i = c.built.values i
  changed : i ∈ c'.changed ↔ i ∈ c.changed

structure KeptAt (c : Committing) (before : Live) (i : LiveItem) : Prop where
  target : c.target i = before i
  values : c.built.values i = none
  changed : i ∉ c.changed

lemma SameAt.trans {c c' c'' : Committing} (h : SameAt c c' i)
    (h' : SameAt c' c'' i) : SameAt c c'' i :=
  ⟨h'.target.trans h.target, h'.values.trans h.values, h'.changed.trans h.changed⟩

lemma KeptAt.same {c c' : Committing} {before : Live} (h : KeptAt c before i)
    (h' : SameAt c c' i) : KeptAt c' before i :=
  ⟨h'.target.trans h.target, h'.values.trans h.values, fun hi => h.changed (h'.changed.mp hi)⟩

lemma keptAt_keep (c : Committing) (before : Live) (i : LiveItem) (s : State) :
    KeptAt { c.keep before i with state := s } before i :=
  ⟨update_self .., update_self .., fun h => by simp [keep] at h⟩

lemma sameAt_keep (c : Committing) (before : Live) {j : LiveItem} (hj : j ≠ i) (s : State) :
    SameAt c { c.keep before i with state := s } j :=
  ⟨update_of_ne hj .., update_of_ne hj .., by simp [keep, hj]⟩

section
variable (c : Committing) (uses : RulesUse) (before : Live)

lemma geoip_spec : (∀ j ≠ .geoip, SameAt c (c.geoip uses before) j) ∧
      (Takes uses before c.target .geoip → KeptAt (c.geoip uses before) before .geoip) ∧
      (¬Takes uses before c.target .geoip → SameAt c (c.geoip uses before) .geoip) := by
  rw [geoip]
  split
  next h =>
    exact ⟨fun j hj => c.sameAt_keep before hj _, fun _ => c.keptAt_keep before _ _, (absurd h ·)⟩
  next h => exact ⟨fun j _ => ⟨rfl, rfl, .rfl⟩, (absurd · h), fun _ => ⟨rfl, rfl, .rfl⟩⟩

lemma acme_spec : (∀ j ≠ .acme, SameAt c (c.acme uses before) j) ∧
      (Takes uses before c.target .acme → KeptAt (c.acme uses before) before .acme) ∧
      (¬Takes uses before c.target .acme → SameAt c (c.acme uses before) .acme) := by
  rw [acme]
  split
  next h =>
    exact ⟨fun j hj => c.sameAt_keep before hj _, fun _ => c.keptAt_keep before _ _, (absurd h ·)⟩
  next h => exact ⟨fun j _ => ⟨rfl, rfl, .rfl⟩, (absurd · h), fun _ => ⟨rfl, rfl, .rfl⟩⟩

def Goes (file : Values) : Prop :=
  uses.crowdsec.refuses none = none ∧ c.state.keptCrowdsec ≠ none ∧
    c.target .crowdsec = c.state.keptCrowdsec ∧ file .crowdsec = none ∧ c.state.api .crowdsec = none

lemma crowdsec_spec (file : Values) :
    (∀ j ≠ .crowdsec, SameAt c (c.crowdsec file uses before) j) ∧
      (Takes uses before c.target .crowdsec →
        KeptAt (c.crowdsec file uses before) before .crowdsec ∧
          (c.crowdsec file uses before).state.keptCrowdsec = before .crowdsec) ∧
      (¬Takes uses before c.target .crowdsec → ¬c.Goes uses file →
        SameAt c (c.crowdsec file uses before) .crowdsec ∧
          (c.crowdsec file uses before).state.keptCrowdsec = c.state.keptCrowdsec) ∧
      (¬Takes uses before c.target .crowdsec → c.Goes uses file →
        (c.crowdsec file uses before).target .crowdsec = none ∧
          (c.crowdsec file uses before).state.keptCrowdsec = none ∧
          .crowdsec ∈ (c.crowdsec file uses before).changed ∧
          (c.crowdsec file uses before).built.values .crowdsec
            = if .crowdsec ∈ c.changed then c.built.values .crowdsec else some none) := by
  rw [crowdsec]
  split
  next h =>
    exact ⟨fun j hj => c.sameAt_keep before hj _, fun _ => ⟨c.keptAt_keep before _ _, rfl⟩,
      fun hn => absurd h hn, fun hn => absurd h hn⟩
  rename_i h
  split
  next hgoes =>
    refine ⟨fun j hj => ?_, fun hn => absurd hn h, fun _ hn => absurd hgoes hn, fun _ _ => ?_⟩
    · dsimp only
      split
      · exact ⟨update_of_ne hj .., rfl, .rfl⟩
      · exact ⟨update_of_ne hj .., update_of_ne hj .., by simp [hj]⟩
    dsimp only
    split
    next hin => exact ⟨rfl, rfl, hin, rfl⟩
    · exact ⟨rfl, rfl, by simp, rfl⟩
  next hstays =>
    exact ⟨fun j _ => ⟨rfl, rfl, .rfl⟩, fun hn => absurd hn h,
      fun _ _ => ⟨⟨rfl, rfl, .rfl⟩, rfl⟩, fun _ hn => absurd hn hstays⟩

/-- `commit_file` keeps things for the rules and changes nothing else of the state yet. -/
structure SameLayers (s s' : State) : Prop where
  api : s'.api = s.api
  failed : s'.failed = s.failed
  env : s'.env = s.env

lemma geoip_state : SameLayers c.state (c.geoip uses before).state ∧
      (c.geoip uses before).state.keptCrowdsec = c.state.keptCrowdsec := by
  rw [geoip]
  split <;> exact ⟨⟨rfl, rfl, rfl⟩, rfl⟩

lemma acme_state : SameLayers c.state (c.acme uses before).state ∧
      (c.acme uses before).state.keptCrowdsec = c.state.keptCrowdsec := by
  rw [acme]
  split <;> exact ⟨⟨rfl, rfl, rfl⟩, rfl⟩

lemma crowdsec_state (file : Values) :
    SameLayers c.state (c.crowdsec file uses before).state := by
  rw [crowdsec]
  split
  · exact ⟨rfl, rfl, rfl⟩
  split
  · dsimp only
    split <;> exact ⟨rfl, rfl, rfl⟩
  · exact ⟨rfl, rfl, rfl⟩

end
end Committing

def FilePrepared.committing (p : FilePrepared) (s : State) : Committing :=
  ⟨s, p.target, p.built, p.changed⟩

/-- **What `commit_file` swaps in, item by item.** -/
structure Committed (uses : RulesUse) (s : State) (p : FilePrepared) (c : Committing) : Prop where
  layers : Committing.SameLayers s c.state
  kept : ∀ i, Takes uses s.live p.target i → c.KeptAt s.live i
  passed : ∀ i ≠ .crowdsec, ¬Takes uses s.live p.target i → (p.committing s).SameAt c i
  keptCrowdsec : Takes uses s.live p.target .crowdsec → c.state.keptCrowdsec = s.live .crowdsec
  crowdsec : ¬Takes uses s.live p.target .crowdsec → ¬(p.committing s).Goes uses p.file →
    (p.committing s).SameAt c .crowdsec ∧ c.state.keptCrowdsec = s.keptCrowdsec
  goes : ¬Takes uses s.live p.target .crowdsec → (p.committing s).Goes uses p.file →
    c.target .crowdsec = none ∧ c.state.keptCrowdsec = none ∧ .crowdsec ∈ c.changed ∧
      c.built.values .crowdsec
        = if .crowdsec ∈ p.changed then p.built.values .crowdsec else some none

lemma committed (uses : RulesUse) (x : Process) (p : FilePrepared) :
    Committed uses x.state p (committing uses x p) := by
  let before := x.state.live
  let c₁ := (p.committing x.state).geoip uses before
  let c₂ := c₁.acme uses before
  obtain ⟨hgeoip, hgeoipKept, hgeoipSame⟩ := (p.committing x.state).geoip_spec uses before
  obtain ⟨hacme, hacmeKept, hacmeSame⟩ := c₁.acme_spec uses before
  obtain ⟨hcrowdsec, hcrowdsecKept, hcrowdsecSame, hcrowdsecGoes⟩ :=
    c₂.crowdsec_spec uses before p.file
  obtain ⟨hlayers₁, hkept₁⟩ := (p.committing x.state).geoip_state uses before
  obtain ⟨hlayers₂, hkept₂⟩ := c₁.acme_state uses before
  have hlayers₃ := c₂.crowdsec_state uses before p.file
  -- what the first two steps leave of CrowdSec
  have hsame : (p.committing x.state).SameAt c₂ .crowdsec :=
    (hgeoip _ (by decide)).trans (hacme _ (by decide))
  have hkept : c₂.state.keptCrowdsec = x.state.keptCrowdsec := hkept₂.trans hkept₁
  have htakes : Takes uses before c₂.target .crowdsec ↔ Takes uses before p.target .crowdsec :=
    takes_congr hsame.target
  have hgoes : c₂.Goes uses p.file ↔ (p.committing x.state).Goes uses p.file := by
    rw [Committing.Goes, hkept, hsame.target, hlayers₂.api, hlayers₁.api]
    rfl
  -- what the first step leaves of `acme`
  have htakesAcme : Takes uses before c₁.target .acme ↔ Takes uses before p.target .acme :=
    takes_congr (hgeoip _ (by decide)).target
  refine ⟨?_, fun i hi => ?_, fun i hne hi => ?_, fun hi => ?_, fun hi hstays => ?_,
    fun hi hgo => ?_⟩
  · exact ⟨hlayers₃.api.trans (hlayers₂.api.trans hlayers₁.api),
      hlayers₃.failed.trans (hlayers₂.failed.trans hlayers₁.failed),
      hlayers₃.env.trans (hlayers₂.env.trans hlayers₁.env)⟩
  · cases i with
    | geoip =>
      exact ((hgeoipKept hi).same (hacme _ (by decide))).same (hcrowdsec _ (by decide))
    | acme => exact (hacmeKept (htakesAcme.mpr hi)).same (hcrowdsec _ (by decide))
    | crowdsec => exact (hcrowdsecKept (htakes.mpr hi)).1
    | _ => exact hi.elim
  · refine Committing.SameAt.trans ?_ (hcrowdsec i hne)
    by_cases hiacme : i = .acme
    · subst hiacme
      exact (hgeoip _ (by decide)).trans (hacmeSame fun h => hi (htakesAcme.mp h))
    refine Committing.SameAt.trans ?_ (hacme i hiacme)
    by_cases higeoip : i = .geoip
    · subst higeoip
      exact hgeoipSame hi
    · exact hgeoip i higeoip
  · exact (hcrowdsecKept (htakes.mpr hi)).2
  · obtain ⟨hs, hk⟩ := hcrowdsecSame (fun h => hi (htakes.mp h)) fun h => hstays (hgoes.mp h)
    exact ⟨hsame.trans hs, hk.trans hkept⟩
  obtain ⟨ht, hk, hc, hb⟩ := hcrowdsecGoes (fun h => hi (htakes.mp h)) (hgoes.mpr hgo)
  refine ⟨ht, hk, hc, hb.trans ?_⟩
  rw [hsame.values, if_congr hsame.changed rfl rfl]
  rfl

structure CleanReload (b : Builds) (uses : RulesUse) (s : State) (file : Values) : Prop where
  builds : ∃ p, prepareFile b s file = .ok p ∧ p.notInForce = []
  takes : ∀ i, ¬Takes uses s.live (s.fileTarget file) i

def State.KeptGoes (s : State) (uses : RulesUse) (file : Values) : Prop :=
  uses.crowdsec.refuses none = none ∧ s.keptCrowdsec ≠ none ∧
    s.fileTarget file .crowdsec = s.keptCrowdsec ∧ file .crowdsec = none ∧ s.api .crowdsec = none

instance (s : State) (uses : RulesUse) (file : Values) : Decidable (s.KeptGoes uses file) :=
  inferInstanceAs (Decidable (_ ∧ _))

def State.cleanTarget (s : State) (uses : RulesUse) (file : Values) : Live :=
  if s.KeptGoes uses file then Function.update (s.fileTarget file) .crowdsec none
  else s.fileTarget file

variable {x : Process}

open Committing

lemma CleanReload.exists_settle (h : CleanReload b uses x.state file) : ∃ s : State,
      (reload b uses x file).1.state = s.settle (x.state.cleanTarget uses file) file x.state.api ∧
        s.env = x.state.env ∧ s.keptGeoip = none ∧ s.keptAcme = none ∧
        s.keptCrowdsec = if x.state.KeptGoes uses file then none else x.state.keptCrowdsec := by
  obtain ⟨⟨p, hp, hleft⟩, htakes⟩ := h
  have hspec := prepareFile_spec hp
  have htarget : p.target = x.state.fileTarget file := by
    rw [hspec.target, FilePrepared.left, hleft]
    rfl
  have hgeoip : ¬(uses.geoip.refuses (x.state.fileTarget file .geoip) ≠ none ∧
      uses.geoip.refuses (x.state.live .geoip) = none) :=
    htakes .geoip
  have hacme : ¬(uses.acmeRefuses (x.state.fileTarget file .acme) ≠ none ∧
      uses.acmeRefuses (x.state.live .acme) = none) :=
    htakes .acme
  have hcrowdsec : ¬(uses.crowdsec.refuses (x.state.fileTarget file .crowdsec) ≠ none ∧
      x.state.live .crowdsec ≠ none) :=
    htakes .crowdsec
  rw [reload, hp]
  simp only [commitFile, committing, geoip, acme, crowdsec,
    htarget, hspec.ofFile, if_neg hgeoip, if_neg hacme, if_neg hcrowdsec]
  by_cases hgoes : x.state.KeptGoes uses file
  · simp only [State.cleanTarget, if_pos hgoes]
    rw [if_pos (show _ ∧ _ from hgoes)]
    split
    · exact ⟨_, rfl, rfl, rfl, rfl, rfl⟩
    · exact ⟨_, rfl, rfl, rfl, rfl, rfl⟩
  simp only [State.cleanTarget, if_neg hgoes]
  rw [if_neg (show ¬(_ ∧ _) from hgoes)]
  exact ⟨_, rfl, rfl, rfl, rfl, rfl⟩

/-! ## What earlier changes leave behind -/

def nameable (paths : Paths) (api : Values) : Values := fun i =>
  (api i).filter fun v => decide (Nameable paths i v)

def State.standIn (s : State) : Live := (s.effectiveWith Family.none Family.none).1

lemma State.standIn_of_ne (hi : i ≠ .crowdsec) (henv : s.env.values i = none) :
    s.standIn i = i.held none := by
  rw [standIn, s.effectiveWith_of_ne _ _ hi, effective, henv]
  rfl

lemma State.standIn_crowdsec (s : State) : s.standIn .crowdsec = s.keptCrowdsec :=
  s.effectiveWith_crowdsec ..

lemma State.fileTarget_of_above {v : i.Ty}
    (h : (file i).or (s.env.values i) = some v) : s.fileTarget file i = i.held (some v) := by
  have heff (api : Values) : effective file s.env.values api i = i.held (some v) := by
    rw [effective, ← Option.or_assoc, h, Option.some_or]
  by_cases hi : i = .crowdsec
  · subst hi
    rw [fileTarget, s.effectiveWith_crowdsec, heff]
    rfl
  · rw [fileTarget, s.effectiveWith_of_ne _ _ hi, heff]

lemma State.fileTarget_of_none (hfile : file i = none) (henv : s.env.values i = none) :
    s.fileTarget file i
      = match s.apiInForce i with
        | some v => i.held (some v)
        | none => s.standIn i := by
  have heff : effective file s.env.values s.apiInForce i = i.held (s.apiInForce i) := by
    rw [effective, hfile, henv, none_or, none_or]
  by_cases hi : i = .crowdsec
  · subst hi
    rw [fileTarget, s.effectiveWith_crowdsec, heff]
    cases s.apiInForce .crowdsec <;> rfl
  rw [fileTarget, s.effectiveWith_of_ne _ _ hi, heff, standIn_of_ne hi henv]
  cases s.apiInForce i <;> rfl

/-- Of the items that no layer above the API names, each value of the API may be named and is not
held back (or its stand-in is the same), and no CrowdSec kept for the rules stays. -/
structure NoTrace (paths : Paths) (uses : RulesUse) (s : State) (file : Values) : Prop where
  api : ∀ (i : LiveItem) (v : i.Ty), file i = none → s.env.values i = none → s.api i = some v →
    Nameable paths i v ∧ (s.failed i = none ∨ s.standIn i = i.held (some v))
  kept : file .crowdsec = none → s.api .crowdsec = none →
    s.keptCrowdsec = none ∨ uses.crowdsec.refuses none = none

lemma CleanReload.live (h : CleanReload b uses x.state file) :
    (reload b uses x file).1.state.live = x.state.cleanTarget uses file := by
  obtain ⟨s, hs, -⟩ := h.exists_settle
  rw [hs]
  rfl

lemma CleanReload.sources (h : CleanReload b uses x.state file)
    (hi : i = .crowdsec → file .crowdsec = none → x.state.api .crowdsec = none →
      x.state.cleanTarget uses file .crowdsec = none) :
    (reload b uses x file).1.state.sources i = sourceOf file x.state.env.values x.state.api i := by
  obtain ⟨s, hs, henv, hgeoip, hacme, -⟩ := h.exists_settle
  rw [hs]
  simp only [State.settle, hgeoip, hacme, henv, ne_eq, not_true_eq_false, false_and, if_false]
  split
  next hkept =>
    by_cases hcrowdsec : i = .crowdsec
    · subst hcrowdsec
      have hfile : file .crowdsec ≠ none := fun hfile => hkept.1 (hi rfl hfile hkept.2.2)
      rw [update_self, sourceOf, if_pos (isSome_iff_ne_none.mpr hfile)]
    · exact update_of_ne hcrowdsec ..
  · rfl

lemma State.cleanTarget_of_named
    (hi : i = .crowdsec → file .crowdsec ≠ none ∨ s.api .crowdsec ≠ none) :
    s.cleanTarget uses file i = s.fileTarget file i := by
  rw [cleanTarget]
  split
  next hgoes =>
    refine update_of_ne (fun hcrowdsec => ?_) ..
    exact (hi hcrowdsec).elim (· hgoes.2.2.2.1) (· hgoes.2.2.2.2)
  · rfl

lemma State.cleanTarget_crowdsec (hfile : file .crowdsec = none) (hapi : s.api .crowdsec = none) :
    s.cleanTarget uses file .crowdsec = none ↔
      s.keptCrowdsec = none ∨ uses.crowdsec.refuses none = none := by
  have htarget : s.fileTarget file .crowdsec = s.keptCrowdsec := by
    rw [fileTarget_of_none hfile rfl, s.apiInForce_apply, hapi, ite_self, s.standIn_crowdsec]
  rw [cleanTarget]
  split
  next hgoes =>
    exact iff_of_true rfl (.inr hgoes.1)
  rename_i hstays
  rw [htarget]
  refine ⟨.inl, fun h => h.elim id fun hunused => ?_⟩
  by_contra hkept
  exact hstays ⟨hunused, hkept, htarget, hfile, hapi⟩

def State.Layered (paths : Paths) (s : State) (i : LiveItem) : Prop :=
  s.live i = effective s.file s.env.values (nameable paths s.api) i ∧
    s.sources i = sourceOf s.file s.env.values (nameable paths s.api) i

lemma CleanReload.layers (h : CleanReload b uses x.state file) :
    (reload b uses x file).1.state.file = file ∧
      (reload b uses x file).1.state.env = x.state.env ∧
      (reload b uses x file).1.state.api = x.state.api := by
  obtain ⟨s, hs, henv, -⟩ := h.exists_settle
  rw [hs]
  exact ⟨rfl, henv, rfl⟩

section
variable {paths : Paths} {b : Builds} {uses : RulesUse} {x : Process} {file : Values} {i : LiveItem}
section
variable (h : CleanReload b uses x.state file)
include h

lemma CleanReload.layered_iff : (reload b uses x file).1.state.Layered paths i ↔
      x.state.cleanTarget uses file i
          = i.held (((file i).or (x.state.env.values i)).or (nameable paths x.state.api i)) ∧
        (reload b uses x file).1.state.sources i
          = sourceOf file x.state.env.values (nameable paths x.state.api) i := by
  obtain ⟨hfile, henv, hapi⟩ := h.layers
  rw [State.Layered, hfile, henv, hapi, h.live, effective, Option.or_assoc]

lemma CleanReload.layered_of_above {v : i.Ty} (hv : (file i).or (x.state.env.values i) = some v) :
    (reload b uses x file).1.state.Layered paths i := by
  have hcrowdsec : i = .crowdsec → file .crowdsec ≠ none := by
    rintro rfl hnone
    rw [hnone] at hv
    cases hv
  rw [h.layered_iff, h.sources fun hi hnone => absurd hnone (hcrowdsec hi),
    State.cleanTarget_of_named fun hi => .inl (hcrowdsec hi), State.fileTarget_of_above hv, hv]
  refine ⟨rfl, ?_⟩
  unfold sourceOf
  cases hfile : file i with
  | some w => rfl
  | none =>
    rw [hfile, none_or] at hv
    rw [hv]
    rfl

lemma CleanReload.layered_of_api {v : i.Ty} (hfile : file i = none)
    (henv : x.state.env.values i = none) (hapi : x.state.api i = some v) :
    (reload b uses x file).1.state.Layered paths i ↔
      Nameable paths i v ∧
        (x.state.failed i = none ∨ x.state.standIn i = i.held (some v)) := by
  have hcrowdsec : i = .crowdsec → x.state.api .crowdsec ≠ none := by
    rintro rfl hnone
    rw [hnone] at hapi
    cases hapi
  rw [h.layered_iff, h.sources fun hi _ hnone => absurd hnone (hcrowdsec hi),
      State.cleanTarget_of_named fun hi => .inr (hcrowdsec hi),
      State.fileTarget_of_none hfile henv, x.state.apiInForce_apply]
  simp only [sourceOf, hfile, henv, hapi, nameable, none_or]
  by_cases hname : Nameable paths i v
  · cases hfailed : x.state.failed i <;> simp [hname, Option.filter]
  · simp [hname, Option.filter]

lemma CleanReload.layered_of_none (hfile : file i = none) (henv : x.state.env.values i = none)
    (hapi : x.state.api i = none) :
    (reload b uses x file).1.state.Layered paths i ↔
      (i = .crowdsec → x.state.keptCrowdsec = none ∨ uses.crowdsec.refuses none = none) := by
  have hsource : sourceOf file x.state.env.values (nameable paths x.state.api) i
      = sourceOf file x.state.env.values x.state.api i := by
    simp [sourceOf, nameable, hapi]
  rw [h.layered_iff, hfile, henv, nameable, hapi, hsource]
  by_cases hi : i = .crowdsec
  · subst hi
    rw [← State.cleanTarget_crowdsec hfile hapi]
    refine ⟨fun hlayered _ => hlayered.1, fun hnone => ⟨hnone rfl, ?_⟩⟩
    exact h.sources fun _ _ _ => hnone rfl
  refine iff_of_true ⟨?_, h.sources fun hcrowdsec => absurd hcrowdsec hi⟩ fun hcrowdsec =>
    absurd hcrowdsec hi
  rw [State.cleanTarget_of_named fun hcrowdsec => absurd hcrowdsec hi,
    State.fileTarget_of_none hfile henv, x.state.apiInForce_apply, hapi, ite_self]
  exact State.standIn_of_ne hi henv

end

/-- **When a clean reload shows nothing of earlier changes.** Each item has the value and the source
of the first layer that names it exactly if no API value that the file leaves free is held back or
may not be named, and no CrowdSec kept for the rules stays. -/
theorem cleanReload_layered_iff (paths : Paths) (b : Builds) (uses : RulesUse) (x : Process)
    (file : Values) (h : CleanReload b uses x.state file) :
    (∀ i, (reload b uses x file).1.state.Layered paths i) ↔ NoTrace paths uses x.state file := by
  constructor
  · intro hall
    refine ⟨fun i v hfile henv hapi => ?_, fun hfile hapi => ?_⟩
    · exact (h.layered_of_api hfile henv hapi).mp (hall i)
    · exact (h.layered_of_none hfile rfl hapi).mp (hall .crowdsec) rfl
  intro hnone i
  cases habove : (file i).or (x.state.env.values i) with
  | some v => exact h.layered_of_above habove
  | none =>
    rw [or_eq_none_iff] at habove
    cases hapi : x.state.api i with
    | some v =>
      rw [h.layered_of_api habove.1 habove.2 hapi]
      exact hnone.api i v habove.1 habove.2 hapi
    | none =>
      rw [h.layered_of_none habove.1 habove.2 hapi]
      rintro rfl
      exact hnone.kept habove.1 hapi

end
end Global
end

namespace Plain
open Global

lemma not_takes_noUses (before target : Live) (i : LiveItem) : ¬Takes noUses before target i := by
  cases i with
  | crowdsec =>
    rintro ⟨h, -⟩
    cases hc : target .crowdsec <;> exact h (by rw [hc]; rfl)
  | geoip | acme => exact fun h => h.1 rfl
  | _ => exact id

def apiCrowdsec : CrowdsecGlobal := ⟨"http://10.0.0.1:8080", "/run/keys/api", none, none⟩

def otherCrowdsec : Values :=
  Family.only .crowdsec ⟨"http://10.0.0.2:8080", "/run/keys/file", none, none⟩

def silentBuilds : Builds := { quietBuilds with notSynced := fun _ => some "connection refused" }

def shadowedInVain : Process :=
  let set := patch patchEnv fresh [("crowdsec", CrowdsecGlobal.codec.enc apiCrowdsec)] "ops" false
  (reload silentBuilds noUses set.1 otherCrowdsec).1

/-- A value of the API that the file shadowed in vain is not in force again once the file leaves the
item out, although the reload is clean. -/
theorem shadowed_value_not_back : CleanReload quietBuilds noUses shadowedInVain.state Family.none ∧
      (reload quietBuilds noUses shadowedInVain Family.none).1.state.api .crowdsec
        = some apiCrowdsec ∧
      Nameable openPaths .crowdsec apiCrowdsec ∧
      (reload quietBuilds noUses shadowedInVain Family.none).1.state.live .crowdsec = none ∧
      (reload quietBuilds noUses shadowedInVain Family.none).1.state.sources .crowdsec = .api ∧
      ¬(reload quietBuilds noUses shadowedInVain Family.none).1.state.Layered openPaths
        .crowdsec := by
  have hclean : CleanReload quietBuilds noUses shadowedInVain.state Family.none :=
    ⟨⟨_, rfl, rfl⟩, not_takes_noUses _ _⟩
  have hlive : (reload quietBuilds noUses shadowedInVain Family.none).1.state.live .crowdsec
      = none := by decide +kernel
  refine ⟨hclean, by decide +kernel, by decide +kernel, hlive, by decide +kernel, fun h => ?_⟩
  have hvalue := hlive.symm.trans h.1
  revert hvalue
  decide +kernel

def shadowed : Process :=
  let set := patch patchEnv fresh [("crowdsec", CrowdsecGlobal.codec.enc apiCrowdsec)] "ops" false
  (reload quietBuilds noUses set.1 otherCrowdsec).1

theorem shadowed_value_back : CleanReload quietBuilds noUses shadowed.state Family.none ∧
      (reload quietBuilds noUses shadowed Family.none).1.state.live .crowdsec = some apiCrowdsec ∧
      ∀ i, (reload quietBuilds noUses shadowed Family.none).1.state.Layered openPaths i := by
  have hclean : CleanReload quietBuilds noUses shadowed.state Family.none :=
    ⟨⟨_, rfl, rfl⟩, not_takes_noUses _ _⟩
  have hnone : NoTrace openPaths noUses shadowed.state Family.none := by
    refine ⟨fun i v _ _ hapi => ?_, fun _ _ => .inl rfl⟩
    have hname : ∀ j ∈ LiveItem.all, (shadowed.state.api j).all (fun v => Nameable openPaths j v) ∧
        shadowed.state.failed j = none := by decide +kernel
    obtain ⟨hname, hfailed⟩ := hname i (LiveItem.mem_all i)
    rw [hapi] at hname
    exact ⟨of_decide_eq_true hname, .inl hfailed⟩
  exact ⟨hclean, by decide +kernel,
    (cleanReload_layered_iff openPaths quietBuilds noUses shadowed Family.none hclean).mpr hnone⟩

end Plain
end Rproxy
