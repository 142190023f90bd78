import Rproxy.Data.Replace
import Rproxy.Registry.Changes

/-!
# A rule goes in where nothing fails

What the operations that install a list of rules do with one of them, where names resolve and
addresses can be bound (`Env.Smooth`).
-/

namespace Rproxy
open AList Replace Prog

structure Env.Smooth (env : Env) : Prop where
  prepare : env.prepare = none
  gate : env.gate = none
  start : env.start = none

lemma Env.smooth_calm : Env.calm.Smooth := ⟨rfl, rfl, rfl⟩

section
variable [External]
variable {k : Key} {spec : RuleSpec} {t : State}

def State.InvalidApart (s : State) : Prop := ∀ k ∈ s.rules, k ∉ s.invalid

def State.Fits (s : State) (spec : RuleSpec) : Prop :=
  spec.key ∉ s.invalid ∧ s.Clear spec.key spec

namespace State
variable {s : State}

abbrev Clash (a b : RuleSpec) : Prop := overlaps a b = true

lemma specAt_eq_none {key : Key} : s.specAt key = none ↔ key ∉ s.rules := by
  rw [specAt, Option.map_eq_none_iff, lookup_eq_none]

lemma inWay_iff {key : Key} : Replace.InWay Clash s.specAt key spec ↔ ¬ s.Clear key spec := by
  simp only [Replace.InWay, Clear, specAt, Option.map_eq_some_iff, not_forall]
  constructor
  · rintro ⟨k, _, hk, ⟨e, he, rfl⟩, hc⟩
    exact ⟨k, e, he, hk, by simpa using hc⟩
  rintro ⟨k, e, he, hk, hc⟩
  exact ⟨k, e.spec, hk, ⟨e, he, rfl⟩, by simpa using hc⟩

end State

namespace Registry
variable {cfg : Settings} {env : Env} {s : State}

/-! ## The other keys -/

structure Local (key : Key) (s s' : State) : Prop where
  rules : ∀ k ≠ key, s'.rules.lookup k = s.rules.lookup k
  invalid : ∀ k ≠ key, k ∈ s'.invalid ↔ k ∈ s.invalid

namespace Local
variable {key : Key} {s' s'' : State}

lemma trans (h : Local key s s') (h' : Local key s' s'') : Local key s s'' :=
  ⟨fun k hk => (h'.rules k hk).trans (h.rules k hk),
    fun k hk => (h'.invalid k hk).trans (h.invalid k hk)⟩

lemma of_eq (hr : s'.rules = s.rules) (hi : s'.invalid = s.invalid) : Local key s s' :=
  ⟨fun _ _ => by rw [hr], fun _ _ => by rw [hi]⟩

lemma specAt (h : Local key s s') (hk : k ≠ key) : s'.specAt k = s.specAt k := by
  rw [State.specAt, h.rules k hk, State.specAt]

end Local

def Op.onlyAt (key : Key) : Op → Prop
  | .create spec _ _ | .insertFailed _ spec _ _ => spec.key = key
  | .apply k _ | .remove k | .removeMember k _ => k = key
  | .prepare _ | .register _ _ | .stop _ | .kill _ | .abort _ => True
  | _ => False

variable {key : Key}

lemma mem_forgetInvalid_of_ne (hk : k ≠ key) :
    k ∈ (s.forgetInvalid key).invalid ↔ k ∈ s.invalid := by
  simp [State.forgetInvalid, mem_erase, hk]

variable {s' : State}

lemma local_insert {e : Entry} (hr : s'.rules = s.rules.insert key e)
    (hi : s'.invalid = s.invalid) : Local key s s' :=
  ⟨fun _ hk => by rw [hr, lookup_insert_ne hk], fun _ _ => by rw [hi]⟩

lemma local_exec {o : Op} (ho : o.onlyAt key) : Local key s (exec cfg o env s).1 := by
  cases o with
  | create spec fixing token =>
    subst ho
    simp only [exec, Locked.create]
    split
    · exact .of_eq rfl rfl
    split
    · exact .of_eq rfl rfl
    cases fixing with
    | false => exact local_insert rfl rfl
    | true => exact ⟨fun _ hk => lookup_insert_ne hk, fun _ => mem_forgetInvalid_of_ne⟩
  | insertFailed generation spec e retry =>
    subst ho
    exact ⟨fun _ hk => lookup_insert_ne hk, fun _ => mem_forgetInvalid_of_ne⟩
  | apply k spec =>
    subst ho
    simp only [exec, Locked.apply]
    repeat' split
    all_goals first | exact .of_eq rfl rfl | exact local_insert rfl rfl
  | remove k =>
    subst ho
    exact ⟨fun _ hk => lookup_erase_ne hk, fun _ _ => Iff.rfl⟩
  | removeMember k set =>
    subst ho
    simp only [exec, Locked.removeMember]
    repeat' split
    all_goals first
      | exact .of_eq rfl rfl
      | exact ⟨fun _ hk => lookup_erase_ne hk, fun _ _ => Iff.rfl⟩
  | register spec e =>
    simp only [exec, Locked.register]
    split <;> exact .of_eq rfl rfl
  | prepare | stop | kill | abort => exact .of_eq rfl rfl
  | _ => exact ho.elim

lemma local_run {α : Type} {p : Program α} (hp : p.All (Op.onlyAt key)) :
    Local key s (p.run (machine cfg) env s).1 :=
  (runs_run env p s).keeps (I := Local key s)
    (fun _ _ _ ho ht => ht.trans (local_exec ho)) hp (.of_eq rfl rfl)

lemma Op.onlyAt_of_installs {o : Op} {spec : RuleSpec} (hkey : spec.key = key)
    (ho : o.installs key spec) : o.onlyAt key := by
  cases o with
  | create s fixing token => exact ho.1 ▸ hkey
  | insertFailed generation s e retry => exact ho ▸ hkey
  | apply k s => exact ho.1
  | removeMember k set => exact ho.trans hkey
  | prepare | register | stop | kill | abort => trivial
  | _ => exact ho.elim

lemma onlyAt_of_installs {spec : RuleSpec} {α : Type} {p : Program α}
    (hp : p.All (Op.installs spec.key spec)) : p.All (Op.onlyAt spec.key) :=
  hp.mono fun _ => Op.onlyAt_of_installs rfl

structure SameAt (key : Key) (s t : State) : Prop where
  rules : t.rules.lookup key = s.rules.lookup key
  invalid : key ∈ t.invalid ↔ key ∈ s.invalid

lemma SameAt.trans_local {t' : State} (h : SameAt k s t) (hk : k ≠ key)
    (hlocal : Local key t t') : SameAt k s t' :=
  ⟨(hlocal.rules k hk).trans h.rules, (hlocal.invalid k hk).trans h.invalid⟩

lemma SameAt.specAt (h : SameAt key s t) : t.specAt key = s.specAt key := by
  rw [State.specAt, h.rules, State.specAt]

lemma mem_rules_iff : k ∈ s.rules ↔ ∃ e, s.rules.lookup k = some e := by
  rw [← lookup_isSome, Option.isSome_iff_exists]

open Locked

lemma mem_rules_exec {o : Op} (ho : o.keepsInvalid) (hk : k ∈ (exec cfg o env s).1.rules) :
    k ∈ s.rules ∨ k ∉ s.invalid := by
  obtain ⟨e, he⟩ := mem_rules_iff.mp hk
  have heff := effect_exec cfg o env s k
  rw [he] at heff
  cases hbefore : s.rules.lookup k with
  | some e₀ => exact .inl (mem_rules_iff.mpr ⟨e₀, hbefore⟩)
  | none =>
    rw [hbefore] at heff
    generalize hnone : (none : Option Entry) = before at heff
    cases heff with
    | keep => cases hnone
    | @created spec fixing token r hkey hcheck =>
      subst hkey
      refine .inr fun hmem => ?_
      cases ho
      simp [createCheck, lookup_eq_none.mp hbefore, hmem] at hcheck
    | failed => exact ho.elim
    | _ => cases hnone

lemma invalidApart_of_subset (hs : s.InvalidApart)
    (hr : ∀ k ∈ s'.rules, k ∈ s.rules) (hi : ∀ k ∈ s'.invalid, k ∈ s.invalid) : s'.InvalidApart :=
  fun k hk hmem => hs k (hr k hk) (hi k hmem)

lemma invalidApart_of_local (hs : s.InvalidApart)
    (hlocal : Local key s s') (hkey : key ∉ s'.invalid) : s'.InvalidApart := by
  intro k hk
  by_cases hne : k = key
  · exact hne ▸ hkey
  rw [hlocal.invalid k hne]
  rw [← lookup_isSome, hlocal.rules k hne, lookup_isSome] at hk
  exact hs k hk

lemma invalidApart_exec (hs : s.InvalidApart) (o : Op) (env : Env) :
    (exec cfg o env s).1.InvalidApart := by
  by_cases ho : o.keepsInvalid
  · intro k hk
    rw [(frame_exec cfg o env s).invalid ho]
    rcases mem_rules_exec ho hk with hk | hk
    · exact hs k hk
    · exact hk
  have herase : ∀ key, ∀ k ∈ s.invalid.erase key, k ∈ s.invalid := fun key k hk =>
    (mem_erase.mp hk).2
  cases o with
  | create spec fixing token =>
    have hlocal : Local spec.key s (exec cfg (.create spec fixing token) env s).1 := local_exec rfl
    cases fixing with
    | false => exact absurd rfl ho
    | true =>
      revert hlocal
      simp only [exec, Locked.create]
      split
      · exact fun _ => hs
      split
      · exact fun _ => hs
      · exact fun hlocal => invalidApart_of_local hs hlocal (by simp [State.forgetInvalid])
  | insertFailed generation spec e retry =>
    exact invalidApart_of_local hs (local_exec rfl)
      (by simp [exec, Locked.insertFailed, State.putFailed, State.forgetInvalid])
  | noteInvalid key invalid =>
    simp only [exec]
    split
    · exact hs
    rename_i hfree
    rw [not_or] at hfree
    intro k hk hmem
    rcases (mem_insert _).mp hmem with rfl | hmem
    · exact hfree.1 hk
    · exact hs k hk hmem
  | forgetInvalid key => exact invalidApart_of_subset hs (fun _ hk => hk) (herase key)
  | take key =>
    simp only [exec, Locked.take]
    repeat' split
    all_goals first
      | exact hs
      | exact invalidApart_of_subset hs (fun _ hk => hk) (herase key)
      | exact invalidApart_of_subset hs (fun _ hk => (mem_erase.mp hk).2) fun _ hk => hk
  | _ => exact absurd trivial ho

/-! ## Going in -/

lemma createCheck_eq_ok_iff :
    createCheck cfg s spec false none = .ok () ↔ spec.key ∉ s.rules ∧ s.Fits spec := by
  unfold createCheck State.Fits
  by_cases hrules : spec.key ∈ s.rules
  · simp [hrules]
  by_cases hinvalid : spec.key ∈ s.invalid
  · simp [hrules, hinvalid]
  simp only [hrules, hinvalid, if_false, and_false, not_false_eq_true, true_and]
  constructor
  · intro h
    split at h
    · cases h
    next hfind => exact fun k e he _ => Table.find?_eq_none.mp hfind k e he
  intro hclear
  have hfind : (s.rules.find? fun _ e => overlaps e.spec spec) = none := by
    refine Table.find?_eq_none.mpr fun k e he => hclear k e he ?_
    rintro rfl
    exact hrules (lookup_isSome.mp (by rw [he]; rfl))
  rw [hfind]
  rfl

variable {spec : RuleSpec}

lemma code_of_createCheck {e : ApiError}
    (h : createCheck cfg s spec false none = .error e) : e.code = .alreadyExists := by
  unfold createCheck at h
  split at h
  · cases h
    rfl
  split at h
  · cases h
    rfl
  split at h
  · cases h
    rfl
  · cases h

lemma createSpec_run (henv : env.Smooth) (hres : reservedClash cfg spec = none) :
    (createSpec cfg spec).run (machine cfg) env s = create cfg env s spec false none := by
  simp only [createSpec, createSpecIn, hres, perform_bind, run_op]
  simp only [machine, exec, henv.prepare, Fault.result]
  rfl

/-- **`create_spec` where nothing fails**: the rule runs if its key is free and it fits, and
otherwise nothing has changed. -/
theorem run_createSpec (henv : env.Smooth) (hres : reservedClash cfg spec = none) :
    (spec.key ∉ s.rules ∧ s.Fits spec) ∧
        ((createSpec cfg spec).run (machine cfg) env s).1.specAt spec.key = some spec ∧
        ((createSpec cfg spec).run (machine cfg) env s).2 = .ok () ∨
      ¬ (spec.key ∉ s.rules ∧ s.Fits spec) ∧ ((createSpec cfg spec).run (machine cfg) env s).1 = s ∧
        ∃ e, ((createSpec cfg spec).run (machine cfg) env s).2 = .error e ∧
          e.code = .alreadyExists := by
  rw [createSpec_run henv hres, create]
  cases hcheck : createCheck cfg s spec false none with
  | error e =>
    refine .inr ⟨fun hfree => ?_, rfl, e, rfl, code_of_createCheck hcheck⟩
    rw [createCheck_eq_ok_iff.mpr hfree] at hcheck
    cases hcheck
  | ok u =>
    refine .inl ⟨createCheck_eq_ok_iff.mp hcheck, ?_, ?_⟩
    · rw [henv.start]
      change ((s.rules.insert spec.key _).lookup spec.key).map Entry.spec = _
      rw [lookup_insert]
      rfl
    · rw [henv.start]

lemma specAt_insertFailed {e : ApiError} :
    ((insertFailed spec e).run (machine cfg) env s).1.specAt spec.key = some spec := by
  have h : ((insertFailed spec e).run (machine cfg) env s).1.rules.lookup spec.key = some _ :=
    lookup_insert _
  rw [State.specAt, h]
  rfl

lemma apply_run (henv : env.Smooth) (hres : reservedClash cfg spec = none) :
    (apply cfg key spec).run (machine cfg) env s = Locked.apply env s key spec := by
  simp only [apply, hres, perform_bind, run_op]
  simp only [machine, exec, henv.prepare, Fault.result]
  rfl

lemma run_apply (cfg : Settings) (henv : env.Smooth) {r : Running}
    (hres : reservedClash cfg spec = none) (hr : s.rules.lookup key = some (.running r)) :
    (∃ e, (apply cfg key spec).run (machine cfg) env s = (s, .error e)) ∨
      s.Clear key spec ∧ ∃ s', (apply cfg key spec).run (machine cfg) env s = (s', .ok ()) ∧
        s'.specAt key = some spec := by
  rw [apply_run henv hres, Locked.apply]
  cases hfind : s.rules.find? fun k e => k != key && overlaps e.spec spec with
  | some other => exact .inl ⟨_, rfl⟩
  | none =>
    simp only [henv.gate, hr]
    cases applyRunningCheck env key r.spec spec with
    | error e => exact .inl ⟨e, rfl⟩
    | ok u =>
      refine .inr ⟨clear_of_find?_eq_none hfind, _, rfl, ?_⟩
      rw [State.specAt, lookup_insert]
      rfl

lemma run_stopEntry (cfg : Settings) (env : Env) (s : State) (e : Entry) :
    ((stopEntry e).run (machine cfg) env s).1.rules = s.rules ∧
      ((stopEntry e).run (machine cfg) env s).1.invalid = s.invalid ∧
      ((stopEntry e).run (machine cfg) env s).1.nextGeneration = s.nextGeneration := by
  cases e <;> exact ⟨rfl, rfl, rfl⟩

/-! ## The outcome for one rule -/

def Outcome (s : State) (spec : RuleSpec) (s' : State) : Prop :=
  s.Fits spec ∧ s'.specAt spec.key = some spec ∨ ¬ s.Fits spec ∧ s'.specAt spec.key = none

lemma fits_congr (h : Local spec.key s s') (hi : s'.invalid = s.invalid) :
    s'.Fits spec ↔ s.Fits spec := by
  unfold State.Fits
  rw [hi]
  refine and_congr Iff.rfl ⟨fun hc k e he hk => ?_, fun hc k e he hk => ?_⟩
  · exact hc k e ((h.rules k hk).trans he) hk
  · exact hc k e ((h.rules k hk).symm.trans he) hk

lemma Outcome.of_fits_iff {t : State} (h : Outcome t spec s')
    (hfits : t.Fits spec ↔ s.Fits spec) : Outcome s spec s' := by
  unfold Outcome at h ⊢
  rwa [hfits] at h

lemma outcome_createSpec (henv : env.Smooth) (hres : reservedClash cfg spec = none)
    (hkey : spec.key ∉ s.rules) :
    Outcome s spec ((createSpec cfg spec).run (machine cfg) env s).1 := by
  rcases run_createSpec (s := s) henv hres with ⟨⟨-, hfits⟩, hspec, -⟩ | ⟨hno, hsame, -⟩
  · exact .inl ⟨hfits, hspec⟩
  refine .inr ⟨fun hfits => hno ⟨hkey, hfits⟩, ?_⟩
  rw [hsame]
  exact State.specAt_eq_none.mpr hkey

lemma outcome_recreate (henv : env.Smooth) (hres : reservedClash cfg spec = none)
    (hrules : t.rules = s.rules.erase spec.key) (hinvalid : t.invalid = s.invalid) :
    Outcome s spec ((createSpec cfg spec).run (machine cfg) env t).1 := by
  have hkey : spec.key ∉ t.rules := by
    rw [hrules, mem_erase]
    exact fun h => h.1 rfl
  refine (outcome_createSpec henv hres hkey).of_fits_iff (fits_congr ⟨fun k hk => ?_, ?_⟩ hinvalid)
  · rw [hrules, lookup_erase_ne hk]
  · exact fun k _ => by rw [hinvalid]

lemma specAt_eq_put (hlocal : Local spec.key s s') (h : Outcome s spec s') :
    s'.specAt = put State.Clash s.specAt
      ⟨spec.key, spec, .checked (decide (spec.key ∉ s.invalid))⟩ := by
  funext k
  by_cases hk : k = spec.key
  · subst hk
    have hiff : decide (spec.key ∉ s.invalid) = true ∧
        ¬ Replace.InWay State.Clash s.specAt spec.key spec ↔ s.Fits spec := by
      rw [State.inWay_iff, not_not, decide_eq_true_eq, State.Fits]
    rcases h with ⟨hfits, hspec⟩ | ⟨hno, hspec⟩
    · rw [hspec, put_checked_self (hiff.mpr hfits)]
    · rw [hspec, put_checked_self_none fun h => hno (hiff.mp h)]
  · rw [put_apply_of_ne hk, hlocal.specAt hk]

lemma specAt_eq_put_forced (hlocal : Local spec.key s s') (h : s'.specAt spec.key = some spec) :
    s'.specAt = put State.Clash s.specAt ⟨spec.key, spec, .forced⟩ := by
  funext k
  by_cases hk : k = spec.key
  · subst hk
    rw [h, put_forced_self]
  · rw [put_apply_of_ne hk, hlocal.specAt hk]

end Registry
end
end Rproxy
