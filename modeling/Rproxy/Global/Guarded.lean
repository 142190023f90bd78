import Rproxy.Global.Patches
import Rproxy.Global.Reloads
import Rproxy.Programs.Runs

/-!
# What the API may not name

A value of the API may not point rproxy at its own secrets and stores.
-/

namespace Rproxy
open Checks
section
variable [External] [GlobalExternal]
namespace Global
variable {i : LiveItem} {p : Paths} {x : Process} {v : Values}

structure Guarded (p : Paths) (s : State) : Prop where
  checked : s.api.Checked
  nameable : ∀ (i : LiveItem) (v : i.Ty), s.api i = some v → s.failed i = none → Nameable p i v

omit [External] [GlobalExternal] in
lemma ne_and_eq_none_of_update {failed : LiveItem → Option String} {j : LiveItem} {e : String}
    (h : Function.update failed j (some e) i = none) : i ≠ j ∧ failed i = none := by
  by_cases hij : i = j
  · subst hij
    rw [Function.update_self] at h
    cases h
  rw [Function.update_of_ne hij] at h
  exact ⟨hij, h⟩

def itemsSet (v : Values) : List LiveItem := LiveItem.all.filter fun i => (v i).isSome

lemma length_itemsSet_update {x : i.Ty} (h : v i = some x) :
    (itemsSet (Function.update v i none)).length < (itemsSet v).length := by
  have hfewer : itemsSet (Function.update v i none) = (itemsSet v).filter (· ≠ i) := by
    rw [itemsSet, itemsSet, List.filter_filter]
    refine List.filter_congr fun j _ => ?_
    by_cases hj : j = i
    · subst hj
      simp
    · simp [hj]
  have hi : i ∈ itemsSet v := List.mem_filter.mpr ⟨LiveItem.mem_all i, by rw [h]; rfl⟩
  rw [hfewer]
  exact List.length_filter_lt_length_iff_exists.mpr ⟨i, hi, by simp⟩

lemma nameable_of_holdBack {n : Nat} {values check : Values} {failed : LiveItem → Option String}
    {x : i.Ty} (hn : (itemsSet check).length ≤ n)
    (hcheck : ∀ j, failed j = none → check j = values j) (hx : values i = some x)
    (hheld : holdBack p n check failed i = none) : Nameable p i x := by
  induction n generalizing check failed with
  | zero =>
    have hnone : i ∉ itemsSet check := by
      rw [List.length_eq_zero_iff.mp (Nat.le_zero.mp hn)]
      exact List.not_mem_nil
    have hset : check i = some x := (hcheck i hheld).trans hx
    exact absurd (List.mem_filter.mpr ⟨LiveItem.mem_all i, by rw [hset]; rfl⟩) hnone
  | succ n ih =>
    cases hrefused : pathRefused p check with
    | none =>
      simp only [holdBack, hrefused] at hheld
      exact pathRefused_eq_none_iff_nameable.mp hrefused i x ((hcheck i hheld).trans hx)
    | some r =>
      simp only [holdBack, hrefused] at hheld
      obtain ⟨y, hy⟩ := exists_of_pathRefused hrefused
      have hfewer := length_itemsSet_update hy
      refine ih (by omega) (fun k hk => ?_) hheld
      obtain ⟨hkj, hk⟩ := ne_and_eq_none_of_update hk
      rw [Function.update_of_ne hkj]
      exact hcheck k hk

lemma failed_of_foldl_restoring {b : Builds} {sources : LiveItem → Source} {before : Live}
    {items : List LiveItem} {r : Restoring}
    (h : (items.foldl (Restoring.step b sources before) r).failed i = none) :
    r.failed i = none := by
  induction items generalizing r with
  | nil => exact h
  | cons j items ih =>
    have hnext := ih h
    unfold Restoring.step at hnext
    split at hnext
    · exact hnext
    · exact (ne_and_eq_none_of_update hnext).2

-- Unification would otherwise run `holdBack` on the number of all items.
attribute [local irreducible] holdBack

lemma guarded_restore (p : Paths) (b : Builds) (x : Process) (r : Restored) :
    Guarded p (restore p b x r).state := by
  have hset : (itemsSet (Values.readStored r.spec).values).length ≤ LiveItem.all.length :=
    List.length_filter_le ..
  refine ⟨Values.checked_readStored r.spec, fun i v hv hfailed => ?_⟩
  exact nameable_of_holdBack hset (fun _ _ => rfl) hv (failed_of_foldl_restoring hfailed)

lemma trySet_get {api : Values} (hchecked : ∀ x, api i = some x → i.check x = .ok ()) :
    trySet v i (api.get i) = Function.update v i (api i) := by
  cases hx : api i with
  | none => simp [trySet, Values.get, hx, Values.set]
  | some x =>
    have hset : v.set i (some (i.toJson x)) = .ok (Function.update v i (some x)) :=
      Values.set_of_read (LiveItem.read_toJson (hchecked x hx))
    simp only [trySet, Values.get, hx, Option.map_some, hset]

lemma takeNamed_eq {api : Values} {named : List LiveItem} (hchecked : api.Checked) :
    takeNamed v api named = Family.takeOver v api named := by
  induction named generalizing v with
  | nil => rfl
  | cons i named ih =>
    rw [takeNamed, List.foldl_cons, trySet_get (hchecked i)]
    exact ih

lemma checked_setAll {items : List (LiveItem × Option Json)} {w : Values} (hv : v.Checked)
    (h : setAll v items = .ok w) : w.Checked := by
  induction items generalizing v with
  | nil =>
    cases h
    exact hv
  | cons item items ih =>
    simp only [setAll, bind_eq_ok] at h
    obtain ⟨u, hu, hrest⟩ := h
    exact ih (hv.set hu) hrest

lemma patchChecks_nameable {env : PatchEnv} {body : List (String × Json)} {plan : PatchPlan}
    (hx : Guarded env.paths x.state) (h : patchChecks env x body = .ok plan) :
    plan.api.Checked ∧
      ∀ i ∈ plan.named, ∀ v, plan.api i = some v → Nameable env.paths i v := by
  obtain ⟨⟨items, hapi⟩, hpaths⟩ := patchChecks_api h
  have hchecked : plan.api.Checked := checked_setAll hx.checked hapi
  rw [takeNamed_eq hchecked] at hpaths
  refine ⟨hchecked, fun i hi v hv => ?_⟩
  refine pathRefused_eq_none_iff_nameable.mp hpaths i v ?_
  rw [Family.takeOver_apply, if_pos hi]
  exact hv

lemma guarded_patch (env : PatchEnv) (hx : Guarded env.paths x.state)
    (body : List (String × Json)) (token : String) (dryRun : Bool) :
    Guarded env.paths (patch env x body token dryRun).1.state := by
  obtain ⟨e, he⟩ | ⟨plan, hplan, -, ⟨-, hsame⟩ | ⟨-, built, -, -, hstate⟩⟩ :=
    patch_cases env x body token dryRun
  · rw [he]
    exact hx
  · rw [hsame]
    exact hx
  obtain ⟨hchecked, hname⟩ := patchChecks_nameable hx hplan
  rw [hstate]
  refine ⟨hchecked, fun i v hv hfailed => ?_⟩
  by_cases hi : i ∈ plan.named
  · exact hname i hi v hv
  change Family.takeOver x.state.failed (fun _ => none) plan.named i = none at hfailed
  rw [Family.takeOver_apply, if_neg hi] at hfailed
  refine hx.nameable i v ?_ hfailed
  rw [← ((patchChecks_spec hplan).2 i hi).2]
  exact hv

def LeavesHeldBack (p : Paths) (s : State) (file : Values) : Prop :=
  ∀ i ∈ preview s file, ∀ v ∈ s.api i, Nameable p i v

instance (p : Paths) (s : State) (file : Values) : Decidable (LeavesHeldBack p s file) :=
  inferInstanceAs (Decidable (∀ i ∈ preview s file, ∀ v ∈ s.api i, Nameable p i v))

lemma Committed.mem_changed {uses : RulesUse} {s : State} {p : FilePrepared} {c : Committing}
    (h : Committed uses s p c) (hi : i ∈ c.changed) :
    i ∈ p.changed ∨ i = .crowdsec ∧ s.api .crowdsec = none := by
  by_cases htakes : Takes uses s.live p.target i
  · exact absurd hi (h.kept i htakes).changed
  by_cases hcrowdsec : i = .crowdsec
  · subst hcrowdsec
    by_cases hgoes : (p.committing s).Goes uses p.file
    · exact .inr ⟨rfl, hgoes.2.2.2.2⟩
    · exact .inl ((h.crowdsec htakes hgoes).1.changed.mp hi)
  · exact .inl ((h.passed i hcrowdsec htakes).changed.mp hi)

omit [External] [GlobalExternal] in
lemma failed_of_foldl_update {l : List (LiveItem × String)} {f : LiveItem → Option String}
    (h : l.foldl (fun f (e : LiveItem × String) => Function.update f e.1 (some e.2)) f i = none) :
    f i = none := by
  induction l generalizing f with
  | nil => exact h
  | cons e l ih => exact (ne_and_eq_none_of_update (ih h)).2

lemma guarded_reload (b : Builds) (uses : RulesUse) {file : Values} (hx : Guarded p x.state)
    (hleaves : LeavesHeldBack p x.state file) :
    Guarded p (reload b uses x file).1.state := by
  unfold reload
  split
  · exact hx
  next prepared hprepared =>
  have hcommitted := committed uses x prepared
  have hapi := hcommitted.layers.api
  refine ⟨?_, fun i v hv hfailed => ?_⟩
  · change (committing uses x prepared).state.api.Checked
    rw [hapi]
    exact hx.checked
  change (committing uses x prepared).state.api i = some v at hv
  rw [hapi] at hv
  have hentry := failed_of_foldl_update hfailed
  rw [Family.takeOver_apply] at hentry
  split at hentry
  next hchanged =>
    -- the entry was removed, or there was none: the item was to be changed
    obtain hprep | ⟨rfl, hnone⟩ := hcommitted.mem_changed hchanged
    · have hdiffers := (((prepareFile_spec hprepared).changed i).mp hprep).1
      exact hleaves i hdiffers v hv
    rw [hnone] at hv
    cases hv
  · rw [hcommitted.layers.failed] at hentry
    exact hx.nameable i v hv hentry

/-! ## Runs -/

inductive Act where
  | setNotLoaded
  | restore (builds : Builds) (stored : Restored)
  | patch (env : PatchEnv) (body : List (String × Json)) (token : String) (dryRun : Bool)
  | reload (builds : Builds) (uses : RulesUse) (file : Values)

def step (p : Paths) (x : Process) : Act → Process
  | .setNotLoaded => setNotLoaded x
  | .restore b r => restore p b x r
  | .patch env body token dryRun => (patch { env with paths := p } x body token dryRun).1
  | .reload b uses file => (reload b uses x file).1

def Act.LeavesHeldBack (p : Paths) (x : Process) : Act → Prop
  | .reload _ _ file => Global.LeavesHeldBack p x.state file
  | _ => True

instance (p : Paths) (x : Process) : (e : Act) → Decidable (e.LeavesHeldBack p x)
  | .reload _ _ file => inferInstanceAs (Decidable (Global.LeavesHeldBack p x.state file))
  | .setNotLoaded => .isTrue trivial
  | .restore .. => .isTrue trivial
  | .patch .. => .isTrue trivial

lemma guarded_step (hx : Guarded p x.state) {e : Act} (he : e.LeavesHeldBack p x) :
    Guarded p (step p x e).state := by
  cases e with
  | setNotLoaded => exact ⟨hx.checked, hx.nameable⟩
  | restore b r => exact guarded_restore p b x r
  | patch env body token dryRun =>
    exact guarded_patch { env with paths := p } hx body token dryRun
  | reload b uses file => exact guarded_reload b uses hx he

def State.FromApi (s : State) (i : LiveItem) (v : i.Ty) : Prop :=
  s.file i = none ∧ s.env.values i = none ∧ s.apiInForce i = some v ∧ s.live i = i.held (some v)

/-- **What the API may not name is not in force**, after every run of restores, PATCHes and reloads
in which no reload changes an item whose value of the API may not be named. -/
theorem fromApi_nameable (p : Paths) (file : Values) (env : EnvValues) (database : Bool)
    (evs : List Act)
    (h : Along (step p) (fun x e => e.LeavesHeldBack p x) (init file env database) evs)
    (i : LiveItem) (v : i.Ty)
    (hv : (after (step p) (init file env database) evs).state.FromApi i v) :
    Nameable p i v := by
  have hguarded : Guarded p (after (step p) (init file env database) evs).state :=
    h.invariant (I := fun x => Guarded p x.state) ⟨nofun, nofun⟩ fun x e hx he => guarded_step hx he
  obtain ⟨-, -, hforce, -⟩ := hv
  rw [State.apiInForce_apply] at hforce
  split at hforce
  · cases hforce
  next hfailed =>
    exact hguarded.nameable i v hforce (Option.not_isSome_iff_eq_none.mp hfailed)

end Global
end

namespace Plain
open Global

def tokenFile : String := "/etc/rproxy/token"

def closedPaths : Paths :=
  { openPaths with protecting := fun path => if path = tokenFile then some "a token file"
    else none }

def storedToken : Act :=
  .restore quietBuilds
    { spec := .obj [("access_log", .str tokenFile)], updatedBy := none, updatedAt := none
      persisted := none, keptOver := ⟨none, none, none⟩ }

def throughTheFile : List Act :=
  [storedToken, .reload quietBuilds noUses (Family.only .accessLog "/var/log/access.log"),
    .reload quietBuilds noUses Family.none]

/-- A stored value that may not be named is held back when it is restored; two reloads of the file
put it in force. -/
theorem heldBack_in_force :
    (after (step closedPaths) fresh [storedToken]).state.failed .accessLog ≠ none ∧
      (after (step closedPaths) fresh throughTheFile).state.FromApi .accessLog tokenFile ∧
      ¬Nameable closedPaths .accessLog tokenFile :=
  ⟨by decide +kernel, ⟨by decide +kernel, by decide +kernel, by decide +kernel, by decide +kernel⟩,
    by decide +kernel⟩

def besideTheFile : List Act :=
  [storedToken, .patch patchEnv [("access_log", .str "/var/log/access.log")] "ops" false,
    .reload quietBuilds noUses otherCrowdsec]

theorem besideTheFile_nameable :
    (after (step closedPaths) fresh besideTheFile).state.FromApi .accessLog "/var/log/access.log" ∧
      Nameable closedPaths .accessLog "/var/log/access.log" := by
  have hfrom : (after (step closedPaths) fresh besideTheFile).state.FromApi .accessLog
      "/var/log/access.log" :=
    ⟨by decide +kernel, by decide +kernel, by decide +kernel, by decide +kernel⟩
  exact ⟨hfrom, fromApi_nameable closedPaths Family.none ⟨none, none⟩ false besideTheFile
    (by decide +kernel) .accessLog _ hfrom⟩

end Plain
end Rproxy
