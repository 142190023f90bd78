import Rproxy.Global.Plain

/-!
# What a PATCH of `global` changes

A PATCH is checked, built and checked again under the lock of the rules before it changes anything.
-/

namespace Rproxy
open Checks List
section
variable [External] [GlobalExternal]
namespace Global
variable {env : PatchEnv} {x : Process} {body : List (String × Json)} {token : String}

def namedBy (body : List (String × Json)) : List LiveItem :=
  match namedItems body with
  | .ok items => items.filterMap fun i => i.1.live?
  | .error _ => []

variable {i : LiveItem}

lemma setAll_of_notMem {items : List (LiveItem × Option Json)} {v w : Values}
    (h : setAll v items = .ok w) (hi : i ∉ items.map Prod.fst) : w i = v i := by
  induction items generalizing v with
  | nil =>
    cases h
    rfl
  | cons item items ih =>
    rw [map_cons, mem_cons, not_or] at hi
    simp only [setAll, bind_eq_ok] at h
    obtain ⟨u, hu, hrest⟩ := h
    obtain ⟨y, rfl, -⟩ := Values.exists_of_set hu
    rw [ih hrest hi.2]
    exact Function.update_of_ne hi.1 ..

variable {plan : PatchPlan}

lemma patchPlan_spec {p : Paths} {s : State} {items : List (Item × Option Json)}
    (h : patchPlan p s items = .ok plan) :
    plan.named = items.filterMap (fun i => i.1.live?) ∧
      ∀ i ∉ plan.named, plan.target i = s.live i ∧ plan.api i = s.api i := by
  simp only [patchPlan, bind_eq_ok, exists_unit, pure_eq_ok, mapError_eq_ok] at h
  obtain ⟨-, -, -, api, hapi, -, rfl⟩ := h
  refine ⟨?_, fun i hi => ⟨?_, setAll_of_notMem hapi hi⟩⟩
  · change map _ _ = _
    rw [map_filterMap]
    congr 1
    funext i
    cases i.1.live? <;> rfl
  change Family.takeOver _ _ _ i = _
  rw [Family.takeOver_apply, if_pos]
  exact mem_filter.mpr ⟨LiveItem.mem_all i, decide_eq_true hi⟩

lemma patch_cases (env : PatchEnv) (x : Process) (body : List (String × Json)) (token : String)
    (dryRun : Bool) :
    (∃ e, patch env x body token dryRun = (x, .error e)) ∨
      ∃ plan, patchChecks env x body = .ok plan ∧
        (patch env x body token dryRun).2
          = .ok ⟨plan.changes x.state, differing x.state.live plan.target⟩ ∧
        (dryRun ∧ (patch env x body token dryRun).1 = x ∨
          dryRun = false ∧ ∃ built,
            buildAll env.builds plan.target .none (differing x.state.live plan.target) = .ok built ∧
            usesRefuse env.cfg env.usesLast x.force plan.target
              (differing x.state.live plan.target) = .ok () ∧
            (patch env x body token dryRun).1
              = ⟨x.state.patched plan built token env.now, commit built x.force⟩) := by
  unfold patch
  cases hplan : patchChecks env x body with
  | error e => exact .inl ⟨e, rfl⟩
  | ok plan =>
    cases dryRun with
    | true =>
      cases hdry : dryChecks env plan.target (differing x.state.live plan.target) with
      | error e => exact .inl ⟨e, by simp [hdry, Except.map]⟩
      | ok u => exact .inr ⟨plan, rfl, by simp [hdry, Except.map], .inl ⟨rfl, rfl⟩⟩
    | false =>
      dsimp only [Bool.false_eq_true, if_false]
      cases hbuilt : buildAll env.builds plan.target .none (differing x.state.live plan.target) with
      | error e => exact .inl ⟨e, rfl⟩
      | ok built =>
        cases huse : usesRefuse env.cfg env.usesLast x.force plan.target
            (differing x.state.live plan.target) with
        | error e => exact .inl ⟨e, by simp⟩
        | ok u => exact .inr ⟨plan, rfl, by simp, .inr ⟨rfl, built, hbuilt, huse, by simp⟩⟩

lemma patchChecks_unique {env' : PatchEnv} {plan' : PatchPlan}
    (h : patchChecks env x body = .ok plan) (h' : patchChecks env' x body = .ok plan') :
    plan = plan' := by
  simp only [patchChecks, patchPlan, bind_eq_ok, exists_unit, pure_eq_ok, mapError_eq_ok] at h h'
  obtain ⟨items, hitems, _, ⟨-, -, -, api, hapi, -, rfl⟩, -, rfl⟩ := h
  obtain ⟨items', hitems', _, ⟨-, -, -, api', hapi', -, rfl⟩, -, rfl⟩ := h'
  obtain rfl := Except.ok.inj (hitems.symm.trans hitems')
  obtain rfl := Except.ok.inj (hapi.symm.trans hapi')
  rfl

lemma patchChecks_spec (h : patchChecks env x body = .ok plan) : plan.named = namedBy body ∧
      ∀ i ∉ plan.named, plan.target i = x.state.live i ∧ plan.api i = x.state.api i := by
  simp only [patchChecks, bind_eq_ok, exists_unit, pure_eq_ok, mapError_eq_ok] at h
  obtain ⟨items, hitems, plan, hplan, -, rfl⟩ := h
  obtain ⟨hnamed, hothers⟩ := patchPlan_spec hplan
  refine ⟨?_, hothers⟩
  rw [hnamed, namedBy, hitems]

lemma patchChecks_api (h : patchChecks env x body = .ok plan) :
    (∃ items, setAll x.state.api items = .ok plan.api) ∧
      pathRefused env.paths (takeNamed Family.none plan.api plan.named) = none := by
  simp only [patchChecks, patchPlan, bind_eq_ok, exists_unit, pure_eq_ok, mapError_eq_ok,
    onSome_throw_eq_ok] at h
  obtain ⟨items, -, plan, ⟨-, -, -, api, hapi, hpaths, rfl⟩, -, rfl⟩ := h
  exact ⟨⟨_, hapi⟩, hpaths⟩

lemma patch_of_notMem {done : Patched} (h : (patch env x body token false).2 = .ok done)
    (hi : i ∉ namedBy body) :
    (patch env x body token false).1.state.live i = x.state.live i ∧
      (patch env x body token false).1.state.api i = x.state.api i ∧
      (patch env x body token false).1.force i = x.force i := by
  obtain ⟨e, he⟩ | ⟨plan, hplan, -, ⟨⟨⟩, -⟩ | ⟨-, built, hbuilt, -, hstate⟩⟩ :=
    patch_cases env x body token false
  · rw [he] at h
    cases h
  obtain ⟨hnamed, hothers⟩ := patchChecks_spec hplan
  obtain ⟨hlive, hapi⟩ := hothers i (hnamed ▸ hi)
  have hsame : i ∉ differing x.state.live plan.target := by
    rw [mem_differing, not_not]
    exact hlive.symm
  rw [hstate]
  refine ⟨hlive, hapi, ?_⟩
  change (built.values i).getD (x.force i) = _
  rw [buildAll_of_notMem hbuilt hsame]
  rfl

/-- **A PATCH is all or nothing, and a dry run foretells it.** A refused one, and every dry run,
leaves all as it was; a dry run and a PATCH of the same body on the same state, both accepted,
report the same; and a PATCH leaves alone what its body does not name. -/
theorem patch_all_or_nothing (env env' : PatchEnv) (x : Process) (body : List (String × Json))
    (token token' : String) :
    (∀ dryRun e, (patch env x body token dryRun).2 = .error e →
        (patch env x body token dryRun).1 = x) ∧
      (patch env x body token true).1 = x ∧
      (∀ told done, (patch env x body token true).2 = .ok told →
        (patch env' x body token' false).2 = .ok done → done = told) ∧
      ∀ done, (patch env x body token false).2 = .ok done → ∀ i ∉ namedBy body,
        (patch env x body token false).1.state.live i = x.state.live i ∧
          (patch env x body token false).1.state.api i = x.state.api i ∧
          (patch env x body token false).1.force i = x.force i := by
  refine ⟨fun dryRun e h => ?_, ?_, fun told done htold hdone => ?_,
    fun done h i hi => patch_of_notMem h hi⟩
  · obtain ⟨e, he⟩ | ⟨plan, -, hok, -⟩ := patch_cases env x body token dryRun
    · rw [he]
    rw [hok] at h
    cases h
  · obtain ⟨e, he⟩ | ⟨plan, -, -, ⟨-, hx⟩ | ⟨⟨⟩, -⟩⟩ := patch_cases env x body token true
    · rw [he]
    · exact hx
  obtain ⟨e, he⟩ | ⟨plan, hplan, hok, -⟩ := patch_cases env x body token true
  · rw [he] at htold
    cases htold
  obtain ⟨e, he⟩ | ⟨plan', hplan', hok', -⟩ := patch_cases env' x body token' false
  · rw [he] at hdone
    cases hdone
  obtain rfl := patchChecks_unique hplan hplan'
  exact Except.ok.inj (hdone.symm.trans (hok'.trans (hok.symm.trans htold)))

end Global
end

namespace Plain
open Global

def twoItems : List (String × Json) :=
  [("udp_max_sessions", .num 500), ("trusted_proxies", .arr [.str "10.0.0.0/8"])]

theorem twoItems_foretold : (∃ told done, (patch patchEnv fresh twoItems "ops" true).2 = .ok told ∧
        (patch patchEnv fresh twoItems "dev" false).2 = .ok done ∧ done = told) ∧
      (patch patchEnv fresh [] "ops" false).1 = fresh ∧
      (patch patchEnv fresh twoItems "dev" false).1.state.live .geoip =
        fresh.state.live .geoip := by
  obtain ⟨-, -, htold, -⟩ := patch_all_or_nothing patchEnv patchEnv fresh twoItems "ops" "dev"
  obtain ⟨-, -, -, hothers⟩ := patch_all_or_nothing patchEnv patchEnv fresh twoItems "dev" "ops"
  refine ⟨⟨_, _, rfl, rfl, htold _ _ rfl rfl⟩, ?_, (hothers _ rfl .geoip (by decide +kernel)).1⟩
  exact (patch_all_or_nothing patchEnv patchEnv fresh [] "ops" "ops").1 false _ rfl

end Plain
end Rproxy
