import Rproxy.Registry.Installing
import Rproxy.Registry.NonOverlap

/-!
# A reload of the settings file

`reload_static` takes out the rules that the file no longer has, and brings in its rules one by one.
-/

namespace Rproxy
open List Option Replace Table
section
variable [External]
namespace Registry
open Prog (All)
variable {cfg : Settings} {env : Env} {s : State}
variable {rule : FileRule} {current : List (Key × RuleSpec × Bool)}
  {reqs : List (String × RuleRequest)} {rules : List FileRule} {spec : RuleSpec}

structure FileChecked (cfg : Settings) (rules : List FileRule) : Prop where
  clear : rules.Pairwise fun a b => overlaps a.1 b.1 = false
  reserved : ∀ rule ∈ rules, reservedClash cfg rule.1 = none
  count : ∀ rule ∈ rules, rule.1.portCount ≠ 0

lemma portCount_of_validateAtStartup {caps : Caps} {req : RuleRequest}
    (h : validateAtStartup caps req = .ok rule) : rule.1.portCount ≠ 0 := by
  unfold validateAtStartup at h
  split at h
  next hok =>
    cases h
    exact (valid_of_validate hok).1.count.1
  split at h
  · split at h
    next hok =>
      cases h
      exact (valid_of_validate hok).1.count.1
    · cases h
  · cases h

lemma fileChecked_append (h : FileChecked cfg rules)
    (hclear : ∀ r ∈ rules, overlaps r.1 rule.1 = false) (hres : reservedClash cfg rule.1 = none)
    (hcount : rule.1.portCount ≠ 0) : FileChecked cfg (rules ++ [rule]) := by
  refine ⟨pairwise_append.mpr ⟨h.clear, pairwise_singleton _ _, ?_⟩, ?_, ?_⟩
  · intro r hr r' hr'
    rw [mem_singleton.mp hr']
    exact hclear r hr
  · exact forall_mem_append.mpr ⟨h.reserved, forall_mem_singleton.mpr hres⟩
  · exact forall_mem_append.mpr ⟨h.count, forall_mem_singleton.mpr hcount⟩

lemma fileChecked_validateStaticFrom {checked out : List (FileRule × String)}
    (h : validateStaticFrom cfg checked reqs = .ok out)
    (hchecked : FileChecked cfg (checked.map Prod.fst)) : FileChecked cfg (out.map Prod.fst) := by
  induction reqs generalizing checked with
  | nil =>
    cases h
    exact hchecked
  | cons r reqs ih =>
    rw [validateStaticFrom] at h
    split at h
    · cases h
    rename_i spec missing hvalid
    dsimp only at h
    split at h
    · cases h
    rename_i hfind
    split at h
    · cases h
    rename_i hres
    have hcount : spec.portCount ≠ 0 := portCount_of_validateAtStartup hvalid
    refine ih h ?_
    rw [map_append]
    refine fileChecked_append hchecked ?_ hres hcount
    intro r hr
    obtain ⟨c, hc, rfl⟩ := mem_map.mp hr
    simpa using find?_eq_none.mp hfind c hc

lemma fileChecked_of_validateStatic (h : validateStatic cfg reqs = .ok rules) :
    FileChecked cfg rules := by
  unfold validateStatic at h
  cases hfrom : validateStaticFrom cfg [] reqs with
  | error e =>
    rw [hfrom] at h
    cases h
  | ok out =>
    rw [hfrom] at h
    cases h
    exact fileChecked_validateStaticFrom hfrom ⟨.nil, by simp, by simp⟩

lemma FileChecked.nodup (h : FileChecked cfg rules) : (rules.map fun r => r.1.key).Nodup := by
  rw [nodup_iff_pairwise_ne, pairwise_map]
  refine h.clear.imp_of_mem fun ha hb hclear hkey => ?_
  rw [overlaps_of_key_eq hkey (h.count _ ha) (h.count _ hb)] at hclear
  cases hclear

/-! ## One rule of the file -/

def fileItem (s : State) (rule : FileRule) : Replace.Item Key RuleSpec where
  key := rule.1.key
  val := rule.1
  mode :=
    if s.specAt rule.1.key = some rule.1 then .kept
    else
      match rule.2 with
      | some _ => .forced
      | none => .checked (decide (rule.1.key ∉ s.invalid))

lemma specAt_of_kept (h : (fileItem s rule).mode = .kept) :
    s.specAt rule.1.key = some rule.1 := by
  obtain ⟨spec, missing⟩ := rule
  by_contra hne
  rw [fileItem] at h
  simp only [if_neg hne] at h
  cases missing <;> cases h

lemma installs_startStatic (rule : FileRule) :
    (startStatic cfg rule).All (Op.installs rule.1.key rule.1) := by
  obtain ⟨spec, missing⟩ := rule
  cases missing with
  | some m => exact (installs_insertFailed _ _ _).bind fun _ => trivial
  | none =>
    refine (installs_createSpec spec _).bind fun r => ?_
    rcases r with e | _
    · dsimp only
      split
      · trivial
      · exact (installs_insertFailed _ _ _).bind fun _ => trivial
    · trivial

lemma onlyAt_recreateStatic (rule : FileRule) :
    (recreateStatic cfg rule).All (Op.onlyAt rule.1.key) := by
  have hstart : (startStatic cfg rule).All (Op.onlyAt rule.1.key) :=
    onlyAt_of_installs (installs_startStatic rule)
  refine ⟨rfl, fun r => ?_⟩
  rcases r with _ | entry
  · exact hstart.bind fun _ => trivial
  refine (all_stopEntry ?_ ?_ ?_ entry).bind fun _ => hstart.bind fun _ => trivial
  all_goals exact fun _ => trivial

lemma onlyAt_reloadRule (current : List (Key × RuleSpec × Bool)) (rule : FileRule) :
    (reloadRule cfg current rule).All (Op.onlyAt rule.1.key) := by
  unfold reloadRule
  split
  · exact (onlyAt_of_installs (installs_startStatic rule)).bind fun _ => trivial
  split
  · trivial
  split
  · refine (onlyAt_of_installs (installs_apply rule.1 _)).bind fun r => ?_
    rcases r with e | _
    · exact onlyAt_recreateStatic rule
    · trivial
  · exact onlyAt_recreateStatic rule

lemma run_startStatic (henv : env.Smooth) (hres : reservedClash cfg spec = none) :
    ((startStatic cfg (spec, none)).run (machine cfg) env s).1
      = ((createSpec cfg spec).run (machine cfg) env s).1 := by
  rw [startStatic, Prog.run_bind]
  rcases run_createSpec (s := s) henv hres with ⟨-, -, hok⟩ | ⟨-, -, e, herr, hcode⟩
  · rw [hok]
    rfl
  rw [herr]
  simp only [hcode, if_true]
  rfl

lemma specAt_startStatic {missing : String} :
    ((startStatic cfg (spec, some missing)).run (machine cfg) env s).1.specAt spec.key
      = some spec :=
  specAt_insertFailed

open Locked

lemma run_recreateStatic (cfg : Settings) (env : Env) (s : State) (rule : FileRule) : ∃ t : State,
    t.rules = s.rules.erase rule.1.key ∧ t.invalid = s.invalid ∧
      t.nextGeneration = s.nextGeneration ∧
      (recreateStatic cfg rule).run (machine cfg) env s
        = (((startStatic cfg rule).run (machine cfg) env t).1,
          .changed ((startStatic cfg rule).run (machine cfg) env t).2) := by
  simp only [recreateStatic, Prog.perform_bind, Prog.run_op]
  simp only [machine, exec, remove]
  cases s.rules.lookup rule.1.key with
  | none =>
    refine ⟨{ s with rules := s.rules.erase rule.1.key }, rfl, rfl, rfl, ?_⟩
    simp only [Prog.run_bind]
    rfl
  | some entry =>
    obtain ⟨hr, hi, hn⟩ := run_stopEntry cfg env { s with rules := s.rules.erase rule.1.key } entry
    refine ⟨_, hr, hi, hn, ?_⟩
    simp only [Prog.run_bind]
    rfl

lemma outcome_recreateStatic (henv : env.Smooth) (hres : reservedClash cfg spec = none) :
    Outcome s spec ((recreateStatic cfg (spec, none)).run (machine cfg) env s).1 := by
  obtain ⟨t, hr, hi, -, hrun⟩ := run_recreateStatic cfg env s (spec, none)
  rw [hrun, run_startStatic henv hres]
  exact outcome_recreate henv hres hr hi

lemma specAt_recreateStatic {missing : String} :
    ((recreateStatic cfg (spec, some missing)).run (machine cfg) env s).1.specAt spec.key
      = some spec := by
  obtain ⟨t, -, -, -, hrun⟩ := run_recreateStatic cfg env s (spec, some missing)
  rw [hrun]
  exact specAt_startStatic

lemma outcome_reloadRule (henv : env.Smooth) (hres : reservedClash cfg spec = none)
    (hapart : spec.key ∈ s.rules → spec.key ∉ s.invalid)
    (hcur : current.lookup spec.key = (s.rules.lookup spec.key).map fun e => (e.spec, e.isRunning))
    (hnew : s.specAt spec.key ≠ some spec) :
    Outcome s spec ((reloadRule cfg current (spec, none)).run (machine cfg) env s).1 := by
  have hre : Outcome s spec ((recreateStatic cfg (spec, none)).run (machine cfg) env s).1 :=
    outcome_recreateStatic henv hres
  unfold reloadRule
  cases hold : s.rules.lookup spec.key with
  | none =>
    simp only [hcur, hold, map_none, Prog.run_bind]
    rw [run_startStatic henv hres]
    exact outcome_createSpec henv hres (AList.lookup_eq_none.mp hold)
  | some e =>
    have hne : e.spec ≠ spec := by
      rintro rfl
      exact hnew (by rw [State.specAt, hold]; rfl)
    simp only [hcur, hold, map_some, if_neg hne]
    split
    next hplace =>
      -- in place: what `apply` refuses is created again
      cases e with
      | failed f => cases hplace.1
      | running r =>
        rw [Prog.run_bind]
        rcases run_apply cfg henv hres hold with ⟨err, hrun⟩ | ⟨hclear, s', hrun, hspec⟩
        · rw [hrun]
          exact hre
        rw [hrun]
        have hmem : spec.key ∈ s.rules := AList.lookup_isSome.mp (by rw [hold]; rfl)
        exact .inl ⟨⟨hapart hmem, hclear⟩, hspec⟩
    · exact hre

lemma run_reloadRule (henv : env.Smooth) {rule : FileRule}
    {current : List (Key × RuleSpec × Bool)} (hres : reservedClash cfg rule.1 = none)
    (hapart : rule.1.key ∈ s.rules → rule.1.key ∉ s.invalid) (hcur : current.lookup rule.1.key
      = (s.rules.lookup rule.1.key).map fun e => (e.spec, e.isRunning)) :
    ((reloadRule cfg current rule).run (machine cfg) env s).1.specAt
      = put State.Clash s.specAt (fileItem s rule) := by
  have hlocal : Local rule.1.key s ((reloadRule cfg current rule).run (machine cfg) env s).1 :=
    local_run (onlyAt_reloadRule current rule)
  obtain ⟨spec, missing⟩ := rule
  by_cases hsame : s.specAt spec.key = some spec
  · -- unchanged
    rw [fileItem, if_pos hsame]
    obtain ⟨e, he, rfl⟩ := map_eq_some_iff.mp hsame
    simp only [reloadRule, hcur, he, map_some, if_true]
    rfl
  rw [fileItem, if_neg hsame]
  cases missing with
  | none => exact specAt_eq_put hlocal (outcome_reloadRule henv hres hapart hcur hsame)
  | some m =>
    refine specAt_eq_put_forced hlocal ?_
    unfold reloadRule
    cases hold : s.rules.lookup spec.key with
    | none =>
      simp only [hcur, hold, map_none, Prog.run_bind]
      exact specAt_startStatic
    | some e =>
      have hne : e.spec ≠ spec := by
        rintro rfl
        exact hsame (by rw [State.specAt, hold]; rfl)
      simp only [hcur, hold, map_some, if_neg hne, reduceCtorEq, false_and, and_false, if_false]
      exact specAt_recreateStatic

lemma SameAt.fileItem {t : State} (h : SameAt rule.1.key s t) :
    fileItem t rule = fileItem s rule := by
  simp only [Registry.fileItem, h.specAt, h.invalid]

lemma run_reloadRules (henv : env.Smooth) (hapart : s.InvalidApart)
    (hcur : ∀ k, current.lookup k = (s.rules.lookup k).map fun e => (e.spec, e.isRunning))
    (hkeys : (rules.map fun r => r.1.key).Nodup)
    (hres : ∀ rule ∈ rules, reservedClash cfg rule.1 = none) {t : State}
    (hsame : ∀ rule ∈ rules, SameAt rule.1.key s t) :
    ((Prog.mapEach (reloadRule cfg current) rules).run (machine cfg) env t).1.specAt
      = putAll State.Clash t.specAt (rules.map (fileItem s)) := by
  induction rules generalizing t with
  | nil => rfl
  | cons rule rules ih =>
    obtain ⟨hnot, hkeys⟩ := nodup_cons.mp hkeys
    have hrule := hsame rule mem_cons_self
    have hlocal : Local rule.1.key t ((reloadRule cfg current rule).run (machine cfg) env t).1 :=
      local_run (onlyAt_reloadRule current rule)
    have hmem : rule.1.key ∈ t.rules → rule.1.key ∉ t.invalid := by
      rw [hrule.invalid, ← AList.lookup_isSome, hrule.rules, AList.lookup_isSome]
      exact hapart rule.1.key
    have hstep := run_reloadRule (s := t) henv (hres rule mem_cons_self) hmem
      ((hcur rule.1.key).trans (by rw [hrule.rules]))
    rw [Prog.run_mapEach_cons, ih hkeys (fun r hr => hres r (mem_cons_of_mem _ hr)) fun r hr => ?_]
    · rw [hstep, hrule.fileItem]
      rfl
    have hne : r.1.key ≠ rule.1.key := fun h => hnot (mem_map.mpr ⟨r, hr, h⟩)
    exact (hsame r (mem_cons_of_mem _ hr)).trans_local hne hlocal

lemma run_removeStatic (cfg : Settings) (env : Env) (s : State) (key : Key) :
    ((removeStatic key).run (machine cfg) env s).1.rules = s.rules.erase key ∧
      ((removeStatic key).run (machine cfg) env s).1.invalid = s.invalid := by
  simp only [removeStatic, Prog.perform_bind, Prog.run_op]
  simp only [machine, exec, remove]
  cases s.rules.lookup key with
  | none => exact ⟨rfl, rfl⟩
  | some entry =>
    simp only [Prog.run_bind]
    obtain ⟨hr, hi, -⟩ := run_stopEntry cfg env { s with rules := s.rules.erase key } entry
    exact ⟨hr, hi⟩

lemma run_removeStatics (cfg : Settings) (env : Env) (keys : List Key) (s : State) :
    (∀ k, ((Prog.mapEach removeStatic keys).run (machine cfg) env s).1.rules.lookup k
        = if k ∈ keys then none else s.rules.lookup k) ∧
      ((Prog.mapEach removeStatic keys).run (machine cfg) env s).1.invalid = s.invalid := by
  induction keys generalizing s with
  | nil => exact ⟨fun k => by simp; rfl, rfl⟩
  | cons key keys ih =>
    obtain ⟨hr, hi⟩ := run_removeStatic cfg env s key
    obtain ⟨hrs, his⟩ := ih ((removeStatic key).run (machine cfg) env s).1
    rw [Prog.run_mapEach_cons]
    refine ⟨fun k => ?_, his.trans hi⟩
    rw [hrs, hr, lookup_erase_eq]
    by_cases hk : k ∈ keys <;> by_cases hkey : k = key <;> simp [hk, hkey]

/-! ## The whole reload -/

structure Matches (rules : List FileRule) (s : State) : Prop where
  keys : ∀ k, k ∈ s.rules ↔ k ∈ rules.map fun r => r.1.key
  specs : ∀ rule ∈ rules, s.specAt rule.1.key = some rule.1

/-- No new or changed rule of the file that can run here clashes with a later one as that is now, or
has the key of a rule that did not validate. -/
def Movable (s : State) : List FileRule → Prop
  | [] => True
  | rule :: rest =>
    (rule.2 = none → s.specAt rule.1.key ≠ some rule.1 →
      rule.1.key ∉ s.invalid ∧
        ∀ later ∈ rest, ∀ old ∈ s.specAt later.1.key, overlaps old rule.1 = false) ∧
      Movable s rest

instance decidableMovable (s : State) : (rules : List FileRule) → Decidable (Movable s rules)
  | [] => .isTrue trivial
  | _ :: rest =>
    haveI := decidableMovable s rest
    inferInstanceAs (Decidable (_ ∧ _))

lemma ordered_iff_movable :
    Replace.Ordered State.Clash s.specAt (rules.map (fileItem s)) ↔ Movable s rules := by
  induction rules with
  | nil => exact Iff.rfl
  | cons rule rules ih =>
    refine and_congr ?_ ih
    obtain ⟨spec, missing⟩ := rule
    simp only [fileItem, List.forall_mem_map]
    by_cases hsame : s.specAt spec.key = some spec
    · simp [hsame]
    cases missing with
    | some m => simp [hsame]
    | none =>
      simp only [if_neg hsame]
      constructor
      · intro h _ _
        obtain ⟨hfree, hlater⟩ := h _ rfl
        exact ⟨of_decide_eq_true hfree, fun later hmem old hold => by
          simpa using hlater later hmem old hold⟩
      rintro h free hmode
      cases hmode
      obtain ⟨hfree, hlater⟩ := h trivial hsame
      exact ⟨decide_eq_true hfree, fun later hmem old hold => by
        simpa using hlater later hmem old hold⟩

lemma lookup_staticRules (hstatic : ∀ k e, s.rules.lookup k = some e → e.spec.origin = .static)
    (k : Key) : (staticRules s).lookup k
      = (s.rules.lookup k).map fun e => (e.spec, e.isRunning) := by
  have hall : (s.rules.pairs.filter fun e => e.2.spec.origin = .static) = s.rules.pairs := by
    rw [filter_eq_self]
    rintro ⟨k, e⟩ he
    simpa using hstatic k e (mem_pairs.mp he)
  rw [staticRules, hall]
  exact lookup_map_pairs s.rules (fun e => (e.spec, e.isRunning)) k

lemma run_reloadStatic (env : Env)
    (hstatic : ∀ k e, s.rules.lookup k = some e → e.spec.origin = .static)
    (hrules : validateStatic cfg reqs = .ok rules) : ∃ t : State,
    ((reloadStatic cfg reqs).run (machine cfg) env s).1
        = ((Prog.mapEach (reloadRule cfg (staticRules s)) rules).run (machine cfg) env t).1 ∧
      (∀ k, k ∈ (rules.map fun r => r.1.key) → SameAt k s t) ∧
      ∀ k, k ∉ (rules.map fun r => r.1.key) → t.specAt k = none := by
  let unwanted := ((staticRules s).map Prod.fst).filter fun k =>
    !(rules.map fun r => r.1.key).contains k
  obtain ⟨hremoved, hinvalid⟩ := run_removeStatics cfg env unwanted s
  refine ⟨((Prog.mapEach removeStatic unwanted).run (machine cfg) env s).1, ?_, fun k hk => ?_,
    fun k hk => ?_⟩
  · simp only [reloadStatic, hrules, Prog.perform_bind, Prog.run_op, Prog.run_bind]
    rfl
  · have hnot : k ∉ unwanted := by
      intro h
      simpa [hk] using (mem_filter.mp h).2
    exact ⟨by rw [hremoved, if_neg hnot], by rw [hinvalid]⟩
  rw [State.specAt, hremoved, map_eq_none_iff, ite_eq_left_iff]
  intro hnot
  by_contra hsome
  obtain ⟨e, he⟩ := ne_none_iff_exists'.mp hsome
  have hmem : k ∈ (staticRules s).map Prod.fst := by
    have hlook := lookup_staticRules hstatic k
    rw [he] at hlook
    obtain ⟨l₁, l₂, hl, -⟩ := lookup_eq_some_iff.mp hlook
    rw [hl]
    simp
  exact hnot (mem_filter.mpr ⟨hmem, by simpa using hk⟩)

/-- **A reload reaches the file's state exactly if no rule meets the old shape of a later one**,
where nothing fails and all rules are the file's. -/
theorem reloadStatic_reaches_iff (henv : env.Smooth) (hapart : s.InvalidApart)
    (hstatic : ∀ k e, s.rules.lookup k = some e → e.spec.origin = .static)
    {reqs : List (String × RuleRequest)} {rules : List FileRule}
    (hrules : validateStatic cfg reqs = .ok rules) :
    Matches rules ((reloadStatic cfg reqs).run (machine cfg) env s).1 ↔ Movable s rules := by
  have hfile := fileChecked_of_validateStatic hrules
  obtain ⟨t, hrun, hsame, hgone⟩ := run_reloadStatic env hstatic hrules
  have hsame' : ∀ rule ∈ rules, SameAt rule.1.key s t := fun rule hrule =>
    hsame _ (List.mem_map.mpr ⟨rule, hrule, rfl⟩)
  have hspec := run_reloadRules henv hapart (lookup_staticRules hstatic) hfile.nodup hfile.reserved
    hsame'
  rw [← hrun] at hspec
  generalize ((reloadStatic cfg reqs).run (machine cfg) env s).1 = s' at hspec
  have hkeys : (rules.map (fileItem s)).map Replace.Item.key = rules.map fun r => r.1.key := by
    rw [List.map_map]
    rfl
  have hout : ∀ k, k ∉ (rules.map fun r => r.1.key) → s'.specAt k = none := by
    intro k hk
    rw [hspec, putAll_apply_of_notMem (by rwa [hkeys]), hgone k hk]
  have hclear : (rules.map (fileItem s)).Pairwise fun i j => ¬ State.Clash i.val j.val := by
    refine List.pairwise_map.mpr (hfile.clear.imp fun {a b} h => ?_)
    change ¬ overlaps a.1 b.1 = true
    simp [h]
  have hkept : ∀ i ∈ rules.map (fileItem s), i.mode = .kept → t.specAt i.key = some i.val := by
    refine List.forall_mem_map.mpr fun rule hrule hmode => ?_
    exact (hsame' rule hrule).specAt.trans (specAt_of_kept hmode)
  have hall : (∀ i ∈ rules.map (fileItem s), s'.specAt i.key = some i.val) ↔ Movable s rules := by
    rw [hspec, ← ordered_iff_movable]
    refine (putAll_iff (by rw [hkeys]; exact hfile.nodup) hclear hkept ?_).trans
      (ordered_congr (List.forall_mem_map.mpr fun rule hrule => (hsame' rule hrule).specAt))
    intro i _ free _ k w hk hw
    rw [hkeys] at hk
    rw [hgone k hk] at hw
    cases hw
  rw [← hall, List.forall_mem_map]
  refine ⟨fun h => h.specs, fun h => ⟨fun k => ⟨fun hk => ?_, fun hk => ?_⟩, h⟩⟩
  · by_contra hnot
    exact State.specAt_eq_none.mp (hout k hnot) hk
  obtain ⟨rule, hrule, rfl⟩ := List.mem_map.mp hk
  by_contra hnot
  have hnone := State.specAt_eq_none.mpr hnot
  exact absurd ((h rule hrule).symm.trans hnone) (by simp)

end Registry
end

/-! ## Runs -/

open scoped Plain
namespace Plain

def fileRule (addr : String) (extra : List String) : String × RuleRequest :=
  (addr, { request .tcp 8080 with listenAddr := addr, extraListenAddrs := extra })

def loaded : State :=
  ((Registry.loadStatic settings [fileRule "127.0.0.1" [], fileRule "127.0.0.2" ["127.0.0.3"]]).run
    (Registry.machine settings) .calm .empty).1

def movedLast : List (String × RuleRequest) :=
  [fileRule "127.0.0.2" [], fileRule "127.0.0.1" ["127.0.0.3"]]

def movedFirst : List (String × RuleRequest) :=
  [fileRule "127.0.0.1" ["127.0.0.3"], fileRule "127.0.0.2" []]

lemma static_loaded (k : Key) (e : Entry) (h : loaded.rules.lookup k = some e) :
    e.spec.origin = .static := by
  have hall : loaded.rules.pairs.all (fun e => e.2.spec.origin = .static) = true := by
    decide +kernel
  simpa using all_eq_true.mp hall (k, e) (mem_pairs.mpr h)

lemma invalidApart_loaded : loaded.InvalidApart := by
  have hall : loaded.rules.keys.all (fun k => k ∉ loaded.invalid) = true := by decide +kernel
  intro k hk
  simpa using all_eq_true.mp hall k (AList.mem_keys.mp hk)

lemma nonOverlapping_loaded : loaded.NonOverlapping := by
  have hall : loaded.rules.pairs.all (fun a => loaded.rules.pairs.all fun b =>
      a.1 == b.1 || !overlaps a.2.spec b.2.spec) := by decide +kernel
  intro k e k' e' he he' hne
  have h := all_eq_true.mp (all_eq_true.mp hall (k, e) (mem_pairs.mpr he)) (k', e')
    (mem_pairs.mpr he')
  simpa [hne] using h

end Plain

namespace Registry
open Plain

theorem reload_reaches : ∃ rules, validateStatic settings movedLast = .ok rules ∧
    rules.length = 2 ∧ Matches rules ((reloadStatic settings movedLast).run
      (machine settings) .calm loaded).1 := by
  have h : (validateStatic settings movedLast).toOption.any
      (fun rules => rules.length = 2 ∧ Movable loaded rules) = true := by decide +kernel
  cases hv : validateStatic settings movedLast with
  | error e =>
    rw [hv] at h
    cases h
  | ok rules =>
    rw [hv] at h
    obtain ⟨hlength, hmovable⟩ := of_decide_eq_true h
    exact ⟨rules, rfl, hlength, (reloadStatic_reaches_iff Env.smooth_calm invalidApart_loaded
      static_loaded hv).mpr hmovable⟩

/-- With that rule first it meets the old shape of the other: it is neither changed in place nor
created again, and is gone. -/
theorem reload_loses_rule : ∃ rules,
    (∀ k e, loaded.rules.lookup k = some e → e.spec.origin = .static) ∧
      loaded.NonOverlapping ∧ loaded.InvalidApart ∧
      validateStatic settings movedFirst = .ok rules ∧
      ((reloadStatic settings movedFirst).run (machine settings) .calm loaded).2.isOk = true ∧
      ¬ Matches rules ((reloadStatic settings movedFirst).run (machine settings)
        .calm loaded).1 := by
  have h : (validateStatic settings movedFirst).toOption.any
      (fun rules => rules.any fun rule =>
        (((reloadStatic settings movedFirst).run (machine settings) .calm
          loaded).1.specAt rule.1.key).isNone) = true := by decide +kernel
  cases hv : validateStatic settings movedFirst with
  | error e =>
    rw [hv] at h
    cases h
  | ok rules =>
    rw [hv] at h
    obtain ⟨rule, hrule, hnone⟩ := any_eq_true.mp h
    refine ⟨rules, static_loaded, nonOverlapping_loaded, invalidApart_loaded, rfl,
      by decide +kernel, fun hmatches => ?_⟩
    rw [hmatches.specs rule hrule] at hnone
    cases hnone

end Registry
end Rproxy
