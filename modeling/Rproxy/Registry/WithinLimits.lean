import Rproxy.Registry.Quota

/-!
# The limits of new and changed rules

A rule that a token makes is within the limits of the process whatever runs beside it
(`process_of_createCheck`); the token's own limit is counted before.
-/

namespace Rproxy.Registry
open Table Locked List Quota
section
variable [External]
open Prog (All Always)
variable {cfg : Settings} {tokens : String → TokenLimits} {createdBy : CreatedBy} {s s' : State}
variable {key : Key} {req : RuleRequest} {new old spec : RuleSpec} {token : String}
  {u : UpdateRequest}

/-! ## Whose a rule is -/

/-- The limits are kept, each rule is under its own key, and a rule of a set is not the file's, and
its set is recorded. -/
structure Settled (cfg : Settings) (tokens : String → TokenLimits) (createdBy : CreatedBy)
    (s : State) : Prop where
  within : WithinLimits cfg tokens createdBy s
  keyed : ∀ k e, s.rules.lookup k = some e → e.spec.key = k
  recorded : ∀ k e name, s.rules.lookup k = some e → e.spec.ruleset = some name →
    name ∈ s.sets ∧ e.spec.origin ≠ .static

def ownedOne (createdBy : CreatedBy) (s : State) (token : String) (e : Entry) : Nat :=
  if ownerOf createdBy s e.spec = .token token then 1 else 0

lemma ownedOne_le_one (createdBy : CreatedBy) (s : State) (token : String) (e : Entry) :
    ownedOne createdBy s token e ≤ 1 := by
  unfold ownedOne
  split <;> omega

lemma ownerOf_congr (hsets : s'.sets = s.sets)
    (howner : s'.owners.lookup spec.key = s.owners.lookup spec.key) :
    ownerOf createdBy s' spec = ownerOf createdBy s spec := by
  simp only [ownerOf, Locked.ownerOf, hsets, howner]

lemma ownerOf_of_same {a b : RuleSpec}
    (h : a.key = b.key ∧ a.origin = b.origin ∧ a.ruleset = b.ruleset) :
    ownerOf createdBy s a = ownerOf createdBy s b := by
  unfold ownerOf Locked.ownerOf
  rw [h.1, h.2.1, h.2.2]

lemma ownedBy_snapshot (env : Env) (henv : env.createdBy = createdBy) (token : String) :
    (((snapshot s).map fun c => c.2.spec).filter fun spec =>
      Locked.ownerOf env s spec = .token token).length = owned createdBy s token := by
  have hspecs : ((snapshot s).map fun c => c.2.spec)
      = s.rules.pairs.map fun e => e.2.spec := by
    rw [snapshot, map_map]
    exact map_congr_left fun e _ => spec_current e.2
  subst henv
  rw [hspecs]
  refine (length_filter_eq_sum _ fun spec =>
    ownerOf env.createdBy s spec = .token token).trans ?_
  rw [map_map]
  rfl

lemma length_snapshot (s : State) : (snapshot s).length = s.rules.pairs.length :=
  length_map _

lemma socketsOf_snapshot (cfg : Settings) (s : State) :
    socketsOf cfg ((snapshot s).map fun c => c.2.spec)
      = sockets s + cfg.http01Listen.length := by
  rw [socketsOf, sockets, snapshot, map_map, map_map]
  congr 2
  exact map_congr_left fun e _ => congrArg Quota.sockets (spec_current e.2)

omit [External] in
lemma checkProcess_eq_ok {rules addedRules n addedSockets : Nat} :
    checkProcess cfg rules addedRules n addedSockets = .ok () ↔
      (0 < addedRules → rules ≤ cfg.maxRules) ∧ (0 < addedSockets → n ≤ cfg.maxListeners) := by
  unfold checkProcess
  split
  next h =>
    refine ⟨(fun h => nomatch h), fun h' => ?_⟩
    omega
  split
  next h =>
    refine ⟨(fun h => nomatch h), fun h' => ?_⟩
    omega
  · refine ⟨fun _ => ⟨fun h => ?_, fun h => ?_⟩, fun _ => rfl⟩ <;> omega

omit [External] in
lemma checkToken_eq_ok {what : String} {now added : Nat} {max? : Option Nat} :
    checkToken what now added max? = .ok () ↔
      ∀ max, max? = some max → 0 < added → now ≤ max := by
  unfold checkToken
  cases max? with
  | none => simp
  | some m =>
    by_cases h : added > 0 ∧ now > m
    · simp only [if_pos h]
      refine ⟨(fun h => nomatch h), fun h' => ?_⟩
      have := h' m rfl h.1
      omega
    simp only [if_neg h, true_iff]
    rintro max ⟨⟩ hpos
    omega

omit [External] in
lemma checkRulesets_eq_ok {n : Nat} :
    checkRulesets cfg n = .ok () ↔ n ≤ cfg.maxRulesets := by
  unfold checkRulesets
  split
  next h => exact ⟨(fun h => nomatch h), fun h' => absurd h' (by omega)⟩
  next h => exact ⟨fun _ => by omega, fun _ => rfl⟩

lemma sockets_pos : 0 < Quota.sockets spec := by
  have hips : 0 < spec.listenIps.length := by simp [RuleSpec.listenIps]
  have hports : 0 < max spec.portCount.toNat 1 := by omega
  have hhttp3 : 0 < if spec.http.any External.http3 then 2 else 1 := by split <;> omega
  exact Nat.mul_pos (Nat.mul_pos hips hports) hhttp3

def Room (tokens : String → TokenLimits) (createdBy : CreatedBy) (token : String) (s : State) :
    Prop :=
  ∀ max, (tokens token).maxRules = some max → owned createdBy s token + 1 ≤ max

lemma create_cases_token (cfg : Settings) (env : Env) (s : State) (spec : RuleSpec)
    (token : String) :
    (create cfg env s spec false (some token)).1 = s ∨
      createCheck cfg s spec false (some token) = .ok () ∧
      (create cfg env s spec false (some token)).1.rules
          = s.rules.insert spec.key (.running ⟨s.nextGeneration, spec⟩) ∧
        (create cfg env s spec false (some token)).1.owners
          = s.owners.insert spec.key token ∧
        (create cfg env s spec false (some token)).1.sets = s.sets := by
  unfold create
  split
  · exact .inl rfl
  rename_i hcheck
  split
  · exact .inl rfl
  · exact .inr ⟨hcheck, rfl, rfl, rfl⟩

lemma process_of_createCheck (h : createCheck cfg s spec false (some token) = .ok ()) :
    spec.key ∉ s.rules ∧ s.rules.pairs.length + 1 ≤ cfg.maxRules ∧
      Quota.sockets spec + sockets s + cfg.http01Listen.length ≤ cfg.maxListeners := by
  unfold createCheck at h
  split at h
  · cases h
  rename_i hkey
  split at h
  · cases h
  split at h
  · cases h
  obtain ⟨hrules, hsockets⟩ := checkProcess_eq_ok.mp h
  have hsum : (s.rules.pairs.map fun e => Quota.sockets e.2.spec).sum = sockets s := rfl
  have := hsockets sockets_pos
  exact ⟨hkey, hrules Nat.one_pos, by omega⟩

lemma settled_create (hs : Settled cfg tokens createdBy s) (hrule : spec.ruleset = none)
    (hroom : Room tokens createdBy token s) (env : Env) :
    Settled cfg tokens createdBy (exec cfg (.create spec false (some token)) env s).1 := by
  change Settled cfg tokens createdBy (create cfg env s spec false (some token)).1
  rcases create_cases_token cfg env s spec token with h | ⟨hcheck, hrules, howners, hsets⟩
  · rw [h]
    exact hs
  generalize (create cfg env s spec false (some token)).1 = t at hrules howners hsets
  obtain ⟨hkey, hcount, hsockets⟩ := process_of_createCheck hcheck
  have hlookup : ∀ k e, t.rules.lookup k = some e →
      k = spec.key ∧ e = .running ⟨s.nextGeneration, spec⟩ ∨
        k ≠ spec.key ∧ s.rules.lookup k = some e := by
    intro k e he
    rw [hrules, lookup_insert_eq] at he
    split at he
    next hk => exact .inl ⟨hk, (Option.some.inj he).symm⟩
    next hk => exact .inr ⟨hk, he⟩
  -- the other rules are whose they were
  have hothers : ∀ (other : String) (k : Key) (e : Entry), s.rules.lookup k = some e →
      ownedOne createdBy t other e = ownedOne createdBy s other e := by
    intro other k e he
    have hne : e.spec.key ≠ spec.key := by
      rw [hs.keyed k e he]
      rintro rfl
      exact hkey (mem_rules_iff.mpr ⟨e, he⟩)
    rw [ownedOne, ownedOne, ownerOf_congr hsets (by rw [howners, AList.lookup_insert_ne hne])]
  refine ⟨⟨?_, ?_, ?_, fun other max hmax => ?_, fun other max hmax => ?_⟩, fun k e he => ?_,
    fun k e name he hname => ?_⟩
  · rw [hrules, ← total_one, total_insert_of_notMem _ hkey, total_one]
    omega
  · rw [sockets, hrules, total_insert_of_notMem _ hkey]
    exact hsockets
  · rw [hsets]
    exact hs.within.sets
  · have htotal : owned createdBy t other
        = ownedOne createdBy t other (.running ⟨s.nextGeneration, spec⟩)
          + owned createdBy s other := by
      change t.rules.total (ownedOne createdBy t other) = _
      rw [hrules, total_insert_of_notMem _ hkey, total_congr (hothers other)]
      rfl
    by_cases hother : other = token
    · subst hother
      have := hroom max hmax
      have := ownedOne_le_one createdBy t other (.running ⟨s.nextGeneration, spec⟩)
      omega
    have hzero : ownedOne createdBy t other (.running ⟨s.nextGeneration, spec⟩) = 0 := by
      rw [ownedOne, if_neg]
      simp only [ownerOf, Locked.ownerOf, Entry.spec, hrule, howners, AList.lookup_insert]
      split
      · exact fun h => nomatch h
      intro h
      exact hother (Owner.token.inj h).symm
    have := hs.within.owned other max hmax
    omega
  · rw [ownedSets, hsets]
    exact hs.within.ownedSets other max hmax
  · rcases hlookup k e he with ⟨rfl, rfl⟩ | ⟨-, he⟩
    · rfl
    · exact hs.keyed k e he
  rw [hsets]
  rcases hlookup k e he with ⟨rfl, rfl⟩ | ⟨-, he⟩
  · cases hrule.symm.trans hname
  · exact hs.recorded k e name he hname

/-! ## `POST /rules` -/

def FreeOp (tokens : String → TokenLimits) : Op → Prop
  | .prepare _ => True
  | .create spec fixing token => fixing = false ∧ spec.ruleset = none ∧
    ∃ t, token = some t ∧ (tokens t).maxRules = none
  | _ => False

lemma free_createBy {origin : Origin} (hfree : (tokens token).maxRules = none) :
    (createBy cfg req origin token).All (FreeOp tokens) := by
  unfold createBy
  split
  · trivial
  rename_i spec hspec
  have hrule : spec.ruleset = none := (valid_of_validate hspec).2.2.1
  unfold createSpecIn
  split
  · trivial
  refine ⟨trivial, fun r => ?_⟩
  rcases r with e | _
  · trivial
  · exact ⟨⟨rfl, hrule, token, rfl, hfree⟩, fun _ => trivial⟩

lemma free_apiCreate {persist : Bool} (hfree : (tokens token).maxRules = none) :
    (apiCreate cfg (tokens token) token persist req).All (FreeOp tokens) := by
  unfold apiCreate checkLimits
  refine All.bind ?_ fun r => ?_
  · split
    · trivial
    rw [if_neg (by rw [hfree]; simp)]
    trivial
  rcases r with e | _
  · trivial
  · exact free_createBy hfree

section
variable (hs : Settled cfg tokens createdBy s)
include hs

lemma settled_free {o : Op} {env : Env} (ho : FreeOp tokens o) :
    Settled cfg tokens createdBy (exec cfg o env s).1 := by
  cases o with
  | prepare spec => exact hs
  | create spec fixing token =>
    obtain ⟨rfl, hrule, t, rfl, hfree⟩ := ho
    refine settled_create hs hrule (fun max hmax => ?_) env
    cases hfree.symm.trans hmax
  | _ => exact ho.elim

abbrev Stays {α : Type} (cfg : Settings) (tokens : String → TokenLimits) (createdBy : CreatedBy)
    (p : Program α) (post : α → State → Prop) (s : State) : Prop :=
  p.Always (machine cfg) (fun env => env.createdBy = createdBy)
    (WithinLimits cfg tokens createdBy) post s

lemma stays_createBy {origin : Origin} (hroom : Room tokens createdBy token s) :
    Stays cfg tokens createdBy (createBy cfg req origin token)
      (fun _ => Settled cfg tokens createdBy) s := by
  unfold createBy
  split
  · exact ⟨hs.within, hs⟩
  rename_i spec hspec
  have hnone : spec.ruleset = none := (valid_of_validate hspec).2.2.1
  have hrule : ({ spec with origin } : RuleSpec).ruleset = none := hnone
  unfold createSpecIn
  split
  · exact ⟨hs.within, hs⟩
  refine ⟨hs.within, fun env _ => ?_⟩
  change Always _ _ _ _ _ s
  rcases (machine cfg).exec (.prepare _) env s with ⟨_, e | _⟩
  · exact ⟨hs.within, hs⟩
  refine ⟨hs.within, fun env _ => ?_⟩
  have hnew := settled_create hs hrule hroom env
  exact ⟨hnew.within, hnew⟩

lemma stays_checkLimits : Stays cfg tokens createdBy (checkLimits (tokens token) token req)
      (fun r s' => s' = s ∧ (r = .ok () → Room tokens createdBy token s)) s := by
  unfold checkLimits
  split
  · exact ⟨hs.within, rfl, fun h => nomatch h⟩
  split
  · refine ⟨hs.within, fun env _ => ⟨hs.within, fun env henv => ⟨hs.within, rfl, fun h => ?_⟩⟩⟩
    intro max hmax
    have hcount := checkToken_eq_ok.mp h max hmax Nat.one_pos
    have howned : ((machine cfg).exec (.ownedBy token
        ((snapshot s).map fun c => c.2.spec)) env s).2 = owned createdBy s token :=
      ownedBy_snapshot env henv token
    rw [← howned]
    exact hcount
  next hnone =>
    refine ⟨hs.within, rfl, fun _ max hmax => ?_⟩
    rw [hmax] at hnone
    exact absurd rfl hnone

lemma stays_apiCreate {persist : Bool} :
    Stays cfg tokens createdBy (apiCreate cfg (tokens token) token persist req)
      (fun _ => Settled cfg tokens createdBy) s := by
  refine (stays_checkLimits hs).bind fun r s' _ hpost => ?_
  obtain ⟨rfl, hroom⟩ := hpost
  rcases r with e | _
  · exact ⟨hs.within, hs⟩
  · exact stays_createBy hs (hroom rfl)

end

/-! ## `PATCH /rules` -/

lemma sameRule_of_patchedSpec {caps : Caps} {udpIdle : Option Nat}
    (hidle : patchUdpIdle u.udpIdleSecs = .ok udpIdle)
    (h : patchedSpec caps key old u udpIdle = .ok new) :
    new.key = old.key ∧ new.origin = old.origin ∧ new.ruleset = old.ruleset := by
  have hupdated : Rproxy.updatedSpec caps key old u = .ok new := by
    rw [Rproxy.updatedSpec, hidle]
    exact h
  obtain ⟨hkey, -, -, -, horigin, hruleset⟩ := updatedSpec_keeps caps key old u new hupdated
  exact ⟨hkey, horigin, hruleset⟩

lemma apply_cases_spec (cfg : Settings) (env : Env) (s : State) (key : Key) (new : RuleSpec) :
    (exec cfg (.apply key new) env s).1 = s ∨
      ∃ e e', s.rules.lookup key = some e ∧ e'.spec = new ∧
        (exec cfg (.apply key new) env s).1.rules = s.rules.insert key e' ∧
        (exec cfg (.apply key new) env s).1.owners = s.owners ∧
        (exec cfg (.apply key new) env s).1.sets = s.sets := by
  simp only [exec, Locked.apply]
  split
  · exact .inl rfl
  split
  · exact .inl rfl
  split
  · exact .inl rfl
  next hr =>
    split
    · exact .inl rfl
    · exact .inr ⟨_, _, hr, rfl, rfl, rfl, rfl⟩
  next hf =>
    split
    · exact .inr ⟨_, _, hf, rfl, rfl, rfl, rfl⟩
    · exact .inr ⟨_, _, hf, rfl, rfl, rfl, rfl⟩

section
variable (hs : Settled cfg tokens createdBy s)
include hs

section
variable {key : Key} {old new : RuleSpec} (hold : s.specAt key = some old)
  (hsame : new.key = old.key ∧ new.origin = old.origin ∧ new.ruleset = old.ruleset)
  (hroom : 0 < Quota.sockets new - Quota.sockets old →
    sockets s + cfg.http01Listen.length + (Quota.sockets new - Quota.sockets old) ≤
      cfg.maxListeners)
include hold hsame hroom

lemma settled_apply (env : Env) :
    Settled cfg tokens createdBy (exec cfg (.apply key new) env s).1 := by
  rcases apply_cases_spec cfg env s key new with h | ⟨e, e', he, hspec, hrules, howners, hsets⟩
  · rw [h]
    exact hs
  generalize (exec cfg (.apply key new) env s).1 = t at hrules howners hsets
  rw [State.specAt, he] at hold
  cases hold
  have howner : ∀ spec, ownerOf createdBy t spec = ownerOf createdBy s spec := fun spec =>
    ownerOf_congr hsets (by rw [howners])
  have hone : ∀ token, ownedOne createdBy t token e' = ownedOne createdBy s token e := by
    intro token
    rw [ownedOne, ownedOne, howner, hspec, ownerOf_of_same hsame]
  have htotal : ∀ f : Entry → Nat,
      t.rules.total f + f e = s.rules.total f + f e' := by
    intro f
    rw [hrules, total_insert, total_of_lookup he]
    omega
  have hlookup : ∀ k e₁, t.rules.lookup k = some e₁ → ∃ e₀, s.rules.lookup k = some e₀ ∧
      e₁.spec.key = e₀.spec.key ∧ e₁.spec.ruleset = e₀.spec.ruleset ∧
        e₁.spec.origin = e₀.spec.origin := by
    intro k e₁ he₁
    rw [hrules, lookup_insert_eq] at he₁
    split at he₁
    next hk =>
      subst hk
      cases he₁
      rw [hspec]
      exact ⟨e, he, hsame.1, hsame.2.2, hsame.2.1⟩
    · exact ⟨e₁, he₁, rfl, rfl, rfl⟩
  refine ⟨⟨?_, ?_, ?_, fun token max hmax => ?_, fun token max hmax => ?_⟩, fun k e₁ he₁ => ?_,
    fun k e₁ name he₁ hname => ?_⟩
  · have := htotal fun _ => 1
    simp only [total_one] at this
    have := hs.within.rules
    omega
  · have hdiff := htotal fun e => Quota.sockets e.spec
    change sockets t + Quota.sockets e.spec = sockets s + Quota.sockets e'.spec at hdiff
    rw [hspec] at hdiff
    have hbefore := hs.within.sockets
    by_cases hadds : 0 < Quota.sockets new - Quota.sockets e.spec
    · omega
    · omega
  · rw [hsets]
    exact hs.within.sets
  · have hdiff := htotal (ownedOne createdBy t token)
    rw [hone] at hdiff
    have hbefore : s.rules.total (ownedOne createdBy t token) = owned createdBy s token :=
      total_congr fun k e₀ _ => by rw [ownedOne, howner]
    have hafter : t.rules.total (ownedOne createdBy t token) = owned createdBy t token := rfl
    have hcong : ownedOne createdBy t token e = ownedOne createdBy s token e := by
      rw [ownedOne, ownedOne, howner]
    have := hs.within.owned token max hmax
    omega
  · rw [ownedSets, hsets]
    exact hs.within.ownedSets token max hmax
  · obtain ⟨e₀, he₀, hkey, -⟩ := hlookup k e₁ he₁
    exact hkey.trans (hs.keyed k e₀ he₀)
  obtain ⟨e₀, he₀, -, hset, horigin⟩ := hlookup k e₁ he₁
  rw [hsets, horigin]
  exact hs.recorded k e₀ name he₀ (hset ▸ hname)

lemma stays_apply : Stays cfg tokens createdBy (apply cfg key new)
    (fun _ => Settled cfg tokens createdBy) s := by
  unfold apply
  split
  · exact ⟨hs.within, hs⟩
  refine ⟨hs.within, fun env _ => ?_⟩
  change Always _ _ _ _ _ s
  rcases (machine cfg).exec (.prepare _) env s with ⟨_, e | _⟩
  · exact ⟨hs.within, hs⟩
  refine ⟨hs.within, fun env _ => ?_⟩
  have hnew := settled_apply hs hold hsame hroom env
  exact ⟨hnew.within, hnew⟩

end

def PatchRoom (cfg : Settings) (s : State) (key : Key) (u : UpdateRequest) : Prop :=
  ∀ udpIdle old new, patchUdpIdle u.udpIdleSecs = .ok udpIdle → s.specAt key = some old →
    patchedSpec cfg.caps key old u udpIdle = .ok new →
    0 < Quota.sockets new - Quota.sockets old →
      sockets s + cfg.http01Listen.length + (Quota.sockets new - Quota.sockets old)
        ≤ cfg.maxListeners

lemma stays_checkUpdateLimits : Stays cfg tokens createdBy (checkUpdateLimits cfg key u)
      (fun r s' => s' = s ∧ (r = .ok () → PatchRoom cfg s key u)) s := by
  unfold checkUpdateLimits
  split
  next hidle =>
    refine ⟨hs.within, rfl, fun _ udpIdle old new h => ?_⟩
    cases hidle.symm.trans h
  rename_i udpIdle hidle
  rw [Prog.perform_bind]
  refine ⟨hs.within, fun env _ => ?_⟩
  have hread : (machine cfg).exec (.specOf key) env s = (s, s.specAt key) := rfl
  rw [hread]
  cases hold : s.specAt key with
  | none =>
    refine ⟨hs.within, rfl, fun _ udpIdle old new _ h => ?_⟩
    cases hold.symm.trans h
  | some old =>
    dsimp only
    split
    next hpatch =>
      refine ⟨hs.within, rfl, fun _ udpIdle' old' new' hidle' hold' hpatch' => ?_⟩
      cases hidle.symm.trans hidle'
      cases hold.symm.trans hold'
      cases hpatch.symm.trans hpatch'
    rename_i new hpatch
    split
    next hadds =>
      refine ⟨hs.within, fun env _ => ⟨hs.within, rfl, fun h => ?_⟩⟩
      rintro udpIdle' old' new' hidle' hold' hpatch' hpos
      cases hidle.symm.trans hidle'
      cases hold.symm.trans hold'
      cases hpatch.symm.trans hpatch'
      have hsockets := (checkProcess_eq_ok.mp h).2 hadds
      rwa [← socketsOf_snapshot]
    next hnone =>
      refine ⟨hs.within, rfl, fun _ udpIdle' old' new' hidle' hold' hpatch' hpos => ?_⟩
      cases hidle.symm.trans hidle'
      cases hold.symm.trans hold'
      cases hpatch.symm.trans hpatch'
      exact absurd hpos hnone

lemma stays_update (hvalid : key ∉ s.invalid) (hroom : PatchRoom cfg s key u) :
    Stays cfg tokens createdBy (update cfg key u) (fun _ => Settled cfg tokens createdBy) s := by
  have hnone : s.invalid.lookup key = none := AList.lookup_eq_none.mpr hvalid
  refine ⟨hs.within, fun env _ => ?_⟩
  have hread : (machine cfg).exec (.invalidOf key) env s = (s, s.invalid.lookup key) := rfl
  rw [hread, hnone]
  unfold updatedSpec
  split
  · exact ⟨hs.within, hs⟩
  rename_i udpIdle hidle
  refine ⟨hs.within, fun env _ => ?_⟩
  have hread : (machine cfg).exec (.specOf key) env s = (s, s.specAt key) := rfl
  rw [hread]
  cases hold : s.specAt key with
  | none => exact ⟨hs.within, hs⟩
  | some old =>
    change Always _ _ _ _ ((Prog.ret (patchedSpec cfg.caps key old u udpIdle)).bind _) s
    cases hpatch : patchedSpec cfg.caps key old u udpIdle with
    | error e => exact ⟨hs.within, hs⟩
    | ok new =>
      exact stays_apply hs hold (sameRule_of_patchedSpec hidle hpatch)
        (hroom udpIdle old new hidle hold hpatch)

lemma stays_apiUpdate (hvalid : key ∉ s.invalid) :
    Stays cfg tokens createdBy (apiUpdate cfg key u) (fun _ => Settled cfg tokens createdBy) s := by
  refine (stays_checkUpdateLimits hs).bind fun r s' _ hpost => ?_
  obtain ⟨rfl, hroom⟩ := hpost
  rcases r with e | _
  · exact ⟨hs.within, hs⟩
  · exact stays_update hs hvalid (hroom rfl)

end
end
end Rproxy.Registry
