import Rproxy.Registry.NonOverlap

/-!
# A running rule outside the table is stopped

A rule leaves the table deleted, dropped from a set, removed from the settings file, re-created or
taken out of service.
-/

namespace Rproxy.Registry
open List Config Op
section
variable [External]

structure Holding where
  held : List Nat
  killed : List Nat

namespace Holding

def ok : Op → Holding → Prop
  | .supervise _ n _, g => n ∈ g.killed
  | _, _ => True

def upd : (o : Op) → Ret o → Holding → Holding
  | .kill n, _, g => ⟨g.held.filter (· ≠ n), n :: g.killed⟩
  | o, r, g => ⟨released o r ++ g.held, g.killed⟩

def Within (l : List Nat) (g : Holding) : Prop := ∀ n ∈ g.held, n ∈ l

end Holding

open Holding

def Discharges {α : Type} (l₀ : List Nat) (p : Program α) : Prop :=
  ∀ l g, Holding.Within (l₀ ++ l) g → p.Safe ok upd g fun _ g' => g'.Within l

def Op.stops : Op → Bool
  | .kill _ | .supervise _ _ _ => true
  | _ => false

def Op.handsNothing (o : Op) : Prop :=
  o.stops = false ∧ ∀ r, released o r = []

lemma Op.handsNothing_of_ordinary {o : Op} (h : o.ordinary) : o.handsNothing := by
  cases o <;> first | exact ⟨rfl, fun _ => rfl⟩ | exact absurd h id

namespace Discharges
variable {α β : Type} {l₀ : List Nat} {p : Program α} {f : α → Program β}

lemma ret (a : α) : Discharges [] (.ret a) := fun _ _ hg => hg

lemma bind (hp : Discharges l₀ p) (hf : ∀ a, Discharges [] (f a)) : Discharges l₀ (p >>= f) := by
  intro l g hg
  exact (hp l g hg).bind fun a g' hg' => hf a l g' hg'

lemma bind_right (hp : Discharges [] p) (hf : ∀ a, Discharges l₀ (f a)) :
    Discharges l₀ (p >>= f) := by
  intro l g hg
  exact (hp (l₀ ++ l) g hg).bind fun a g' hg' => hf a l g' hg'

lemma mono {l₁ : List Nat} (hp : Discharges l₁ p) (h : l₀ ⊆ l₁) : Discharges l₀ p := by
  intro l g hg
  refine hp l g fun n hn => ?_
  rcases mem_append.mp (hg n hn) with hn | hn
  · exact mem_append_left _ (h hn)
  · exact mem_append_right _ hn

lemma op {o : Op} {k : Ret o → Program α} (ho : o.stops = false)
    (hk : ∀ r, Discharges (released o r ++ l₀) (k r)) : Discharges l₀ (.op o k) := by
  intro l g hg
  have hok : ok o g := by
    cases o <;> trivial
  have hupd : ∀ r, upd o r g = ⟨released o r ++ g.held, g.killed⟩ := by
    intro r
    cases o <;> first | rfl | cases ho
  refine ⟨hok, fun r => hk r l _ ?_⟩
  rw [hupd r]
  intro n hn
  rcases mem_append.mp hn with hn | hn
  · exact mem_append_left _ (mem_append_left _ hn)
  rcases mem_append.mp (hg n hn) with hn | hn
  · exact mem_append_left _ (mem_append_right _ hn)
  · exact mem_append_right _ hn

lemma of_all (hp : p.All handsNothing) : Discharges [] p := by
  induction p with
  | ret a => exact Discharges.ret a
  | op o k ih =>
    refine Discharges.op hp.1.1 fun r => ?_
    rw [hp.1.2 r]
    exact ih r (hp.2 r)

lemma of_ordinary (hp : p.All ordinary) : Discharges [] p :=
  of_all (hp.mono fun _ ho => handsNothing_of_ordinary ho)

lemma of_restarts (hp : p.All restarts) : Discharges [] p :=
  of_all (hp.mono fun o ho => by cases o <;> first | exact ⟨rfl, fun _ => rfl⟩ | exact ho.elim)

lemma of_creating (hp : p.All creating) : Discharges [] p :=
  of_ordinary (hp.mono fun _ => ordinary_of_creating)

lemma forEach {γ : Type} {f : γ → Program Unit} {l : List γ} (hf : ∀ c ∈ l, Discharges [] (f c)) :
    Discharges [] (Prog.forEach f l) := by
  induction l with
  | nil => exact Discharges.ret ()
  | cons c l ih =>
    exact (hf c (by simp)).bind fun _ => ih fun d hd => hf d (by simp [hd])

lemma mapEach {γ : Type} {f : γ → Program α} {l : List γ} (hf : ∀ c ∈ l, Discharges [] (f c)) :
    Discharges [] (Prog.mapEach f l) := by
  induction l with
  | nil => exact Discharges.ret []
  | cons c l ih =>
    exact (hf c (by simp)).bind fun a => (ih fun d hd => hf d (by simp [hd])).bind fun _ => .ret _

end Discharges

variable {cfg : Settings}

lemma discharges_kill (n : Nat) : Discharges [n] (perform (.kill n)) := by
  intro l g hg
  refine ⟨trivial, fun _ m hm => ?_⟩
  obtain ⟨hm, hne⟩ := mem_filter.mp hm
  rcases mem_cons.mp (hg m hm) with rfl | hm
  · simp at hne
  · exact hm

lemma discharges_perform {o : Op} (ho : o.handsNothing) : Discharges [] (perform o) :=
  .of_all ⟨ho, fun _ => trivial⟩

lemma discharges_stopRuntime (n : Nat) : Discharges [n] (stopRuntime n) :=
  (discharges_perform ⟨rfl, fun _ => rfl⟩).bind_right fun _ => discharges_kill n

lemma discharges_stopEntry (e : Entry) : Discharges e.runtime?.toList (stopEntry e) := by
  cases e with
  | running r => exact discharges_stopRuntime r.generation
  | failed f => exact discharges_perform ⟨rfl, fun _ => rfl⟩

lemma discharges_stopAccepting (e : Entry) : Discharges [] (stopAccepting e) := by
  cases e with
  | running r => exact discharges_perform ⟨rfl, fun _ => rfl⟩
  | failed f => exact .ret ()

lemma discharges_forEach {γ : Type} {f : γ → Program Unit} {gens : γ → List Nat} {l : List γ}
    (hf : ∀ c ∈ l, Discharges (gens c) (f c)) : Discharges (l.flatMap gens) (Prog.forEach f l) := by
  induction l with
  | nil => exact .ret ()
  | cons c l ih =>
    have hrest := ih fun d hd => hf d (by simp [hd])
    intro l' g hg
    refine (hf c (by simp) (l.flatMap gens ++ l') g ?_).bind fun _ g' hg' => hrest l' g' hg'
    simpa using hg

lemma discharges_stopEntries (l : List Entry) :
    Discharges (l.filterMap Entry.runtime?) (Prog.forEach stopEntry l) := by
  have h := discharges_forEach (f := stopEntry) (l := l) fun e _ => discharges_stopEntry e
  rwa [← filterMap_eq_flatMap_toList] at h

def heldByTake : Except ApiError (Option Entry) → List Nat
  | .ok (some e) => e.runtime?.toList
  | _ => []

variable (key : Key)

lemma safe_take (l : List Nat) (g : Holding) (hg : g.Within l) :
    (take key).Safe ok upd g fun a g' => g'.Within (heldByTake a ++ l) := by
  refine ⟨trivial, fun r => ?_⟩
  rcases r with e | _ | entry
  · exact hg
  · exact hg
  -- the entry is held through `owners.remove` and `stop_accepting`
  have hheld : Holding.Within (entry.runtime?.toList ++ l)
      ⟨entry.runtime?.toList ++ g.held, g.killed⟩ := by
    intro n hn
    rcases mem_append.mp hn with hn | hn
    · exact mem_append_left _ hn
    · exact mem_append_right _ (hg n hn)
  have hrest : Discharges [] (perform (.removeOwner key) >>= fun _ => stopAccepting entry) :=
    (discharges_perform ⟨rfl, fun _ => rfl⟩).bind fun _ => discharges_stopAccepting entry
  exact (hrest _ _ hheld).bind fun _ _ h => h

lemma discharges_delete : Discharges [] (delete key) := by
  intro l g hg
  refine (safe_take key l g hg).bind fun a g' hg' => ?_
  rcases a with e | _ | entry
  · exact hg'
  · exact hg'
  · exact (discharges_stopEntry entry).bind (fun _ => .ret _) l g' hg'

lemma discharges_dropInvalid : Discharges [] (dropInvalid key) := by
  refine .of_all ⟨⟨rfl, fun _ => rfl⟩, fun gone => ?_⟩
  cases gone with
  | false => trivial
  | true => exact ⟨⟨rfl, fun _ => rfl⟩, fun _ => trivial⟩

lemma discharges_shutdown : Discharges [] shutdown := by
  refine .op rfl fun entries => ?_
  rw [append_nil]
  exact discharges_stopEntries entries

open Discharges

lemma discharges_drainAll : Discharges [] drainAll := by
  refine .op rfl fun entries => ?_
  rw [append_nil]
  refine (forEach fun e _ => discharges_stopAccepting e).bind_right fun _ => ?_
  exact discharges_stopEntries entries

lemma discharges_removeStatic : Discharges [] (removeStatic key) := by
  refine .op rfl fun r => ?_
  rcases r with _ | entry
  · exact .ret _
  rw [append_nil]
  exact (discharges_stopEntry entry).bind fun _ => .ret _

lemma discharges_recreateStatic (rule : FileRule) : Discharges [] (recreateStatic cfg rule) := by
  have hstart : Discharges []
      (startStatic cfg rule >>= fun started => pure (Reloaded.changed started)) :=
    (of_creating (all_startStatic rule)).bind fun _ => .ret _
  refine .op rfl fun r => ?_
  rcases r with _ | entry
  · exact hstart
  rw [append_nil]
  exact (discharges_stopEntry entry).bind fun _ => hstart

lemma discharges_reloadRule (current : List (Key × RuleSpec × Bool)) (rule : FileRule) :
    Discharges [] (reloadRule cfg current rule) := by
  unfold reloadRule
  split
  · exact (of_creating (all_startStatic rule)).bind fun _ => .ret _
  split
  · exact .ret _
  split
  · refine (of_ordinary (all_apply _ _)).bind fun r => ?_
    rcases r with e | _
    · exact discharges_recreateStatic rule
    · exact .ret _
  · exact discharges_recreateStatic rule

lemma discharges_reloadStatic (reqs : List (String × RuleRequest)) :
    Discharges [] (reloadStatic cfg reqs) := by
  unfold reloadStatic
  split
  · exact .ret _
  refine (discharges_perform ⟨rfl, fun _ => rfl⟩).bind fun current => ?_
  refine (mapEach fun key _ => discharges_removeStatic key).bind fun _ => ?_
  exact (mapEach fun rule _ => discharges_reloadRule current rule).bind fun _ => .ret _

lemma discharges_recreateMember (spec : RuleSpec) : Discharges [] (recreateMember cfg spec) := by
  have hstart : Discharges [] (startMember cfg spec) := .of_creating (all_startMember spec)
  refine .op rfl fun r => ?_
  rcases r with _ | entry
  · exact hstart
  rw [append_nil]
  exact (discharges_stopEntry entry).bind fun _ => hstart

lemma discharges_applyStep (step : Step) : Discharges [] (applyStep cfg step) := by
  unfold applyStep
  split
  next spec _ _ =>
    have hre : Discharges [] (recreateMember cfg spec) := discharges_recreateMember spec
    split
    · refine (of_ordinary (all_apply _ _)).bind fun r => ?_
      rcases r with e | _
      · exact hre.bind fun _ => .ret _
      · exact .ret _
    · exact hre.bind fun _ => .ret _
  · exact (of_creating (all_startMember _)).bind fun _ => .ret _
  · exact .ret _

variable (name : String)

lemma discharges_applySteps (req : RulesetRequest) (opts : PutOptions)
    (currentSet : Option SetState) (steps : List Step) :
    Discharges [] (applySteps cfg name req opts currentSet steps) := by
  refine .op rfl fun removed => ?_
  rw [append_nil]
  refine (discharges_stopEntries removed).bind fun _ => ?_
  refine (mapEach fun step _ => discharges_applyStep step).bind fun results => ?_
  refine (discharges_perform ⟨rfl, fun _ => rfl⟩).bind fun r => ?_
  exact (discharges_perform ⟨rfl, fun _ => rfl⟩).bind fun _ => .ret _

lemma discharges_putRuleset (req : RulesetRequest) (opts : PutOptions) :
    Discharges [] (putRuleset cfg name req opts) := by
  unfold putRuleset
  split
  · exact .ret _
  refine (discharges_perform ⟨rfl, fun _ => rfl⟩).bind fun currentSet => ?_
  split
  · exact .ret _
  have hplan : (planRuleset cfg name req opts currentSet).run.All ordinary :=
    (all_planRuleset name req opts currentSet).mono fun _ => ordinary_of_readOnly
  refine (of_ordinary hplan).bind fun r => ?_
  rcases r with e | steps
  · exact .ret _
  dsimp only
  split
  · exact .ret _
  · exact (discharges_applySteps _ _ _ _ _).bind fun _ => .ret _

lemma discharges_deleteRuleset (header : Option String)
    (mayUsePorts : UInt16 → UInt16 → Bool) (token : String) (admin : Bool) :
    Discharges [] (deleteRuleset name header mayUsePorts token admin) := by
  unfold deleteRuleset
  split
  · exact .ret _
  refine (discharges_perform ⟨rfl, fun _ => rfl⟩).bind fun r => ?_
  rcases r with _ | current
  · exact .ret _
  dsimp only
  split
  · exact .ret _
  refine .op rfl fun r => ?_
  rcases r with e | entries
  · exact .ret _
  rw [append_nil]
  refine (forEach fun e _ => discharges_stopAccepting e).bind_right fun _ => ?_
  refine (discharges_perform ⟨rfl, fun _ => rfl⟩).bind_right fun _ => ?_
  exact (discharges_stopEntries entries).bind fun _ => .ret _

lemma discharges_applyCerts : Discharges [] applyCerts := by
  refine .op rfl fun scan => ?_
  rw [append_nil]
  have hstop := discharges_forEach (l := scan.stopped) fun n _ => discharges_stopRuntime n
  change Discharges scan.stopped (Prog.forEach stopRuntime scan.stopped >>= _)
  refine bind (hstop.mono ?_) fun _ => ?_
  · simp
  · exact (mapEach fun rule _ => .of_restarts (all_certRestart rule)).bind fun _ => .ret _

lemma discharges_supervise (generation : Nat) (error : String) :
    Discharges [] (supervise key generation error) := by
  intro l g hg
  refine ⟨trivial, fun _ => ⟨mem_cons_self, fun _ => ?_⟩⟩
  intro n hn
  exact hg n (mem_of_mem_filter hn)

lemma discharges_program (c : Call) : Discharges [] (program cfg c) := by
  cases c with
  | createAs req origin =>
    exact (of_creating (all_createAs req origin)).bind fun _ => .ret _
  | createBy req origin token =>
    exact (of_creating (all_createBy req origin token)).bind fun _ => .ret _
  | update key u => exact (of_ordinary (all_update key u)).bind fun _ => .ret _
  | delete key => exact (discharges_delete key).bind fun _ => .ret _
  | dropInvalid key => exact (discharges_dropInvalid key).bind fun _ => .ret _
  | restoreAs reqs origin => exact .of_creating (all_restoreAs reqs origin)
  | loadStatic reqs => exact (of_creating (all_loadStatic reqs)).bind fun _ => .ret _
  | reloadStatic reqs => exact (discharges_reloadStatic reqs).bind fun _ => .ret _
  | putRuleset name req opts => exact (discharges_putRuleset name req opts).bind fun _ => .ret _
  | deleteRuleset name header mayUsePorts token admin =>
    exact (discharges_deleteRuleset name header mayUsePorts token admin).bind fun _ => .ret _
  | retryStart task => exact .of_restarts (all_retryStart task)
  | retryWaitingFor reason => exact (of_restarts (all_retryWaitingFor reason)).bind fun _ => .ret _
  | applyCerts => exact discharges_applyCerts.bind fun _ => .ret _
  | supervise key generation error => exact discharges_supervise key generation error
  | shutdown => exact discharges_shutdown
  | drainAll => exact discharges_drainAll
  | drainInPlace => exact discharges_perform ⟨rfl, fun _ => rfl⟩

def NoOverwrite (s : State) : Op → Prop
  | .insertFailed _ spec _ _ => ∀ r, s.rules.lookup spec.key ≠ some (.running r)
  | _ => True

/-- **A running rule that leaves the table** is handed to the thread that took it out, or
`supervise` marked it failed. -/
theorem running_exec {s : State} {o : Op} (ho : NoOverwrite s o) (env : Env) {k : Key} {r : Running}
    (hr : s.rules.lookup k = some (.running r)) :
    (∃ r', (exec cfg o env s).1.rules.lookup k = some (.running r') ∧
        r'.generation = r.generation) ∨
      r.generation ∈ released o (exec cfg o env s).2 ∨
      ∃ key error, o = .supervise key r.generation error := by
  have heff := effect_exec cfg o env s k
  rw [hr] at heff
  generalize hbefore : some (Entry.running r) = before at heff
  generalize hafter : (exec cfg o env s).1.rules.lookup k = after at heff ⊢
  generalize hres : (exec cfg o env s).2 = res at heff ⊢
  cases heff with
  | keep => exact .inl ⟨r, hbefore.symm, rfl⟩
  | removed _ h =>
    cases hbefore
    exact .inr (.inl (h _ rfl))
  | changed =>
    cases hbefore
    exact .inl ⟨_, rfl, rfl⟩
  | failed hkey =>
    subst hkey hbefore
    exact absurd hr (ho r)
  | expired hrun =>
    cases hbefore
    exact .inr (.inl hrun)
  | supervised =>
    cases hbefore
    exact .inr (.inr ⟨_, _, rfl⟩)
  | _ => cases hbefore

/-! ## What the threads hold -/

section
variable {o : Op} {res : Ret o} {g : Holding} {n : Nat}

lemma Holding.mem_held_upd (h : n ∈ g.held) (ho : o ≠ .kill n) :
    n ∈ (upd o res g).held := by
  cases o with
  | kill m =>
    have hne : n ≠ m := fun he => ho (he ▸ rfl)
    exact mem_filter.mpr ⟨h, by simp [hne]⟩
  | _ => exact mem_append_right _ h

lemma Holding.mem_held_of_released (h : n ∈ released o res) : n ∈ (upd o res g).held := by
  cases o with
  | kill m => cases h
  | _ => exact mem_append_left _ h

lemma Holding.mem_killed_upd (h : n ∈ (upd o res g).killed) :
    n ∈ g.killed ∨ o = .kill n := by
  cases o with
  | kill m =>
    rcases mem_cons.mp h with rfl | h
    · exact .inr rfl
    · exact .inl h
  | _ => exact .inl h

end

lemma must_kill {α : Type} {p : Program α} {g : Holding} {n : Nat}
    (hp : p.Safe ok upd g fun _ g' => g'.Within []) (hn : n ∈ g.held) :
    p.Must (· = .kill n) := by
  induction p generalizing g with
  | ret a => exact nomatch hp n hn
  | op o k ih =>
    by_cases ho : o = .kill n
    · exact .inl ho
    · exact .inr fun r => ih r (hp.2 r) (mem_held_upd hn ho)

structure Accounted (s : State) (gs : List Holding) : Prop where
  runtimes : ∀ n ∈ s.runtimes,
    Serves s n ∨ n ∈ s.killed ∨ ∃ (j : Nat) (g : Holding), gs[j]? = some g ∧ n ∈ g.held
  killed : ∀ g ∈ gs, ∀ n ∈ g.killed, n ∈ s.killed

lemma accounted_exec {s : State} {gs : List Holding} (hs : Accounted s gs) {i : Nat} {g : Holding}
    (hg : gs[i]? = some g) {o : Op} (hok : ok o g) (ho : NoOverwrite s o) (env : Env) :
    Accounted (exec cfg o env s).1 (gs.set i (upd o (exec cfg o env s).2 g)) := by
  have hgrows := grows_exec cfg o env s
  have hset := List.getElem?_set_self (l := gs) (a := upd o (exec cfg o env s).2 g)
    (lt_of_getElem? hg)
  have hkill : ∀ n, o = .kill n → n ∈ (exec cfg o env s).1.killed := by
    rintro n rfl
    exact List.mem_cons_self
  refine ⟨fun n hn => ?_, fun g' hg' n hn => ?_⟩
  · rcases hgrows.runtimes n hn with hn | hserves
    swap
    · exact .inl hserves
    rcases hs.runtimes n hn with ⟨k, r, hr, rfl⟩ | hkilled | ⟨j, g₀, hj, hheld⟩
    · rcases running_exec ho env hr with ⟨r', hr', hgen⟩ | hrel | ⟨key, error, rfl⟩
      · exact .inl ⟨k, r', hr', hgen⟩
      · exact .inr (.inr ⟨i, _, hset, mem_held_of_released hrel⟩)
      · exact .inr (.inl (hgrows.killed (hs.killed g (List.mem_of_getElem? hg) _ hok)))
    · exact .inr (.inl (hgrows.killed hkilled))
    by_cases hij : i = j
    · subst hij
      rw [hg] at hj
      cases hj
      by_cases hk : o = .kill n
      · exact .inr (.inl (hkill n hk))
      · exact .inr (.inr ⟨i, _, hset, mem_held_upd hheld hk⟩)
    · exact .inr (.inr ⟨j, g₀, by rwa [List.getElem?_set_ne hij], hheld⟩)
  rcases List.mem_or_eq_of_mem_set hg' with hg' | rfl
  · exact hgrows.killed (hs.killed g' hg' n hn)
  rcases mem_killed_upd hn with hn | hk
  · exact hgrows.killed (hs.killed g (List.mem_of_getElem? hg) n hn)
  · exact hkill n hk

lemma reach_accounted {x : Config} (hx : (system cfg).Reach (Next NoOverwrite) initial x) :
    ∃ gs, Accounted x.state gs ∧
      System.Follows ok upd (Holding.Within []) x gs := by
  refine hx.ghost ⟨by simp [State.empty], by simp⟩ ?_ ?_
  · intro x gs c s hs _ hbegins
    refine ⟨⟨[], []⟩, discharges_program c [] _ (by simp [Holding.Within]), ?_⟩
    have hstate := (begins_eq hbegins).1
    have hserves : ∀ n, Serves x.state n → Serves s n := by
      rintro n ⟨k, r, hr, hgen⟩
      exact ⟨k, r, by rw [begins_rules hbegins, hr], hgen⟩
    refine ⟨fun n hn => ?_, fun g hg n hn => ?_⟩
    · rw [hstate] at hn
      rcases hs.runtimes n hn with h | h | ⟨j, g, hj, hg⟩
      · exact .inl (hserves n h)
      · exact .inr (.inl (by rw [hstate]; exact h))
      refine .inr (.inr ⟨j, g, ?_, hg⟩)
      rw [List.getElem?_append_left (lt_of_getElem? hj), hj]
    rw [hstate]
    rcases mem_append.mp hg with hg | hg
    · exact hs.killed g hg n hn
    rw [mem_singleton.mp hg] at hn
    cases hn
  · intro x gs i e c o k g hs _ hcond hi hg hok
    exact accounted_exec hs hg hok (hcond o (nextOp_step hi)) e

/-- **A running rule outside the table is stopped**, in every run in which `insert_failed` finds no
running rule at the key. With no operation in progress, each runtime that was started is the table's
or killed; and a section after which a running rule is no longer the table's has killed it, or its
thread does before it returns. -/
theorem reach_stopped {x : Config} (hx : (system cfg).Reach (Next NoOverwrite) initial x) :
    (x.Quiet → ∀ n ∈ x.state.runtimes, Serves x.state n ∨ n ∈ x.state.killed) ∧
      ∀ (i : Nat) (env : Env) (y : Config) (k : Key) (r : Running),
        Next NoOverwrite x (.step i env) → (system cfg).step (.step i env) x = some y →
        x.state.rules.lookup k = some (.running r) →
        (∀ r', y.state.rules.lookup k = some (.running r') → r'.generation ≠ r.generation) →
        r.generation ∈ y.state.killed ∨
          ∃ t, y.threads[i]? = some t ∧ t.rest.Must (· = .kill r.generation) := by
  obtain ⟨gs, hs, hfollows⟩ := reach_accounted hx
  refine ⟨fun hquiet n hn => ?_, fun i env y k r hcond hstep hr hgone => ?_⟩
  · rcases hs.runtimes n hn with h | h | ⟨j, g, hj, hg⟩
    · exact .inl h
    · exact .inr h
    -- the thread of the ghost value has returned
    have hlt : j < x.threads.length := hfollows.length ▸ (List.getElem?_eq_some_iff.mp hj).1
    have hsafe := hfollows.safe j _ g (getElem?_eq_getElem hlt) hj
    have hdone := hquiet _ (getElem_mem hlt)
    have hmust := must_kill hsafe hg
    generalize x.threads[j].rest = p at hdone hmust
    cases p with
    | ret a => exact hmust.elim
    | op o k => exact absurd hdone (Prog.not_done_op o k)
  obtain ⟨c, o, rest, hi, rfl⟩ := System.step_step.mp hstep
  obtain ⟨g, hg, hok, hsafe⟩ := hfollows.exists_ghost hi
  rcases running_exec (hcond o (nextOp_step hi)) env hr with
    ⟨r', hr', hgen⟩ | hrel | ⟨key, error, rfl⟩
  · exact absurd hgen (hgone r' hr')
  · refine .inr ⟨_, List.getElem?_set_self (List.getElem?_eq_some_iff.mp hi).1, ?_⟩
    exact must_kill (hsafe _) (mem_held_of_released hrel)
  have hkilled := hs.killed g (mem_of_getElem? hg) _ hok
  exact .inl ((grows_exec cfg _ env x.state).killed hkilled)

end
open scoped Plain

def insertsNothingFailed : Op → Bool
  | .insertFailed _ _ _ _ => false
  | _ => true

open Plain

theorem delete_stopped :
    (∃ x : Config, (system settings).Reach (Next NoOverwrite) initial x ∧ x.Quiet ∧
      x.state.runtimes ≠ [] ∧ ∀ n ∈ x.state.runtimes, Serves x.state n ∨ n ∈ x.state.killed) ∧
    ∃ x y r, (system settings).Reach (Next NoOverwrite) initial x ∧
      (system settings).step (.step 1 .calm) x = some y ∧
      x.state.rules.lookup (loopback 8080) = some (.running r) ∧
      y.state.rules.lookup (loopback 8080) = none ∧
      (r.generation ∈ y.state.killed ∨
        ∃ t, y.threads[1]? = some t ∧ t.rest.Must (· = .kill r.generation)) := by
  have hinserts : ∀ s o, insertsNothingFailed o = true → NoOverwrite s o := by
    intro s o ho
    cases o <;> trivial
  constructor
  · obtain ⟨x, hx, hp⟩ := exists_reach_of_trace
      [.start (.createAs (request .tcp 8080) .dynamic), .step 0 .calm, .step 0 .calm,
        .start (.delete (loopback 8080)), .step 1 .calm, .step 1 .calm, .step 1 .calm,
        .step 1 .calm, .step 1 .calm]
      (fun x => x.quiet && !x.state.runtimes.isEmpty)
      (next_of_nextAll hinserts) (by decide +kernel)
    rw [Bool.and_eq_true, quiet_iff] at hp
    exact ⟨x, hx, hp.1, by simpa using hp.2, (reach_stopped hx).1 hp.1⟩
  obtain ⟨x, hx, hp⟩ := exists_reach_of_trace
    [.start (.createAs (request .tcp 8080) .dynamic), .step 0 .calm, .step 0 .calm,
      .start (.delete (loopback 8080))]
    (fun x => nextAll insertsNothingFailed x (.step 1 .calm) &&
      (x.state.rules.lookup (loopback 8080)).any Entry.isRunning &&
      ((system settings).step (.step 1 .calm) x).any fun y =>
        (y.state.rules.lookup (loopback 8080)).isNone)
    (next_of_nextAll hinserts) (by decide +kernel)
  simp only [Bool.and_eq_true, Option.any_eq_true, Option.isNone_iff_eq_none] at hp
  obtain ⟨⟨hnext, e, he, hrun⟩, y, hy, hnone⟩ := hp
  cases e with
  | failed f => cases hrun
  | running r =>
    refine ⟨x, y, r, hx, hy, he, hnone, ?_⟩
    exact (reach_stopped hx).2 1 .calm y _ r (next_of_nextAll hinserts _ _ hnext) hy he
      (by simp [hnone])

/-- A rule of the API runs on `127.0.0.1:8080`; `restore_as` of a rule with the same key, whose
backend does not resolve, replaces it by a failed entry, and nothing stops it. -/
theorem restore_overwrites : ∃ (x : Config) (n : Nat),
      (system settings).Reach (fun _ _ => True) initial x ∧ x.Quiet ∧
      n ∈ x.state.runtimes ∧ ¬ Serves x.state n ∧ n ∉ x.state.killed := by
  obtain ⟨x, hx, hp⟩ := exists_reach_of_trace
    [.start (.createAs (request .tcp 8080) .dynamic), .step 0 .calm, .step 0 .calm,
      .start (.restoreAs [request .tcp 8080] .api), .step 1 .unresolved, .step 1 .calm,
      .step 1 .calm]
    (fun x => x.quiet && x.state.runtimes.any fun n => decide (n ∉ x.state.killed) &&
      x.state.rules.pairs.all fun p => !p.2.isRunning)
    (fun _ _ (_ : true = true) => trivial) (by decide +kernel)
  simp only [Bool.and_eq_true, quiet_iff, any_eq_true, decide_eq_true_eq, all_eq_true] at hp
  obtain ⟨hquiet, n, hn, hkilled, hfailed⟩ := hp
  refine ⟨x, n, hx, hquiet, hn, ?_, hkilled⟩
  rintro ⟨k, r, hr, -⟩
  have := hfailed (k, .running r) (Table.mem_pairs.mpr hr)
  cases this

end Rproxy.Registry
