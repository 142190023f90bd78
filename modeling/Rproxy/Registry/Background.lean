import Rproxy.Registry.Patching

/-!
# The tasks in the background

`retry_start`, `retry_waiting_for` and the restarts of `apply_certs` prepare a failed rule without
the lock and then take it to start the rule, or to note why not.
-/

namespace Rproxy
open List Option Bool
section
variable [External]
namespace Registry
open Prog (All)
variable {cfg : Settings} {env : Env} {s : State} {o : Op} {key : Key}
variable {c : Call} {k : Key} {task : RetryTask} {rule : RuleSpec × Nat} {α : Type}

/-! ## Every rule is under its own key -/

def State.Keyed (s : State) : Prop := ∀ k e, s.rules.lookup k = some e → e.spec.key = k

def Op.keyed : Op → Prop
  | .apply k new => new.key = k
  | _ => True

lemma keyed_exec (hs : State.Keyed s) (ho : o.keyed) (env : Env) :
    State.Keyed (exec cfg o env s).1 := by
  intro k e he
  have heff := effect_exec cfg o env s k
  rw [he] at heff
  generalize hbefore : s.rules.lookup k = before at heff
  generalize hafter : some e = after at heff
  cases heff with
  | keep => exact hs k e (hbefore.trans hafter.symm)
  | removed => cases hafter
  | created hkey | failed hkey | restarted _ hkey =>
    cases hafter
    exact hkey
  | changed | applied | patched =>
    cases hafter
    exact ho
  | noted _ _ _ _ hspec =>
    cases hafter
    exact (congrArg RuleSpec.key hspec).trans (hs k _ hbefore)
  | expired _ hspec =>
    cases hafter
    exact (congrArg RuleSpec.key hspec).trans (hs k _ hbefore)
  | supervised | quieted =>
    cases hafter
    have hkey := hs k _ hbefore
    exact hkey

def Op.plain : Op → Prop
  | .apply _ _ | .prepareRetry _ | .sleepAgain _ | .retryFailed _ _ | .retry _ | .scanCerts
  | .certFailed _ _ _ | .certStart _ _ => False
  | _ => True

lemma Op.keyed_of_plain (h : o.plain) : o.keyed := by
  cases o <;> trivial

lemma Op.plain_of_creating (h : o.creating) : o.plain := by
  cases o <;> trivial

lemma plain_stopEntry (e : Entry) : (stopEntry e).All Op.plain :=
  all_stopEntry (fun _ => trivial) (fun _ => trivial) (fun _ => trivial) e

lemma plain_take (key : Key) : (take key).All Op.plain := by
  refine ⟨trivial, fun r => ?_⟩
  rcases r with e | _ | entry
  · trivial
  · trivial
  refine ⟨trivial, fun _ => ?_⟩
  cases entry with
  | running r => exact ⟨trivial, fun _ => trivial⟩
  | failed f => trivial

lemma plain_delete (key : Key) : (delete key).All Op.plain := by
  refine (plain_take key).bind fun r => ?_
  rcases r with e | _ | entry
  · trivial
  · trivial
  · exact (plain_stopEntry entry).bind fun _ => trivial

lemma plain_dropInvalid (key : Key) : (dropInvalid key).All Op.plain := by
  refine ⟨trivial, fun gone => ?_⟩
  cases gone with
  | false => trivial
  | true => exact ⟨trivial, fun _ => trivial⟩

lemma plain_retryWaitingFor (reason : Reason) : (retryWaitingFor reason).All Op.plain := by
  refine ⟨trivial, fun waiting => ?_⟩
  refine (All.mapEach fun w _ => ?_).bind fun _ => trivial
  exact ⟨trivial, fun _ => ⟨trivial, fun _ => trivial⟩⟩

/-- The calls other than PATCH, the retries and the restarts of `apply_certs`. -/
def Call.plain : Call → Prop
  | .update _ _ | .retryStart _ | .applyCerts => False
  | c => c.single

lemma plain_program (hc : c.plain) : (program cfg c).All Op.plain := by
  have hcreating : ∀ {α : Type} {p : Program α}, p.All Op.creating →
      (p >>= fun _ => pure ()).All Op.plain := fun hp =>
    (hp.mono fun _ => Op.plain_of_creating).bind fun _ => trivial
  cases c with
  | createAs req origin => exact hcreating (all_createAs req origin)
  | createBy req origin token => exact hcreating (all_createBy req origin token)
  | delete key => exact (plain_delete key).bind fun _ => trivial
  | dropInvalid key => exact (plain_dropInvalid key).bind fun _ => trivial
  | restoreAs reqs origin => exact (all_restoreAs reqs origin).mono fun _ => Op.plain_of_creating
  | loadStatic reqs => exact hcreating (all_loadStatic reqs)
  | retryWaitingFor reason => exact (plain_retryWaitingFor reason).bind fun _ => trivial
  | supervise key generation error => exact ⟨trivial, fun _ => ⟨trivial, fun _ => trivial⟩⟩
  | drainInPlace => exact ⟨trivial, fun _ => trivial⟩
  | _ => exact hc.elim

lemma Op.keyed_of_restarts (h : o.restarts) : o.keyed := by
  cases o <;> trivial

lemma keyed_applyCerts : applyCerts.All Op.keyed :=
  all_applyCerts trivial (fun _ => trivial) (fun _ => trivial) fun _ => Op.keyed_of_restarts

def KeepsKey (cfg : Settings) (c : Call) (p : Program Unit) : Prop :=
  match c with
  | .update key u => ∃ g, Patches cfg key u g p ∧ ∀ old, g = .spec old → old.key = key
  | _ => p.All Op.keyed

lemma keepsKey_program (hc : c.single) : KeepsKey cfg c (program cfg c) := by
  by_cases hplain : c.plain
  · have hp : (program cfg c).All Op.keyed := (plain_program hplain).mono fun _ => Op.keyed_of_plain
    cases c <;> first | exact hp | exact hplain.elim
  cases c with
  | update key u =>
    refine ⟨.nothing, Prog.Safe.bind (patches_update key u) fun _ _ _ => trivial, ?_⟩
    intro old h
    cases h
  | retryStart task => exact (all_retryStart task).mono fun _ => Op.keyed_of_restarts
  | applyCerts => exact keyed_applyCerts.bind fun _ => trivial
  | _ => exact absurd hc hplain

lemma keepsKey_exec {k : Ret o → Program Unit} (hs : State.Keyed s)
    (hp : KeepsKey cfg c (.op o k)) (env : Env) :
    State.Keyed (exec cfg o env s).1 ∧ KeepsKey cfg c (k (exec cfg o env s).2) := by
  cases c with
  | update key u =>
    obtain ⟨g, hsafe, hread⟩ := hp
    have ho : o.keyed := by
      cases o with
      | apply k' new =>
        obtain ⟨rfl, old, rfl, h⟩ := hsafe.1
        exact ((updatedSpec_keeps cfg.caps k' old u) new h).1.trans (hread old rfl)
      | _ => trivial
    refine ⟨keyed_exec hs ho env, _, hsafe.2 _, fun old hold => ?_⟩
    -- only `specOf` reads a spec, and it reads that of the key
    cases o with
    | specOf k' =>
      obtain ⟨rfl, rfl⟩ := hsafe.1
      rw [exec] at hold
      cases he : s.specAt k' with
      | none =>
        rw [he] at hold
        cases hold
      | some old' =>
        rw [he] at hold
        cases hold
        obtain ⟨e, hlookup, rfl⟩ := map_eq_some_iff.mp he
        exact hs k' e hlookup
    | prepare spec => exact hread old hold
    | invalidOf k' =>
      obtain ⟨rfl, rfl | rfl⟩ := hsafe.1 <;> rw [exec] at hold <;>
        cases hi : s.invalid.lookup k' <;> rw [hi] at hold <;> cases hold
    | create new fixing token =>
      obtain ⟨rfl, rfl⟩ := hsafe.1
      generalize (exec cfg (.create new fixing token) env s).2 = r at hold
      rcases r with e | _ <;> cases hold
    | register spec e =>
      cases hsafe.1
      cases hold
    | apply | insertFailed => cases hold
    | _ => exact hsafe.1.elim
  | _ => exact ⟨keyed_exec hs hp.1 env, hp.2 _⟩

open Config

lemma reach_keyed {cond : Config → Event Env Call → Prop}
    (hcond : ∀ x ev, cond x ev → SingleCalls x ev) {x : Config}
    (hx : (system cfg).Reach cond initial x) : State.Keyed x.state := by
  have h := hx.each (I := State.Keyed) (J := fun _ => KeepsKey cfg) ?_ ?_ ?_ ?_
  · exact h.1
  · exact fun k e he => nomatch he
  · intro x c s' hs hstart hbegins
    refine ⟨fun k e he => hs k e ?_, keepsKey_program (hcond _ _ hstart c rfl), fun _ _ hp => hp⟩
    rwa [begins_rules hbegins] at he
  · exact fun s c o k env hs hp => keepsKey_exec hs hp env
  · exact fun x i env c o k t _ _ _ _ hp => hp

/-- What a section may newly leave at a key as failed: the generation, the spec, and the retry task
that it stops. -/
inductive PutsFailed (s : State) (env : Env) :
    Op → Key → Nat → RuleSpec → Option Nat → Prop where
  | patched {k : Key} {new : RuleSpec} {f : Failed} (hf : s.rules.lookup k = some (.failed f))
      (hstart : env.start ≠ none) : PutsFailed s env (.apply k new) k f.generation new f.retry
  | inserted {generation : Nat} {new : RuleSpec} {e : ApiError} {retry : Option Nat} :
      PutsFailed s env (.insertFailed generation new e retry) new.key generation new none
  | supervised {k : Key} {r : Running} {error : String}
      (hr : s.rules.lookup k = some (.running r)) :
      PutsFailed s env (.supervise k r.generation error) k r.generation r.spec none
  | expired {k : Key} {r : Running} {error : String} {generation : Nat}
      (hr : s.rules.lookup k = some (.running r)) (hcert : env.certs k = .expired error)
      (hgen : s.nextGeneration ≤ generation) :
      PutsFailed s env .scanCerts k generation r.spec none

variable {new : RuleSpec}
open Locked

lemma apply_failed {f f' : Failed} (hf : s.rules.lookup k = some (.failed f))
    (h : (Locked.apply env s k new).1.rules.lookup k = some (.failed f')) :
    f' = f ∨ env.start ≠ none ∧ ∀ n, f.retry = some n →
      n ∈ (Locked.apply env s k new).1.aborted := by
  have hsame : s.rules.lookup k = some (.failed f') → f' = f := fun h' => by
    rw [hf] at h'
    cases h'
    rfl
  unfold Locked.apply at h ⊢
  cases hfind : s.rules.find? fun k' e => k' != k && overlaps e.spec new with
  | some other =>
    simp only [hfind] at h
    exact .inl (hsame h)
  | none =>
    cases hgate : env.gate with
    | some fault =>
      simp only [hfind, hgate] at h
      exact .inl (hsame h)
    | none =>
      cases hstart : env.start with
      | none =>
        simp only [hfind, hgate, hf, hstart, State.putRunning, State.abort,
          AList.lookup_insert] at h
        cases h
      | some fault =>
        refine .inr ⟨by simp, fun n hn => ?_⟩
        simp [hf, State.putFailed, State.abort, hn]

lemma expired_of_scanCerts {r : Running} {f : Failed} (hr : s.rules.lookup k = some (.running r))
    (hf : (scanCerts env s).1.rules.lookup k = some (.failed f)) :
    ∃ error, env.certs k = .expired error := by
  have hscan : (scanCerts env s).1.rules.lookup k = some (.running r) ∨
      ∃ error, env.certs k = .expired error := by
    refine List.foldlRecOn
      (motive := fun acc : State × CertScan => acc.1.rules.lookup k = some (.running r) ∨
        ∃ error, env.certs k = .expired error) _ _ (.inl hr) fun acc hacc key _ => ?_
    rcases hacc with hacc | hexpired
    · by_cases hkey : key = k
      · subst hkey
        rw [scanCert, hacc]
        cases hcert : env.certs key with
        | expired error => exact .inr ⟨error, rfl⟩
        | _ => exact .inl hacc
      refine .inl ?_
      rw [scanCert]
      repeat' split
      all_goals
        simp only [State.putFailed]
        first | exact hacc | rwa [AList.lookup_insert_ne (Ne.symm hkey)]
    · exact .inr hexpired
  rcases hscan with h | h
  · rw [hf] at h
    cases h
  · exact h

/-- **A failed entry after a section** was there before it, of the same generation and spec, or is
one of those that sections put in. -/
theorem failed_exec {f' : Failed} (h : (exec cfg o env s).1.rules.lookup k = some (.failed f')) :
    (∃ f, s.rules.lookup k = some (.failed f) ∧ f'.generation = f.generation ∧ f'.spec = f.spec) ∨
      ∃ stopped, PutsFailed s env o k f'.generation f'.spec stopped ∧
        ∀ n, stopped = some n → n ∈ (exec cfg o env s).1.aborted := by
  have heff := effect_exec cfg o env s k
  rw [h] at heff
  generalize hbefore : s.rules.lookup k = before at heff
  generalize hafter : some (Entry.failed f') = after at heff
  cases heff with
  | keep => exact .inl ⟨f', hafter.symm, rfl, rfl⟩
  | removed | created | changed | applied | restarted => cases hafter
  | @patched new f =>
    rcases apply_failed hbefore h with rfl | ⟨hstart, hstopped⟩
    · exact .inl ⟨_, rfl, rfl, rfl⟩
    cases hafter
    have hputs : PutsFailed s env (.apply k new) k f.generation new f.retry :=
      .patched hbefore hstart
    exact .inr ⟨_, hputs, hstopped⟩
  | failed hkey =>
    cases hafter
    subst hkey
    exact .inr ⟨none, .inserted, nofun⟩
  | noted _ _ _ hgen hspec =>
    cases hafter
    exact .inl ⟨_, rfl, hgen, hspec⟩
  | expired _ hspec hgen =>
    cases hafter
    obtain ⟨error, hcert⟩ := expired_of_scanCerts hbefore h
    rw [hspec]
    exact .inr ⟨none, .expired hbefore hcert hgen, nofun⟩
  | supervised =>
    cases hafter
    exact .inr ⟨none, .supervised hbefore, nofun⟩
  | quieted =>
    cases hafter
    exact .inl ⟨_, rfl, rfl, rfl⟩

/-- What a section does to the retry tasks: none that was told to stop goes on, and each new one
that sleeps is of the rule for which it was spawned. -/
structure Spawns (s : State) (o : Op) (s' : State) : Prop where
  aborted : s.aborted ⊆ s'.aborted
  tasks : ∀ task ∈ s'.tasks, task ∈ s.tasks ∨ o = .sleepAgain task ∨
    (∃ e : ApiError, o = .register task.spec e ∧ e.code = .resolveFailed) ∨
    ∃ prepared f, o = .restartWaiting task.spec task.generation prepared ∧
      s.rules.lookup task.spec.key = some (.failed f) ∧ f.generation = task.generation ∧
      f.spec = task.spec

lemma Spawns.of_eq {s' : State} (ha : s.aborted ⊆ s'.aborted) (ht : s'.tasks = s.tasks) :
    Spawns s o s' :=
  ⟨ha, fun _ h => .inl (ht ▸ h)⟩

lemma Spawns.refl (s : State) (o : Op) : Spawns s o s := .of_eq (List.Subset.refl _) rfl

lemma aborted_drainInPlace (s : State) : s.aborted ⊆ (drainInPlace s).aborted := by
  refine List.foldlRecOn (motive := fun t : State => s.aborted ⊆ t.aborted) _ _
    (List.Subset.refl _) fun t ht e _ => ?_
  obtain ⟨key, run | f⟩ := e
  · exact ht
  · exact List.Subset.trans ht (subset_append_right _ _)

variable {generation : Nat}

lemma spawns_restartWaiting {spec : RuleSpec} {prepared : Except ApiError Unit} :
    Spawns s (.restartWaiting spec generation prepared)
      (restartWaiting env s spec generation prepared).1 := by
  unfold restartWaiting
  split
  next f hf =>
    split
    next hsame =>
      split
      · exact .of_eq (List.Subset.refl _) rfl
      split
      · refine ⟨List.Subset.refl _, fun task htask => ?_⟩
        rcases mem_append.mp htask with h | h
        · exact .inl h
        rw [mem_singleton.mp h]
        exact .inr (.inr (.inr ⟨prepared, f, rfl, hf, hsame⟩))
      · exact .of_eq (List.Subset.refl _) rfl
    · exact .refl _ _
  · exact .refl _ _

lemma spawns_exec (cfg : Settings) (o : Op) (env : Env) (s : State) :
    Spawns s o (exec cfg o env s).1 := by
  cases o with
  | sleepAgain task =>
    refine ⟨List.Subset.refl _, fun task' htask => ?_⟩
    rcases mem_append.mp htask with h | h
    · exact .inl h
    rw [mem_singleton.mp h]
    exact .inr (.inl rfl)
  | register spec e =>
    simp only [exec, Locked.register]
    split
    next hcode =>
      refine ⟨List.Subset.refl _, fun task htask => ?_⟩
      rcases mem_append.mp htask with h | h
      · exact .inl h
      rw [mem_singleton.mp h]
      exact .inr (.inr (.inl ⟨e, rfl, hcode⟩))
    · exact .of_eq (List.Subset.refl _) rfl
  | restartWaiting => exact spawns_restartWaiting
  | abort retry => exact .of_eq (subset_append_right _ _) rfl
  | drainInPlace =>
    have htasks : (Locked.drainInPlace s).tasks = s.tasks := by rw [drainInPlace_eq]
    exact .of_eq (aborted_drainInPlace s) htasks
  | scanCerts =>
    rw [exec, scanCerts_eq]
    exact .of_eq (List.Subset.refl _) rfl
  | apply key spec =>
    simp only [exec, Locked.apply]
    repeat' split
    all_goals first
      | exact .refl _ _
      | exact .of_eq (List.Subset.refl _) rfl
      | exact .of_eq (subset_append_right _ _) rfl
  | create spec fixing token =>
    simp only [exec, Locked.create]
    repeat' split
    all_goals cases fixing <;> exact .of_eq (List.Subset.refl _) rfl
  | putSet name state => cases state <;> exact .of_eq (List.Subset.refl _) rfl
  | noteInvalid =>
    simp only [exec]
    split <;> exact .of_eq (List.Subset.refl _) rfl
  | take | retry | retryFailed | certFailed | certStart | supervise | removeMember
  | takeMembers =>
    simp only [exec, Locked.take, Locked.retry, Locked.retryFailed, Locked.certFailed,
      Locked.certStart, Locked.supervise, Locked.removeMember, Locked.takeMembers]
    repeat' split
    all_goals exact .of_eq (List.Subset.refl _) rfl
  | _ => exact .of_eq (List.Subset.refl _) rfl

/-! ## The restarts still to come -/

inductive Restart where
  | idle
  | trying (task : RetryTask)
  | refused (task : RetryTask)
  | resolved (task : RetryTask)
  /-- The restarts of `apply_certs` that are left. -/
  | certs (rules : List (RuleSpec × Nat))

namespace Restart

def ok : Op → Restart → Prop
  | .prepareRetry task, g | .sleepAgain task, g => g = trying task
  | .retryFailed task _, g => g = refused task
  | .retry task, g => g = resolved task
  | .certFailed spec generation _, g | .certStart spec generation, g =>
    ∃ rules, g = certs ((spec, generation) :: rules)
  | .prepare _, g | .stop _, g | .kill _, g => g = idle ∨ ∃ rules, g = certs rules
  | _, g => g = idle

def upd : (o : Op) → Ret o → Restart → Restart
  | .prepareRetry task, some (.ok ()), _ => resolved task
  | .prepareRetry task, some (.error e), _ =>
    if e.code = .resolveFailed then trying task else refused task
  | .prepareRetry _, none, _ | .sleepAgain _, _, _ | .retryFailed _ _, _, _ | .retry _, _, _ => idle
  | .scanCerts, scan, _ => certs scan.restart
  | .certFailed _ _ _, _, certs (_ :: rules) | .certStart _ _, _, certs (_ :: rules) => certs rules
  | _, _, g => g

def Over (g : Restart) : Prop := g = idle ∨ g = certs []

end Restart

def restarts? : Op → Option (RuleSpec × Nat)
  | .retry task => some (task.spec, task.generation)
  | .certFailed spec generation _ | .certStart spec generation => some (spec, generation)
  | _ => none

variable {p : Program α}

open Restart

lemma over_of_all (hp : p.All fun o => o.plain ∨ o.ordinary) :
    p.Safe ok upd .idle fun _ g => g.Over := by
  refine Prog.Safe.of_all (hp.mono fun o ho => ?_) fun _ => .inl rfl
  cases o <;> first | exact ⟨rfl, fun _ => rfl⟩ | exact ⟨.inl rfl, fun _ => rfl⟩ |
    exact (ho.elim id id : False).elim

lemma over_retryStart (task : RetryTask) :
    (retryStart task).Safe ok upd (.trying task) fun _ g => g.Over := by
  refine ⟨rfl, fun r => ?_⟩
  rcases r with _ | e | _
  · exact .inl rfl
  · change Prog.Safe _ _ (if _ then _ else _) (if _ then _ else _) _
    split
    · exact ⟨rfl, fun _ => .inl rfl⟩
    · exact ⟨rfl, fun _ => .inl rfl⟩
  · exact ⟨rfl, fun _ => .inl rfl⟩

lemma safe_certRestarts (rules : List (RuleSpec × Nat)) :
    (Prog.mapEach certRestart rules).Safe ok upd (.certs rules)
      fun _ g => g = .certs [] := by
  induction rules with
  | nil => exact rfl
  | cons rule rules ih =>
    have hone : (certRestart rule).Safe ok upd (.certs (rule :: rules))
        fun _ g => g = .certs rules := by
      refine ⟨.inr ⟨_, rfl⟩, fun r => ?_⟩
      rcases r with e | _
      · exact ⟨⟨rules, rfl⟩, fun _ => rfl⟩
      · exact ⟨⟨rules, rfl⟩, fun _ => rfl⟩
    refine hone.bind fun a g hg => ?_
    subst hg
    exact ih.bind fun as g hg => hg

lemma over_applyCerts : applyCerts.Safe ok upd .idle fun _ g => g.Over := by
  refine ⟨rfl, fun scan => ?_⟩
  have hstop : (Prog.forEach stopRuntime scan.stopped).Safe ok upd
      (.certs scan.restart) fun _ g => g = .certs scan.restart := by
    refine Prog.Safe.forEach fun n _ => ?_
    exact ⟨.inr ⟨_, rfl⟩, fun _ => ⟨.inr ⟨_, rfl⟩, fun _ => rfl⟩⟩
  refine hstop.bind fun _ g hg => ?_
  subst hg
  exact (safe_certRestarts scan.restart).bind fun _ g hg => .inr hg

lemma over_program (hc : c.single) :
    ∃ g, (program cfg c).Safe ok upd g (fun _ g' => g'.Over) ∧
      (g = .idle ∨ ∃ task, c = .retryStart task ∧ g = .trying task) := by
  by_cases hplain : c.plain
  · exact ⟨.idle, over_of_all ((plain_program hplain).mono fun _ => .inl), .inl rfl⟩
  cases c with
  | update key u =>
    exact ⟨.idle, over_of_all (((all_update key u).mono fun _ => .inr).bind fun _ => trivial),
      .inl rfl⟩
  | retryStart task => exact ⟨.trying task, over_retryStart task, .inr ⟨task, rfl, rfl⟩⟩
  | applyCerts => exact ⟨.idle, over_applyCerts.bind fun _ _ hg => hg, .inl rfl⟩
  | _ => exact absurd hc hplain

lemma must_restart {rules : List (RuleSpec × Nat)}
    (hp : p.Safe ok upd (.certs rules) fun _ g => g.Over) (hrule : rule ∈ rules) :
    p.Must fun o => restarts? o = some rule := by
  induction p generalizing rules with
  | ret a =>
    rcases hp with h | h
    · cases h
    cases h
    cases hrule
  | op o k ih =>
    have hhead : ∀ first rest, rules = first :: rest → restarts? o = some first →
        (∀ r, upd o r (.certs (first :: rest)) = .certs rest) →
        (Prog.op o k).Must fun o => restarts? o = some rule := by
      rintro first rest rfl ho hupd
      rcases mem_cons.mp hrule with rfl | hrest
      · exact .inl ho
      refine .inr fun r => ih r ?_ hrest
      rw [← hupd r]
      exact hp.2 r
    cases o with
    | certFailed spec generation e | certStart spec generation =>
      obtain ⟨rest, h⟩ := hp.1
      cases h
      exact hhead _ _ rfl rfl fun _ => rfl
    | prepare | stop | kill => exact .inr fun r => ih r (hp.2 r) hrule
    | _ => cases hp.1

/-! ## What the restarts rely on -/

def Agreed (s : State) (rule : RuleSpec × Nat) : Prop :=
  ∀ f, s.rules.lookup rule.1.key = some (.failed f) → f.generation = rule.2 → f.spec = rule.1

def Own (s : State) (task : RetryTask) : Prop :=
  ∀ f, s.rules.lookup task.spec.key = some (.failed f) →
    f.generation = task.generation ∧ f.spec = task.spec

lemma Own.agreed (h : Own s task) : Agreed s (task.spec, task.generation) :=
  fun f hf _ => (h f hf).2

namespace Restart

def Holds (s : State) : Restart → Prop
  | idle => True
  | trying task => task.id ∉ s.aborted → Own s task
  | refused task => Own s task
  | resolved task => Agreed s (task.spec, task.generation)
  | certs rules => ∀ rule ∈ rules, Agreed s rule

end Restart

lemma agreed_exec {rule : RuleSpec × Nat} (h : Agreed s rule) (hputs : ∀ generation new stopped,
      PutsFailed s env o rule.1.key generation new stopped → generation = rule.2 → new = rule.1) :
    Agreed (exec cfg o env s).1 rule := by
  intro f' hf' hgen
  rcases failed_exec hf' with ⟨f, hf, hgen', hspec⟩ | ⟨stopped, hput, -⟩
  · rw [hspec]
    exact h f hf (hgen'.symm.trans hgen)
  · exact hputs _ _ _ hput hgen

variable {task : RetryTask}

lemma own_exec (h : Own s task)
    (hputs : ∀ generation new stopped, PutsFailed s env o task.spec.key generation new stopped →
      (∀ n, stopped = some n → n ∈ (exec cfg o env s).1.aborted) →
      generation = task.generation ∧ new = task.spec) :
    Own (exec cfg o env s).1 task := by
  intro f' hf'
  rcases failed_exec hf' with ⟨f, hf, hgen, hspec⟩ | ⟨stopped, hput, hstopped⟩
  · rw [hgen, hspec]
    exact h f hf
  · exact hputs _ _ _ hput hstopped

def Op.putsNone : Op → Prop
  | .apply _ _ | .insertFailed _ _ _ _ | .supervise _ _ _ | .scanCerts => False
  | _ => True

lemma not_putsFailed (ho : o.putsNone) {k : Key}
    {stopped : Option Nat} : ¬ PutsFailed s env o k generation new stopped := by
  intro h
  cases h <;> exact ho

lemma agreed_scanCerts (hs : State.Keyed (scanCerts env s).1)
    (h : rule ∈ (scanCerts env s).2.restart) : Agreed (scanCerts env s).1 rule := by
  have hfound : ∀ rule ∈ (scanCerts env s).2.restart, ∃ k f,
      (scanCerts env s).1.rules.lookup k = some (.failed f) ∧ f.spec = rule.1 := by
    refine List.foldlRecOn
      (motive := fun acc : State × CertScan => ∀ rule ∈ acc.2.restart, ∃ k f,
        acc.1.rules.lookup k = some (.failed f) ∧ f.spec = rule.1) _ _ (by simp) ?_
    intro acc hacc key _
    rcases hlookup : acc.1.rules.lookup key with _ | run | f
    · simp only [scanCert, hlookup]
      exact hacc
    · rcases hcert : env.certs key with _ | _ | _ | error
      · simp only [scanCert, hlookup, hcert]
        exact hacc
      · simp only [scanCert, hlookup, hcert]
        exact hacc
      · simp only [scanCert, hlookup, hcert]
        exact hacc
      simp only [scanCert, hlookup, hcert, State.putFailed]
      intro rule hrule
      obtain ⟨k, f, hf, hspec⟩ := hacc rule hrule
      have hne : k ≠ key := by
        rintro rfl
        rw [hlookup] at hf
        cases hf
      exact ⟨k, f, by rwa [AList.lookup_insert_ne hne], hspec⟩
    by_cases hrenewed : (waitsForCertificate f.error && env.renewed key)
    · simp only [scanCert, hlookup, if_pos hrenewed]
      intro rule hrule
      rcases mem_append.mp hrule with h | h
      · exact hacc rule h
      rw [mem_singleton.mp h]
      exact ⟨key, f, hlookup, rfl⟩
    simp only [scanCert, hlookup, if_neg hrenewed]
    exact hacc
  obtain ⟨k, f, hf, hspec⟩ := hfound rule h
  intro f' hf' _
  have hkey : rule.1.key = k := by
    rw [← hspec]
    exact hs k _ hf
  rw [hkey, hf] at hf'
  cases hf'
  exact hspec

/-! ## Runs in which the restarts are left alone -/

def Tries (x : Config) (task : RetryTask) : Prop :=
  task.id ∉ x.state.aborted ∧ (task ∈ x.state.tasks ∨
    ∃ t ∈ x.threads, t.rest.next? = some (.prepareRetry task) ∨
      t.rest.next? = some (.sleepAgain task))

/-- The section `o` of the thread `i` leaves the restarts of the others alone. -/
structure LeavesRestarts (x : Config) (i : Nat) (env : Env) (o : Op) : Prop where
  /-- At the key of a retry it leaves no other failed entry, unless it tells the retry to stop. -/
  tries : ∀ task, Tries x task → ∀ generation new stopped,
    PutsFailed x.state env o task.spec.key generation new stopped → stopped ≠ some task.id →
    generation = task.generation ∧ new = task.spec
  refused : ∀ j t task e, j ≠ i → x.threads[j]? = some t →
    t.rest.next? = some (.retryFailed task e) → ∀ generation new stopped,
    PutsFailed x.state env o task.spec.key generation new stopped →
    generation = task.generation ∧ new = task.spec
  /-- At the key of a restart that checks the generation it leaves no failed entry of that
  generation with another spec. -/
  restarts : ∀ j t rule, j ≠ i → x.threads[j]? = some t →
    (t.rest.Must fun o => restarts? o = some rule) → ∀ generation new stopped,
    PutsFailed x.state env o rule.1.key generation new stopped → generation = rule.2 → new = rule.1
  /-- A retry is spawned for a rule that is not yet in the table only where no failed one is. -/
  spawned : ∀ spec e, o = .register spec e → e.code = .resolveFailed →
    ∀ f, x.state.rules.lookup spec.key ≠ some (.failed f)

def BackgroundSteps (x : Config) (ev : Event Env Call) : Prop :=
  SingleCalls x ev ∧ ∀ i env o, ev = .step i env → nextOp x ev = some o → LeavesRestarts x i env o

structure Relied (s : State) (gs : List Restart) : Prop where
  tasks : ∀ task ∈ s.tasks, (trying task).Holds s
  threads : ∀ g ∈ gs, g.Holds s

namespace Restart

def Expects : Restart → Option Op → Prop
  | trying task, o => o = some (.prepareRetry task) ∨ o = some (.sleepAgain task)
  | refused task, o => ∃ e, o = some (.retryFailed task e)
  | resolved task, o => o = some (.retry task)
  | _, _ => True

end Restart

lemma next_of_restart {g : Restart}
    (hp : p.Safe ok upd g fun _ g => g.Over) : g.Expects p.next? := by
  cases p with
  | ret a => rcases hp with rfl | rfl <;> trivial
  | op o k =>
    obtain ⟨hok, -⟩ := hp
    cases o with
    | prepareRetry task =>
      cases hok
      exact .inl rfl
    | sleepAgain task =>
      cases hok
      exact .inr rfl
    | retryFailed task e =>
      cases hok
      exact ⟨e, rfl⟩
    | retry task =>
      cases hok
      exact rfl
    | certFailed | certStart =>
      obtain ⟨rules, rfl⟩ := hok
      trivial
    | prepare | stop | kill => rcases hok with rfl | ⟨rules, rfl⟩ <;> trivial
    | _ =>
      cases hok
      trivial

section Step
variable {x : Config} {gs : List Restart} {i j : Nat} {g : Restart}

lemma trying_exec (ho : LeavesRestarts x i env o)
    (htries : task ∈ x.state.tasks ∨ ∃ t ∈ x.threads, t.rest.next? = some (.prepareRetry task) ∨
      t.rest.next? = some (.sleepAgain task)) (h : (trying task).Holds x.state) :
    (trying task).Holds (exec cfg o env x.state).1 := by
  intro hid
  have hid' : task.id ∉ x.state.aborted := fun h =>
    hid ((spawns_exec cfg o env x.state).aborted h)
  refine own_exec (h hid') fun generation new stopped hput hstopped => ?_
  refine ho.tries task ⟨hid', htries⟩ generation new stopped hput ?_
  rintro rfl
  exact hid (hstopped _ rfl)

lemma holds_other (hF : System.Follows ok upd Restart.Over x gs)
    (ho : LeavesRestarts x i env o) (hij : j ≠ i) (hg : gs[j]? = some g)
    (h : g.Holds x.state) : g.Holds (exec cfg o env x.state).1 := by
  have hlt : j < x.threads.length := hF.length ▸ (lt_of_getElem? hg)
  have hj : x.threads[j]? = some x.threads[j] := getElem?_eq_getElem hlt
  have hsafe := hF.safe j _ g hj hg
  have hnext := next_of_restart hsafe
  cases g with
  | idle => trivial
  | trying task => exact trying_exec ho (.inr ⟨_, getElem_mem hlt, hnext⟩) h
  | refused task =>
    obtain ⟨e, hnext⟩ := hnext
    refine own_exec h fun generation new stopped hput _ => ?_
    exact ho.refused j _ task e hij hj hnext generation new stopped hput
  | resolved task =>
    refine agreed_exec h fun generation new stopped hput hgen => ?_
    refine ho.restarts j _ (task.spec, task.generation) hij hj ?_ generation new stopped hput hgen
    generalize x.threads[j].rest = p at hnext
    cases p with
    | ret a => cases hnext
    | op o' k =>
      cases hnext
      exact .inl rfl
  | certs rules =>
    intro rule hrule
    refine agreed_exec (h rule hrule) fun generation new stopped hput hgen => ?_
    exact ho.restarts j _ rule hij hj (must_restart hsafe hrule) generation new stopped hput hgen

lemma holds_own (hs : State.Keyed s) (hok : Restart.ok o g) (h : g.Holds s) (env : Env) :
    (upd o (exec cfg o env s).2 g).Holds (exec cfg o env s).1 := by
  have hcerts : ∀ rules, o.putsNone → (certs rules).Holds s →
      (certs rules).Holds (exec cfg o env s).1 := fun rules ho hrules rule hrule =>
    agreed_exec (hrules rule hrule) fun _ _ _ hput _ => absurd hput (not_putsFailed ho)
  cases o with
  | prepareRetry task =>
    cases hok
    by_cases hid : task.id ∈ s.aborted
    · rw [exec, if_pos hid]
      trivial
    have hown : Own s task := h hid
    rw [exec, if_neg hid]
    cases Fault.result env.prepare with
    | ok _ => exact hown.agreed
    | error e =>
      by_cases hcode : e.code = .resolveFailed
      · simp only [upd, if_pos hcode]
        exact fun _ => hown
      simp only [upd, if_neg hcode]
      exact hown
  | sleepAgain | retryFailed | retry => trivial
  | scanCerts =>
    have hkeyed : State.Keyed (exec cfg .scanCerts env s).1 :=
      keyed_exec hs (show Op.keyed .scanCerts from trivial) env
    exact fun rule hrule => agreed_scanCerts hkeyed hrule
  | certFailed spec generation e | certStart spec generation =>
    obtain ⟨rules, rfl⟩ := hok
    exact hcerts rules trivial fun rule hrule => h rule (mem_cons_of_mem _ hrule)
  | prepare | stop | kill =>
    rcases hok with rfl | ⟨rules, rfl⟩
    · trivial
    · exact hcerts rules trivial h
  | _ =>
    cases hok
    trivial

lemma tasks_exec (hs : Relied x.state gs) (ho : LeavesRestarts x i env o) (hg : gs[i]? = some g)
    (hok : ok o g) (htask : task ∈ (exec cfg o env x.state).1.tasks) :
    (trying task).Holds (exec cfg o env x.state).1 := by
  have hnone : o.putsNone → Own x.state task → Own (exec cfg o env x.state).1 task :=
    fun ho hown => own_exec hown fun _ _ _ hput _ => absurd hput (not_putsFailed ho)
  rcases (spawns_exec cfg o env x.state).tasks task htask with
    hold | rfl | ⟨e, rfl, hcode⟩ | ⟨prepared, f, rfl, hf, hgen, hspec⟩
  · exact trying_exec ho (.inl hold) (hs.tasks task hold)
  · cases hok
    have htrying := hs.threads _ (mem_of_getElem? hg)
    exact fun hid => hnone trivial (htrying hid)
  · exact fun _ => hnone trivial fun f hf => absurd hf (ho.spawned _ e rfl hcode f)
  intro _
  refine hnone trivial fun f' hf' => ?_
  rw [hf] at hf'
  cases hf'
  exact ⟨hgen, hspec⟩

lemma relied_exec (hkeyed : State.Keyed x.state) (hs : Relied x.state gs)
    (hF : System.Follows ok upd Restart.Over x gs) (ho : LeavesRestarts x i env o)
    (hg : gs[i]? = some g) (hok : ok o g) :
    Relied (exec cfg o env x.state).1 (gs.set i (upd o (exec cfg o env x.state).2 g)) := by
  refine ⟨fun task htask => tasks_exec hs ho hg hok htask, fun g' hg' => ?_⟩
  obtain ⟨j, hj⟩ := mem_iff_getElem?.mp hg'
  rcases getElem?_set_cases hj with ⟨-, rfl⟩ | ⟨hij, hj⟩
  · exact holds_own hkeyed hok (hs.threads g (mem_of_getElem? hg)) env
  · exact holds_other hF ho hij hj (hs.threads g' (mem_of_getElem? hj))

end Step

lemma relied_begins {s' : State} {gs : List Restart} {g : Restart} (hs : Relied s gs)
    (hbegins : begins s c = some s')
    (hg : g = .idle ∨ ∃ task, c = .retryStart task ∧ g = .trying task) :
    Relied s' (gs ++ [g]) := by
  obtain ⟨hs', htasks⟩ := begins_eq hbegins
  have hrules : s'.rules = s.rules := begins_rules hbegins
  have haborted : s'.aborted = s.aborted := by rw [hs']
  have hholds : ∀ g : Restart, g.Holds s → g.Holds s' := by
    intro g hg
    cases g with
    | idle => trivial
    | trying task =>
      intro hid f hf
      rw [haborted] at hid
      rw [hrules] at hf
      exact hg hid f hf
    | refused task | resolved task =>
      intro f hf
      rw [hrules] at hf
      exact hg f hf
    | certs rules =>
      intro rule hrule f hf
      rw [hrules] at hf
      exact hg rule hrule f hf
  refine ⟨fun task htask => hholds _ (hs.tasks task (htasks htask)), fun g' hg' => ?_⟩
  rcases mem_append.mp hg' with h | h
  · exact hholds g' (hs.threads g' h)
  rw [mem_singleton.mp h]
  rcases hg with rfl | ⟨task, rfl, rfl⟩
  · trivial
  refine hholds _ (hs.tasks task ?_)
  rw [begins] at hbegins
  by_contra hnot
  rw [if_neg hnot] at hbegins
  cases hbegins

lemma reach_relied {x : Config} (hx : (system cfg).Reach BackgroundSteps initial x) :
    ∃ gs, Relied x.state gs ∧ System.Follows ok upd Restart.Over x gs := by
  have hkeyed : ∀ y, (system cfg).Reach BackgroundSteps initial y → State.Keyed y.state :=
    fun y hy => reach_keyed (fun _ _ h => h.1) hy
  refine (hx.and hkeyed).ghost ?_ ?_ ?_
  · exact ⟨by simp [State.empty], by simp⟩
  · intro x gs c s' hs hcond hbegins
    obtain ⟨g, hsafe, hg⟩ := over_program (hcond.1.1 c rfl)
    exact ⟨g, hsafe, relied_begins hs hbegins hg⟩
  intro x gs i env c o k g hs hF hcond hi hg hok
  exact relied_exec hcond.2 hs hF (hcond.1.2 i env o rfl (nextOp_step hi)) hg hok

lemma background_exec (hp : prepared? o = some rule)
    (hk : (exec cfg o env s).1.rules.lookup k ≠ s.rules.lookup k) :
    k = rule.1.key ∧ ∃ f, s.rules.lookup k = some (.failed f) ∧ Accepts o f ∧
      ((exec cfg o env s).1.specAt k = some f.spec ∨
        (exec cfg o env s).1.specAt k = some rule.1) := by
  have heff := effect_exec cfg o env s k
  rw [State.specAt]
  generalize s.rules.lookup k = before at heff hk
  generalize (exec cfg o env s).1.rules.lookup k = after at heff hk
  cases heff with
  | keep => exact absurd rfl hk
  | removed hout => cases o <;> first | exact hout.elim | cases hp
  | @restarted _ _ f spec generation hstarts hkey hf =>
    have hrule : rule = (spec, generation) := by
      cases o <;> first | (cases hp; cases hstarts; rfl) | cases hstarts
    subst hrule
    exact ⟨hkey.symm, f, rfl, hf, .inr rfl⟩
  | @noted _ _ f f' spec generation hprepared hkey hf _ hspec =>
    rw [hp] at hprepared
    cases hprepared
    exact ⟨hkey.symm, f, rfl, hf, .inl (congrArg some hspec)⟩
  | _ => cases hp

/-- **A task in the background never touches a newer rule**, in every run in which the restarts are
left alone: it changes only the entry of its key, if that is still the failed one with the
generation and the spec it was prepared for, and the spec stays. -/
theorem reach_background {x y : Config} {i : Nat} {rule : RuleSpec × Nat} {k : Key}
    (hx : (system cfg).Reach BackgroundSteps initial x)
    (hop : nextOp x (.step i env) = some o) (hp : prepared? o = some rule)
    (hy : (system cfg).step (.step i env) x = some y)
    (hk : y.state.rules.lookup k ≠ x.state.rules.lookup k) :
    k = rule.1.key ∧ y.state.specAt k = x.state.specAt k ∧
      ∃ f, x.state.rules.lookup k = some (.failed f) ∧ f.generation = rule.2 ∧ f.spec = rule.1 := by
  obtain ⟨c, o', rest, hi, rfl⟩ := System.step_step.mp hy
  rw [nextOp_step hi] at hop
  cases hop
  obtain ⟨gs, hs, hF⟩ := reach_relied hx
  obtain ⟨g, hg, hok, -⟩ := hF.exists_ghost hi
  have hholds := hs.threads g (mem_of_getElem? hg)
  obtain ⟨rfl, f, hf, haccepts, hspec⟩ := background_exec hp hk
  have hrule : f.generation = rule.2 ∧ f.spec = rule.1 := by
    cases o with
    | restartWaiting =>
      cases hp
      exact haccepts
    | retryFailed =>
      cases hp
      cases hok
      exact hholds f hf
    | retry =>
      cases hp
      cases hok
      exact ⟨haccepts, hholds f hf haccepts⟩
    | certFailed | certStart =>
      cases hp
      obtain ⟨rules, rfl⟩ := hok
      exact ⟨haccepts, hholds _ mem_cons_self f hf haccepts⟩
    | _ => cases hp
  refine ⟨rfl, ?_, f, hf, hrule⟩
  have hbefore : x.state.specAt rule.1.key = some f.spec := by
    rw [State.specAt, hf]
    rfl
  rw [hbefore]
  rcases hspec with h | h
  · exact h
  rw [hrule.2]
  exact h

end Registry
end

/-! ## Runs -/

def Env.certificateMissing : Env :=
  { Env.calm with
    prepare := some ⟨.tlsConfig "site is not in the certificate store", by decide⟩ }

def Env.certificatesRenewed : Env := { Env.calm with renewed := fun _ => true }

namespace Registry
open scoped Plain

def putsNone : Op → Bool
  | .apply _ _ | .insertFailed _ _ _ _ | .supervise _ _ _ | .scanCerts => false
  | _ => true

def spawnsNone : Op → Bool
  | .register _ e => decide (e.code ≠ .resolveFailed)
  | _ => true

def alone (x : Config) (i : Nat) : Bool :=
  x.state.tasks.isEmpty && x.threads.zipIdx.all fun t => t.2 == i || t.1.rest.next?.isNone

def backgroundSteps (x : Config) : Event Env Call → Bool
  | .start c => decide c.single
  | .step i env => (nextOp x (.step i env)).all fun o =>
    spawnsNone o && (putsNone o || alone x i)

lemma leavesRestarts_of_putsNone {x : Config} {i : Nat} {env : Env} {o : Op}
    (hspawns : spawnsNone o) (ho : o.putsNone) : LeavesRestarts x i env o where
  tries := fun _ _ _ _ _ hput _ => absurd hput (not_putsFailed ho)
  refused := fun _ _ _ _ _ _ _ _ _ _ hput => absurd hput (not_putsFailed ho)
  restarts := fun _ _ _ _ _ _ _ _ _ hput _ => absurd hput (not_putsFailed ho)
  spawned := by
    rintro spec e rfl hcode
    exact absurd hcode (of_decide_eq_true hspawns)

lemma leavesRestarts_of_alone {x : Config} {i : Nat} {env : Env} {o : Op}
    (hop : nextOp x (.step i env) = some o) (hspawns : spawnsNone o)
    (ho : ¬ o.putsNone) (halone : alone x i) : LeavesRestarts x i env o := by
  rw [alone, and_eq_true, List.isEmpty_iff, List.all_eq_true] at halone
  obtain ⟨htasks, hothers⟩ := halone
  have hdone : ∀ j t, j ≠ i → x.threads[j]? = some t → t.rest.next? = none := by
    intro j t hij hj
    have := hothers (t, j) (List.mk_mem_zipIdx_iff_getElem?.mpr hj)
    simpa [hij] using this
  -- the thread itself performs another section
  have hown : ∀ t, x.threads[i]? = some t → t.rest.next? = some o := by
    intro t ht
    rw [nextOp, ht] at hop
    exact hop
  refine ⟨?_, ?_, ?_, ?_⟩
  · rintro task ⟨-, h | ⟨t, ht, hnext⟩⟩
    · rw [htasks] at h
      cases h
    obtain ⟨j, hj⟩ := List.mem_iff_getElem?.mp ht
    by_cases hij : j = i
    · subst hij
      rw [hown t hj] at hnext
      rcases hnext with h | h <;> cases h <;> exact absurd trivial ho
    rw [hdone j t hij hj] at hnext
    rcases hnext with h | h <;> cases h
  · intro j t task e hij hj hnext
    rw [hdone j t hij hj] at hnext
    cases hnext
  · intro j t rule hij hj hmust
    have hnone := hdone j t hij hj
    generalize t.rest = p at hmust hnone
    cases p with
    | ret a => exact hmust.elim
    | op o' k => cases hnone
  · rintro spec e rfl hcode
    exact absurd hcode (of_decide_eq_true hspawns)

lemma backgroundSteps_sound (x : Config) (ev : Event Env Call)
    (h : backgroundSteps x ev) : BackgroundSteps x ev := by
  constructor
  · rintro c rfl
    exact of_decide_eq_true h
  rintro i env o rfl hop
  rw [backgroundSteps, hop, all_some, and_eq_true, or_eq_true] at h
  by_cases ho : o.putsNone
  · exact leavesRestarts_of_putsNone h.1 ho
  refine leavesRestarts_of_alone hop h.1 ho (h.2.resolve_left fun hnone => ho ?_)
  cases o <;> trivial

open Plain

theorem certificates_restart : ∃ (x y : Config) (o : Op) (rule : RuleSpec × Nat),
      (system settings).Reach BackgroundSteps Config.initial x ∧
      nextOp x (.step 1 .calm) = some o ∧ prepared? o = some rule ∧
      (system settings).step (.step 1 .calm) x = some y ∧
      y.state.rules.lookup (loopback 8080) ≠ x.state.rules.lookup (loopback 8080) ∧
      loopback 8080 = rule.1.key ∧
      y.state.specAt (loopback 8080) = x.state.specAt (loopback 8080) ∧
      ∃ f, x.state.rules.lookup (loopback 8080) = some (.failed f) ∧
        f.generation = rule.2 ∧ f.spec = rule.1 := by
  obtain ⟨x, hx, hp⟩ := exists_reach_of_trace
    [.start (.restoreAs [request .tcp 8080] .api), .step 0 .certificateMissing,
      .step 0 .calm, .step 0 .calm, .start .applyCerts, .step 1 .certificatesRenewed,
      .step 1 .calm]
    (fun x : Config => (nextOp x (.step 1 .calm)).any (fun o => (prepared? o).isSome) &&
      ((system settings).step (.step 1 .calm) x).any fun y : Config =>
        decide (y.state.rules.lookup (loopback 8080) ≠ x.state.rules.lookup (loopback 8080)))
    backgroundSteps_sound (by decide +kernel)
  simp only [and_eq_true, Option.any_eq_true, Option.isSome_iff_exists,
    decide_eq_true_eq] at hp
  obtain ⟨⟨o, hop, rule, hrule⟩, y, hy, hne⟩ := hp
  exact ⟨x, y, o, rule, hx, hop, hrule, hy, hne, reach_background hx hop hrule hy hne⟩

/-- `apply_certs` is about to restart a failed rule when a PATCH changes its spec, and the rule
cannot start; the restart finds its generation and starts the old spec. -/
theorem restart_undoes_patch : ∃ (x y : Config) (o : Op) (rule : RuleSpec × Nat) (f : Failed),
      (system settings).Reach SingleCalls Config.initial x ∧
      nextOp x (.step 1 .calm) = some o ∧ prepared? o = some rule ∧
      (system settings).step (.step 1 .calm) x = some y ∧
      x.state.rules.lookup (loopback 8080) = some (.failed f) ∧ f.spec ≠ rule.1 ∧
      y.state.rules.lookup (loopback 8080) ≠ x.state.rules.lookup (loopback 8080) ∧
      y.state.specAt (loopback 8080) = some rule.1 := by
  obtain ⟨x, hx, hp⟩ := exists_reach_of_trace
    [.start (.restoreAs [request .tcp 8080] .api), .step 0 .certificateMissing,
      .step 0 .calm, .step 0 .calm, .start .applyCerts, .step 1 .certificatesRenewed,
      .step 1 .calm, .start (.update (Plain.loopback 8080) Plain.update), .step 2 .calm,
      .step 2 .calm, .step 2 .calm, .step 2 .inUse]
    (fun x : Config => (nextOp x (.step 1 .calm)).any fun o =>
      (prepared? o).any fun rule : RuleSpec × Nat =>
      ((system settings).step (.step 1 .calm) x).any fun y : Config =>
        (x.state.rules.lookup (loopback 8080)).any fun e : Entry =>
          !e.isRunning && decide (e.spec ≠ rule.1) &&
          decide (y.state.rules.lookup (loopback 8080) ≠ x.state.rules.lookup (loopback 8080)) &&
          decide (y.state.specAt (loopback 8080) = some rule.1))
    startsSingle_sound (by decide +kernel)
  simp only [and_eq_true, Option.any_eq_true, decide_eq_true_eq, not_eq_true'] at hp
  obtain ⟨o, hop, rule, hrule, y, hy, e, he, ⟨⟨hfailed, hspec⟩, hne⟩, hafter⟩ := hp
  cases e with
  | running r => cases hfailed
  | failed f => exact ⟨x, y, o, rule, f, hx, hop, hrule, hy, he, hspec, hne, hafter⟩

end Registry
end Rproxy
