import Rproxy.Registry.Calls

/-!
# What a section can do to the rule of a key

`Effect` lists, once for all sections, what can become of the entry of one key, with what was
checked by then; `effect_exec` says that nothing else happens.
-/

namespace Rproxy
open List
section
variable [External]

def Entry.runtime? : Entry → Option Nat
  | running r => some r.generation
  | failed _ => none

def State.Clear (s : State) (key : Key) (spec : RuleSpec) : Prop :=
  ∀ k e, s.rules.lookup k = some e → k ≠ key → overlaps e.spec spec = false

namespace Registry
variable {e : Entry} {k key : Key} {keys : List Key} {generation : Nat} {o : Op} {spec : RuleSpec}
  {s' : State} {name : String}

def released : (o : Op) → Ret o → List Nat
  | .take _, .ok (some e) => e.runtime?.toList
  | .remove _, some e => e.runtime?.toList
  | .removeMember _ _, some e => e.runtime?.toList
  | .dropMembers _ _, l => l.filterMap Entry.runtime?
  | .drain, l => l.filterMap Entry.runtime?
  | .takeMembers _ _, .ok l => l.filterMap Entry.runtime?
  | .scanCerts, scan => scan.stopped
  | _, _ => []

def TakenOut : (o : Op) → Ret o → Key → Prop
  | .take k, .ok (some _), key => k = key
  | .remove k, _, key => k = key
  | .removeMember k _, _, key => k = key
  | .dropMembers _ _, _, _ | .takeMembers _ _, _, _ | .drain, _, _ => True
  | _, _, _ => False

/-- Whether a section of a background task takes the failed entry `f` for its own. -/
def Accepts : Op → Failed → Prop
  | .restartWaiting spec generation _, f => f.generation = generation ∧ f.spec = spec
  | .retryFailed _ _, _ => True
  | .retry task, f => f.generation = task.generation
  | .certFailed _ generation _, f => f.generation = generation
  | .certStart _ generation, f => f.generation = generation
  | _, _ => False

def prepared? : Op → Option (RuleSpec × Nat)
  | .restartWaiting spec generation _ => some (spec, generation)
  | .retryFailed task _ => some (task.spec, task.generation)
  | .retry task => some (task.spec, task.generation)
  | .certFailed spec generation _ => some (spec, generation)
  | .certStart spec generation => some (spec, generation)
  | _ => none

def starts? : Op → Option (RuleSpec × Nat)
  | .restartWaiting spec generation _ => some (spec, generation)
  | .retry task => some (task.spec, task.generation)
  | .certStart spec generation => some (spec, generation)
  | _ => none

open Locked

/-- What a section can do to the entry of `key`. -/
inductive Effect (cfg : Settings) (s : State) (key : Key) :
    (o : Op) → Ret o → Option Entry → Option Entry → Prop where
  | keep {o : Op} {r : Ret o} {e : Option Entry} : Effect cfg s key o r e e
  | removed {o : Op} {r : Ret o} {e : Entry} (hout : TakenOut o r key)
      (h : ∀ g ∈ e.runtime?, g ∈ released o r) : Effect cfg s key o r (some e) none
  | created {spec : RuleSpec} {fixing : Bool} {token : Option String} {r : Except ApiError Unit}
      (hkey : spec.key = key) (hcheck : createCheck cfg s spec fixing token = .ok ()) :
      Effect cfg s key (.create spec fixing token) r none (some (.running ⟨s.nextGeneration, spec⟩))
  | changed {spec : RuleSpec} {run : Running} {r : Except ApiError Unit} (h : s.Clear key spec) :
      Effect cfg s key (.apply key spec) r (some (.running run)) (some (.running { run with spec }))
  /-- `apply` to a failed rule, which starts. -/
  | applied {spec : RuleSpec} {f : Failed} {r : Except ApiError Unit} (h : s.Clear key spec) :
      Effect cfg s key (.apply key spec) r (some (.failed f))
        (some (.running ⟨s.nextGeneration, spec⟩))
  /-- `apply` to a failed rule, which does not start. -/
  | patched {spec : RuleSpec} {f : Failed} {e : ApiError} {r : Except ApiError Unit}
      (h : s.Clear key spec) :
      Effect cfg s key (.apply key spec) r (some (.failed f))
        (some (.failed ({ f with spec, retry := none }.withError e)))
  /-- `insert_failed`, whatever is there. -/
  | failed {generation : Nat} {spec : RuleSpec} {e : ApiError} {retry : Option Nat}
      {old : Option Entry} (hkey : spec.key = key) :
      Effect cfg s key (.insertFailed generation spec e retry) () old
        (some (.failed ⟨generation, spec, e.message, e.code, e.reason, retry⟩))
  | restarted {o : Op} {r : Ret o} {f : Failed} {spec : RuleSpec} {generation : Nat}
      (hp : starts? o = some (spec, generation)) (hkey : spec.key = key) (hf : Accepts o f) :
      Effect cfg s key o r (some (.failed f)) (some (.running ⟨s.nextGeneration, spec⟩))
  | noted {o : Op} {r : Ret o} {f f' : Failed} {spec : RuleSpec} {generation : Nat}
      (hp : prepared? o = some (spec, generation)) (hkey : spec.key = key) (hf : Accepts o f)
      (hgen : f'.generation = f.generation) (hspec : f'.spec = f.spec) :
      Effect cfg s key o r (some (.failed f)) (some (.failed f'))
  /-- `apply_certs` takes a rule out of service. -/
  | expired {scan : CertScan} {run : Running} {f : Failed} (hrun : run.generation ∈ scan.stopped)
      (hspec : f.spec = run.spec) (hgen : s.nextGeneration ≤ f.generation)
      (hretry : f.retry = none) :
      Effect cfg s key .scanCerts scan (some (.running run)) (some (.failed f))
  /-- `supervise` marks a rule failed. -/
  | supervised {run : Running} {error : String} :
      Effect cfg s key (.supervise key run.generation error) () (some (.running run))
        (some (.failed ⟨run.generation, run.spec, error, .failed, none, none⟩))
  /-- `drain_in_place` of a failed rule. -/
  | quieted {f : Failed} :
      Effect cfg s key .drainInPlace () (some (.failed f)) (some (.failed { f with retry := none }))

variable {cfg : Settings} {env : Env} {s : State}

def Affects (cfg : Settings) (s : State) (key : Key) (o : Op) (p : State × Ret o) : Prop :=
  Effect cfg s key o p.2 (s.rules.lookup key) (p.1.rules.lookup key)

variable {r : Ret o}

lemma Effect.insert (h : Effect cfg s key o r (s.rules.lookup key) (some e)) :
    Effect cfg s k o r (s.rules.lookup k) ((s.rules.insert key e).lookup k) := by
  rw [Table.lookup_insert_eq]
  split
  next hk =>
    subst hk
    exact h
  · exact .keep

lemma clear_of_find?_eq_none
    (h : (s.rules.find? fun k e => k != key && overlaps e.spec spec) = none) :
    s.Clear key spec := by
  intro k e he hk
  have := Table.find?_eq_none.mp h k e he
  simpa [hk] using this

open Effect

lemma effect_create {fixing : Bool} {token : Option String} :
    Affects cfg s key (.create spec fixing token) (create cfg env s spec fixing token) := by
  unfold create
  split
  · exact .keep
  rename_i hcheck
  split
  · exact .keep
  have hnone : s.rules.lookup spec.key = none := by
    rw [AList.lookup_eq_none]
    intro hmem
    rw [createCheck, if_pos hmem] at hcheck
    cases hcheck
  have hrules : ∀ t : State,
      (if fixing then t.forgetInvalid spec.key else t).rules = t.rules := by
    intro t
    split <;> rfl
  simp only [Affects, hrules]
  refine insert ?_
  rw [hnone]
  exact .created rfl hcheck

lemma effect_apply : Affects cfg s k (.apply key spec) (Locked.apply env s key spec) := by
  unfold Locked.apply
  split
  · exact .keep
  rename_i hfind
  have hclear := clear_of_find?_eq_none hfind
  split
  · exact .keep
  split
  · exact .keep
  next run hrun =>
    split
    · exact .keep
    refine insert ?_
    rw [hrun]
    exact .changed hclear
  rename_i f hf
  split
  · refine insert (e := .running ⟨s.nextGeneration, spec⟩) ?_
    rw [hf]
    exact .applied hclear
  refine insert ?_
  rw [hf]
  exact .patched hclear

lemma Effect.erase (hout : TakenOut o r key)
    (h : ∀ e, s.rules.lookup key = some e → ∀ g ∈ e.runtime?, g ∈ released o r) :
    Effect cfg s k o r (s.rules.lookup k) ((s.rules.erase key).lookup k) := by
  rw [Table.lookup_erase_eq]
  split
  next hk =>
    subst hk
    rcases he : s.rules.lookup k with _ | e
    · exact .keep
    · exact .removed hout (h e he)
  · exact .keep

lemma Effect.eraseAll (hout : ∀ key, TakenOut o r key)
    (h : ∀ key ∈ keys, ∀ e, s.rules.lookup key = some e → ∀ g ∈ e.runtime?, g ∈ released o r) :
    Effect cfg s k o r (s.rules.lookup k) ((s.rules.eraseAll keys).lookup k) := by
  rw [Table.lookup_eraseAll]
  split
  next hk =>
    rcases he : s.rules.lookup k with _ | e
    · exact .keep
    · exact .removed (hout k) (h k hk e he)
  · exact .keep

lemma effect_take : Affects cfg s k (.take key) (Locked.take s key) := by
  unfold Locked.take
  split
  · split <;> exact .keep
  rename_i e he
  split
  · exact .keep
  split
  · exact .keep
  refine erase rfl fun e' he' g hg => ?_
  rw [he] at he'
  cases he'
  exact Option.mem_toList.mpr hg

lemma effect_remove : Affects cfg s k (.remove key) (remove s key) := by
  refine erase rfl fun e he g hg => ?_
  rw [remove, he]
  exact Option.mem_toList.mpr hg

lemma effect_removeMember {set : Option String} :
    Affects cfg s k (.removeMember key set) (removeMember s key set) := by
  unfold removeMember
  split
  next e he =>
    split
    · refine erase rfl fun e' he' g hg => ?_
      rw [remove, he']
      exact Option.mem_toList.mpr hg
    · exact .keep
  · exact .keep

lemma mem_membersAt : (key, e) ∈ membersAt s name keys ↔
      key ∈ keys ∧ s.rules.lookup key = some e ∧ e.spec.ruleset = some name := by
  simp only [membersAt, mem_filterMap]
  constructor
  · rintro ⟨k, hk, h⟩
    split at h
    next e' he' =>
      split at h
      next hset =>
        cases h
        exact ⟨hk, he', hset⟩
      · cases h
    · cases h
  · rintro ⟨hk, he, hset⟩
    exact ⟨key, hk, by rw [he]; exact if_pos hset⟩

lemma effect_dropMembers :
    Affects cfg s k (.dropMembers name keys) (dropMembers s name keys) := by
  refine eraseAll (fun _ => trivial) fun key hkey e he g hg => ?_
  obtain ⟨⟨key', e'⟩, hmem, rfl⟩ := mem_map.mp hkey
  have hlookup := (mem_membersAt.mp hmem).2.1
  rw [he] at hlookup
  cases hlookup
  exact mem_filterMap.mpr ⟨e, mem_map.mpr ⟨_, hmem, rfl⟩, hg⟩

lemma effect_takeMembers {mayUsePorts : UInt16 → UInt16 → Bool} :
    Affects cfg s k (.takeMembers name mayUsePorts) (takeMembers s name mayUsePorts) := by
  simp only [takeMembers]
  split
  · exact .keep
  refine eraseAll (fun _ => trivial) fun key hkey e he g hg => ?_
  obtain ⟨⟨key', e'⟩, hmem, rfl⟩ := mem_map.mp hkey
  have hlookup := Table.mem_pairs.mp (mem_of_mem_filter hmem)
  rw [he] at hlookup
  cases hlookup
  exact mem_filterMap.mpr ⟨e, mem_map.mpr ⟨_, hmem, rfl⟩, hg⟩

lemma effect_drain : Affects cfg s k .drain (drain s) := by
  unfold Affects
  rcases he : s.rules.lookup k with _ | e
  · exact .keep
  refine .removed trivial fun g hg => ?_
  exact mem_filterMap.mpr ⟨e, mem_map.mpr ⟨_, Table.mem_pairs.mpr he, rfl⟩, hg⟩

lemma effect_drainInPlace : Effect cfg s k .drainInPlace () (s.rules.lookup k)
      ((drainInPlace s).rules.lookup k) := by
  -- over the list of entries: each is quieted at most once, from what it was in `s`
  have hfold : ∀ (l : List (Key × Entry)) (t : State),
      (∀ e ∈ l, s.rules.lookup e.1 = some e.2) →
      Effect cfg s k .drainInPlace () (s.rules.lookup k) (t.rules.lookup k) →
      Effect cfg s k .drainInPlace () (s.rules.lookup k)
        ((l.foldl drainOne t).rules.lookup k) := by
    intro l
    induction l with
    | nil => exact fun t _ ht => ht
    | cons e l ih =>
      intro t hl ht
      refine ih _ (fun e' he' => hl e' (mem_cons_of_mem _ he')) ?_
      have he := hl e mem_cons_self
      obtain ⟨key, run | f⟩ := e
      · exact ht
      simp only [drainOne, State.putFailed, State.abort, Table.lookup_insert_eq]
      split
      next hk =>
        subst hk
        rw [he]
        exact .quieted
      · exact ht
  exact hfold _ s (fun e he => Table.mem_pairs.mp he) .keep

lemma Effect.accepted {f : Failed} (hf : s.rules.lookup key = some (.failed f))
    (h : Effect cfg s key o r (some (.failed f)) (some e)) :
    Effect cfg s k o r (s.rules.lookup k) ((s.rules.insert key e).lookup k) :=
  insert (hf ▸ h)

lemma effect_restartWaiting {prepared : Except ApiError Unit} :
    Affects cfg s k (.restartWaiting spec generation prepared)
      (restartWaiting env s spec generation prepared) := by
  unfold restartWaiting
  split
  next f hf =>
    split
    next hsame =>
      split
      · exact accepted hf (.restarted rfl rfl hsame)
      split <;> exact accepted hf (.noted rfl rfl hsame rfl rfl)
    · exact .keep
  · exact .keep

variable {task : RetryTask}

lemma effect_retryFailed {e : ApiError} :
    Effect cfg s k (.retryFailed task e) () (s.rules.lookup k)
      ((retryFailed s task.spec.key e).rules.lookup k) := by
  unfold retryFailed
  split
  next f hf => exact accepted hf (.noted rfl rfl trivial rfl rfl)
  · exact .keep

lemma effect_retry : Effect cfg s k (.retry task) () (s.rules.lookup k)
      ((retry env s task.spec task.generation).rules.lookup k) := by
  unfold retry
  split
  next f hf =>
    split
    next hgen =>
      split
      · exact accepted hf (.restarted rfl rfl hgen)
      · exact accepted hf (.noted rfl rfl hgen rfl rfl)
    · exact .keep
  · exact .keep

lemma effect_certFailed {e : ApiError} :
    Effect cfg s k (.certFailed spec generation e) () (s.rules.lookup k)
      ((certFailed s spec generation e).rules.lookup k) := by
  unfold certFailed
  split
  next f hf =>
    split
    next hgen => exact accepted hf (.noted rfl rfl hgen rfl rfl)
    · exact .keep
  · exact .keep

lemma effect_certStart :
    Affects cfg s k (.certStart spec generation) (certStart env s spec generation) := by
  unfold certStart
  split
  next f hf =>
    split
    next hgen =>
      split
      · exact accepted hf (.restarted rfl rfl hgen)
      · exact accepted hf (.noted rfl rfl hgen rfl rfl)
    · exact .keep
  · exact .keep

lemma effect_supervise {error : String} :
    Effect cfg s k (.supervise key generation error) () (s.rules.lookup k)
      ((Locked.supervise s key generation error).rules.lookup k) := by
  unfold Locked.supervise
  split
  next run hrun =>
    split
    next hgen =>
      subst hgen
      refine insert ?_
      rw [hrun]
      exact .supervised
    · exact .keep
  · exact .keep

lemma Effect.scan_mono {scan scan' : CertScan} {e e' : Option Entry}
    (h : Effect cfg s k .scanCerts scan e e') (hsub : scan.stopped ⊆ scan'.stopped) :
    Effect cfg s k .scanCerts scan' e e' := by
  cases h with
  | keep => exact .keep
  | removed hout => exact hout.elim
  | restarted hp | noted hp => cases hp
  | expired hrun hspec hgen hretry => exact .expired (hsub hrun) hspec hgen hretry

lemma effect_scanCert {acc : State × CertScan} (hgen : s.nextGeneration ≤ acc.1.nextGeneration)
    (h : ∀ k, Effect cfg s k .scanCerts acc.2 (s.rules.lookup k) (acc.1.rules.lookup k)) :
    s.nextGeneration ≤ (scanCert env acc key).1.nextGeneration ∧
    ∀ k, Affects cfg s k .scanCerts (scanCert env acc key) := by
  obtain ⟨t, scan⟩ := acc
  rcases hlookup : t.rules.lookup key with _ | run | f
  · simp only [scanCert, hlookup]
    exact ⟨hgen, h⟩
  · rcases hcert : env.certs key with _ | _ | _ | error
    · simp only [scanCert, hlookup, hcert]
      exact ⟨hgen, h⟩
    · simp only [scanCert, hlookup, hcert]
      exact ⟨hgen, fun k => (h k).scan_mono (List.Subset.refl _)⟩
    · simp only [scanCert, hlookup, hcert]
      exact ⟨hgen, fun k => (h k).scan_mono (List.Subset.refl _)⟩
    simp only [scanCert, hlookup, hcert, State.putFailed, Affects, Table.lookup_insert_eq]
    refine ⟨Nat.le_succ_of_le hgen, fun k => ?_⟩
    split
    next hk =>
      subst hk
      -- a running rule of the scan so far is as it was
      have hk := h k
      rw [hlookup] at hk
      generalize hbefore : s.rules.lookup k = before at hk ⊢
      cases hk with
      | keep => exact .expired (by simp) rfl hgen rfl
      | restarted hp => cases hp
    · exact (h k).scan_mono (subset_append_left _ _)
  by_cases hrenewed : (waitsForCertificate f.error && env.renewed key)
  · simp only [scanCert, hlookup, if_pos hrenewed]
    exact ⟨hgen, fun k => (h k).scan_mono (List.Subset.refl _)⟩
  simp only [scanCert, hlookup, if_neg hrenewed]
  exact ⟨hgen, h⟩

lemma effect_scanCerts : Affects cfg s k .scanCerts (scanCerts env s) := by
  have hfold : ∀ (l : List Key) (acc : State × CertScan),
      s.nextGeneration ≤ acc.1.nextGeneration →
      (∀ k, Effect cfg s k .scanCerts acc.2 (s.rules.lookup k) (acc.1.rules.lookup k)) →
      ∀ k, Affects cfg s k .scanCerts (l.foldl (scanCert env) acc) := by
    intro l
    induction l with
    | nil => exact fun acc _ h => h
    | cons key l ih =>
      intro acc hgen h
      obtain ⟨hgen', h'⟩ := effect_scanCert hgen h
      exact ih _ hgen' h'
  exact hfold _ (s, ⟨0, 0, [], []⟩) le_rfl (fun _ => .keep) k

lemma effect_exec (cfg : Settings) (o : Op) (env : Env) (s : State) (k : Key) :
    Effect cfg s k o (exec cfg o env s).2 (s.rules.lookup k)
      ((exec cfg o env s).1.rules.lookup k) := by
  cases o with
  | create => exact effect_create
  | apply => exact effect_apply
  | take => exact effect_take
  | remove => exact effect_remove
  | removeMember => exact effect_removeMember
  | dropMembers => exact effect_dropMembers
  | takeMembers => exact effect_takeMembers
  | drain => exact effect_drain
  | drainInPlace => exact effect_drainInPlace
  | restartWaiting => exact effect_restartWaiting
  | scanCerts => exact effect_scanCerts
  | certFailed => exact effect_certFailed
  | certStart => exact effect_certStart
  | supervise => exact effect_supervise
  | insertFailed => exact insert (.failed rfl)
  | retryFailed =>
    simp only [exec]
    split
    · exact .keep
    · exact effect_retryFailed
  | retry =>
    simp only [exec]
    split
    · exact .keep
    · exact effect_retry
  | register =>
    simp only [exec, register]
    split <;> exact .keep
  | noteInvalid =>
    simp only [exec]
    split <;> exact .keep
  | putSet _ state => cases state <;> exact .keep
  | prepare | prepareRetry | buildParts | specOf | invalidOf | forgetInvalid | removeOwner | stop
  | kill | abort | waiting | sleepAgain | staticRules | snapshot | invalidKeys | outcome | setOf
  | sets | ownedBy => exact .keep

/-! ## The runtimes -/

lemma scanCerts_eq (env : Env) (s : State) : (scanCerts env s).1 = { s with
      rules := (scanCerts env s).1.rules
      nextGeneration := (scanCerts env s).1.nextGeneration } := by
  refine List.foldlRecOn
    (motive := fun acc : State × CertScan => acc.1 = { s with
      rules := acc.1.rules, nextGeneration := acc.1.nextGeneration }) _ _ rfl
    fun acc hacc key _ => ?_
  rw [scanCert]
  repeat' split
  all_goals first | exact hacc | (dsimp only; rw [hacc]; rfl)

lemma drainInPlace_eq (s : State) : drainInPlace s = { s with
      rules := (drainInPlace s).rules
      aborted := (drainInPlace s).aborted
      stopped := (drainInPlace s).stopped } := by
  refine List.foldlRecOn
    (motive := fun t : State => t = { s with
      rules := t.rules, aborted := t.aborted, stopped := t.stopped }) _ _ rfl fun t ht e _ => ?_
  obtain ⟨key, run | f⟩ := e
  · rw [drainOne, ht]
  rw [ht]
  rfl

def Serves (s : State) (generation : Nat) : Prop :=
  ∃ k r, s.rules.lookup k = some (.running r) ∧ r.generation = generation

structure Grows (s s' : State) : Prop where
  runtimes : ∀ n ∈ s'.runtimes, n ∈ s.runtimes ∨ Serves s' n
  killed : s.killed ⊆ s'.killed

variable {s : State}

lemma Grows.of_eq (hr : s'.runtimes = s.runtimes) (hk : s'.killed = s.killed) : Grows s s' :=
  ⟨fun _ hn => .inl (hr ▸ hn), hk ▸ List.Subset.refl _⟩

lemma Grows.of_putRunning {t : State} (hr : t.runtimes = s.runtimes) (hk : s'.killed = s.killed)
    (hrules : s'.rules = (t.putRunning key spec).rules)
    (hruns : s'.runtimes = (t.putRunning key spec).runtimes) : Grows s s' := by
  refine ⟨fun n hn => ?_, hk ▸ List.Subset.refl _⟩
  rw [hruns] at hn
  rcases mem_cons.mp hn with rfl | hn
  · refine .inr ⟨key, ⟨t.nextGeneration, spec⟩, ?_, rfl⟩
    rw [hrules]
    exact AList.lookup_insert _
  · exact .inl (hr ▸ hn)

lemma grows_exec (cfg : Settings) (o : Op) (env : Env) (s : State) :
    Grows s (exec cfg o env s).1 := by
  cases o with
  | create spec fixing token =>
    simp only [exec, Locked.create]
    repeat' split
    all_goals cases fixing
    all_goals first
      | exact .of_eq rfl rfl
      | exact .of_putRunning rfl rfl rfl rfl
  | scanCerts =>
    rw [exec, scanCerts_eq]
    exact .of_eq rfl rfl
  | drainInPlace =>
    rw [exec, drainInPlace_eq]
    exact .of_eq rfl rfl
  | kill n => exact ⟨fun _ hn => .inl hn, subset_cons_self _ _⟩
  | putSet name state => cases state <;> exact .of_eq rfl rfl
  | apply | restartWaiting | retry | certStart | take | removeMember | takeMembers | register
  | noteInvalid | retryFailed | certFailed | supervise =>
    simp only [exec, Locked.apply, Locked.restartWaiting, Locked.retry, Locked.certStart,
      Locked.take, Locked.removeMember, Locked.takeMembers, Locked.register, Locked.retryFailed,
      Locked.certFailed, Locked.supervise]
    repeat' split
    all_goals first
      | exact .of_eq rfl rfl
      | exact .of_putRunning rfl rfl rfl rfl
  | prepare | prepareRetry | buildParts | specOf | invalidOf | forgetInvalid | removeOwner | stop
  | abort | waiting | sleepAgain | staticRules | snapshot | invalidKeys | outcome | setOf | sets
  | ownedBy | insertFailed | remove | dropMembers | drain => exact .of_eq rfl rfl

def Op.keepsSets : Op → Prop
  | .putSet _ _ => False
  | _ => True

def Op.keepsInvalid : Op → Prop
  | .create _ fixing _ => fixing = false
  | .insertFailed _ _ _ _ | .noteInvalid _ _ | .forgetInvalid _ | .take _ => False
  | _ => True

def Op.keepsOwners : Op → Prop
  | .create _ _ _ | .take _ | .removeOwner _ => False
  | _ => True

structure Frame (o : Op) (s s' : State) : Prop where
  sets : o.keepsSets → s'.sets = s.sets
  invalid : o.keepsInvalid → s'.invalid = s.invalid
  owners : o.keepsOwners → s'.owners = s.owners

lemma Frame.of_eq (hsets : s'.sets = s.sets) (hinvalid : s'.invalid = s.invalid)
    (howners : s'.owners = s.owners) : Frame o s s' :=
  ⟨fun _ => hsets, fun _ => hinvalid, fun _ => howners⟩

lemma frame_exec (cfg : Settings) (o : Op) (env : Env) (s : State) :
    Frame o s (exec cfg o env s).1 := by
  cases o with
  | create spec fixing token =>
    simp only [exec, Locked.create]
    split
    · exact .of_eq rfl rfl rfl
    split
    · exact .of_eq rfl rfl rfl
    cases fixing
    · exact ⟨fun _ => rfl, fun _ => rfl, fun h => h.elim⟩
    · exact ⟨fun _ => rfl, fun h => (nomatch h), fun h => h.elim⟩
  | insertFailed => exact ⟨fun _ => rfl, fun h => h.elim, fun _ => rfl⟩
  | noteInvalid =>
    simp only [exec]
    split
    · exact .of_eq rfl rfl rfl
    · exact ⟨fun _ => rfl, fun h => h.elim, fun _ => rfl⟩
  | forgetInvalid => exact ⟨fun _ => rfl, fun h => h.elim, fun _ => rfl⟩
  | take =>
    simp only [exec, Locked.take]
    repeat' split
    all_goals exact ⟨fun _ => rfl, fun h => h.elim, fun h => h.elim⟩
  | removeOwner => exact ⟨fun _ => rfl, fun _ => rfl, fun h => h.elim⟩
  | putSet _ state =>
    cases state <;> exact ⟨fun h => h.elim, fun _ => rfl, fun _ => rfl⟩
  | scanCerts =>
    rw [exec, scanCerts_eq]
    exact .of_eq rfl rfl rfl
  | drainInPlace =>
    rw [exec, drainInPlace_eq]
    exact .of_eq rfl rfl rfl
  | apply | restartWaiting | retry | certStart | removeMember | takeMembers | register
  | retryFailed | certFailed | supervise =>
    simp only [exec, Locked.apply, Locked.restartWaiting, Locked.retry, Locked.certStart,
      Locked.removeMember, Locked.takeMembers, Locked.register, Locked.retryFailed,
      Locked.certFailed, Locked.supervise]
    repeat' split
    all_goals exact .of_eq rfl rfl rfl
  | prepare | prepareRetry | buildParts | specOf | invalidOf | stop | kill | abort | waiting
  | sleepAgain | staticRules | snapshot | invalidKeys | outcome | setOf | sets | ownedBy | remove
  | dropMembers | drain => exact .of_eq rfl rfl rfl

end Registry
end
end Rproxy
