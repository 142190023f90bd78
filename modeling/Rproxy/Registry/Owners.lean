import Rproxy.Registry.Installing
import Rproxy.Registry.Plain

/-!
# Who made a rule

`owners` says which token made the rule of a key.
-/

namespace Rproxy.Registry
open AList List Bool Config Locked
section
variable [External]
open Prog (All)
variable {cfg : Settings} {env : Env} {s : State} {o : Op} {k : Key}
variable {c : Call} {x : Config} {t : String} {α : Type}

/-! ## What a section does to the owners -/

def ownersWith (s : State) (key : Key) (fixing : Bool) : Option String → Table Key String
  | some t => s.owners.insert key t
  | none => if fixing then s.owners else s.owners.erase key

lemma create_cases (cfg : Settings) (env : Env) (s : State) (spec : RuleSpec) (fixing : Bool)
    (token : Option String) :
    (create cfg env s spec fixing token).1 = s ∨
      spec.key ∉ s.rules ∧ spec.key ∈ (create cfg env s spec fixing token).1.rules ∧
        (create cfg env s spec fixing token).1.owners
          = ownersWith s spec.key fixing token := by
  unfold create
  cases hcheck : createCheck cfg s spec fixing token with
  | error e => exact .inl rfl
  | ok u =>
    have hkey : spec.key ∉ s.rules := by
      intro hmem
      simp [createCheck, hmem] at hcheck
    cases env.start with
    | some f => exact .inl rfl
    | none =>
      refine .inr ⟨hkey, ?_, ?_⟩
      · cases fixing <;> simp [State.putRunning, State.forgetInvalid, mem_insert]
      · cases fixing <;> cases token <;> rfl

lemma take_cases (s : State) (key : Key) :
    (∃ e, (Locked.take s key).2 = .ok (some e) ∧ (Locked.take s key).1.owners = s.owners ∧
        (Locked.take s key).1.invalid = s.invalid ∧ key ∉ (Locked.take s key).1.rules) ∨
      key ∉ s.rules ∧ (Locked.take s key).2 = .ok none ∧
        (Locked.take s key).1 = { s.forgetInvalid key with owners := s.owners.erase key } ∨
      ∃ e, Locked.take s key = (s, .error e) := by
  unfold Locked.take
  cases hold : s.rules.lookup key with
  | none =>
    dsimp only
    split
    · exact .inr (.inl ⟨lookup_eq_none.mp hold, rfl, rfl⟩)
    · exact .inr (.inr ⟨_, rfl⟩)
  | some e =>
    dsimp only
    split
    · exact .inr (.inr ⟨_, rfl⟩)
    split
    · exact .inr (.inr ⟨_, rfl⟩)
    · exact .inl ⟨e, rfl, rfl, rfl, fun h => (mem_erase.mp h).1 rfl⟩

lemma mem_rules_or_takenOut (cfg : Settings) (o : Op) (env : Env) (hk : k ∈ s.rules) :
    k ∈ (exec cfg o env s).1.rules ∨ TakenOut o (exec cfg o env s).2 k := by
  obtain ⟨e, he⟩ := mem_rules_iff.mp hk
  have heff := effect_exec cfg o env s k
  rw [he] at heff
  generalize hbefore : some e = before at heff
  cases hafter : (exec cfg o env s).1.rules.lookup k with
  | some e' => exact .inl (mem_rules_iff.mpr ⟨e', hafter⟩)
  | none =>
    rw [hafter] at heff
    generalize hnone : (none : Option Entry) = after at heff
    cases heff with
    | keep =>
      rw [← hnone] at hbefore
      cases hbefore
    | removed hout => exact .inr hout
    | _ => cases hnone

lemma mem_owners_exec (cfg : Settings) (o : Op) (env : Env)
    (hk : k ∈ (exec cfg o env s).1.owners) : k ∈ s.owners ∨ k ∈ (exec cfg o env s).1.rules := by
  by_cases ho : o.keepsOwners
  · rw [(frame_exec cfg o env s).owners ho] at hk
    exact .inl hk
  cases o with
  | create spec fixing token =>
    rcases create_cases cfg env s spec fixing token with hsame | ⟨-, hin, howners⟩
    · exact .inl (by rwa [exec, hsame] at hk)
    rw [exec, howners] at hk
    by_cases hkey : k = spec.key
    · subst hkey
      exact .inr hin
    cases token <;> cases fixing <;> simpa [ownersWith, mem_insert, mem_erase, hkey] using Or.inl hk
  | take key =>
    rcases take_cases s key with ⟨e, -, howners, -⟩ | ⟨-, -, hs'⟩ | ⟨e, hs'⟩
    · exact .inl (by rwa [exec, howners] at hk)
    · rw [exec, hs'] at hk
      exact .inl (mem_erase.mp hk).2
    · exact .inl (by rwa [exec, hs'] at hk)
  | removeOwner key => exact .inl (mem_erase.mp hk).2
  | _ => exact absurd trivial ho

lemma lookup_owners_exec (cfg : Settings) (env : Env) (hk : k ∈ s.rules)
    (ho : o ≠ .removeOwner k) :
    (exec cfg o env s).1.owners.lookup k = s.owners.lookup k := by
  by_cases hkeeps : o.keepsOwners
  · rw [(frame_exec cfg o env s).owners hkeeps]
  cases o with
  | create spec fixing token =>
    rcases create_cases cfg env s spec fixing token with hsame | ⟨hkey, -, howners⟩
    · rw [exec, hsame]
    have hne : k ≠ spec.key := fun h => hkey (h ▸ hk)
    rw [exec, howners]
    cases token with
    | some t => exact lookup_insert_ne hne
    | none =>
      cases fixing with
      | true => rfl
      | false => exact lookup_erase_ne hne
  | take key =>
    rcases take_cases s key with ⟨e, -, howners, -⟩ | ⟨hkey, -, hs'⟩ | ⟨e, hs'⟩
    · rw [exec, howners]
    · rw [exec, hs']
      exact lookup_erase_ne fun h => hkey (h ▸ hk)
    · rw [exec, hs']
  | removeOwner key => exact lookup_erase_ne fun h => ho (h ▸ rfl)
  | _ => exact absurd trivial hkeeps

lemma mem_invalid_exec (cfg : Settings) (o : Op) (env : Env) (hk : k ∈ s.invalid) :
    k ∈ (exec cfg o env s).1.invalid ∨ k ∈ (exec cfg o env s).1.rules ∨
      k ∉ (exec cfg o env s).1.owners ∨ o = .forgetInvalid k := by
  by_cases hkeeps : o.keepsInvalid
  · rw [(frame_exec cfg o env s).invalid hkeeps]
    exact .inl hk
  cases o with
  | create spec fixing token =>
    by_cases hkey : k = spec.key
    · subst hkey
      rcases create_cases cfg env s spec fixing token with hsame | ⟨-, hin, -⟩
      · exact .inl (by rwa [exec, hsame])
      · exact .inr (.inl hin)
    · exact .inl (((local_exec (o := .create spec fixing token) rfl).invalid k hkey).mpr hk)
  | insertFailed generation spec e retry =>
    by_cases hkey : k = spec.key
    · subst hkey
      exact .inr (.inl (by simp [exec, Locked.insertFailed, State.putFailed, mem_insert]))
    exact .inl (((local_exec (o := .insertFailed generation spec e retry) rfl).invalid k
      hkey).mpr hk)
  | noteInvalid key invalid =>
    refine .inl ?_
    simp only [exec]
    split
    · exact hk
    · exact (mem_insert _).mpr (.inr hk)
  | forgetInvalid key =>
    by_cases hkey : k = key
    · exact .inr (.inr (.inr (hkey ▸ rfl)))
    · exact .inl (mem_erase.mpr ⟨hkey, hk⟩)
  | take key =>
    rcases take_cases s key with ⟨e, -, -, hinvalid, -⟩ | ⟨-, -, hs'⟩ | ⟨e, hs'⟩
    · exact .inl (by rwa [exec, hinvalid])
    · rw [exec, hs']
      by_cases hkey : k = key
      · subst hkey
        exact .inr (.inr (.inl fun h => (mem_erase.mp h).1 rfl))
      · exact .inl (mem_erase.mpr ⟨hkey, hk⟩)
    · exact .inl (by rwa [exec, hs'])
  | _ => exact absurd trivial hkeeps

/-! ## The key whose owner a thread is about to remove -/

namespace Pending

def ok : Op → Option Key → Prop
  | .removeOwner k, g => g = some k
  | .remove _, _ | .removeMember _ _, _ | .dropMembers _ _, _ | .takeMembers _ _, _ | .drain, _ =>
    False
  | _, g => g = none

def upd : (o : Op) → Ret o → Option Key → Option Key
  | .take k, .ok (some _), _ => some k
  | .forgetInvalid k, true, _ => some k
  | _, _, _ => none

end Pending

def Op.keepsKeys : Op → Prop
  | .take _ | .forgetInvalid _ | .removeOwner _ | .remove _ | .removeMember _ _ | .dropMembers _ _
  | .takeMembers _ _ | .drain => False
  | _ => True

open Pending

def LeavesNone {α : Type} (p : Program α) : Prop :=
  p.Safe ok upd none fun _ g => g = none

variable {p : Program α}

lemma leavesNone_of_all (hp : p.All Op.keepsKeys) : LeavesNone p := by
  refine Prog.Safe.of_all (hp.mono fun o ho => ?_) fun _ => rfl
  cases o <;> first | exact ⟨rfl, fun _ => rfl⟩ | exact ho.elim

lemma LeavesNone.bind {β : Type} {f : α → Program β} (hp : LeavesNone p)
    (hf : ∀ a, LeavesNone (f a)) : LeavesNone (p >>= f) := by
  refine Prog.Safe.bind hp fun a g hg => ?_
  rw [hg]
  exact hf a

lemma Op.keepsKeys_of_ordinary (h : o.ordinary) : o.keepsKeys := by
  cases o <;> trivial

lemma leavesNone_of_ordinary (hp : p.All Op.ordinary) : LeavesNone p :=
  leavesNone_of_all (hp.mono fun _ => Op.keepsKeys_of_ordinary)

lemma Op.keepsKeys_of_restarts (h : o.restarts) : o.keepsKeys := by
  cases o <;> trivial

lemma leavesNone_of_restarts (hp : p.All Op.restarts) : LeavesNone p :=
  leavesNone_of_all (hp.mono fun _ => Op.keepsKeys_of_restarts)

lemma leavesNone_of_creating (hp : p.All Op.creating) : LeavesNone p :=
  leavesNone_of_ordinary (hp.mono fun _ => Op.ordinary_of_creating)

lemma keepsKeys_stopAccepting (e : Entry) : (stopAccepting e).All Op.keepsKeys := by
  cases e with
  | running r => exact ⟨trivial, fun _ => trivial⟩
  | failed f => trivial

lemma keepsKeys_stopEntry (e : Entry) : (stopEntry e).All Op.keepsKeys :=
  all_stopEntry (fun _ => trivial) (fun _ => trivial) (fun _ => trivial) e

lemma leavesNone_take (key : Key) : LeavesNone (take key) := by
  refine ⟨rfl, fun r => ?_⟩
  rcases r with e | _ | entry
  · exact rfl
  · exact rfl
  -- the owner goes next
  refine ⟨rfl, fun _ => ?_⟩
  exact (leavesNone_of_all (keepsKeys_stopAccepting entry)).bind fun _ => rfl

lemma leavesNone_delete (key : Key) : LeavesNone (delete key) := by
  refine (leavesNone_take key).bind fun r => ?_
  rcases r with e | _ | entry
  · exact rfl
  · exact rfl
  · exact (leavesNone_of_all (keepsKeys_stopEntry entry)).bind fun _ => rfl

lemma leavesNone_dropInvalid (key : Key) : LeavesNone (dropInvalid key) := by
  refine ⟨rfl, fun gone => ?_⟩
  cases gone with
  | false => exact rfl
  | true => exact ⟨rfl, fun _ => rfl⟩

lemma keepsKeys_applyCerts : applyCerts.All Op.keepsKeys :=
  all_applyCerts trivial (fun _ => trivial) (fun _ => trivial) fun _ => Op.keepsKeys_of_restarts

lemma leavesNone_program (hc : c.single) : LeavesNone (program cfg c) := by
  cases c with
  | createAs req origin =>
    exact (leavesNone_of_creating (all_createAs req origin)).bind fun _ => rfl
  | createBy req origin token =>
    exact (leavesNone_of_creating (all_createBy req origin token)).bind fun _ => rfl
  | update key u => exact (leavesNone_of_ordinary (all_update key u)).bind fun _ => rfl
  | delete key => exact (leavesNone_delete key).bind fun _ => rfl
  | dropInvalid key => exact (leavesNone_dropInvalid key).bind fun _ => rfl
  | restoreAs reqs origin => exact leavesNone_of_creating (all_restoreAs reqs origin)
  | loadStatic reqs => exact (leavesNone_of_creating (all_loadStatic reqs)).bind fun _ => rfl
  | retryStart task => exact leavesNone_of_restarts (all_retryStart task)
  | retryWaitingFor reason =>
    exact (leavesNone_of_restarts (all_retryWaitingFor reason)).bind fun _ => rfl
  | applyCerts => exact (leavesNone_of_all keepsKeys_applyCerts).bind fun _ => rfl
  | supervise key generation error =>
    exact leavesNone_of_all ⟨trivial, fun _ => ⟨trivial, fun _ => trivial⟩⟩
  | drainInPlace => exact leavesNone_of_all ⟨trivial, fun _ => trivial⟩
  | _ => exact hc.elim

/-! ## Who made the rule of a key -/

/-- Which token made the rule of each key: the one whose `create` section put it in, as long as the
key is in the table. -/
def madeBy (x : Config) (ev : Event Env Call) (y : Config) (made : Key → Option String) (k : Key) :
    Option String :=
  if k ∈ y.state.rules then
    match nextOp x ev with
    | some (.create spec _ token) => if spec.key = k ∧ k ∉ x.state.rules then token else made k
    | _ => made k
  else none

variable {made : Key → Option String}

lemma madeBy_cases {y : Config} {ev : Event Env Call} (h : madeBy x ev y made k = some t) :
    k ∈ y.state.rules ∧ (made k = some t ∨ k ∉ x.state.rules ∧
      ∃ spec fixing, nextOp x ev = some (.create spec fixing (some t)) ∧ spec.key = k) := by
  unfold madeBy at h
  split at h
  next hk =>
    refine ⟨hk, ?_⟩
    split at h
    next spec fixing token hop =>
      split at h
      next hnew => exact .inr ⟨hnew.2, spec, fixing, h ▸ hop, hnew.1⟩
      · exact .inl h
    · exact .inl h
  · cases h

/-- A token's rule is not created while the owner of its key is about to be removed, and rules are
taken out through `take`. -/
def OwnerSteps (x : Config) (ev : Event Env Call) : Prop :=
  SingleCalls x ev ∧
    ∀ spec fixing token, nextOp x ev = some (.create spec fixing (some token)) →
      ∀ t ∈ x.threads, t.rest.next? ≠ some (.removeOwner spec.key)

/-- The owners are those of rules, of rules that did not validate, or about to be removed; and the
rules that a token made are its. -/
structure OwnersMatch (s : State) (made : Key → Option String) (gs : List (Option Key)) : Prop where
  apart : s.InvalidApart
  keys : ∀ k ∈ s.owners, k ∈ s.rules ∨ k ∈ s.invalid ∨ some k ∈ gs
  made : ∀ k t, made k = some t → k ∈ s.rules ∧ s.owners.lookup k = some t ∧ some k ∉ gs

variable {gs : List (Option Key)}

lemma next_of_pending
    (hF : System.Follows ok upd (· = none) x gs) (hk : some k ∈ gs) :
    ∃ t ∈ x.threads, t.rest.next? = some (.removeOwner k) := by
  obtain ⟨j, hj⟩ := mem_iff_getElem?.mp hk
  have hlt : j < x.threads.length := hF.length ▸ (lt_of_getElem? hj)
  refine ⟨x.threads[j], getElem_mem hlt, ?_⟩
  have hsafe := hF.safe j _ _ (getElem?_eq_getElem hlt) hj
  generalize x.threads[j].rest = p at hsafe
  cases p with
  | ret a => cases hsafe
  | op o rest =>
    have hok := hsafe.1
    cases o <;> first | cases hok; rfl | cases hok

section Step
variable {made : Key → Option String} {gs : List (Option Key)} {i : Nat} {g : Option Key}

lemma pending_exec (hg : gs[i]? = some g) (hok : ok o g) (env : Env) (hk : some k ∈ gs) :
    some k ∈ gs.set i (upd o (exec cfg o env s).2 g) ∨
      k ∉ (exec cfg o env s).1.owners := by
  obtain ⟨j, hj⟩ := mem_iff_getElem?.mp hk
  by_cases hij : i = j
  · subst hij
    rw [hg] at hj
    cases hj
    have ho : o = .removeOwner k := by
      cases o <;> first | cases hok; rfl | cases hok
    subst ho
    exact .inr fun h => (mem_erase.mp h).1 rfl
  · exact .inl (mem_iff_getElem?.mpr ⟨j, by rwa [getElem?_set_ne hij]⟩)

lemma pending_of_takenOut (hg : gs[i]? = some g) (hok : ok o g) (env : Env)
    (hout : TakenOut o (exec cfg o env s).2 k) :
    some k ∈ gs.set i (upd o (exec cfg o env s).2 g) := by
  have hset : ∀ g', g' ∈ gs.set i g' := fun g' =>
    List.mem_iff_getElem?.mpr ⟨i, List.getElem?_set_self (lt_of_getElem? hg)⟩
  generalize (exec cfg o env s).2 = r at hout ⊢
  cases o with
  | take key =>
    rcases r with e | _ | e
    · exact hout.elim
    · exact hout.elim
    cases hout
    exact hset _
  | remove | removeMember | dropMembers | takeMembers | drain => exact hok.elim
  | _ => exact hout.elim

lemma keys_exec (hs : OwnersMatch s made gs) (hg : gs[i]? = some g) (hok : ok o g)
    (env : Env) (hk : k ∈ (exec cfg o env s).1.owners) :
    k ∈ (exec cfg o env s).1.rules ∨ k ∈ (exec cfg o env s).1.invalid ∨
      some k ∈ gs.set i (upd o (exec cfg o env s).2 g) := by
  rcases mem_owners_exec cfg o env hk with hold | hnew
  swap
  · exact .inl hnew
  rcases hs.keys k hold with hrules | hinvalid | hpending
  · rcases mem_rules_or_takenOut cfg o env hrules with h | hout
    · exact .inl h
    · exact .inr (.inr (pending_of_takenOut hg hok env hout))
  · rcases mem_invalid_exec cfg o env hinvalid with h | h | h | rfl
    · exact .inr (.inl h)
    · exact .inl h
    · exact absurd hk h
    refine .inr (.inr (mem_iff_getElem?.mpr ⟨i, ?_⟩))
    rw [List.getElem?_set_self (lt_of_getElem? hg), exec, decide_eq_true hinvalid]
    rfl
  rcases pending_exec hg hok env hpending with h | h
  · exact .inr (.inr h)
  · exact absurd hk h

lemma made_exec (hs : OwnersMatch s made gs) (hg : gs[i]? = some g) (hok : ok o g)
    (env : Env) (hmade : made k = some t) (hk : k ∈ (exec cfg o env s).1.rules) :
    (exec cfg o env s).1.owners.lookup k = some t ∧
      some k ∉ gs.set i (upd o (exec cfg o env s).2 g) := by
  obtain ⟨hrules, howner, hpending⟩ := hs.made k t hmade
  refine ⟨?_, fun hmem => ?_⟩
  · rw [lookup_owners_exec cfg env hrules ?_, howner]
    rintro rfl
    cases hok
    exact hpending (mem_of_getElem? hg)
  rcases mem_or_eq_of_mem_set hmem with h | h
  · exact hpending h
  -- only `take` of this key, or forgetting a rule that did not validate, would leave it
  cases o with
  | take key =>
    rcases take_cases s key with ⟨e, hres, -, -, hgone⟩ | ⟨-, hres, -⟩ | ⟨e, hres⟩
    · rw [exec, hres] at h
      cases h
      exact hgone hk
    · rw [exec, hres] at h
      cases h
    rw [exec, hres] at h
    cases h
  | forgetInvalid key =>
    by_cases hmem : key ∈ s.invalid
    · rw [exec, decide_eq_true hmem] at h
      cases h
      exact hs.apart k hrules hmem
    rw [exec, decide_eq_false hmem] at h
    cases h
  | _ => cases h

end Step

lemma owner_of_created {spec : RuleSpec} {fixing : Bool} (env : Env) (hnew : spec.key ∉ s.rules)
    (hin : spec.key ∈ (exec cfg (.create spec fixing (some t)) env s).1.rules) :
    (exec cfg (.create spec fixing (some t)) env s).1.owners.lookup spec.key = some t := by
  rcases create_cases cfg env s spec fixing (some t) with hsame | ⟨-, -, howners⟩
  · rw [exec, hsame] at hin
    exact absurd hin hnew
  rw [exec, howners]
  exact lookup_insert s.owners

lemma ownersMatch_step {y : Config}
    {i : Nat} {f : Ret o → Program Unit} {g : Option Key} (hs : OwnersMatch x.state made gs)
    (hF : System.Follows ok upd (· = none) x gs)
    (hcond : OwnerSteps x (.step i env)) (hi : x.threads[i]? = some ⟨c, .op o f⟩)
    (hg : gs[i]? = some g) (hok : ok o g) (hy : y.state = (exec cfg o env x.state).1) :
    OwnersMatch y.state (madeBy x (.step i env) y made)
      (gs.set i (upd o (exec cfg o env x.state).2 g)) := by
  refine ⟨?_, ?_, fun k t hmade => ?_⟩
  · rw [hy]
    exact invalidApart_exec hs.apart o env
  · rw [hy]
    exact fun k => keys_exec hs hg hok env
  obtain ⟨hin, hold | ⟨hnew, spec, fixing, hop, rfl⟩⟩ := madeBy_cases hmade
  · rw [hy] at hin ⊢
    exact ⟨hin, made_exec hs hg hok env hold hin⟩
  have hpending : some spec.key ∉ gs := fun h => by
    obtain ⟨t', ht', hnext⟩ := next_of_pending hF h
    exact hcond.2 spec fixing t hop t' ht' hnext
  rw [nextOp_step hi] at hop
  cases hop
  rw [hy] at hin ⊢
  refine ⟨hin, owner_of_created env hnew hin, fun h => ?_⟩
  rcases mem_or_eq_of_mem_set h with h | h
  · exact hpending h
  · cases h

lemma ownersMatch_begins {s' : State}
    {ts : List (Thread Op Ret Call)} (hs : OwnersMatch x.state made gs)
    (hbegins : begins x.state c = some s') :
    OwnersMatch s' (madeBy x (.start c) ⟨s', ts⟩ made) (gs ++ [none]) := by
  obtain ⟨hs', -⟩ := begins_eq hbegins
  have hpending : ∀ k, some k ∈ gs ++ [none] ↔ some k ∈ gs := by simp
  refine ⟨?_, fun k => ?_, fun k t hmade => ?_⟩
  · rw [hs']
    exact hs.apart
  · rw [hpending, hs']
    exact hs.keys k
  obtain ⟨-, hold | ⟨-, spec, fixing, hop, -⟩⟩ := madeBy_cases hmade
  · rw [hpending, hs']
    exact hs.made k t hold
  · cases hop

lemma reach_ownersMatch
    (hx : (system cfg).ReachWith OwnerSteps madeBy initial (fun _ => none) x made) :
    ∃ gs, OwnersMatch x.state made gs ∧
      System.Follows ok upd (· = none) x gs := by
  refine hx.ghost ?_ ?_ ?_
  · exact ⟨fun k hk => absurd hk (by simp [State.empty]),
      fun k hk => absurd hk (by simp [State.empty]), fun k t h => nomatch h⟩
  · intro x made gs c s hs hcond hbegins
    exact ⟨none, leavesNone_program (hcond.1 c rfl), ownersMatch_begins hs hbegins⟩
  rintro x made gs i env c o f g y hs hF hcond hi hg hok rfl
  exact ownersMatch_step hs hF hcond hi hg hok rfl

/-- **Owner records match the table**, in every run that takes rules out through `take`, if no
token's rule is created while the owner of its key is about to be removed: with no operation in
progress the owner of each rule that a token made is that token, and each owner is of a rule, or of
one that did not validate. -/
theorem reach_owners {x : Config} {made : Key → Option String}
    (hx : (system cfg).ReachWith OwnerSteps madeBy initial (fun _ => none) x made)
    (hquiet : x.Quiet) :
    (∀ k t, made k = some t → x.state.owners.lookup k = some t) ∧
      ∀ k ∈ x.state.owners, k ∈ x.state.rules ∨ k ∈ x.state.invalid := by
  obtain ⟨gs, hs, hF⟩ := reach_ownersMatch hx
  refine ⟨fun k t hmade => (hs.made k t hmade).2.1, fun k hk => ?_⟩
  rcases hs.keys k hk with h | h | h
  · exact .inl h
  · exact .inr h
  -- the thread that is to remove the owner is not done
  obtain ⟨t, ht, hnext⟩ := next_of_pending hF h
  have hdone := hquiet t ht
  rw [Prog.done, hnext] at hdone
  cases hdone

end
open scoped Plain

def createsFor : Op → Bool
  | .create _ _ (some _) => true
  | _ => false

def removesOwner : Op → Bool
  | .removeOwner _ => true
  | _ => false

def ownerSteps (x : Config) (ev : Event Env Call) : Bool :=
  startsSingle x ev && (nextAll (fun o => !createsFor o) x ev ||
    x.threads.all fun t => t.rest.next?.all fun o => !removesOwner o)

lemma ownerSteps_sound (x : Config) (ev : Event Env Call) (h : ownerSteps x ev) :
    OwnerSteps x ev := by
  rw [ownerSteps, and_eq_true, or_eq_true] at h
  refine ⟨startsSingle_sound x ev h.1, fun spec fixing token hop t ht hnext => ?_⟩
  rcases h.2 with h | h
  · rw [nextAll, hop] at h
    cases h
  have := all_eq_true.mp h t ht
  rw [hnext] at this
  cases this

open Plain

theorem create_again_owner : ∃ (x : Config) (made : Key → Option String),
      (system settings).ReachWith OwnerSteps madeBy initial (fun _ => none) x made ∧
      x.Quiet ∧ made (loopback 8080) = some "app" ∧
      x.state.owners.lookup (loopback 8080) = some "app" ∧
      ∀ k ∈ x.state.owners, k ∈ x.state.rules ∨ k ∈ x.state.invalid := by
  obtain ⟨x, made, hx, hp⟩ := exists_reachWith_of_trace
    [.start (.createBy (request .tcp 8080) .dynamic "ops"), .step 0 .calm, .step 0 .calm,
      .start (.delete (loopback 8080)), .step 1 .calm, .step 1 .calm, .step 1 .calm,
      .step 1 .calm, .step 1 .calm,
      .start (.createBy (request .tcp 8080) .dynamic "app"), .step 2 .calm, .step 2 .calm]
    madeBy (fun _ => none) (fun x => x.1.quiet && x.2 (loopback 8080) == some "app")
    ownerSteps_sound (by decide +kernel)
  rw [and_eq_true, quiet_iff, beq_iff_eq] at hp
  obtain ⟨howner, hkeys⟩ := reach_owners hx hp.1
  exact ⟨x, made, hx, hp.1, hp.2, howner _ _ hp.2, hkeys⟩

/-- What `take` takes out has failed, so that no listener of it is in the way of a new rule. -/
def takesFailed (x : Config) (ev : Event Env Call) : Bool :=
  (nextOp x ev).all fun
    | .take key => (x.state.rules.lookup key).all (· matches .failed _)
    | _ => true

/-- While a failed rule is deleted, after `take` has released the table, a token creates a rule with
its key; then `take` removes the new rule's owner. -/
theorem create_loses_owner : ∃ (x : Config) (made : Key → Option String),
      (system settings).ReachWith (fun x ev => SingleCalls x ev ∧ takesFailed x ev) madeBy
        initial (fun _ => none) x made ∧
      x.Quiet ∧ made (loopback 8080) = some "app" ∧
      loopback 8080 ∈ x.state.rules ∧
      x.state.owners.lookup (loopback 8080) = none := by
  obtain ⟨x, made, hx, hp⟩ := exists_reachWith_of_trace
    [.start (.restoreAs [request .tcp 8080] .api), .step 0 .unresolved, .step 0 .calm,
      .step 0 .calm, .start (.delete (loopback 8080)), .step 1 .calm,
      .start (.createBy (request .tcp 8080) .dynamic "app"), .step 2 .calm, .step 2 .calm,
      .step 1 .calm, .step 1 .calm]
    madeBy (fun _ => none)
    (fun x => x.1.quiet && x.2 (loopback 8080) == some "app" &&
      decide (loopback 8080 ∈ x.1.state.rules) &&
      (x.1.state.owners.lookup (loopback 8080)).isNone)
    (fun x ev (h : (startsSingle x ev && takesFailed x ev) = true) =>
      (and_eq_true_iff.mp h).imp_left (startsSingle_sound x ev)) (by decide +kernel)
  simp only [and_eq_true, quiet_iff, beq_iff_eq, decide_eq_true_eq,
    Option.isNone_iff_eq_none] at hp
  exact ⟨x, made, hx, hp.1.1.1, hp.1.1.2, hp.1.2, hp.2⟩

end Rproxy.Registry
