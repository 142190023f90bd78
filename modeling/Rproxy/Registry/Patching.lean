import Rproxy.Registry.Installing
import Rproxy.Registry.Plain
import Rproxy.Rule.UpdateValid

/-!
# PATCH

`update` reads the rule of a key, or the body of one that did not validate (`fix_invalid`), under
the table's lock; it releases the lock to resolve names and read files, and takes it again to write
the whole spec (`apply`).
-/

namespace Rproxy.Registry
open Config Locked Option

section
variable [External]

variable {cfg : Settings} {env : Env} {s : State} {o : Op} {key : Key}

/-! ## What an `update` has read -/

inductive Seen where
  | nothing
  | body
  | spec (old : RuleSpec)
  | absent
  | written

namespace Seen

def ok (cfg : Settings) (key : Key) (u : UpdateRequest) : Op → Seen → Prop
  | .invalidOf k, g => k = key ∧ (g = nothing ∨ g = body)
  | .specOf k, g => k = key ∧ g = nothing
  | .prepare _, g => g = absent ∨ ∃ old, g = spec old
  | .apply k new, g =>
    k = key ∧ ∃ old, g = spec old ∧ Rproxy.updatedSpec cfg.caps key old u = .ok new
  | .create new _ _, g => new.key = key ∧ g = absent
  | .register _ _, g => g = absent
  | .insertFailed _ new _ _, g => new.key = key ∧ g = absent
  | _, _ => False

def upd : (o : Op) → Ret o → Seen → Seen
  | .invalidOf _, some _, nothing => body
  | .invalidOf _, some _, body => absent
  | .specOf _, some old, _ => spec old
  | .apply _ _, _, _ | .create _ _ _, .ok (), _ | .insertFailed _ _ _ _, _, _ => written
  | _, _, g => g

def Agrees (s : State) (key : Key) : Seen → Prop
  | spec old => ∀ e, s.rules.lookup key = some e → e.spec = old
  | absent => key ∉ s.rules
  | _ => True

end Seen

open Seen

def Patches (cfg : Settings) (key : Key) (u : UpdateRequest) (g : Seen) {α : Type}
    (p : Program α) : Prop :=
  p.Safe (ok cfg key u) upd g fun _ _ => True

variable {u : UpdateRequest} {spec : RuleSpec}

lemma patches_insertFailed {e : ApiError}
    (hkey : spec.key = key) : Patches cfg key u .absent (insertFailed spec e) :=
  ⟨rfl, fun _ => ⟨⟨hkey, rfl⟩, fun _ => trivial⟩⟩

variable {token : Option String}

lemma safe_createSpecIn {fixing : Bool} (hkey : spec.key = key) :
    (createSpecIn cfg spec fixing token).Safe (ok cfg key u) upd .absent
      fun r g => ∀ e, r = .error e → g = .absent := by
  unfold createSpecIn
  split
  · exact fun _ _ => rfl
  refine ⟨.inl rfl, fun r => ?_⟩
  rcases r with e | _
  · exact fun _ _ => rfl
  refine ⟨⟨hkey, rfl⟩, fun r => ?_⟩
  rcases r with e | _
  · exact fun _ _ => rfl
  · exact fun e he => nomatch he

lemma patches_fixInvalid (u : UpdateRequest) (req : RuleRequest) :
    Patches cfg key u .body (fixInvalid cfg key req) := by
  refine ⟨⟨rfl, .inr rfl⟩, fun r => ?_⟩
  rcases r with _ | i
  · trivial
  split
  · trivial
  rename_i spec _
  split
  · trivial
  rename_i hkey
  have hkey : ({ spec with origin := i.origin } : RuleSpec).key = key := not_not.mp hkey
  refine (safe_createSpecIn hkey).bind fun r g hg => ?_
  rcases r with e | _
  · rw [hg e rfl]
    dsimp only
    split
    · trivial
    · exact Prog.Safe.bind (patches_insertFailed hkey) fun _ _ _ => trivial
  · trivial

lemma safe_updatedSpec (u : UpdateRequest) :
    (updatedSpec cfg key u).Safe (ok cfg key u) upd .nothing fun r g =>
      ∀ new, r = .ok new →
        ∃ old, g = .spec old ∧ Rproxy.updatedSpec cfg.caps key old u = .ok new := by
  unfold updatedSpec
  split
  · exact fun new h => nomatch h
  rename_i udpIdle hidle
  refine ⟨⟨rfl, rfl⟩, fun r => ?_⟩
  rcases r with _ | old
  · exact fun new h => nomatch h
  intro new hnew
  refine ⟨old, rfl, ?_⟩
  rw [Rproxy.updatedSpec, hidle]
  exact hnew

lemma patches_apply {old new : RuleSpec} (h : Rproxy.updatedSpec cfg.caps key old u = .ok new) :
    Patches cfg key u (.spec old) (apply cfg key new) := by
  unfold apply
  split
  · trivial
  refine ⟨.inr ⟨old, rfl⟩, fun r => ?_⟩
  rcases r with e | _
  · trivial
  · exact ⟨⟨rfl, old, rfl, h⟩, fun _ => trivial⟩

lemma patches_update (key : Key) (u : UpdateRequest) :
    Patches cfg key u .nothing (update cfg key u) := by
  refine ⟨⟨rfl, .inl rfl⟩, fun r => ?_⟩
  rcases r with _ | i
  · refine (safe_updatedSpec u).bind fun r g hg => ?_
    rcases r with e | new
    · trivial
    obtain ⟨old, rfl, h⟩ := hg new rfl
    exact patches_apply h
  · exact patches_fixInvalid u _

/-! ## Interference -/

def writes? (s : State) : Op → Option (Key × RuleSpec)
  | .create new _ _ => if new.key ∈ s.rules then none else some (new.key, new)
  | .apply k new => some (k, new)
  | .insertFailed _ new _ _ => some (new.key, new)
  | o => (starts? o).map fun rule => (rule.1.key, rule.1)

lemma writes?_of_starts? {generation : Nat}
    (h : starts? o = some (spec, generation)) : writes? s o = some (spec.key, spec) := by
  cases o <;> first | (cases h; rfl) | cases h

lemma spec_of_writes (cfg : Settings) (env : Env)
    (h : ∀ new, writes? s o = some (key, new) → s.specAt key = some new) {e' : Entry}
    (he' : (exec cfg o env s).1.rules.lookup key = some e') :
    ∃ e, s.rules.lookup key = some e ∧ e'.spec = e.spec := by
  have hspec : ∀ new, s.specAt key = some new → ∃ e, s.rules.lookup key = some e ∧ new = e.spec :=
    fun new hnew => by
      obtain ⟨e, he, rfl⟩ := map_eq_some_iff.mp hnew
      exact ⟨e, he, rfl⟩
  have heff := effect_exec cfg o env s key
  rw [he'] at heff
  generalize hbefore : s.rules.lookup key = before at heff
  generalize hafter : some e' = after at heff
  cases heff with
  | keep => exact ⟨e', hafter.symm, rfl⟩
  | removed => cases hafter
  | @created new _ _ _ hkey _ =>
    cases hafter
    subst hkey
    have hnew : new.key ∉ s.rules := AList.lookup_eq_none.mp hbefore
    exact hbefore ▸ hspec _ (h new (if_neg hnew))
  | changed | applied | patched =>
    cases hafter
    exact hbefore ▸ hspec _ (h _ rfl)
  | failed hkey =>
    cases hafter
    subst hkey
    exact hbefore ▸ hspec _ (h _ rfl)
  | restarted hp hkey =>
    cases hafter
    subst hkey
    exact hbefore ▸ hspec _ (h _ (writes?_of_starts? hp))
  | noted _ _ _ _ hsame | expired _ hsame =>
    cases hafter
    exact ⟨_, rfl, hsame⟩
  | supervised | quieted =>
    cases hafter
    exact ⟨_, rfl, rfl⟩

def Patching (key : Key) (t : Thread Op Ret Call) : Prop :=
  (∃ u, t.call = .update key u) ∧
    ∃ o, t.rest.next? = some o ∧ (∀ k, o ≠ .invalidOf k) ∧ ∀ k, o ≠ .specOf k

/-- While an `update` has read and is not done, no other thread writes another spec at its key. -/
def PatchAlone (x : Config) (ev : Event Env Call) : Prop :=
  ∀ i env o, ev = .step i env → nextOp x ev = some o →
    ∀ j t key, j ≠ i → x.threads[j]? = some t → Patching key t →
      ∀ new, writes? x.state o = some (key, new) → x.state.specAt key = some new

def Followed (cfg : Settings) (s : State) (c : Call) (p : Program Unit) : Prop :=
  ∀ key u, c = .update key u → ∃ g, Patches cfg key u g p ∧ (¬ p.done → g.Agrees s key)

lemma create_of_error {fixing : Bool} {e : ApiError}
    (h : (create cfg env s spec fixing token).2 = .error e) :
    (create cfg env s spec fixing token).1 = s := by
  unfold create at h ⊢
  cases hcheck : createCheck cfg s spec fixing token with
  | error e => rfl
  | ok u =>
    rw [hcheck] at h
    cases hstart : env.start with
    | some f => rfl
    | none =>
      rw [hstart] at h
      cases h

lemma rules_register (s : State) (spec : RuleSpec) (e : ApiError) :
    (register s spec e).1.rules = s.rules := by
  unfold register
  split <;> rfl

variable {g : Seen}

lemma agrees_exec (hs : s.InvalidApart)
    (hok : Seen.ok cfg key u o g) (hg : g.Agrees s key) (env : Env) :
    (upd o (exec cfg o env s).2 g).Agrees (exec cfg o env s).1 key := by
  cases o with
  | invalidOf k =>
    obtain ⟨rfl, rfl | rfl⟩ := hok
    · rw [exec]
      cases s.invalid.lookup k <;> trivial
    rw [exec]
    cases hi : s.invalid.lookup k with
    | none => trivial
    | some i => exact fun hk => hs k hk (AList.lookup_isSome.mp (by rw [hi]; rfl))
  | specOf k =>
    obtain ⟨rfl, rfl⟩ := hok
    rw [exec, State.specAt]
    cases he : s.rules.lookup k with
    | none => trivial
    | some e =>
      intro e' he'
      rw [he] at he'
      cases he'
      rfl
  | prepare spec =>
    rcases hok with rfl | ⟨old, rfl⟩ <;> exact hg
  | apply k new => trivial
  | create new fixing token =>
    rw [exec]
    cases hr : (Locked.create cfg env s new fixing token).2 with
    | ok _ => trivial
    | error e =>
      rw [create_of_error hr]
      exact hg
  | register spec e =>
    cases hok
    change key ∉ (Locked.register s spec e).1.rules
    rw [rules_register]
    exact hg
  | insertFailed => trivial
  | _ => exact hok.elim

lemma agrees_other {x : Config} {i j : Nat} {t : Thread Op Ret Call}
    (hcond : PatchAlone x (.step i env)) (hop : nextOp x (.step i env) = some o)
    (hij : j ≠ i) (hj : x.threads[j]? = some t) (hcall : t.call = .update key u)
    (hp : Patches cfg key u g t.rest) (hdone : ¬ t.rest.done) (hg : g.Agrees x.state key) :
    g.Agrees (exec cfg o env x.state).1 key := by
  have hput : (g = .absent ∨ ∃ old, g = .spec old) → ∀ e',
      (exec cfg o env x.state).1.rules.lookup key = some e' →
        ∃ e, x.state.rules.lookup key = some e ∧ e'.spec = e.spec := by
    intro hread e' he'
    refine spec_of_writes cfg env (hcond i env o rfl hop j t key hij hj ⟨⟨u, hcall⟩, ?_⟩) he'
    obtain ⟨c, rest⟩ := t
    cases rest with
    | ret a => exact absurd rfl hdone
    | op o' k =>
      refine ⟨o', rfl, ?_, ?_⟩
      · rintro k rfl
        rcases hp.1.2 with rfl | rfl <;> rcases hread with h | ⟨old, h⟩ <;> cases h
      rintro k rfl
      obtain rfl := hp.1.2
      rcases hread with h | ⟨old, h⟩ <;> cases h
  cases g with
  | spec old =>
    intro e' he'
    obtain ⟨e, he, hsame⟩ := hput (.inr ⟨old, rfl⟩) e' he'
    exact hsame.trans (hg e he)
  | absent =>
    intro hk
    obtain ⟨e', he'⟩ := mem_rules_iff.mp hk
    obtain ⟨e, he, -⟩ := hput (.inl rfl) e' he'
    exact hg (mem_rules_iff.mpr ⟨e, he⟩)
  | _ => trivial

lemma reach_followed {x : Config} (hx : (system cfg).Reach PatchAlone initial x) :
    x.state.InvalidApart ∧ ∀ t ∈ x.threads, Followed cfg x.state t.call t.rest := by
  refine hx.each ?_ ?_ ?_ ?_
  · exact fun k hk => absurd hk (by simp [State.empty])
  · intro x c s' hs _ hbegins
    have hs' := (begins_eq hbegins).1
    refine ⟨by rw [hs']; exact hs, ?_, fun c' p hp key u hc => ?_⟩
    · rintro key u rfl
      exact ⟨.nothing, Prog.Safe.bind (patches_update key u) fun _ _ _ => trivial, fun _ => trivial⟩
    obtain ⟨g, hsafe, hg⟩ := hp key u hc
    refine ⟨g, hsafe, fun hdone => ?_⟩
    have := hg hdone
    rw [hs']
    cases g <;> exact this
  · intro s c o k env hs hp
    refine ⟨invalidApart_exec hs o env, fun key u hc => ?_⟩
    obtain ⟨g, hsafe, hg⟩ := hp key u hc
    exact ⟨_, hsafe.2 _, fun _ => agrees_exec hs hsafe.1 (hg (Prog.not_done_op o k)) env⟩
  rintro x i env c o k t hs hcond hi ⟨j, hij, hj⟩ hp key u hc
  obtain ⟨g, hsafe, hg⟩ := hp key u hc
  exact ⟨g, hsafe, fun hdone =>
    agrees_other hcond (nextOp_step hi) hij hj hc hsafe hdone (hg hdone)⟩

def SameSource (a b : RuleSpec) : Prop :=
  b.origin = a.origin ∧ b.ruleset = a.ruleset ∧ b.sourceIp = a.sourceIp ∧
    b.portCount = a.portCount ∧ b.listenFreebind = a.listenFreebind

lemma sameSource_of_updatedSpec {old new : RuleSpec}
    (h : Rproxy.updatedSpec cfg.caps key old u = .ok new) : SameSource old new := by
  obtain ⟨-, hcount, hbind, hsource, horigin, hruleset⟩ :=
    updatedSpec_keeps cfg.caps key old u new h
  exact ⟨horigin, hruleset, hsource, hcount, hbind⟩

lemma patched_exec (hok : ok cfg key u o g)
    (hg : g.Agrees s key) (env : Env) {k : Key} {e e' : Entry} (he : s.rules.lookup k = some e)
    (he' : (exec cfg o env s).1.rules.lookup k = some e') :
    e' = e ∨ Rproxy.updatedSpec cfg.caps key e.spec u = .ok e'.spec := by
  have heff := effect_exec cfg o env s k
  rw [he'] at heff
  generalize hbefore : s.rules.lookup k = before at heff
  generalize hafter : some e' = after at heff
  cases heff with
  | keep =>
    rw [he, ← hafter] at hbefore
    cases hbefore
    exact .inl rfl
  | removed => cases hafter
  | created =>
    rw [he] at hbefore
    cases hbefore
  | changed | applied | patched =>
    cases hafter
    obtain ⟨rfl, old, rfl, h⟩ := hok
    rw [hg e he]
    exact .inr h
  | failed hkey =>
    obtain ⟨hkey', rfl⟩ := hok
    exact absurd (mem_rules_iff.mpr ⟨e, by rwa [← hkey', hkey]⟩) hg
  | restarted hp =>
    cases o <;> first | exact hok.elim | cases hp
  | noted hp =>
    cases o <;> first | exact hok.elim | cases hp
  | expired | supervised | quieted => exact hok.elim

/-- **PATCH is atomic** in every run in which no section of another call writes another spec at its
key while an `update` has read and is not done: what `apply` writes is what the PATCH makes of the
spec that the rule has then; and no PATCH changes where a rule came from or how it listens. -/
theorem reach_patch {x y : Config} {i : Nat} {t : Thread Op Ret Call} {u : UpdateRequest}
    (hx : (system cfg).Reach PatchAlone initial x) (hi : x.threads[i]? = some t)
    (hcall : t.call = .update key u) (hy : (system cfg).step (.step i env) x = some y) :
    (∀ k new e, t.rest.next? = some (.apply k new) → x.state.rules.lookup k = some e →
        k = key ∧ Rproxy.updatedSpec cfg.caps key e.spec u = .ok new) ∧
      ∀ k e e', x.state.rules.lookup k = some e → y.state.rules.lookup k = some e' →
        (e' = e ∨ Rproxy.updatedSpec cfg.caps key e.spec u = .ok e'.spec) ∧
          SameSource e.spec e'.spec := by
  obtain ⟨c, o, rest, hi', rfl⟩ := System.step_step.mp hy
  rw [hi] at hi'
  cases hi'
  obtain ⟨g, hsafe, hseen⟩ := (reach_followed hx).2 _ (List.mem_of_getElem? hi) key u hcall
  have hg := hseen (Prog.not_done_op o rest)
  refine ⟨fun k new e hnext he => ?_, fun k e e' he he' => ?_⟩
  · cases hnext
    obtain ⟨rfl, old, rfl, h⟩ := hsafe.1
    rw [hg e he]
    exact ⟨rfl, h⟩
  have hpatched := patched_exec hsafe.1 hg env he he'
  refine ⟨hpatched, ?_⟩
  rcases hpatched with rfl | h
  · exact ⟨rfl, rfl, rfl, rfl, rfl⟩
  · exact sameSource_of_updatedSpec h

end
open scoped Plain

def patchAlone (x : Config) : Event Env Call → Bool
  | .start _ => true
  | .step i env => (nextOp x (.step i env)).all fun o => (writes? x.state o).all fun w =>
    x.threads.zipIdx.all fun t => t.2 == i ||
      match t.1.call with
      | .update key _ => key != w.1
      | _ => true

lemma patchAlone_sound (x : Config) (ev : Event Env Call) (h : patchAlone x ev) :
    PatchAlone x ev := by
  rintro i env o rfl hop j t key hij hj ⟨⟨u, hcall⟩, -⟩ new hnew
  rw [patchAlone, hop, all_some, hnew, all_some, List.all_eq_true] at h
  have := h (t, j) (List.mk_mem_zipIdx_iff_getElem?.mpr hj)
  simp [hcall, hij] at this

def applying? (key : Key) (t : Thread Op Ret Call) : Option (UpdateRequest × RuleSpec) :=
  match t.call, t.rest.next? with
  | .update k u, some (.apply k' new) => if k = key ∧ k' = key then some (u, new) else none
  | _, _ => none

lemma of_applying? {key : Key} {t : Thread Op Ret Call} {u : UpdateRequest} {new : RuleSpec}
    (h : applying? key t = some (u, new)) :
    t.call = .update key u ∧ t.rest.next? = some (.apply key new) := by
  unfold applying? at h
  split at h
  next k u' k' new' hcall hnext =>
    split at h
    next hkey =>
      cases h
      rw [hcall, hnext, hkey.1, hkey.2]
      exact ⟨rfl, rfl⟩
    · cases h
  · cases h

open Plain

theorem update_patches :
    ∃ (x y : Config) (t : Thread Op Ret Call) (u : UpdateRequest) (e e' : Entry),
      (system settings).Reach PatchAlone initial x ∧ x.threads[1]? = some t ∧
      t.call = .update (loopback 8080) u ∧
      (system settings).step (.step 1 .calm) x = some y ∧
      x.state.rules.lookup (loopback 8080) = some e ∧
      y.state.rules.lookup (loopback 8080) = some e' ∧ e' ≠ e ∧
      Rproxy.updatedSpec caps (loopback 8080) e.spec u = .ok e'.spec ∧
      SameSource e.spec e'.spec := by
  obtain ⟨x, hx, hp⟩ := exists_reach_of_trace
    [.start (.createAs (request .tcp 8080) .dynamic), .step 0 .calm, .step 0 .calm,
      .start (.update (Plain.loopback 8080) Plain.update), .step 1 .calm, .step 1 .calm,
      .start (.createAs (request .tcp 9090) .dynamic), .step 2 .calm, .step 2 .calm,
      .step 1 .calm]
    (fun x => (x.threads[1]?).any (fun t => (applying? (loopback 8080) t).isSome) &&
      ((system settings).step (.step 1 .calm) x).any fun y =>
        (x.state.rules.lookup (loopback 8080)).any fun e =>
          (y.state.rules.lookup (loopback 8080)).any fun e' => decide (e' ≠ e))
    patchAlone_sound (by decide +kernel)
  simp only [Bool.and_eq_true, any_eq_true, isSome_iff_exists,
    decide_eq_true_eq] at hp
  obtain ⟨⟨t, ht, ⟨u, new⟩, happly⟩, y, hy, e, he, e', he', hne⟩ := hp
  obtain ⟨hcall, -⟩ := of_applying? happly
  obtain ⟨hpatched, hsource⟩ := (reach_patch hx ht hcall hy).2 _ e e' he he'
  exact ⟨x, y, t, u, e, e', hx, ht, hcall, hy, he, he', hne, hpatched.resolve_left hne, hsource⟩

/-- Two PATCHes of one rule read it; one turns `crowdsec` on, then the other, which says nothing of
it, writes what it made of what it had read. -/
theorem patch_loses_patch :
    ∃ (x y : Config) (t : Thread Op Ret Call) (u : UpdateRequest) (e e' : Entry) (new : RuleSpec),
      (system settings).Reach (fun _ _ => True) initial x ∧ x.threads[1]? = some t ∧
      t.call = .update (loopback 8080) u ∧
      t.rest.next? = some (.apply (loopback 8080) new) ∧
      (system settings).step (.step 1 .calm) x = some y ∧
      x.state.rules.lookup (loopback 8080) = some e ∧
      y.state.rules.lookup (loopback 8080) = some e' ∧ e'.spec = new ∧
      Rproxy.updatedSpec caps (loopback 8080) e.spec u ≠ .ok new ∧
      u.crowdsec = none ∧ e.spec.crowdsec = true ∧ e'.spec.crowdsec = false := by
  obtain ⟨x, hx, hp⟩ := exists_reach_of_trace
    [.start (.createAs (request .tcp 8080) .dynamic), .step 0 .calm, .step 0 .calm,
      .start (.update (Plain.loopback 8080) Plain.update), .step 1 .calm, .step 1 .calm,
      .start (.update (Plain.loopback 8080) { Plain.update with crowdsec := some true }),
      .step 2 .calm, .step 2 .calm, .step 2 .calm, .step 2 .calm, .step 1 .calm]
    (fun x => (x.threads[1]?).any fun t => (applying? (loopback 8080) t).any fun p =>
      ((system settings).step (.step 1 .calm) x).any fun y =>
        (x.state.rules.lookup (loopback 8080)).any fun e =>
          (y.state.rules.lookup (loopback 8080)).any fun e' =>
            decide (e'.spec = p.2) &&
            decide ((Rproxy.updatedSpec caps (loopback 8080) e.spec p.1).toOption ≠ some p.2) &&
            decide (p.1.crowdsec = none) && e.spec.crowdsec && !e'.spec.crowdsec)
    (fun _ _ (_ : true = true) => trivial) (by decide +kernel)
  simp only [any_eq_true, Bool.and_eq_true, decide_eq_true_eq, Bool.not_eq_true'] at hp
  obtain ⟨t, ht, ⟨u, new⟩, happly, y, hy, e, he, e', he', ⟨⟨⟨hnew, hlost⟩, hu⟩, hon⟩, hoff⟩ := hp
  obtain ⟨hcall, hnext⟩ := of_applying? happly
  refine ⟨x, y, t, u, e, e', new, hx, ht, hcall, hnext, hy, he, he', hnew, fun h => hlost ?_, hu,
    hon, hoff⟩
  rw [h]
  rfl

end Rproxy.Registry
