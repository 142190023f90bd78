import Rproxy.Registry.Changes
import Rproxy.Registry.Plain

/-!
# No two rules of the table clash

`create_spec_in` and `apply` look for a clash with the lock held. `insert_failed` does not look at
all, and `retry_start` and `apply_certs` start a rule in place of its failed entry, whose old
addresses another rule may have taken.
-/

namespace Rproxy
open Plain Option

section
variable [External]

def State.NonOverlapping (s : State) : Prop :=
  ∀ k e k' e', s.rules.lookup k = some e → s.rules.lookup k' = some e' → k ≠ k' →
    overlaps e.spec e'.spec = false

namespace Registry

/-- A task that would start `spec` in place of a failed entry with another spec finds no rule of
another key in its way. -/
def RestartClear (s : State) (spec : RuleSpec) (generation : Nat) : Prop :=
  ∀ f, s.rules.lookup spec.key = some (.failed f) → f.generation = generation →
    f.spec = spec ∨ s.Clear spec.key spec

def PutsClear (s : State) : Op → Prop
  | .insertFailed _ spec _ _ => s.Clear spec.key spec
  | .retry task => RestartClear s task.spec task.generation
  | .certStart spec generation => RestartClear s spec generation
  | _ => True

def placed? : Op → Option (Key × RuleSpec)
  | .create spec _ _ => some (spec.key, spec)
  | .apply key spec => some (key, spec)
  | .insertFailed _ spec _ _ => some (spec.key, spec)
  | o => (starts? o).map fun p => (p.1.key, p.1)

variable {cfg : Settings} {s : State} {o : Op} {k : Key}

lemma clear_of_createCheck {spec : RuleSpec} {fixing : Bool} {token : Option String}
    (h : Locked.createCheck cfg s spec fixing token = .ok ()) : s.Clear spec.key spec := by
  unfold Locked.createCheck at h
  split at h
  · cases h
  split at h
  · cases h
  split at h
  · cases h
  next hfind => exact fun k e he _ => Table.find?_eq_none.mp hfind k e he

lemma spec_exec (ho : PutsClear s o) {env : Env} {e : Entry}
    (he : (exec cfg o env s).1.rules.lookup k = some e) :
    (∃ e₀, s.rules.lookup k = some e₀ ∧ e₀.spec = e.spec) ∨
      placed? o = some (k, e.spec) ∧ s.Clear k e.spec := by
  have heff := effect_exec cfg o env s k
  rw [he] at heff
  generalize hbefore : s.rules.lookup k = before at heff ⊢
  cases heff with
  | keep => exact .inl ⟨e, rfl, rfl⟩
  | created hkey hcheck =>
    subst hkey
    exact .inr ⟨rfl, clear_of_createCheck hcheck⟩
  | changed h | applied h | patched h => exact .inr ⟨rfl, h⟩
  | failed hkey =>
    subst hkey
    exact .inr ⟨rfl, ho⟩
  | @restarted o r f spec generation hp hkey hf =>
    subst hkey
    have hclear : f.spec = spec ∨ s.Clear spec.key spec := by
      cases o <;> cases hp
      case restartWaiting => exact .inl hf.2
      case retry task => exact ho f hbefore hf
      case certStart => exact ho f hbefore hf
    rcases hclear with hsame | hclear
    · exact .inl ⟨_, rfl, hsame⟩
    refine .inr ⟨?_, hclear⟩
    cases o <;> cases hp <;> rfl
  | noted _ _ _ _ hspec | expired _ hspec => exact .inl ⟨_, rfl, hspec.symm⟩
  | supervised | quieted => exact .inl ⟨_, rfl, rfl⟩

lemma nonOverlapping_exec (hs : s.NonOverlapping) (ho : PutsClear s o) (env : Env) :
    (exec cfg o env s).1.NonOverlapping := by
  intro k e k' e' he he' hne
  rcases spec_exec ho he with ⟨e₀, he₀, hspec⟩ | ⟨hplaced, hclear⟩
  · rcases spec_exec ho he' with ⟨e₁, he₁, hspec'⟩ | ⟨-, hclear⟩
    · rw [← hspec, ← hspec']
      exact hs k e₀ k' e₁ he₀ he₁ hne
    rw [← hspec]
    exact hclear k e₀ he₀ hne
  rcases spec_exec ho he' with ⟨e₁, he₁, hspec'⟩ | ⟨hplaced', -⟩
  · rw [← hspec', overlaps_comm]
    exact hclear k' e₁ he₁ hne.symm
  -- a section puts in a rule at one key only
  rw [hplaced] at hplaced'
  exact absurd (congrArg Prod.fst (some.inj hplaced')) hne

/-- **The table never holds two rules that clash**, if `insert_failed` and the background put in no
rule that clashes with one of another key. -/
theorem reach_nonOverlapping {x : Config}
    (hx : (system cfg).Reach (Next PutsClear) Config.initial x) : x.state.NonOverlapping := by
  refine hx.state ?_ ?_ ?_
  · intro k e k' e' he
    cases he
  · intro c s s' hs hbegins
    have hrules : s'.rules = s.rules := begins_rules hbegins
    simp only [State.NonOverlapping, hrules]
    exact hs
  intro x i e c o k hs hcond hi
  exact nonOverlapping_exec hs (hcond o (nextOp_step hi)) e

end Registry
end

namespace Registry
open scoped Plain

def checked (s : State) : Op → Bool
  | .insertFailed _ spec _ _ => (s.rules.find? fun _ e => overlaps e.spec spec).isNone
  | .retry _ | .certStart _ _ => false
  | _ => true

lemma next_of_checked (x : Config) (ev : Event Env Call)
    (h : (nextOp x ev).all (checked x.state)) : Next PutsClear x ev := by
  intro o ho
  rw [ho] at h
  cases o with
  | insertFailed =>
    exact fun k e he _ => Table.find?_eq_none.mp (isNone_iff_eq_none.mp h) k e he
  | retry | certStart => cases h
  | _ => trivial

/-- Of two rules that are restored, one does not resolve and goes in as failed. -/
theorem restore_nonOverlapping :
    ∃ x, (system settings).Reach (Next PutsClear) Config.initial x ∧
      (x.state.specAt (loopback 8080)).isSome ∧
      ((x.state.rules.lookup (loopback 8081)).any fun e => e matches .failed _) ∧
      x.state.NonOverlapping := by
  obtain ⟨x, hx, hp⟩ := exists_reach_of_trace
    [.start (.restoreAs [request .tcp 8080, request .tcp 8081] .api),
      .step 0 .calm, .step 0 .calm, .step 0 .unresolved, .step 0 .calm, .step 0 .calm]
    (fun x => (x.state.specAt (loopback 8080)).isSome &&
      (x.state.rules.lookup (loopback 8081)).any fun e => e matches .failed _)
    next_of_checked (by decide +kernel)
  rw [Bool.and_eq_true] at hp
  exact ⟨x, hx, hp.1, hp.2, reach_nonOverlapping hx⟩

/-- `restore_as` of two rules on one port: `0.0.0.0` starts, and `127.0.0.1`, unresolved, goes in as
failed beside it. -/
theorem restore_clash : ∃ x, (system settings).Reach (fun _ _ => True) Config.initial x ∧
      ¬ x.state.NonOverlapping := by
  obtain ⟨x, hx, hp⟩ := exists_reach_of_trace
    [.start (.restoreAs [{ request .tcp 8080 with listenAddr := "0.0.0.0" },
        request .tcp 8080] .api),
      .step 0 .calm, .step 0 .calm, .step 0 .unresolved, .step 0 .calm, .step 0 .calm]
    (fun x => (x.state.specAt (loopback 8080)).any fun a =>
      (x.state.specAt (wildcard 8080)).any fun b => overlaps a b)
    (fun _ _ (_ : true = true) => trivial) (by decide +kernel)
  refine ⟨x, hx, fun h => ?_⟩
  simp only [State.specAt, any_map, any_eq_true] at hp
  obtain ⟨a, ha, b, hb, hab⟩ := hp
  have := h _ a _ b ha hb (by decide)
  simp [this] at hab

end Registry
end Rproxy
