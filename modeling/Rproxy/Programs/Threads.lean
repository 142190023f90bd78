import Rproxy.Programs.Basic
import Rproxy.Programs.Runs

/-!
# Interleavings of programs

A `System` is a machine with the calls that may begin, each with its program.
-/

namespace Rproxy
open List Option

structure System (Op : Type) (Ret : Op → Type) (Env State Call : Type) extends
    Machine Op Ret Env State where
  program : Call → Prog Op Ret Unit
  begins : Call → State → Option State

structure Thread (Op : Type) (Ret : Op → Type) (Call : Type) where
  call : Call
  rest : Prog Op Ret Unit

structure Configuration (Op : Type) (Ret : Op → Type) (State Call : Type) where
  state : State
  threads : List (Thread Op Ret Call)

inductive Event (Env Call : Type) where
  | start (c : Call)
  | step (i : ℕ) (e : Env)

namespace System
variable {Op : Type} {Ret : Op → Type} {Env State Call : Type}
variable (S : System Op Ret Env State Call)

def step : Event Env Call → Configuration Op Ret State Call →
    Option (Configuration Op Ret State Call)
  | .start c, x => (S.begins c x.state).map fun s => ⟨s, x.threads ++ [⟨c, S.program c⟩]⟩
  | .step i e, x =>
    match x.threads[i]? with
    | some ⟨c, .op o k⟩ =>
      some ⟨(S.exec o e x.state).1, x.threads.set i ⟨c, k (S.exec o e x.state).2⟩⟩
    | _ => none

def trace {H : Type} (ok : Configuration Op Ret State Call → Event Env Call → Bool)
    (note : Configuration Op Ret State Call → Event Env Call → Configuration Op Ret State Call →
      H → H) :
    List (Event Env Call) → Configuration Op Ret State Call → H →
      Option (Configuration Op Ret State Call × H)
  | [], x, a => some (x, a)
  | ev :: evs, x, a =>
    if ok x ev then (S.step ev x).bind fun y => trace ok note evs y (note x ev y a) else none

/-- `x` is reached from `x₀` by steps that all meet `cond`. -/
inductive Reach (cond : Configuration Op Ret State Call → Event Env Call → Prop)
    (x₀ : Configuration Op Ret State Call) : Configuration Op Ret State Call → Prop where
  | refl : Reach cond x₀ x₀
  | step {x y : Configuration Op Ret State Call} {ev : Event Env Call} :
      Reach cond x₀ x → cond x ev → S.step ev x = some y → Reach cond x₀ y

/-- A run that is written down: `note` makes the history after a step from that before it. -/
inductive ReachWith {H : Type} (cond : Configuration Op Ret State Call → Event Env Call → Prop)
    (note : Configuration Op Ret State Call → Event Env Call → Configuration Op Ret State Call →
      H → H) (x₀ : Configuration Op Ret State Call) (a₀ : H) :
    Configuration Op Ret State Call → H → Prop where
  | refl : ReachWith cond note x₀ a₀ x₀ a₀
  | step {x y : Configuration Op Ret State Call} {a : H} {ev : Event Env Call} :
      ReachWith cond note x₀ a₀ x a → cond x ev → S.step ev x = some y →
      ReachWith cond note x₀ a₀ y (note x ev y a)

variable {S}
variable {x₀ x y : Configuration Op Ret State Call} {ev : Event Env Call}
variable {cond : Configuration Op Ret State Call → Event Env Call → Prop}

lemma step_start {c : Call} : S.step (.start c) x = some y ↔
    ∃ s, S.begins c x.state = some s ∧ y = ⟨s, x.threads ++ [⟨c, S.program c⟩]⟩ := by
  simp only [step, map_eq_some_iff]
  exact exists_congr fun s => and_congr Iff.rfl eq_comm

lemma step_step {i : ℕ} {e : Env} : S.step (.step i e) x = some y ↔
    ∃ c o k, x.threads[i]? = some ⟨c, .op o k⟩ ∧
      y = ⟨(S.exec o e x.state).1, x.threads.set i ⟨c, k (S.exec o e x.state).2⟩⟩ := by
  constructor
  · intro h
    rw [step] at h
    split at h
    next c o k hi => exact ⟨c, o, k, hi, (Option.some.inj h).symm⟩
    · cases h
  rintro ⟨c, o, k, hi, rfl⟩
  rw [step, hi]

lemma Reach.invariant {I : Configuration Op Ret State Call → Prop} (hx : S.Reach cond x₀ x)
    (h₀ : I x₀) (hstep : ∀ x ev y, I x → cond x ev → S.step ev x = some y → I y) : I x := by
  induction hx with
  | refl => exact h₀
  | step _ hcond hev ih => exact hstep _ _ _ ih hcond hev

lemma Reach.and {P : Configuration Op Ret State Call → Prop} (hx : S.Reach cond x₀ x)
    (hP : ∀ y, S.Reach cond x₀ y → P y) : S.Reach (fun y ev => cond y ev ∧ P y) x₀ x := by
  induction hx with
  | refl => exact .refl
  | step hx hcond hev ih => exact .step ih ⟨hcond, hP _ hx⟩ hev

variable {H : Type}

lemma Reach.exists_reachWith (hx : S.Reach cond x₀ x)
    (note : Configuration Op Ret State Call → Event Env Call → Configuration Op Ret State Call →
      H → H) (a₀ : H) : ∃ a, S.ReachWith cond note x₀ a₀ x a := by
  induction hx with
  | refl => exact ⟨a₀, .refl⟩
  | step _ hcond hev ih =>
    obtain ⟨a, ha⟩ := ih
    exact ⟨_, .step ha hcond hev⟩

variable {note : Configuration Op Ret State Call → Event Env Call →
  Configuration Op Ret State Call → H → H}

lemma ReachWith.reach {a₀ a : H} (hx : S.ReachWith cond note x₀ a₀ x a) : S.Reach cond x₀ x := by
  induction hx with
  | refl => exact .refl
  | step _ hcond hev ih => exact .step ih hcond hev

variable {ok : Configuration Op Ret State Call → Event Env Call → Bool}
  {evs : List (Event Env Call)}

lemma reachWith_of_trace {a₀ a b : H} (hok : ∀ ev ∈ evs, ∀ x, ok x ev → cond x ev)
    (hx : S.ReachWith cond note x₀ a₀ x a) (h : S.trace ok note evs x a = some (y, b)) :
    S.ReachWith cond note x₀ a₀ y b := by
  induction evs generalizing x a with
  | nil =>
    cases h
    exact hx
  | cons ev evs ih =>
    rw [trace] at h
    split at h
    next hev =>
      obtain ⟨z, hz, hy⟩ := bind_eq_some_iff.mp h
      exact ih (fun ev' h => hok ev' (mem_cons_of_mem _ h))
        (.step hx (hok ev mem_cons_self x hev) hz) hy
    · cases h

lemma exists_reach_of_trace (hok : ∀ ev ∈ evs, ∀ x, ok x ev → cond x ev)
    {p : Configuration Op Ret State Call → Bool}
    (h : ((S.trace ok (fun _ _ _ => id) evs x₀ ()).any fun x => p x.1) = true) :
    ∃ x, S.Reach cond x₀ x ∧ p x = true := by
  rw [Option.any_eq_true] at h
  obtain ⟨⟨x, a⟩, hx, hp⟩ := h
  exact ⟨x, (reachWith_of_trace hok .refl hx).reach, hp⟩

variable {I : State → Prop}

lemma Reach.state (hx : S.Reach cond x₀ x) (h₀ : I x₀.state)
    (hbegins : ∀ c s s', I s → S.begins c s = some s' → I s')
    (hop : ∀ (x : Configuration Op Ret State Call) (i : ℕ) (e : Env) (c : Call) (o : Op)
      (k : Ret o → Prog Op Ret Unit), I x.state → cond x (.step i e) →
        x.threads[i]? = some ⟨c, .op o k⟩ → I (S.exec o e x.state).1) : I x.state := by
  refine hx.invariant (I := fun x => I x.state) h₀ fun x ev y hI hcond hev => ?_
  cases ev with
  | start c =>
    obtain ⟨s, hs, rfl⟩ := step_start.mp hev
    exact hbegins c _ _ hI hs
  | step i e =>
    obtain ⟨c, o, k, hi, rfl⟩ := step_step.mp hev
    exact hop x i e c o k hI hcond hi

variable {s₀ : State}

/-- **The rule of interference**: an invariant `I` of the state and a property `J` of each thread
hold along a run, if a call begins with its property, and the sections of its thread (`hown`) and of
the others (`hother`) keep it. -/
theorem Reach.each {J : State → Call → Prog Op Ret Unit → Prop}
    (hx : S.Reach cond ⟨s₀, []⟩ x) (h₀ : I s₀)
    (hbegins : ∀ x c s', I x.state → cond x (.start c) → S.begins c x.state = some s' →
      I s' ∧ J s' c (S.program c) ∧ ∀ c' p, J x.state c' p → J s' c' p)
    (hown : ∀ s c o k e, I s → J s c (.op o k) →
      I (S.exec o e s).1 ∧ J (S.exec o e s).1 c (k (S.exec o e s).2))
    (hother : ∀ x i e c o k t, I x.state → cond x (.step i e) →
      x.threads[i]? = some ⟨c, .op o k⟩ → (∃ j, j ≠ i ∧ x.threads[j]? = some t) →
      J x.state t.call t.rest → J (S.exec o e x.state).1 t.call t.rest) :
    I x.state ∧ ∀ t ∈ x.threads, J x.state t.call t.rest := by
  refine hx.invariant (I := fun x => I x.state ∧ ∀ t ∈ x.threads, J x.state t.call t.rest)
    ⟨h₀, by simp⟩ fun x ev y hI hcond hev => ?_
  cases ev with
  | start c =>
    obtain ⟨s, hs, rfl⟩ := step_start.mp hev
    obtain ⟨hs', hJ, hold⟩ := hbegins x c s hI.1 hcond hs
    refine ⟨hs', fun t ht => ?_⟩
    rcases mem_append.mp ht with ht | ht
    · exact hold _ _ (hI.2 t ht)
    rw [mem_singleton.mp ht]
    exact hJ
  | step i e =>
    obtain ⟨c, o, k, hi, rfl⟩ := step_step.mp hev
    obtain ⟨hs', hJ⟩ := hown _ c o k e hI.1 (hI.2 _ (mem_of_getElem? hi))
    refine ⟨hs', fun t ht => ?_⟩
    obtain ⟨j, hj⟩ := mem_iff_getElem?.mp ht
    rcases getElem?_set_cases hj with ⟨-, rfl⟩ | ⟨hij, hj⟩
    · exact hJ
    · exact hother x i e c o k t hI.1 hcond hi ⟨j, hij, hj⟩ (hI.2 t (mem_of_getElem? hj))

section Ghost
variable {G : Type} {ok : Op → G → Prop} {upd : (o : Op) → Ret o → G → G} {post : G → Prop}
variable {H : Type} {note : Configuration Op Ret State Call → Event Env Call →
  Configuration Op Ret State Call → H → H}

structure Follows (ok : Op → G → Prop) (upd : (o : Op) → Ret o → G → G) (post : G → Prop)
    (x : Configuration Op Ret State Call) (gs : List G) : Prop where
  length : x.threads.length = gs.length
  safe : ∀ (i : ℕ) (t : Thread Op Ret Call) (g : G), x.threads[i]? = some t → gs[i]? = some g →
    t.rest.Safe ok upd g fun _ g' => post g'

variable {t : Thread Op Ret Call} {gs : List G}

lemma Follows.exists_ghost (h : Follows ok upd post x gs) {i : ℕ} (hi : x.threads[i]? = some t) :
    ∃ g, gs[i]? = some g ∧ t.rest.Safe ok upd g fun _ g' => post g' := by
  have hlt := lt_of_getElem? hi
  have hlt' : i < gs.length := h.length ▸ hlt
  have hg : gs[i]? = some gs[i] := getElem?_eq_getElem hlt'
  exact ⟨_, hg, h.safe i t _ hi hg⟩

lemma Follows.append (h : Follows ok upd post x gs) {s : State} {g : G}
    (ht : t.rest.Safe ok upd g fun _ g' => post g') :
    Follows ok upd post ⟨s, x.threads ++ [t]⟩ (gs ++ [g]) := by
  refine ⟨by simp [h.length], fun i t' g' hi hg => ?_⟩
  rcases getElem?_concat_cases hi with hi | ⟨rfl, rfl⟩
  · rw [getElem?_append_left (h.length ▸ (lt_of_getElem? hi))] at hg
    exact h.safe i t' g' hi hg
  rw [h.length, getElem?_concat_length] at hg
  rw [← some.inj hg]
  exact ht

lemma Follows.set (h : Follows ok upd post x gs) {s : State} {i : ℕ} {g : G}
    (ht : t.rest.Safe ok upd g fun _ g' => post g') :
    Follows ok upd post ⟨s, x.threads.set i t⟩ (gs.set i g) := by
  refine ⟨by simp [h.length], fun j t' g' hj hg => ?_⟩
  rw [getElem?_set] at hj hg
  by_cases hij : i = j
  · subst hij
    rw [if_pos rfl] at hj hg
    split at hj
    · rw [if_pos (h.length ▸ ‹_›)] at hg
      rw [← some.inj hj, ← some.inj hg]
      exact ht
    · cases hj
  · rw [if_neg hij] at hj hg
    exact h.safe j t' g' hj hg

/-- **The rule of ghost values**: an invariant of the state, the history and the ghost values is
kept by a run, if each call may begin safely and each section keeps it. -/
theorem ReachWith.ghost {a₀ a : H} {I : State → H → List G → Prop}
    (hx : S.ReachWith cond note ⟨s₀, []⟩ a₀ x a) (h₀ : I s₀ a₀ [])
    (hbegins : ∀ x a gs c s, I x.state a gs → cond x (.start c) → S.begins c x.state = some s →
      ∃ g, (S.program c).Safe ok upd g (fun _ g' => post g') ∧
        I s (note x (.start c) ⟨s, x.threads ++ [⟨c, S.program c⟩]⟩ a) (gs ++ [g]))
    (hop : ∀ x a gs i e c o k g y, I x.state a gs → Follows ok upd post x gs →
      cond x (.step i e) → x.threads[i]? = some ⟨c, .op o k⟩ → gs[i]? = some g → ok o g →
      y = ⟨(S.exec o e x.state).1, x.threads.set i ⟨c, k (S.exec o e x.state).2⟩⟩ →
      I y.state (note x (.step i e) y a) (gs.set i (upd o (S.exec o e x.state).2 g))) :
    ∃ gs, I x.state a gs ∧ Follows ok upd post x gs := by
  induction hx with
  | refl => exact ⟨[], h₀, rfl, by simp⟩
  | @step x y a ev _ hcond hev ih =>
    obtain ⟨gs, hI, hF⟩ := ih
    cases ev with
    | start c =>
      obtain ⟨s, hs, rfl⟩ := step_start.mp hev
      obtain ⟨g, hsafe, hI'⟩ := hbegins x a gs c s hI hcond hs
      exact ⟨gs ++ [g], hI', hF.append hsafe⟩
    | step i e =>
      obtain ⟨c, o, k, hi, hy⟩ := step_step.mp hev
      obtain ⟨g, hg, hsafe⟩ := hF.exists_ghost hi
      refine ⟨gs.set i (upd o (S.exec o e x.state).2 g),
        hop x a gs i e c o k g y hI hF hcond hi hg hsafe.1 hy, ?_⟩
      rw [hy]
      exact hF.set (hsafe.2 _)

lemma Reach.ghost {I : State → List G → Prop} (hx : S.Reach cond ⟨s₀, []⟩ x) (h₀ : I s₀ [])
    (hbegins : ∀ x gs c s, I x.state gs → cond x (.start c) → S.begins c x.state = some s →
      ∃ g, (S.program c).Safe ok upd g (fun _ g' => post g') ∧ I s (gs ++ [g]))
    (hop : ∀ x gs i e c o k g, I x.state gs → Follows ok upd post x gs → cond x (.step i e) →
      x.threads[i]? = some ⟨c, .op o k⟩ → gs[i]? = some g → ok o g →
      I (S.exec o e x.state).1 (gs.set i (upd o (S.exec o e x.state).2 g))) :
    ∃ gs, I x.state gs ∧ Follows ok upd post x gs := by
  obtain ⟨u, hx⟩ := hx.exists_reachWith (fun _ _ _ (u : Unit) => u) ()
  refine hx.ghost (I := fun s _ gs => I s gs) h₀ (fun x _ gs c s => hbegins x gs c s) ?_
  rintro x _ gs i e c o k g y hI hF hcond hi hg hok rfl
  exact hop x gs i e c o k g hI hF hcond hi hg hok

end Ghost
end System
end Rproxy
