import Rproxy.Programs.Threads

/-!
# Calls that run alone

Some calls may run side by side: each of their operations keeps an invariant, whatever happens in
between.
-/

namespace Rproxy
open List
variable {Op : Type} {Ret : Op → Type} {Env State Call α β : Type}
namespace Prog

/-- Run alone from `s`, in environments with `E`, the program passes only through states with `I`,
and returns `a` in a state with `post a`. -/
def Always (M : Machine Op Ret Env State) (E : Env → Prop) (I : State → Prop)
    (post : α → State → Prop) : Prog Op Ret α → State → Prop
  | ret a, s => I s ∧ post a s
  | op o k, s => I s ∧ ∀ e, E e → (k (M.exec o e s).2).Always M E I post (M.exec o e s).1

variable {M : Machine Op Ret Env State} {E : Env → Prop} {I : State → Prop}
variable {post : α → State → Prop} {p : Prog Op Ret α} {s : State}

lemma Always.now (h : p.Always M E I post s) : I s := by
  cases p with
  | ret a | op o k => exact h.1

lemma Always.mono {post' : α → State → Prop}
    (h : p.Always M E I post s) (hpost : ∀ a s, I s → post a s → post' a s) :
    p.Always M E I post' s := by
  induction p generalizing s with
  | ret a => exact ⟨h.1, hpost a s h.1 h.2⟩
  | op o k ih => exact ⟨h.1, fun e he => ih _ (h.2 e he)⟩

lemma Always.bind {post' : β → State → Prop} {f : α → Prog Op Ret β} (h : p.Always M E I post s)
    (hf : ∀ a s', I s' → post a s' → (f a).Always M E I post' s') :
    (p >>= f).Always M E I post' s := by
  induction p generalizing s with
  | ret a => exact hf a s h.1 h.2
  | op o k ih => exact ⟨h.1, fun e he => ih _ (h.2 e he)⟩

lemma Always.bind_except {ε : Type} {x : ExceptT ε (Prog Op Ret) α}
    {f : α → ExceptT ε (Prog Op Ret) β} {post : Except ε α → State → Prop}
    {post' : Except ε β → State → Prop} (hx : x.run.Always M E I post s)
    (herror : ∀ e s', post (.error e) s' → post' (.error e) s')
    (hf : ∀ a s', post (.ok a) s' → (f a).run.Always M E I post' s') :
    (x >>= f).run.Always M E I post' s := by
  refine Always.bind hx fun r s' hs' hpost => ?_
  rcases r with e | a
  · exact ⟨hs', herror e s' hpost⟩
  · exact hf a s' hpost

lemma Always.and_runs (h : p.Always M E I post s) :
    p.Always M E I (fun a s' => post a s' ∧ p.Runs M s s' a) s := by
  induction p generalizing s with
  | ret a => exact ⟨h.1, h.2, rfl, rfl⟩
  | op o k ih =>
    exact ⟨h.1, fun e he => (ih _ (h.2 e he)).mono fun a s' _ hpost => ⟨hpost.1, e, hpost.2⟩⟩

lemma Always.of_all {P : Op → Prop} {J : State → Prop}
    (hop : ∀ o e s, P o → E e → J s → J (M.exec o e s).1) (hJ : ∀ s, J s → I s) (hp : p.All P)
    (hs : J s) : p.Always M E I (fun _ => J) s := by
  induction p generalizing s with
  | ret a => exact ⟨hJ s hs, hs⟩
  | op o k ih => exact ⟨hJ s hs, fun e he => ih _ (hp.2 _) (hop o e s hp.1 he hs)⟩

end Prog

namespace System
variable {S : System Op Ret Env State Call}
variable {cond : Configuration Op Ret State Call → Event Env Call → Prop}

def Ordered (S : System Op Ret Env State Call) (E : Env → Prop) (I J : State → Prop)
    (F : Call → Prop) (P : Op → Prop) (x : Configuration Op Ret State Call) : Prop :=
  (J x.state ∧ ∀ t ∈ x.threads, t.rest.done ∨ F t.call ∧ t.rest.All P) ∨
    ∃ (i : ℕ) (t : Thread Op Ret Call), x.threads[i]? = some t ∧ ¬ F t.call ∧
      t.rest.Always S.toMachine E I (fun _ => J) x.state ∧
      ∀ j t', j ≠ i → x.threads[j]? = some t' → t'.rest.done

variable {E : Env → Prop} {I J : State → Prop} {F : Call → Prop} {P : Op → Prop}
variable {x : Configuration Op Ret State Call}

lemma Ordered.inv_of_done (h : S.Ordered E I J F P x)
    (hdone : ∀ t ∈ x.threads, t.rest.done ∨ F t.call) :
    J x.state ∧ ∀ t ∈ x.threads, t.rest.done ∨ F t.call ∧ t.rest.All P := by
  rcases h with h | ⟨i, t, hi, hfree, halways, hothers⟩
  · exact h
  have hthis : t.rest.done := (hdone t (mem_of_getElem? hi)).resolve_right hfree
  refine ⟨?_, fun t' ht' => .inl ?_⟩
  · cases hrest : t.rest with
    | ret a =>
      rw [hrest] at halways
      exact halways.2
    | op o k =>
      rw [hrest] at hthis
      exact absurd hthis (Prog.not_done_op o k)
  obtain ⟨j, hj⟩ := mem_iff_getElem?.mp ht'
  by_cases hij : j = i
  · subst hij
    cases hi.symm.trans hj
    exact hthis
  · exact hothers j t' hij hj

/-- **The rule of calls that run alone**: every state of a run has `I`, if the calls that may run
side by side keep `J` with each of their operations, and the others alone. -/
theorem Reach.exclusive {s₀ : State} (hx : S.Reach cond ⟨s₀, []⟩ x) (h₀ : J s₀)
    (hInv : ∀ s, J s → I s) (henv : ∀ x i e, cond x (.step i e) → E e)
    (hstart : ∀ x c, cond x (.start c) →
      (∀ t ∈ x.threads, t.rest.done) ∨ F c ∧ ∀ t ∈ x.threads, t.rest.done ∨ F t.call)
    (hbegins : ∀ x c s, F c → cond x (.start c) → J x.state → S.begins c x.state = some s →
      J s ∧ (S.program c).All P) (hop : ∀ o e s, P o → E e → J s → J (S.exec o e s).1)
    (halone : ∀ x c s, ¬ F c → cond x (.start c) → J x.state → S.begins c x.state = some s →
      (S.program c).Always S.toMachine E I (fun _ => J) s) : I x.state := by
  have h : S.Ordered E I J F P x := by
    refine hx.invariant (.inl ⟨h₀, by simp⟩) fun x ev y hord hcond hev => ?_
    cases ev with
    | start c =>
      obtain ⟨s, hs, rfl⟩ := step_start.mp hev
      have hready := hstart x c hcond
      have hdone : ∀ t ∈ x.threads, t.rest.done ∨ F t.call := by
        rcases hready with h | h
        · exact fun t ht => .inl (h t ht)
        · exact h.2
      obtain ⟨hinv, hthreads⟩ := hord.inv_of_done hdone
      by_cases hfree : F c
      · obtain ⟨hinv', hall⟩ := hbegins x c s hfree hcond hinv hs
        refine .inl ⟨hinv', fun t ht => ?_⟩
        rcases mem_append.mp ht with ht | ht
        · exact hthreads t ht
        rw [mem_singleton.mp ht]
        exact .inr ⟨hfree, hall⟩
      have hquiet := hready.resolve_right fun h => hfree h.1
      refine .inr ⟨x.threads.length, ⟨c, S.program c⟩, by simp, hfree,
        halone x c s hfree hcond hinv hs, fun j t hj ht => ?_⟩
      rcases getElem?_concat_cases ht with ht | ⟨rfl, -⟩
      · exact hquiet t (mem_of_getElem? ht)
      · exact absurd rfl hj
    | step i e =>
      obtain ⟨c, o, k, hi, rfl⟩ := step_step.mp hev
      have hlt := lt_of_getElem? hi
      rcases hord with ⟨hinv, hthreads⟩ | ⟨j, t, hj, hfree, halways, hothers⟩
      · obtain ⟨hcall, hall⟩ := (hthreads _ (mem_of_getElem? hi)).resolve_left
          (Prog.not_done_op o k)
        refine .inl ⟨hop o e _ hall.1 (henv x i e hcond) hinv, fun t ht => ?_⟩
        rcases mem_or_eq_of_mem_set ht with ht | rfl
        · exact hthreads t ht
        · exact .inr ⟨hcall, hall.2 _⟩
      -- only the call that runs alone can step
      have hij : i = j := by
        by_contra hne
        exact Prog.not_done_op o k (hothers i _ hne hi)
      subst hij
      cases hj.symm.trans hi
      refine .inr ⟨i, ⟨c, k (S.exec o e x.state).2⟩, getElem?_set_self hlt, hfree,
        halways.2 e (henv x i e hcond), fun j' t' hne ht' => ?_⟩
      rw [getElem?_set_ne (Ne.symm hne)] at ht'
      exact hothers j' t' hne ht'
  rcases h with ⟨hinv, -⟩ | ⟨i, t, -, -, halways, -⟩
  · exact hInv _ hinv
  · exact halways.now

end System
end Rproxy
