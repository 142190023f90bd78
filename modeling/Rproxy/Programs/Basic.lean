import Mathlib

/-!
# Programs of atomic sections

A concurrent program runs as a sequence of atomic sections, each under a lock or one access to a
shared cell.
-/

namespace Rproxy

/-- A program whose atomic sections are the operations `Op`, answering `Ret o`. -/
inductive Prog (Op : Type) (Ret : Op → Type) (α : Type) : Type where
  | ret (a : α)
  | op (o : Op) (k : Ret o → Prog Op Ret α)

namespace Prog
variable {Op : Type} {Ret : Op → Type} {α β : Type}

protected def bind : Prog Op Ret α → (α → Prog Op Ret β) → Prog Op Ret β
  | ret a, f => f a
  | op o k, f => op o fun r => (k r).bind f

instance : Monad (Prog Op Ret) where
  pure := ret
  bind := Prog.bind

def perform (o : Op) : Prog Op Ret (Ret o) := op o ret

@[simp]
lemma pure_def (a : α) : (pure a : Prog Op Ret α) = ret a := rfl

@[simp]
lemma ret_bind (a : α) (f : α → Prog Op Ret β) : (ret a : Prog Op Ret α) >>= f = f a := rfl

@[simp]
lemma op_bind (o : Op) (k : Ret o → Prog Op Ret α) (f : α → Prog Op Ret β) :
    op o k >>= f = op o fun r => k r >>= f := rfl

@[simp]
lemma perform_bind (o : Op) (f : Ret o → Prog Op Ret β) : perform o >>= f = op o f := rfl

def forEach (f : β → Prog Op Ret Unit) : List β → Prog Op Ret Unit
  | [] => ret ()
  | b :: l => f b >>= fun _ => forEach f l

def mapEach (f : β → Prog Op Ret α) : List β → Prog Op Ret (List α)
  | [] => ret []
  | b :: l => f b >>= fun a => mapEach f l >>= fun as => ret (a :: as)

def next? : Prog Op Ret α → Option Op
  | ret _ => none
  | op o _ => some o

def done (p : Prog Op Ret α) : Prop := p.next? = none

@[simp]
lemma done_ret (a : α) : (ret a : Prog Op Ret α).done := rfl

@[simp]
lemma not_done_op (o : Op) (k : Ret o → Prog Op Ret α) : ¬ (op o k).done := by
  intro h
  cases h

/-! ## What a program may perform -/

def All (P : Op → Prop) : Prog Op Ret α → Prop
  | ret _ => True
  | op o k => P o ∧ ∀ r, (k r).All P

/-- However the program goes on, it performs an operation with `P`. -/
def Must (P : Op → Prop) : Prog Op Ret α → Prop
  | ret _ => False
  | op o k => P o ∨ ∀ r, (k r).Must P

variable {P Q : Op → Prop} {p : Prog Op Ret α}

lemma All.mono (h : ∀ o, P o → Q o) (hp : p.All P) : p.All Q := by
  induction p with
  | ret a => trivial
  | op o k ih => exact ⟨h o hp.1, fun r => ih r (hp.2 r)⟩

variable {f : α → Prog Op Ret β}

lemma All.bind (hp : p.All P) (hf : ∀ a, (f a).All P) : (p >>= f).All P := by
  induction p with
  | ret a => exact hf a
  | op o k ih => exact ⟨hp.1, fun r => ih r (hp.2 r)⟩

variable {l : List β}

lemma All.forEach {f : β → Prog Op Ret Unit} (h : ∀ b ∈ l, (f b).All P) :
    (forEach f l).All P := by
  induction l with
  | nil => trivial
  | cons b l ih =>
    refine All.bind (h b (by simp)) fun _ => ih fun c hc => h c (by simp [hc])

lemma All.mapEach {f : β → Prog Op Ret α} (h : ∀ b ∈ l, (f b).All P) : (mapEach f l).All P := by
  induction l with
  | nil => trivial
  | cons b l ih =>
    refine All.bind (h b (by simp)) fun a => ?_
    exact All.bind (ih fun c hc => h c (by simp [hc])) fun as => trivial

lemma All.bind_except {ε : Type} {x : ExceptT ε (Prog Op Ret) α}
    {f : α → ExceptT ε (Prog Op Ret) β} (hx : x.run.All P) (hf : ∀ a, (f a).run.All P) :
    (x >>= f).run.All P := by
  refine All.bind hx fun r => ?_
  rcases r with e | a
  · trivial
  · exact hf a

/-! ## Following a thread with a ghost value -/

section Ghost
variable {G : Type} (ok : Op → G → Prop) (upd : (o : Op) → Ret o → G → G)

/-- From the ghost value `g`, each operation of the program is performed only where `ok` allows it,
the ghost value moves by `upd`, and the program returns with `post`. -/
def Safe : Prog Op Ret α → G → (α → G → Prop) → Prop
  | ret a, g, post => post a g
  | op o k, g, post => ok o g ∧ ∀ r, (k r).Safe (upd o r g) post

variable {ok upd} {g : G} {post : β → G → Prop}

lemma safe_bind :
    (p >>= f).Safe ok upd g post ↔ p.Safe ok upd g fun a g' => (f a).Safe ok upd g' post := by
  induction p generalizing g with
  | ret a => exact Iff.rfl
  | op o k ih => exact and_congr Iff.rfl (forall_congr' fun r => ih r)

lemma Safe.mono {post post' : α → G → Prop}
    (hp : p.Safe ok upd g post) (h : ∀ a g, post a g → post' a g) : p.Safe ok upd g post' := by
  induction p generalizing g with
  | ret a => exact h a g hp
  | op o k ih => exact ⟨hp.1, fun r => ih r (hp.2 r)⟩

lemma Safe.bind {mid : α → G → Prop} (hp : p.Safe ok upd g mid)
    (hf : ∀ a g', mid a g' → (f a).Safe ok upd g' post) : (p >>= f).Safe ok upd g post :=
  safe_bind.mpr (hp.mono hf)

lemma Safe.of_all {post : α → G → Prop}
    (hp : p.All fun o => ok o g ∧ ∀ r, upd o r g = g) (h : ∀ a, post a g) :
    p.Safe ok upd g post := by
  induction p with
  | ret a => exact h a
  | op o k ih =>
    refine ⟨hp.1.1, fun r => ?_⟩
    rw [hp.1.2 r]
    exact ih r (hp.2 r)

lemma Safe.forEach {f : β → Prog Op Ret Unit}
    (h : ∀ b ∈ l, (f b).Safe ok upd g fun _ g' => g' = g) :
    (Prog.forEach f l).Safe ok upd g fun _ g' => g' = g := by
  induction l with
  | nil => rfl
  | cons b l ih =>
    refine (h b (by simp)).bind fun _ g' hg' => ?_
    subst hg'
    exact ih fun c hc => h c (by simp [hc])

lemma Safe.mapEach {f : β → Prog Op Ret α} (h : ∀ b ∈ l, (f b).Safe ok upd g fun _ g' => g' = g) :
    (Prog.mapEach f l).Safe ok upd g fun _ g' => g' = g := by
  induction l with
  | nil => rfl
  | cons b l ih =>
    refine (h b (by simp)).bind fun _ g' hg' => ?_
    subst hg'
    refine (ih fun c hc => h c (by simp [hc])).bind fun _ g' hg' => ?_
    exact hg'

end Ghost
end Prog

structure Machine (Op : Type) (Ret : Op → Type) (Env State : Type) where
  exec : (o : Op) → Env → State → State × Ret o

namespace Prog
variable {Op : Type} {Ret : Op → Type} {Env State α β : Type} (M : Machine Op Ret Env State)

def run (e : Env) : Prog Op Ret α → State → State × α
  | ret a, s => (s, a)
  | op o k, s => (k (M.exec o e s).2).run e (M.exec o e s).1

/-- The program run alone from `s`, in environments of its own, returns `a` in the state `s'`. -/
def Runs : Prog Op Ret α → State → State → α → Prop
  | ret b, s, s', a => s' = s ∧ a = b
  | op o k, s, s', a => ∃ e, (k (M.exec o e s).2).Runs (M.exec o e s).1 s' a

variable {M} {s : State} {e : Env} {p : Prog Op Ret α}

lemma run_bind {f : α → Prog Op Ret β} :
    (p >>= f).run M e s = (f (p.run M e s).2).run M e (p.run M e s).1 := by
  induction p generalizing s with
  | ret a => rfl
  | op o k ih => exact ih _

@[simp]
lemma run_ret {a : α} : (ret a : Prog Op Ret α).run M e s = (s, a) := rfl

@[simp]
lemma run_op {o : Op} {k : Ret o → Prog Op Ret α} :
    (op o k).run M e s = (k (M.exec o e s).2).run M e (M.exec o e s).1 := rfl

@[simp]
lemma run_perform {o : Op} : (perform o : Prog Op Ret (Ret o)).run M e s = M.exec o e s := rfl

variable {f : β → Prog Op Ret α} {l : List β} {b : β}

lemma run_mapEach_cons :
    ((mapEach f (b :: l)).run M e s).1 = ((mapEach f l).run M e ((f b).run M e s).1).1 := by
  simp only [mapEach, run_bind, run_ret]

lemma result_mapEach_cons : ((mapEach f (b :: l)).run M e s).2
      = ((f b).run M e s).2 :: ((mapEach f l).run M e ((f b).run M e s).1).2 := by
  simp only [mapEach, run_bind, run_ret]

lemma run_mapEach_append {l' : List β} : ((mapEach f (l ++ l')).run M e s).1
      = ((mapEach f l').run M e ((mapEach f l).run M e s).1).1 := by
  induction l generalizing s with
  | nil => rfl
  | cons b l ih => rw [List.cons_append, run_mapEach_cons, ih, run_mapEach_cons]

lemma run_forEach_cons {f : β → Prog Op Ret Unit} :
    ((forEach f (b :: l)).run M e s).1 = ((forEach f l).run M e ((f b).run M e s).1).1 := by
  simp only [forEach, run_bind]

lemma runs_run (e : Env) (p : Prog Op Ret α) (s : State) :
    p.Runs M s (p.run M e s).1 (p.run M e s).2 := by
  induction p generalizing s with
  | ret a => exact ⟨rfl, rfl⟩
  | op o k ih => exact ⟨e, ih _ _⟩

variable {s' : State}

lemma runs_bind {f : α → Prog Op Ret β} :
    (p >>= f).Runs M s s' b ↔ ∃ s₁ a, p.Runs M s s₁ a ∧ (f a).Runs M s₁ s' b := by
  induction p generalizing s with
  | ret a =>
    constructor
    · intro h
      exact ⟨s, a, ⟨rfl, rfl⟩, h⟩
    rintro ⟨_, _, ⟨rfl, rfl⟩, h⟩
    exact h
  | op o k ih =>
    constructor
    · rintro ⟨e, h⟩
      obtain ⟨s₁, a, h₁, h₂⟩ := (ih _).mp h
      exact ⟨s₁, a, ⟨e, h₁⟩, h₂⟩
    rintro ⟨s₁, a, ⟨e, h₁⟩, h₂⟩
    exact ⟨e, (ih _).mpr ⟨s₁, a, h₁, h₂⟩⟩

lemma runs_bind_except {ε : Type} {x : ExceptT ε (Prog Op Ret) α}
    {f : α → ExceptT ε (Prog Op Ret) β} :
    (x >>= f).run.Runs M s s' (.ok b) ↔
      ∃ s₁ a, x.run.Runs M s s₁ (.ok a) ∧ (f a).run.Runs M s₁ s' (.ok b) := by
  refine runs_bind.trans ⟨?_, ?_⟩
  · rintro ⟨s₁, e | a, hx, hf⟩
    · cases hf.2
    · exact ⟨s₁, a, hx, hf⟩
  rintro ⟨s₁, a, hx, hf⟩
  exact ⟨s₁, .ok a, hx, hf⟩

lemma Safe.runs {G : Type} {ok : Op → G → Prop} {upd : (o : Op) → Ret o → G → G}
    {I : State → G → Prop} {post : α → G → Prop}
    (hop : ∀ o e s g, ok o g → I s g → I (M.exec o e s).1 (upd o (M.exec o e s).2 g)) {g : G}
    (hp : p.Safe ok upd g post) {a : α}
    (h : p.Runs M s s' a) (hs : I s g) : ∃ g', I s' g' ∧ post a g' := by
  induction p generalizing s g with
  | ret b =>
    obtain ⟨rfl, rfl⟩ := h
    exact ⟨g, hs, hp⟩
  | op o k ih =>
    obtain ⟨e, h⟩ := h
    exact ih _ (hp.2 _) h (hop o e s g hp.1 hs)

lemma Runs.keeps {I : State → Prop} {P : Op → Prop}
    (hop : ∀ o e s, P o → I s → I (M.exec o e s).1) (hp : p.All P) {a : α} (h : p.Runs M s s' a)
    (hs : I s) : I s' := by
  induction p generalizing s with
  | ret b =>
    rw [h.1]
    exact hs
  | op o k ih =>
    obtain ⟨e, h⟩ := h
    exact ih _ (hp.2 _) h (hop o e s hp.1 hs)

end Prog
end Rproxy
