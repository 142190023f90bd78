import Mathlib

/-!
# Validators as sequences of checks

A validator of the source is a sequence of checks, each of which refuses the value with an error or
goes on.
-/

namespace Rproxy.Checks
variable {ε α β : Type}

open List

def refuseIf (c : Prop) [Decidable c] (e : ε) : Except ε Unit :=
  if c then .error e else .ok ()

variable {e : ε} {c : Prop}

@[simp] theorem refuseIf_eq_ok [Decidable c] {u : Unit} : refuseIf c e = .ok u ↔ ¬ c := by
  unfold refuseIf
  split <;> simp_all

variable {f : α → Except ε β} {x : Except ε α}

@[simp] theorem bind_eq_ok {b : β} : (x >>= f) = .ok b ↔ ∃ a, x = .ok a ∧ f a = .ok b := by
  cases x with
  | error e | ok a => simp [bind, Except.bind]

@[simp] theorem exists_unit {p : Unit → Prop} : (∃ u, p u) ↔ p () :=
  ⟨fun ⟨(), h⟩ => h, fun h => ⟨(), h⟩⟩

variable {a : α}

@[simp] theorem pure_eq_ok {b : α} : (pure a : Except ε α) = .ok b ↔ a = b := by
  simp [pure, Except.pure]

@[simp] theorem throw_eq_ok : (throw e : Except ε α) = .ok a ↔ False := by
  simp [throw, throwThe, MonadExceptOf.throw]

@[simp] theorem mapError_eq_ok {ε' : Type} {f : ε → ε'} : x.mapError f = .ok a ↔ x = .ok a := by
  cases x <;> simp [Except.mapError]

lemma exists_ok_of_isOk (h : x.isOk = true) : ∃ a, x = .ok a := by
  cases x with
  | ok a => exact ⟨a, rfl⟩
  | error e => cases h

def okOr (e : ε) : Option α → Except ε α
  | some a => .ok a
  | none => .error e

@[simp] theorem okOr_eq_ok {x : Option α} : okOr e x = .ok a ↔ x = some a := by
  cases x <;> simp [okOr]

def onSome (x : Option α) (f : α → Except ε Unit) : Except ε Unit :=
  match x with
  | some a => f a
  | none => .ok ()

@[simp] theorem onSome_eq_ok {x : Option α} {f : α → Except ε Unit} :
    onSome x f = .ok () ↔ ∀ a, x = some a → f a = .ok () := by
  cases x <;> simp [onSome]

lemma onSome_throw_eq_ok {x : Option α} {e : α → ε} :
    onSome x (fun a => (throw (e a) : Except ε Unit)) = .ok () ↔ x = none := by
  cases x <;> simp

def orKeep (x : Option α) (f : α → Except ε β) (current : β) : Except ε β :=
  match x with
  | some a => f a
  | none => .ok current

lemma of_orKeep {x : Option α} {current b : β} {p : β → Prop}
    (h : orKeep x f current = .ok b) (hf : ∀ a, x = some a → f a = .ok b → p b)
    (hcurrent : x = none → p current) : p b := by
  cases x with
  | none =>
    obtain rfl : current = b := by simpa [orKeep] using h
    exact hcurrent rfl
  | some a => exact hf a rfl h

def onlyIf (c : Prop) [Decidable c] (x : Except ε Unit) : Except ε Unit :=
  if c then x else .ok ()

@[simp] theorem onlyIf_eq_ok [Decidable c] {x : Except ε Unit} :
    onlyIf c x = .ok () ↔ (c → x = .ok ()) := by
  unfold onlyIf
  split <;> simp_all

/-! ### What was refused, and by which check -/

lemma bind_eq_error : x >>= f = .error e ↔ x = .error e ∨ ∃ a, x = .ok a ∧ f a = .error e := by
  cases x <;> simp [bind, Except.bind]

lemma pure_eq_error : (pure a : Except ε α) = .error e ↔ False := by
  simp [pure, Except.pure]

lemma throw_eq_error {e' : ε} : (throw e : Except ε α) = .error e' ↔ e = e' := by
  simp [throw, throwThe, MonadExceptOf.throw]

lemma mapError_eq_error {ε' : Type} {f : ε → ε'} {e : ε'} :
    x.mapError f = .error e ↔ ∃ e', x = .error e' ∧ f e' = e := by
  cases x <;> simp [Except.mapError]

lemma onSome_eq_error {x : Option α} {f : α → Except ε Unit} :
    onSome x f = .error e ↔ ∃ a, x = some a ∧ f a = .error e := by
  cases x <;> simp [onSome]

lemma onlyIf_eq_error [Decidable c] {x : Except ε Unit} :
    onlyIf c x = .error e ↔ c ∧ x = .error e := by
  unfold onlyIf
  split <;> simp_all

def forEach (f : α → Except ε Unit) : List α → Except ε Unit
  | [] => .ok ()
  | a :: l => f a >>= fun _ => forEach f l

variable {l : List α}

@[simp] theorem forEach_eq_ok {f : α → Except ε Unit} :
    forEach f l = .ok () ↔ ∀ a ∈ l, f a = .ok () := by
  induction l with
  | nil => simp [forEach]
  | cons a l ih => simp [forEach, ih]

lemma exists_of_forEach_eq_error {f : α → Except ε Unit}
    (h : forEach f l = .error e) : ∃ a ∈ l, f a = .error e := by
  induction l with
  | nil => cases h
  | cons a l ih =>
    obtain ha | ⟨-, -, hl⟩ := bind_eq_error.mp h
    · exact ⟨a, mem_cons_self .., ha⟩
    obtain ⟨b, hb, he⟩ := ih hl
    exact ⟨b, mem_cons_of_mem a hb, he⟩

def collect (f : α → Except ε β) : List α → Except ε (List β)
  | [] => .ok []
  | a :: l => f a >>= fun b => collect f l >>= fun bs => .ok (b :: bs)

variable {bs : List β}

lemma collect_eq_ok : collect f l = .ok bs ↔ List.Forall₂ (fun a b => f a = .ok b) l bs := by
  induction l generalizing bs with
  | nil => cases bs <;> simp [collect]
  | cons a l ih =>
    cases bs with
    | nil => simp [collect]
    | cons b bs => simp [collect, ih]

lemma exists_of_mem_collect {b : β}
    (h : collect f l = .ok bs) (hb : b ∈ bs) : ∃ a ∈ l, f a = .ok b := by
  rw [collect_eq_ok] at h
  induction h with
  | nil => cases hb
  | cons hab _ ih =>
    rcases mem_cons.mp hb with rfl | hb
    · exact ⟨_, mem_cons_self, hab⟩
    obtain ⟨a, ha, hfa⟩ := ih hb
    exact ⟨a, mem_cons_of_mem _ ha, hfa⟩

lemma collect_map {g : β → α}
    (h : ∀ b ∈ bs, f (g b) = .ok b) : collect f (bs.map g) = .ok bs := by
  rw [collect_eq_ok, forall₂_map_left_iff, forall₂_same]
  exact h

def Ensures (p : α → Prop) (x : Except ε α) : Prop :=
  ∀ a, x = .ok a → p a

lemma Ensures.bind {p : β → Prop} (h : ∀ a, Ensures p (f a)) : Ensures p (x >>= f) := by
  intro b hb
  obtain ⟨a, -, ha⟩ := bind_eq_ok.mp hb
  exact h a b ha

lemma Ensures.pure {p : α → Prop} (h : p a) : Ensures p (pure a : Except ε α) := by
  intro b hb
  rw [pure_eq_ok] at hb
  exact hb ▸ h

end Rproxy.Checks
