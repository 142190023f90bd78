import Mathlib

/-!
# Runs of a state machine

A component is a function from a state and an event to the next state; a run is a list of events.
-/

namespace Rproxy

lemma getElem?_concat_cases {α : Type} {l : List α} {a b : α} {i : ℕ}
    (h : (l ++ [a])[i]? = some b) : l[i]? = some b ∨ i = l.length ∧ b = a := by
  rw [List.getElem?_append] at h
  split at h
  · exact .inl h
  rw [List.getElem?_singleton] at h
  split at h
  · exact .inr ⟨by omega, (Option.some.inj h).symm⟩
  · cases h

lemma getElem?_set_cases {α : Type} {l : List α} {a b : α} {i j : ℕ}
    (hj : (l.set i a)[j]? = some b) :
    j = i ∧ b = a ∨ j ≠ i ∧ l[j]? = some b := by
  rw [List.getElem?_set] at hj
  split at hj
  next hij =>
    split at hj
    · exact .inl ⟨hij.symm, (Option.some.inj hj).symm⟩
    · cases hj
  next hij => exact .inr ⟨Ne.symm hij, hj⟩

lemma lt_of_getElem? {α : Type*} {l : List α} {i : ℕ} {a : α} (h : l[i]? = some a) :
    i < l.length := (List.getElem?_eq_some_iff.mp h).1

variable {S E : Type}

def after (step : S → E → S) (s : S) (evs : List E) : S := evs.foldl step s

variable {step : S → E → S}

lemma after_invariant {I : S → Prop} {s : S} (evs : List E) (h₀ : I s)
    (hstep : ∀ s e, I s → I (step s e)) : I (after step s evs) := by
  induction evs generalizing s with
  | nil => exact h₀
  | cons e evs ih => exact ih (hstep s e h₀)

/-- Each event of a run meets `P` in the state in which it happens. -/
def Along (step : S → E → S) (P : S → E → Prop) : S → List E → Prop
  | _, [] => True
  | s, e :: evs => P s e ∧ Along step P (step s e) evs

instance Along.decidable (step : S → E → S) (P : S → E → Prop) [∀ s e, Decidable (P s e)] :
    (s : S) → (evs : List E) → Decidable (Along step P s evs)
  | _, [] => .isTrue trivial
  | s, e :: evs =>
    let _ := decidable step P (step s e) evs
    inferInstanceAs (Decidable (_ ∧ _))

variable {evs : List E}

lemma Along.and {P Q : S → E → Prop} {s : S} (hp : Along step P s evs) (hq : Along step Q s evs) :
    Along step (fun s e => P s e ∧ Q s e) s evs := by
  induction evs generalizing s with
  | nil => trivial
  | cons e evs ih => exact ⟨⟨hp.1, hq.1⟩, ih hp.2 hq.2⟩

lemma Along.of_forall_mem {P : E → Prop}
    (h : ∀ e ∈ evs, P e) (s : S) : Along step (fun _ e => P e) s evs := by
  induction evs generalizing s with
  | nil => trivial
  | cons e evs ih =>
    obtain ⟨he, hevs⟩ := List.forall_mem_cons.mp h
    exact ⟨he, ih hevs (step s e)⟩

lemma Along.invariant {P : S → E → Prop} {I : S → Prop} {s : S} (h : Along step P s evs)
    (h₀ : I s) (hstep : ∀ s e, I s → P s e → I (step s e)) :
    I (after step s evs) := by
  induction evs generalizing s with
  | nil => exact h₀
  | cons e evs ih => exact ih h.2 (hstep s e h₀ h.1)

end Rproxy
