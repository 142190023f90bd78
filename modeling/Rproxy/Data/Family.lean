import Mathlib

/-!
# Families of values

Settings of many items are a family: for each item of `ι` a value of its own type.
-/

namespace Rproxy
variable {ι : Type} [DecidableEq ι] {β γ : ι → Type}

open Function

abbrev Family (β : ι → Type) : Type := (i : ι) → Option (β i)

namespace Family

def none : Family β := fun _ => .none

variable (v w : (i : ι) → γ i) (items : List ι) (i : ι)

def only (b : β i) : Family β := update none i (some b)

lemma only_self (b : β i) : only i b i = some b := update_self ..

lemma only_of_ne {i j : ι} (h : j ≠ i) (b : β i) : only i b j = .none :=
  update_of_ne h ..

def without (v : Family β) (items : List ι) : Family β :=
  items.foldl (fun v i => update v i .none) v

def takeOver : (i : ι) → γ i :=
  items.foldl (fun v i => update v i (w i)) v

lemma takeOver_apply : takeOver v w items i = if i ∈ items then w i else v i := by
  induction items generalizing v with
  | nil => rfl
  | cons j items ih =>
    refine (ih _).trans ?_
    by_cases hij : i = j
    · subst hij
      simp
    · simp [hij]

lemma without_apply (v : Family β) (items : List ι) (i : ι) :
    without v items i = if i ∈ items then .none else v i := takeOver_apply v none items i

lemma takeOver_concat : takeOver v w (items ++ [i]) = update (takeOver v w items) i
    (w i) := by
  rw [takeOver, List.foldl_append]
  rfl

def differing [∀ i, DecidableEq (γ i)] (items : List ι) (v w : (i : ι) → γ i) : List ι :=
  items.filter fun i => v i ≠ w i

omit [DecidableEq ι] in
lemma mem_differing [∀ i, DecidableEq (γ i)] {items : List ι} {v w : (i : ι) → γ i} {i : ι} :
    i ∈ differing items v w ↔ i ∈ items ∧ v i ≠ w i := by
  simp [differing]

end Family
end Rproxy
