import Mathlib

/-!
# Counting holders

A shared counter is right when it equals the number of those that hold it.
-/

namespace Rproxy.Holders
open List
variable {α : Type} (p : α → Bool) {l : List α} {i : ℕ} {a : α}

lemma countP_eraseIdx_add (hi : l[i]? = some a) :
    (l.eraseIdx i).countP p + (if p a then 1 else 0) = l.countP p := by
  obtain ⟨hlt, rfl⟩ := List.getElem?_eq_some_iff.mp hi
  rw [← (getElem_cons_eraseIdx_perm hlt).countP_eq p, countP_cons]

lemma countP_set_add (b : α) (hi : l[i]? = some a) :
    (l.set i b).countP p + (if p a then 1 else 0) = l.countP p + (if p b then 1 else 0) := by
  obtain ⟨hlt, -⟩ := List.getElem?_eq_some_iff.mp hi
  rw [(set_perm_cons_eraseIdx hlt b).countP_eq p, countP_cons, ← countP_eraseIdx_add p hi]
  omega

lemma countP_concat (b : α) : (l ++ [b]).countP p = l.countP p + (if p b then 1 else 0) := by
  rw [countP_append, countP_singleton]

variable (f : α → ℕ)

lemma sum_eraseIdx_add (hi : l[i]? = some a) :
    ((l.eraseIdx i).map f).sum + f a = (l.map f).sum := by
  obtain ⟨hlt, rfl⟩ := List.getElem?_eq_some_iff.mp hi
  rw [← ((getElem_cons_eraseIdx_perm hlt).map f).sum_eq, map_cons, sum_cons, Nat.add_comm]

lemma sum_set_add (b : α) (hi : l[i]? = some a) :
    ((l.set i b).map f).sum + f a = (l.map f).sum + f b := by
  obtain ⟨hlt, -⟩ := List.getElem?_eq_some_iff.mp hi
  rw [((set_perm_cons_eraseIdx hlt b).map f).sum_eq, map_cons, sum_cons, ← sum_eraseIdx_add f hi]
  omega

end Rproxy.Holders
