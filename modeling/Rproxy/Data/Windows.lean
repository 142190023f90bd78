import Mathlib

/-!
# Windows of a buffer

Code that works on a buffer in place reads and writes stretches of it, at computed offsets.
-/

namespace Rproxy.Windows
open List
variable {α : Type*} {l l' w : List α} {a b n m : ℕ}

def window (l : List α) (a n : ℕ) : List α := (l.drop a).take n

def overwrite (l : List α) (a : ℕ) (w : List α) : List α := l.take a ++ w ++ l.drop (a + w.length)

def slice (l : List α) (a b : ℕ) : Option (List α) :=
  if a ≤ b ∧ b ≤ l.length then some (window l a (b - a)) else none

def write (l : List α) (a : ℕ) (w : List α) : Option (List α) :=
  if a + w.length ≤ l.length then some (overwrite l a w) else none

lemma slice_eq_some (h : a + n ≤ l.length) (hb : b = a + n) :
    slice l a b = some (window l a n) := by
  subst hb
  rw [slice, if_pos ⟨Nat.le_add_right a n, h⟩, Nat.add_sub_cancel_left]

lemma length_window (h : a + n ≤ l.length) : (window l a n).length = n := by
  rw [window, length_take, length_drop]
  omega

lemma length_overwrite (h : a + w.length ≤ l.length) : (overwrite l a w).length = l.length := by
  rw [overwrite, length_append, length_append, length_take, length_drop]
  omega

lemma getElem?_window (i : ℕ) : (window l a n)[i]? = if i < n then l[a + i]? else none := by
  rw [window]
  split_ifs with h
  · rw [getElem?_take_of_lt h, getElem?_drop]
  · exact getElem?_take_eq_none (Nat.le_of_not_lt h)

lemma getElem?_overwrite (h : a + w.length ≤ l.length) (i : ℕ) : (overwrite l a w)[i]? =
    if a ≤ i ∧ i < a + w.length then w[i - a]? else l[i]? := by
  have htake : (l.take a).length = a := by
    rw [length_take]
    omega
  rw [overwrite, append_assoc]
  rcases Nat.lt_or_ge i a with hi | hi
  · rw [getElem?_append_left (by omega), getElem?_take_of_lt hi, if_neg (by omega)]
  rw [getElem?_append_right (by omega), htake]
  rcases Nat.lt_or_ge i (a + w.length) with hi' | hi'
  · rw [getElem?_append_left (by omega), if_pos ⟨hi, hi'⟩]
  rw [getElem?_append_right (by omega), getElem?_drop, if_neg (by omega)]
  congr 1
  omega

lemma window_congr (h : ∀ i, a ≤ i → i < a + n → l[i]? = l'[i]?) :
    window l a n = window l' a n := by
  refine ext_getElem? fun i => ?_
  rw [getElem?_window, getElem?_window]
  split_ifs with hi
  · exact h (a + i) (Nat.le_add_right a i) (Nat.add_lt_add_left hi a)
  · rfl

/-! ## A window after a write -/

/-- `l'` is `l` after `w` has been written over it from `a` on. -/
structure Wrote (l l' : List α) (a : ℕ) (w : List α) : Prop where
  inside : a + w.length ≤ l.length
  eq : l' = overwrite l a w

lemma exists_write (h : a + w.length ≤ l.length) : ∃ l', write l a w = some l' ∧ Wrote l l' a w :=
  ⟨overwrite l a w, if_pos h, h, rfl⟩

lemma Wrote.length (h : Wrote l l' a w) : l'.length = l.length := by
  rw [h.eq, length_overwrite h.inside]

lemma Wrote.same (h : Wrote l l' a w) {i : ℕ} (hi : i < a ∨ a + w.length ≤ i) :
    l'[i]? = l[i]? := by
  rw [h.eq, getElem?_overwrite h.inside, if_neg (by omega)]

lemma Wrote.shows (h : Wrote l l' a w) (hn : w.length = n) : window l' a n = w := by
  refine ext_getElem? fun i => ?_
  rw [h.eq, getElem?_window, getElem?_overwrite h.inside]
  split_ifs with h₁ h₂
  · rw [Nat.add_sub_cancel_left]
  · omega
  · exact (getElem?_eq_none (by omega)).symm

lemma Wrote.window_same (h : Wrote l l' a w) (hb : b + n ≤ a ∨ a + w.length ≤ b) :
    window l' b n = window l b n :=
  window_congr fun _ hi hi' => h.same (by omega)

lemma Wrote.window_within (h : Wrote l l' a w) (hn : b + n ≤ l.length) (hb : b ≤ a)
    (ha : a + w.length ≤ b + n) : window l' b n = overwrite (window l b n) (a - b) w := by
  have hlen : (window l b n).length = n := length_window hn
  refine ext_getElem? fun i => ?_
  rw [h.eq, getElem?_window, getElem?_overwrite h.inside, getElem?_overwrite (by omega),
    getElem?_window]
  split_ifs with h₁ h₂ h₃ h₄
  · congr 1
    omega
  · omega
  · omega
  · rfl
  · omega
  · rfl

lemma window_window (h : b + m ≤ n) : window (window l a n) b m = window l (a + b) m := by
  refine ext_getElem? fun i => ?_
  rw [getElem?_window, getElem?_window, getElem?_window]
  split_ifs with h₁ h₂
  · rw [Nat.add_assoc]
  · omega
  · rfl

lemma window_add : window l a (n + m) = window l a n ++ window l (a + n) m := by
  rw [window, take_add, drop_drop, window, window]

end Rproxy.Windows
