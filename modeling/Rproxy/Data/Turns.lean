import Mathlib

/-!
# Taking turns

Two ways to choose one of a list.
-/

namespace Rproxy.Turns
open List
variable {α : Type}

/-! ## Turns by weight -/

section Turn
variable (w : α → ℕ)

def turn : List α → ℕ → Option α
  | [], _ => none
  | a :: l, n => if n < w a then some a else turn l (n - w a)

variable {l : List α}

lemma turn_congr {w v : α → ℕ} (h : ∀ a ∈ l, w a = v a) (n : ℕ) : turn w l n = turn v l n := by
  induction l generalizing n with
  | nil => rfl
  | cons a l ih =>
    rw [turn, turn, h a mem_cons_self, ih fun b hb => h b (mem_cons_of_mem _ hb)]

lemma mem_of_turn {n : ℕ} {a : α} (h : turn w l n = some a) : a ∈ l := by
  induction l generalizing n with
  | nil => cases h
  | cons b l ih =>
    rw [turn] at h
    split at h
    · rw [Option.some.inj h]
      exact mem_cons_self
    · exact mem_cons_of_mem _ (ih h)

lemma turn_isSome {n : ℕ} (h : n < (l.map w).sum) : (turn w l n).isSome := by
  induction l generalizing n with
  | nil => exact absurd h (Nat.not_lt_zero _)
  | cons b l ih =>
    rw [map_cons, sum_cons] at h
    rw [turn]
    split
    · rfl
    · exact ih (by omega)

variable [DecidableEq α]

lemma countP_turn (l : List α) (a : α) :
    (List.range (l.map w).sum).countP (fun n => turn w l n = some a) = l.count a * w a := by
  induction l with
  | nil => simp
  | cons b l ih =>
    have hfirst : (List.range (w b)).countP (fun n => turn w (b :: l) n = some a) =
        if b = a then w a else 0 := by
      have hall : ∀ n ∈ List.range (w b), (turn w (b :: l) n = some a) = (b = a) := by
        intro n hn
        rw [turn, if_pos (mem_range.mp hn), Option.some.injEq]
      rw [countP_congr (q := fun _ => decide (b = a)) fun n hn => by simp [hall n hn]]
      split <;> simp_all
    have hrest : ((List.range (l.map w).sum).map (w b + ·)).countP
        (fun n => turn w (b :: l) n = some a) = l.count a * w a := by
      rw [countP_map, ← ih]
      refine countP_congr fun n _ => ?_
      have hnot : ¬ w b + n < w b := by omega
      simp only [Function.comp, turn, if_neg hnot, Nat.add_sub_cancel_left]
    rw [map_cons, sum_cons, range_add, countP_append, hfirst, hrest, count_cons]
    simp only [beq_iff_eq]
    split
    · rw [Nat.add_mul, Nat.one_mul, Nat.add_comm]
    · rw [Nat.zero_add, Nat.add_zero]

lemma countP_turn_window (l : List α) (a : α) (start : ℕ) :
    (List.range' start (l.map w).sum).countP
        (fun n => turn w l (n % (l.map w).sum) = some a) = l.count a * w a := by
  have hperiodic : Function.Periodic (fun n => turn w l (n % (l.map w).sum) = some a)
      (l.map w).sum := by
    intro n
    simp only [Nat.add_mod_right]
  calc (List.range' start (l.map w).sum).countP (fun n => turn w l (n % (l.map w).sum) = some a)
      = Multiset.card (Multiset.filter (fun n => turn w l (n % (l.map w).sum) = some a)
          (Multiset.Ico start (start + (l.map w).sum))) := by
        rw [countP_eq_length_filter]
        show _ = (List.filter _ (List.range' start (start + (l.map w).sum - start))).length
        rw [Nat.add_sub_cancel_left]
    _ = Nat.count (fun n => turn w l (n % (l.map w).sum) = some a) (l.map w).sum :=
        Nat.filter_multiset_Ico_card_eq_of_periodic start _ _ hperiodic
    _ = (List.range (l.map w).sum).countP (fun n => turn w l n = some a) := by
        refine countP_congr fun n hn => ?_
        simp only [Nat.mod_eq_of_lt (mem_range.mp hn)]
    _ = l.count a * w a := countP_turn w l a

/-- **In a window of `k` times the sum of the weights each entry has `k` times its weight of
turns**, wherever the window starts. -/
theorem countP_turn_windows (l : List α) (a : α) (start k : ℕ) :
    (List.range' start (k * (l.map w).sum)).countP
        (fun n => turn w l (n % (l.map w).sum) = some a) = k * (l.count a * w a) := by
  induction k generalizing start with
  | zero => simp
  | succ k ih =>
    rw [Nat.succ_mul, ← range'_append_1, countP_append, ih, countP_turn_window, Nat.succ_mul]

end Turn

section MinBy

def minBy (gt : α → α → Bool) : List α → Option α
  | [] => none
  | a :: l => some (l.foldl (fun x y => if gt x y then y else x) a)

variable {l : List α} {gt : α → α → Bool}

lemma minBy_eq_none (h : minBy gt l = none) : l = [] := by
  cases l with
  | nil => rfl
  | cons a l => cases h

lemma mem_of_minBy {m : α} (h : minBy gt l = some m) : m ∈ l := by
  cases l with
  | nil => cases h
  | cons a l =>
    rw [← Option.some.inj h]
    refine foldlRecOn l _ mem_cons_self fun x hx y hy => ?_
    split
    · exact mem_cons_of_mem _ hy
    · exact hx

variable {β : Type*} [LinearOrder β] {gt : α → α → Bool} (f : α → β)

lemma foldl_first_least {a : α} (hgt : ∀ x ∈ a :: l, ∀ y ∈ a :: l, gt x y ↔ f y < f x) :
    ∃ before rest, a :: l = before ++ l.foldl (fun x y => if gt x y then y else x) a :: rest ∧
      (∀ x ∈ before, f (l.foldl (fun x y => if gt x y then y else x) a) < f x) ∧
      ∀ x ∈ rest, f (l.foldl (fun x y => if gt x y then y else x) a) ≤ f x := by
  -- from the right: the last entry is looked at last
  induction l using List.reverseRecOn with
  | nil => exact ⟨[], [], rfl, nofun, nofun⟩
  | append_singleton l b ih =>
    have hsub : ∀ x ∈ a :: l, x ∈ a :: (l ++ [b]) := fun x hx => by
      exact mem_append_left _ hx
    obtain ⟨before, rest, heq, hbefore, hrest⟩ :=
      ih fun x hx y hy => hgt x (hsub x hx) y (hsub y hy)
    obtain ⟨m, hm⟩ : ∃ m, l.foldl (fun x y => if gt x y then y else x) a = m := ⟨_, rfl⟩
    rw [hm] at heq hbefore hrest
    have hmem : m ∈ a :: (l ++ [b]) := hsub m (heq ▸ mem_append_right _ mem_cons_self)
    have hb : b ∈ a :: (l ++ [b]) := by simp
    rw [foldl_append, hm, foldl_cons, foldl_nil, ← cons_append, heq]
    split
    · rename_i hgreater
      have hlt := (hgt m hmem b hb).mp hgreater
      refine ⟨before ++ m :: rest, [], rfl, fun x hx => ?_, nofun⟩
      rcases mem_append.mp hx with hx | hx
      · exact hlt.trans (hbefore x hx)
      rcases mem_cons.mp hx with rfl | hx
      · exact hlt
      · exact hlt.trans_le (hrest x hx)
    rename_i hnot
    have hle : f m ≤ f b := not_lt.mp fun hlt => hnot ((hgt m hmem b hb).mpr hlt)
    refine ⟨before, rest ++ [b], by rw [append_assoc, cons_append], hbefore, ?_⟩
    intro x hx
    rcases mem_append.mp hx with hx | hx
    · exact hrest x hx
    rw [mem_singleton.mp hx]
    exact hle

lemma minBy_eq_some (hgt : ∀ x ∈ l, ∀ y ∈ l, gt x y ↔ f y < f x) (hne : l ≠ []) :
    ∃ m before rest, minBy gt l = some m ∧ l = before ++ m :: rest ∧
      (∀ x ∈ before, f m < f x) ∧ ∀ x ∈ rest, f m ≤ f x := by
  cases l with
  | nil => exact absurd rfl hne
  | cons a l =>
    obtain ⟨before, rest, heq, hbefore, hrest⟩ := foldl_first_least f hgt
    exact ⟨_, before, rest, rfl, heq, hbefore, hrest⟩

end MinBy
end Rproxy.Turns
