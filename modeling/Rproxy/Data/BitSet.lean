import Mathlib

/-!
# Sets of small numbers as the bits of a word

A set of numbers below `w` is a word of `w` bits.
-/

namespace Rproxy.BitSet
open List Nat Bool
variable {w : ℕ}

/-! ## The lowest bit -/

def trailingZeros (mask : BitVec w) : ℕ := ((List.range w).find? mask.getLsbD).getD w

variable {i : ℕ}

lemma testBit_and_pred {n : ℕ} (hi : n.testBit i) (hlow : ∀ j < i, n.testBit j = false) (j : ℕ) :
    (n &&& (n - 1)).testBit j = (n.testBit j && decide (j ≠ i)) := by
  rw [testBit_and]
  induction i generalizing n j with
  | zero =>
    have hodd : n % 2 = 1 := by simpa using hi
    have hhalf : (n - 1) / 2 = n / 2 := by omega
    have heven : (n - 1) % 2 = 0 := by omega
    cases j with
    | zero => simp [heven]
    | succ j => simp [testBit_succ, hhalf]
  | succ i ih =>
    have heven : n % 2 = 0 := by simpa using hlow 0 (by omega)
    have hhalf : (n - 1) / 2 = n / 2 - 1 := by omega
    cases j with
    | zero => simp [heven]
    | succ j =>
      simp only [testBit_succ] at hi ⊢
      rw [hhalf, ih hi fun k hk => by rw [← testBit_succ]; exact hlow (k + 1) (by omega)]
      simp

variable {mask : BitVec w}

lemma toNat_pos (h : mask ≠ 0) : 0 < mask.toNat :=
  pos_of_ne_zero fun hzero => h (BitVec.eq_of_toNat_eq hzero)

lemma toNat_sub_one (h : mask ≠ 0) : (mask - 1).toNat = mask.toNat - 1 := by
  have hpos := toNat_pos h
  have hone : (1 : BitVec w).toNat = 1 := by
    show (BitVec.ofNat w 1).toNat = 1
    exact mod_eq_of_lt (by omega)
  exact BitVec.toNat_sub_of_le (by rw [BitVec.le_def, hone]; exact hpos) |>.trans (by rw [hone])

lemma getLsbD_and_sub_one (hfirst : (List.range w).find? mask.getLsbD = some i) (j : ℕ) :
    (mask &&& (mask - 1)).getLsbD j = (mask.getLsbD j && decide (j ≠ i)) := by
  have hi : mask.getLsbD i := find?_some hfirst
  have hne : mask ≠ 0 := by
    rintro rfl
    simp at hi
  have hlow : ∀ k < i, mask.toNat.testBit k = false := by
    intro k hk
    obtain ⟨-, -, hnone⟩ := find?_range_eq_some.mp hfirst
    exact (not_eq_true' _).mp (hnone k hk)
  rw [BitVec.getLsbD_and]
  have hbits := testBit_and_pred hi hlow j
  rw [testBit_and] at hbits
  rw [BitVec.getLsbD, BitVec.getLsbD, toNat_sub_one hne]
  exact hbits

def bits (mask : BitVec w) : List ℕ :=
  if mask = 0 then [] else trailingZeros mask :: bits (mask &&& (mask - 1))
termination_by mask.toNat
decreasing_by
  rw [BitVec.toNat_and, toNat_sub_one ‹_›]
  have hle := @Nat.and_le_right mask.toNat (mask.toNat - 1)
  have hpos : mask.toNat ≠ 0 := fun hzero =>
    ‹mask ≠ 0› (BitVec.eq_of_toNat_eq (by simpa using hzero))
  omega

lemma filter_eq_cons_of_find? {α : Type} [DecidableEq α] {p : α → Bool} {l : List α} {a : α}
    (hnodup : l.Nodup) (hfirst : l.find? p = some a) :
    l.filter p = a :: l.filter fun x => p x && decide (x ≠ a) := by
  induction l with
  | nil => cases hfirst
  | cons b l ih =>
    obtain ⟨hb, hl⟩ := nodup_cons.mp hnodup
    by_cases hp : p b
    · rw [find?_cons_of_pos hp, Option.some.injEq] at hfirst
      subst hfirst
      rw [filter_cons_of_pos hp, filter_cons_of_neg (by simp)]
      refine congrArg _ (filter_congr fun x hx => ?_)
      have hne : x ≠ b := fun heq => hb (heq ▸ hx)
      rw [decide_eq_true hne, Bool.and_true]
    rw [find?_cons_of_neg hp] at hfirst
    rw [filter_cons_of_neg hp, ih hl hfirst, filter_cons_of_neg (by simp [hp])]

lemma bits_eq_filter (mask : BitVec w) : bits mask = (List.range w).filter mask.getLsbD := by
  induction mask using bits.induct with
  | case1 =>
    rw [bits]
    refine (filter_eq_nil_iff.mpr fun i _ => ?_).symm
    simp
  | case2 mask hne ih =>
    rw [bits, if_neg hne, ih]
    cases hfirst : (List.range w).find? mask.getLsbD with
    | none =>
      refine absurd (BitVec.eq_of_getLsbD_eq fun i hi => ?_) hne
      have hnot := find?_eq_none.mp hfirst i (mem_range.mpr hi)
      simpa using hnot
    | some i =>
      rw [trailingZeros, hfirst, filter_eq_cons_of_find? nodup_range hfirst]
      exact congrArg _ (filter_congr fun j _ => getLsbD_and_sub_one hfirst j)

/-! ## Building sets -/

def bit (i : ℕ) : BitVec w := (1 : BitVec w) <<< i

lemma bit_eq : (bit i : BitVec w) = BitVec.twoPow w i := (BitVec.twoPow_eq w i).symm

lemma getLsbD_bit (hi : i < w) (j : ℕ) : (bit i : BitVec w).getLsbD j = decide (j = i) := by
  simp [bit_eq, hi, eq_comm]

lemma and_bit_eq_zero (hi : i < w) : mask &&& bit i = 0 ↔ mask.getLsbD i = false := by
  constructor
  · intro h
    have hbit : (mask &&& bit i).getLsbD i = (0 : BitVec w).getLsbD i := by rw [h]
    rw [BitVec.getLsbD_and, getLsbD_bit hi, decide_eq_true rfl, Bool.and_true] at hbit
    exact hbit.trans BitVec.getLsbD_zero
  intro h
  refine BitVec.eq_of_getLsbD_eq fun j hj => ?_
  rw [BitVec.getLsbD_and, getLsbD_bit hi]
  by_cases hji : j = i
  · subst hji
    simp [h]
  · simp [hji]

/-- **A set that a loop over a list builds**: at each entry it takes in the entry's place if the
entry has the property. -/
theorem getLsbD_foldl_zipIdx {σ α : Type} (set : σ → BitVec w) {f : σ → α × ℕ → σ} {p : α → Bool}
    (hstep : ∀ s m, set (f s m) = if p m.1 then set s ||| bit m.2 else set s)
    {s : σ} (hs : set s = 0) {l : List α} (hl : l.length ≤ w) (j : ℕ) :
    (set (l.zipIdx.foldl f s)).getLsbD j = l[j]?.any p := by
  induction l using List.reverseRecOn with
  | nil => simp [hs]
  | append_singleton l a ih =>
    rw [length_append, length_singleton] at hl
    have hlast : (set ((l ++ [a]).zipIdx.foldl f s)).getLsbD j =
        (l[j]?.any p || (decide (j = l.length) && p a)) := by
      rw [zipIdx_append, foldl_append, zipIdx_singleton, foldl_cons,
        foldl_nil, hstep, zero_add, ← ih (by omega)]
      cases hp : p a with
      | true => rw [if_pos rfl, BitVec.getLsbD_or, getLsbD_bit (by omega), Bool.and_true]
      | false => rw [if_neg Bool.false_ne_true, Bool.and_false, Bool.or_false]
    rw [hlast]
    by_cases hj : j < l.length
    · rw [getElem?_append_left hj, decide_eq_false (by omega), Bool.false_and, Bool.or_false]
    rw [getElem?_append_right (by omega), getElem?_eq_none (l := l) (by omega)]
    by_cases heq : j = l.length
    · simp [heq]
    rw [getElem?_eq_none (by rw [length_singleton]; omega), decide_eq_false heq]
    rfl

lemma bits_eq_filter_of_lt {n : ℕ} {p : ℕ → Bool} (hn : n ≤ w)
    (hbits : ∀ j < w, mask.getLsbD j = (decide (j < n) && p j)) :
    bits mask = (List.range n).filter p := by
  obtain ⟨k, rfl⟩ := Nat.exists_eq_add_of_le hn
  rw [bits_eq_filter, range_add, filter_append]
  have hrest : ((List.range k).map (n + ·)).filter mask.getLsbD = [] := by
    refine filter_eq_nil_iff.mpr fun j hj => ?_
    obtain ⟨i, hi, rfl⟩ := mem_map.mp hj
    have := mem_range.mp hi
    simp [hbits (n + i) (by omega)]
  rw [hrest, append_nil]
  refine filter_congr fun j hj => ?_
  have hlt := mem_range.mp hj
  rw [hbits j (by omega), decide_eq_true hlt, Bool.true_and]

lemma bits_eq_nil : bits mask = [] ↔ mask = 0 := by
  constructor
  · intro h
    rw [bits] at h
    split at h
    · assumption
    · cases h
  rintro rfl
  rw [bits, if_pos rfl]

lemma getLsbD_bit_sub_one {n : ℕ} (hn : n < w) (j : ℕ) :
    ((bit n : BitVec w) - 1).getLsbD j = decide (j < n) := by
  have htoNat : (bit n : BitVec w).toNat = 2 ^ n := by
    rw [bit_eq, BitVec.toNat_twoPow]
    exact Nat.mod_eq_of_lt (Nat.pow_lt_pow_right (by decide) hn)
  have hne : (bit n : BitVec w) ≠ 0 := by
    intro h
    have hpos := Nat.two_pow_pos n
    rw [← htoNat, h] at hpos
    simp at hpos
  rw [BitVec.getLsbD, toNat_sub_one hne, htoNat, testBit_two_pow_sub_one]

end Rproxy.BitSet
