import Mathlib

/-!
# Numbers and text as bytes

Network formats write numbers as bytes, the highest first, and text as ASCII.
-/

namespace Rproxy.Bytes
open List

/-! ## Big-endian numbers -/

open UInt8

def be : ℕ → ℕ → List UInt8
  | 0, _ => []
  | n + 1, x => be n (x / 256) ++ [ofNat x]

variable (l : List UInt8) (n : ℕ)

def ofBe : ℕ := l.foldl (fun v b => v * 256 + b.toNat) 0

@[simp] theorem length_be (x : ℕ) : (be n x).length = n := by
  induction n generalizing x with
  | zero => rfl
  | succ n ih => rw [be, length_append, ih, length_singleton]

@[simp] theorem ofBe_nil : ofBe [] = 0 := rfl

@[simp] theorem ofBe_concat (b : UInt8) : ofBe (l ++ [b]) = ofBe l * 256 + b.toNat := by
  rw [ofBe, foldl_concat, ofBe]

lemma ofBe_be (x : ℕ) : ofBe (be n x) = x % 256 ^ n := by
  induction n generalizing x with
  | zero => rw [pow_zero, Nat.mod_one]; rfl
  | succ n ih =>
    rw [be, ofBe_concat, ih, toNat_ofNat']
    rw [pow_succ' 256 n, Nat.mod_mul]
    ring

lemma ofBe_be_of_lt {n x : ℕ} (h : x < 256 ^ n) : ofBe (be n x) = x := by
  rw [ofBe_be, Nat.mod_eq_of_lt h]

/-! ## Decimal text -/

def isDigit (b : UInt8) : Bool := 0x30 ≤ b && b ≤ 0x39

def decimal : List UInt8 :=
  if n = 0 then [0x30] else (Nat.digits 10 n).reverse.map fun d => ofNat (0x30 + d)

def ofDecimal : ℕ := l.foldl (fun v b => v * 10 + (b.toNat - 0x30)) 0

lemma decimal_ne_nil : decimal n ≠ [] := by
  unfold decimal
  split
  · simp
  next h => simpa [Nat.digits_eq_nil_iff_eq_zero] using h

lemma toNat_digit {d : ℕ} (h : d < 10) : (ofNat (0x30 + d)).toNat = 0x30 + d := by
  rw [toNat_ofNat']
  omega

lemma isDigit_of_mem_decimal {n : ℕ} {b : UInt8} (h : b ∈ decimal n) : isDigit b := by
  unfold decimal at h
  split at h
  · rw [mem_singleton.mp h]
    decide
  obtain ⟨d, hd, rfl⟩ := mem_map.mp h
  have hlt : d < 10 := Nat.digits_lt_base (by decide) (mem_reverse.mp hd)
  have hval := toNat_digit hlt
  simp only [isDigit, Bool.and_eq_true, decide_eq_true_eq, le_iff_toNat_le, hval]
  constructor
  · exact Nat.le_add_right _ _
  show 0x30 + d ≤ 0x39
  omega

lemma decimal_head {n : ℕ} (h : n ≠ 0) : ∃ b l, decimal n = b :: l ∧ b ≠ 0x30 := by
  have hne : Nat.digits 10 n ≠ [] := Nat.digits_ne_nil_iff_ne_zero.mpr h
  have hlast := Nat.getLast_digit_ne_zero 10 h
  have hlt : (Nat.digits 10 n).getLast hne < 10 := Nat.digits_lt_base (by decide) (getLast_mem hne)
  rw [decimal, if_neg h, ← dropLast_append_getLast hne]
  simp only [reverse_append, reverse_cons, reverse_nil, nil_append, singleton_append, map_cons]
  refine ⟨_, _, rfl, fun heq => hlast ?_⟩
  have hval := toNat_digit hlt
  rw [heq] at hval
  have : (0x30 : UInt8).toNat = 0x30 := rfl
  omega

lemma length_decimal_le {n k : ℕ} (hk : 0 < k) (h : n < 10 ^ k) : (decimal n).length ≤ k := by
  unfold decimal
  split
  · exact hk
  rw [length_map, length_reverse]
  exact (Nat.digits_length_le_iff (by decide) n).mpr h

lemma ofDecimal_digits (l : List ℕ) (h : ∀ d ∈ l, d < 10) :
    ofDecimal (l.reverse.map fun d => ofNat (0x30 + d)) = Nat.ofDigits 10 l := by
  induction l with
  | nil => rfl
  | cons d l ih =>
    have hd := toNat_digit (h d mem_cons_self)
    have hl := ih fun d hd => h d (mem_cons_of_mem _ hd)
    rw [ofDecimal] at hl ⊢
    rw [reverse_cons, map_append, map_singleton, foldl_concat, Nat.ofDigits_cons]
    omega

lemma ofDecimal_decimal : ofDecimal (decimal n) = n := by
  unfold decimal
  split
  next h => rw [h]; rfl
  · rw [ofDecimal_digits _ fun d hd => Nat.digits_lt_base (by decide) hd, Nat.ofDigits_digits]

end Rproxy.Bytes
