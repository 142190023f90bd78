import Rproxy.Data.Bytes

/-!
# Ones' complement sums

The Internet checksums add the 16-bit words of some bytes and fold the carries back in.
-/

namespace Rproxy.OnesComplement

open List

def words : List UInt8 → ℕ
  | a :: b :: l => a.toNat * 256 + b.toNat + words l
  | [a] => a.toNat * 256
  | [] => 0

lemma words_append : ∀ {l : List UInt8} (m : List UInt8), l.length % 2 = 0 →
    words (l ++ m) = words l + words m
  | [], m, _ => by rw [nil_append, words, Nat.zero_add]
  | [_], _, h => absurd h (by rw [length_singleton]; decide)
  | a :: b :: l, m, h => by
    rw [length_cons, length_cons] at h
    rw [cons_append, cons_append, words, words, words_append m (by omega)]
    ring

lemma words_le : ∀ l : List UInt8, words l ≤ 65535 * ((l.length + 1) / 2)
  | [] => Nat.zero_le _
  | [a] => by
    have ha : a.toNat < 256 := a.toNat_lt
    rw [words, length_singleton]
    omega
  | a :: b :: l => by
    have ha : a.toNat < 256 := a.toNat_lt
    have hb : b.toNat < 256 := b.toNat_lt
    have hl := words_le l
    have hlen : (l.length + 1 + 1 + 1) / 2 = (l.length + 1) / 2 + 1 := by omega
    rw [words, length_cons, length_cons, hlen, Nat.mul_add]
    omega

lemma words_be (c : UInt16) : words (Bytes.be 2 c.toNat) = c.toNat := by
  have hc : c.toNat < 65536 := c.toNat_lt
  show (UInt8.ofNat (c.toNat / 256)).toNat * 256 + (UInt8.ofNat c.toNat).toNat + 0 = c.toNat
  rw [UInt8.toNat_ofNat', UInt8.toNat_ofNat']
  omega

lemma natCast_max : ((65535 : ℕ) : ZMod 65535) = 0 := ZMod.natCast_self 65535

lemma natCast_not (x : UInt16) : ((~~~x).toNat : ZMod 65535) = -(x.toNat : ZMod 65535) := by
  have hx : x.toNat < 65536 := x.toNat_lt
  have hsum : (~~~x).toNat + x.toNat = 65535 := by
    rw [UInt16.toNat_not]
    show 65536 - 1 - x.toNat + x.toNat = 65535
    omega
  have hcast := congrArg (Nat.cast : ℕ → ZMod 65535) hsum
  rw [Nat.cast_add] at hcast
  exact eq_neg_of_add_eq_zero_left hcast

lemma natCast_inj {x y : UInt16} (hx : x ≠ 0) (hy : y ≠ 0) :
    (x.toNat : ZMod 65535) = (y.toNat : ZMod 65535) ↔ x = y := by
  have hpos : ∀ {z : UInt16}, z ≠ 0 → 0 < z.toNat := fun {z} hz =>
    Nat.pos_of_ne_zero fun h => hz (UInt16.toNat_inj.mp h)
  have hx' := x.toNat_lt
  have hy' := y.toNat_lt
  have hx₀ := hpos hx
  have hy₀ := hpos hy
  rw [ZMod.natCast_eq_natCast_iff, ← UInt16.toNat_inj]
  constructor
  · intro h
    have h' : x.toNat % 65535 = y.toNat % 65535 := h
    omega
  intro h
  rw [h]

lemma natCast_fold (n : ℕ) : ((n % 65536 + n / 65536 : ℕ) : ZMod 65535) = (n : ZMod 65535) := by
  rw [ZMod.natCast_eq_natCast_iff]
  show (n % 65536 + n / 65536) % 65535 = n % 65535
  omega

end Rproxy.OnesComplement
