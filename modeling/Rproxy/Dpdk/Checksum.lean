import Rproxy.Data.OnesComplement
import Rproxy.Dpdk.Packet

/-!
# The checksums, as residues

Each checksum function is an element of `ZMod 65535`: `fold` keeps the residue, `checksum` is the
negative of the sum of the words, and `adjust` adds the old words and takes away the new ones. The
accumulators are a `u32`, so each sum has to stay below `2 ^ 32`.
-/

namespace Rproxy.Dpdk
open List
open OnesComplement (words)

/-! ## Sums -/

open UInt16 Nat

def total (ws : List UInt16) : ℕ := (ws.map UInt16.toNat).sum

lemma total_cons (w : UInt16) (ws : List UInt16) : total (w :: ws) = w.toNat + total ws := sum_cons

lemma toNat_addAll {ws : List UInt16} {acc : UInt32} (h : acc.toNat + total ws < 2 ^ 32) :
    (addAll ws acc).toNat = acc.toNat + total ws := by
  induction ws generalizing acc with
  | nil => rfl
  | cons w ws ih =>
    have htotal := total_cons w ws
    have hstep : (acc + w.toUInt32).toNat = acc.toNat + w.toNat := by
      rw [UInt32.toNat_add, toNat_toUInt32]
      exact mod_eq_of_lt (by omega)
    rw [addAll, foldl_cons, ← addAll, ih (by omega)]
    omega

lemma toNat_word (a b : UInt8) : (word [a, b]).toNat = a.toNat * 256 + b.toNat := by
  have ha : a.toNat < 256 := a.toNat_lt
  have hb : b.toNat < 256 := b.toNat_lt
  show (ofNat ((0 * 256 + a.toNat) * 256 + b.toNat)).toNat = _
  rw [toNat_ofNat']
  omega

lemma word_be (n : UInt16) : word (Bytes.be 2 n.toNat) = n := by
  rw [word, Bytes.ofBe_be_of_lt n.toNat_lt, UInt16.ofNat_toNat]

lemma sum_cons_cons (a b : UInt8) (l : List UInt8) (acc : UInt32) :
    sum (a :: b :: l) acc = sum l (acc + (word [a, b]).toUInt32) := by
  rw [sum, sum, asChunks]
  generalize asChunks l = chunks
  obtain ⟨ws, _ | ⟨last, _ | _⟩⟩ := chunks
  · rfl
  · rfl
  · rfl

lemma toNat_sum : ∀ {data : List UInt8} {acc : UInt32}, acc.toNat + words data < 2 ^ 32 →
    (sum data acc).toNat = acc.toNat + words data
  | [], _, _ => rfl
  | [a], acc, h => by
    have ha : a.toNat < 256 := a.toNat_lt
    have hacc : acc.toNat + a.toNat * 256 < 2 ^ 32 := h
    show (acc + a.toUInt32 <<< 8).toNat = acc.toNat + a.toNat * 256
    rw [UInt32.toNat_add, UInt32.toNat_shiftLeft, UInt8.toNat_toUInt32]
    show (acc.toNat + a.toNat <<< 8 % 2 ^ 32) % 2 ^ 32 = _
    rw [shiftLeft_eq]
    omega
  | a :: b :: l, acc, h => by
    have hword := toNat_word a b
    have hwords : words (a :: b :: l) = a.toNat * 256 + b.toNat + words l := by rw [words]
    have hstep : (acc + (word [a, b]).toUInt32).toNat = acc.toNat + (word [a, b]).toNat := by
      rw [UInt32.toNat_add, toNat_toUInt32]
      exact mod_eq_of_lt (by omega)
    rw [sum_cons_cons, toNat_sum (by omega)]
    omega

lemma total_asChunks : ∀ {l : List UInt8}, l.length % 2 = 0 → total (asChunks l).1 = words l
  | [], _ => rfl
  | [_], h => absurd h (by rw [length_singleton]; decide)
  | a :: b :: l, h => by
    rw [length_cons, length_cons] at h
    rw [asChunks, words, ← total_asChunks (l := l) (by omega), ← toNat_word]
    rfl

lemma length_asChunks : ∀ l : List UInt8, (asChunks l).1.length = l.length / 2
  | [] => rfl
  | [_] => by simp [asChunks]
  | a :: b :: l => by
    rw [asChunks, length_cons, length_asChunks l, length_cons, length_cons]
    omega

lemma total_le (ws : List UInt16) : total ws ≤ 65535 * ws.length := by
  induction ws with
  | nil => exact Nat.zero_le _
  | cons w ws ih =>
    have hw : w.toNat < 65536 := w.toNat_lt
    rw [length_cons, total_cons]
    omega

lemma natCast_total_not (ws : List UInt16) :
    (total (ws.map fun w => ~~~w) : ZMod 65535) = -(total ws : ZMod 65535) := by
  induction ws with
  | nil => rfl
  | cons w ws ih =>
    rw [map_cons, total_cons, total_cons, cast_add, cast_add, ih,
      OnesComplement.natCast_not]
    ring

lemma natCast_fold (acc : UInt32) : ((fold acc).toNat : ZMod 65535) =
    (acc.toNat : ZMod 65535) := by
  induction acc using fold.induct with
  | case1 acc h ih =>
    rw [fold, if_pos h, ih, toNat_foldRound, OnesComplement.natCast_fold]
  | case2 acc h =>
    have hle : acc.toNat ≤ 65535 := UInt32.le_iff_toNat_le.mp (UInt32.not_lt.mp h)
    rw [fold, if_neg h, UInt32.toNat_toUInt16, mod_eq_of_lt (by omega)]

lemma fold_eq_zero {acc : UInt32} : fold acc = 0 ↔ acc.toNat = 0 := by
  induction acc using fold.induct with
  | case1 acc h ih =>
    rw [fold, if_pos h, ih, toNat_foldRound]
    omega
  | case2 acc h =>
    have hle : acc.toNat ≤ 65535 := UInt32.le_iff_toNat_le.mp (UInt32.not_lt.mp h)
    rw [fold, if_neg h, ← UInt16.toNat_inj, UInt32.toNat_toUInt16, mod_eq_of_lt (by omega)]
    rfl

lemma natCast_not_fold (acc : UInt32) :
    ((~~~fold acc).toNat : ZMod 65535) = -(acc.toNat : ZMod 65535) := by
  rw [OnesComplement.natCast_not, natCast_fold]

lemma toNat_sum_zero {data : List UInt8} (h : words data < 2 ^ 32) :
    (sum data 0).toNat = words data := by
  rw [toNat_sum (by rwa [UInt32.toNat_zero, Nat.zero_add]), UInt32.toNat_zero, Nat.zero_add]

lemma natCast_checksum {data : List UInt8} (h : words data < 2 ^ 32) :
    ((checksum data).toNat : ZMod 65535) = -(words data : ZMod 65535) := by
  rw [checksum, natCast_not_fold, toNat_sum_zero h]

lemma checksum_eq_zero {data : List UInt8} (h : words data < 2 ^ 32) :
    checksum data = 0 ↔ 0 < words data ∧ (words data : ZMod 65535) = 0 := by
  have hsum := toNat_sum_zero h
  have hmax : checksum data = 0 ↔ fold (sum data 0) = 0xffff := by
    rw [checksum]
    constructor
    · intro h
      rw [← not_not (a := fold (sum data 0)), h]
      rfl
    intro h
    rw [h]
    rfl
  have hzero : fold (sum data 0) ≠ 0 ↔ 0 < words data := by
    rw [ne_eq, fold_eq_zero, hsum, Nat.pos_iff_ne_zero]
  have hcast : ((0xffff : UInt16).toNat : ZMod 65535) = 0 := OnesComplement.natCast_max
  rw [hmax, ← hzero, ← hsum, ← natCast_fold]
  constructor
  · intro h
    rw [h]
    exact ⟨by decide, hcast⟩
  rintro ⟨hne, hres⟩
  exact (OnesComplement.natCast_inj hne (by decide)).mp (hres.trans hcast.symm)

lemma natCast_adjust {old new : List UInt8} (hc : UInt16) (hold : old.length = 12)
    (hnew : new.length = 12) : ((adjust hc old new).toNat : ZMod 65535) =
      (hc.toNat : ZMod 65535) + (words old : ZMod 65535) - (words new : ZMod 65535) := by
  have hnot : (~~~hc).toNat < 65536 := toNat_lt _
  have hlen : ∀ {l : List UInt8}, l.length = 12 → (asChunks l).1.length = 6 := by
    intro l hl
    rw [length_asChunks, hl]
  have hold' := total_le ((asChunks old).1.map fun w => ~~~w)
  have hnew' := total_le (asChunks new).1
  rw [length_map, hlen hold] at hold'
  rw [hlen hnew] at hnew'
  have h₁ : (addAll ((asChunks old).1.map fun w => ~~~w) (~~~hc).toUInt32).toNat =
      (~~~hc).toNat + total ((asChunks old).1.map fun w => ~~~w) := by
    rw [toNat_addAll (by rw [toNat_toUInt32]; omega), toNat_toUInt32]
  rw [adjust, natCast_not_fold, toNat_addAll (by rw [h₁]; omega), h₁, cast_add, cast_add,
    natCast_total_not, OnesComplement.natCast_not, total_asChunks (by rw [hold]),
    total_asChunks (by rw [hnew])]
  ring

lemma sentAs_ne_zero (c : UInt16) : sentAs c ≠ 0 := by
  rw [sentAs]
  split_ifs with h
  · decide
  · exact h

lemma natCast_sentAs (c : UInt16) : ((sentAs c).toNat : ZMod 65535) = (c.toNat : ZMod 65535) := by
  rw [sentAs]
  split_ifs with h
  · rw [h]
    exact OnesComplement.natCast_max
  · rfl

end Rproxy.Dpdk
