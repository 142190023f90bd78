import Rproxy.Rule.Plain

/-!
# What a range holds

A range holds the addresses that share its first bits (`contains_iff`), where an IPv4-mapped address
counts as the IPv4 address it maps.
-/

namespace Rproxy

/-! ## First bits -/

open IpAddr

namespace IpAddr

lemma getMsbD_prefixBits {w : Nat} {n : UInt8} (h : n.toNat ≤ w) (i : Nat) :
    (prefixBits w n).getMsbD i = decide (i < n.toNat) := by
  unfold prefixBits
  split
  next hn => simp [hn]
  · rw [BitVec.getMsbD_shiftLeft, BitVec.getMsbD_allOnes]
    exact decide_eq_decide.mpr (by omega)

lemma and_prefixBits_eq_iff {w : Nat} {n : UInt8} (h : n.toNat ≤ w) (x y : BitVec w) :
    x &&& prefixBits w n = y &&& prefixBits w n ↔ ∀ i < n.toNat, x.getMsbD i = y.getMsbD i := by
  constructor
  · intro heq i hi
    have hbit := congrArg (fun z => BitVec.getMsbD z i) heq
    simpa [BitVec.getMsbD_and, getMsbD_prefixBits h, hi] using hbit
  intro hbits
  refine BitVec.eq_of_getMsbD_eq fun i hi => ?_
  rw [BitVec.getMsbD_and, BitVec.getMsbD_and, getMsbD_prefixBits h]
  by_cases hlt : i < n.toNat
  · rw [hbits i hlt]
  · simp [hlt]

lemma prefixBits_and {w : Nat} {m n : UInt8} (hmn : m ≤ n) (hn : n.toNat ≤ w) :
    prefixBits w n &&& prefixBits w m = prefixBits w m := by
  have hle : m.toNat ≤ n.toNat := hmn
  refine BitVec.eq_of_getMsbD_eq fun i hi => ?_
  rw [BitVec.getMsbD_and, getMsbD_prefixBits hn, getMsbD_prefixBits (by omega)]
  by_cases hlt : i < m.toNat
  · simp [hlt, show i < n.toNat by omega]
  · simp [hlt]

lemma mask_mask_of_le {ip : IpAddr} {m n : UInt8} (hmn : m ≤ n) (hn : n ≤ ip.width) :
    (ip.mask n).mask m = ip.mask m := by
  cases ip with
  | v4 bits => simp only [mask, BitVec.and_assoc, prefixBits_and hmn (w := 32) hn]
  | v6 bits => simp only [mask, BitVec.and_assoc, prefixBits_and hmn (w := 128) hn]

/-- Two addresses of one family with the same first `n` bits. -/
def Shares (n : Nat) : IpAddr → IpAddr → Prop
  | v4 a, v4 b => ∀ i < n, a.getMsbD i = b.getMsbD i
  | v6 a, v6 b => ∀ i < n, a.getMsbD i = b.getMsbD i
  | _, _ => False

def last (ip : IpAddr) (n : UInt8) : IpAddr :=
  match ip with
  | v4 bits => v4 (bits ||| ~~~ prefixBits 32 n)
  | v6 bits => v6 (bits ||| ~~~ prefixBits 128 n)

end IpAddr

namespace Cidr

lemma contains_iff (c : Cidr) (ip : IpAddr) :
    c.contains ip ↔ ip.canonical.Shares c.prefixLen.toNat c.net := by
  obtain ⟨net, n, -, hfits, hmasked⟩ := c
  rw [contains, Bool.and_eq_true]
  cases net with
  | v4 b =>
    have hb : b &&& prefixBits 32 n = b := by simpa [mask] using hmasked
    cases ip.canonical with
    | v4 a =>
      rw [IpAddr.Shares, ← and_prefixBits_eq_iff (w := 32) hfits, hb]
      simp [mask, isIpv4]
    | v6 a => simp [IpAddr.Shares, isIpv4]
  | v6 b =>
    have hb : b &&& prefixBits 128 n = b := by simpa [mask] using hmasked
    cases ip.canonical with
    | v4 a => simp [IpAddr.Shares, isIpv4]
    | v6 a =>
      rw [IpAddr.Shares, ← and_prefixBits_eq_iff (w := 128) hfits, hb]
      simp [mask, isIpv4]

/-! ## Private ranges -/

def privateRanges : List Cidr :=
  [⟨.v4 0x0A000000#32, 8, rfl, by decide, by decide⟩,
   ⟨.v4 0xAC100000#32, 12, rfl, by decide, by decide⟩,
   ⟨.v4 0xC0A80000#32, 16, rfl, by decide, by decide⟩,
   ⟨.v4 0x7F000000#32, 8, rfl, by decide, by decide⟩,
   ⟨.v4 0xA9FE0000#32, 16, rfl, by decide, by decide⟩,
   ⟨.v4 0x64400000#32, 10, rfl, by decide, by decide⟩,
   ⟨.v6 0x00000000000000000000000000000001#128, 128, by decide, by decide, by decide⟩,
   ⟨.v6 0xFC000000000000000000000000000000#128, 7, by decide, by decide, by decide⟩,
   ⟨.v6 0xFE800000000000000000000000000000#128, 10, by decide, by decide, by decide⟩]

def isPublic (c : Cidr) : Bool :=
  !privateRanges.any fun b => b.prefixLen ≤ c.prefixLen && b.contains c.net

lemma contains_net (c : Cidr) : c.contains c.net := by
  simp [contains, c.canonical, c.masked]

lemma contains_of_le {b c : Cidr} {ip : IpAddr} (hle : b.prefixLen ≤ c.prefixLen)
    (hb : b.contains c.net) (hc : c.contains ip) : b.contains ip := by
  rw [contains, Bool.and_eq_true, beq_iff_eq, beq_iff_eq] at hb hc ⊢
  rw [c.canonical] at hb
  have hwidth : c.prefixLen ≤ ip.canonical.width := by
    rw [← width_mask ip.canonical c.prefixLen, hc.2]
    exact c.fits
  refine ⟨hc.1.trans hb.1, ?_⟩
  rw [← mask_mask_of_le hle hwidth, hc.2, hb.2]

lemma last_outside : ∀ b ∈ privateRanges, ∀ k < b.prefixLen.toNat,
    (b.net.mask (.ofNat k)).mask b.prefixLen = b.net →
      let net := b.net.mask (.ofNat k)
      let ip := net.last (.ofNat k)
      ip.canonical.isIpv4 = net.isIpv4 ∧ ip.canonical.mask (.ofNat k) = net ∧
        ∀ p ∈ privateRanges, p.contains ip = false := by
  decide +kernel

lemma exists_outside {c : Cidr} (h : c.isPublic) :
    ∃ ip, c.contains ip = true ∧ ∀ p ∈ privateRanges, p.contains ip = false := by
  by_cases hnet : ∀ p ∈ privateRanges, p.contains c.net = false
  · exact ⟨c.net, contains_net c, hnet⟩
  push Not at hnet
  obtain ⟨b, hb, hcontains⟩ := hnet
  rw [ne_eq, Bool.not_eq_false] at hcontains
  -- the block starts where the range starts, and is smaller
  have hlt : ¬ b.prefixLen ≤ c.prefixLen := by
    intro hle
    simp only [isPublic, Bool.not_eq_true', List.any_eq_false, Bool.and_eq_true,
      decide_eq_true_eq, not_and] at h
    exact h b hb hle hcontains
  have hle : c.prefixLen ≤ b.prefixLen := UInt8.le_of_lt (UInt8.not_le.mp hlt)
  rw [contains, Bool.and_eq_true, beq_iff_eq, beq_iff_eq, c.canonical] at hcontains
  have hstart : b.net.mask c.prefixLen = c.net := by
    have hwidth : b.prefixLen ≤ c.net.width := by
      rw [← width_mask c.net b.prefixLen, hcontains.2]
      exact b.fits
    rw [← hcontains.2, mask_mask_of_le hle hwidth, c.masked]
  have hk : UInt8.ofNat c.prefixLen.toNat = c.prefixLen := UInt8.ofNat_toNat
  have hlast := last_outside b hb c.prefixLen.toNat (UInt8.not_le.mp hlt)
  rw [hk, hstart] at hlast
  obtain ⟨hfamily, hmask, hout⟩ := hlast hcontains.2
  refine ⟨c.net.last c.prefixLen, ?_, hout⟩
  rw [contains, Bool.and_eq_true, beq_iff_eq, beq_iff_eq]
  exact ⟨hfamily, hmask⟩

/-- **Ranges mean the same after printing and for mapped clients.** The text of a range reads back
as it; it holds the addresses of its family, mapped ones included, that share its first bits; and it
is not public exactly when all of them are in a private range. -/
theorem range_meaning [External] [LawfulIpText] (s : String) (c : Cidr) (_h : fromStr s = .ok c) :
    fromStr c.text = .ok c ∧
    (∀ ip : IpAddr, c.contains ip = true ↔ ip.canonical.Shares c.prefixLen.toNat c.net) ∧
    (c.isPublic = false ↔
      ∀ ip, c.contains ip = true → ∃ p ∈ privateRanges, p.contains ip = true) := by
  refine ⟨fromStr_text c, contains_iff c, ?_, ?_⟩
  · intro hprivate ip hip
    simp only [isPublic, Bool.not_eq_false', List.any_eq_true, Bool.and_eq_true,
      decide_eq_true_eq] at hprivate
    obtain ⟨b, hb, hle, hnet⟩ := hprivate
    exact ⟨b, hb, contains_of_le hle hnet hip⟩
  intro hall
  by_contra hpublic
  obtain ⟨ip, hip, hout⟩ := exists_outside (Bool.not_eq_false _ ▸ hpublic)
  obtain ⟨p, hp, hcontains⟩ := hall ip hip
  rw [hout p hp] at hcontains
  cases hcontains

end Cidr

namespace Plain
open Cidr

theorem tenths_public :
    ¬ ∀ ip, (⟨.v4 0x0A000000#32, 7, rfl, by decide, by decide⟩ : Cidr).contains ip = true →
      ∃ p ∈ privateRanges, p.contains ip = true := by
  rw [← (range_meaning _ ⟨.v4 0x0A000000#32, 7, rfl, by decide, by decide⟩ (fromStr_text _)).2.2]
  decide +kernel

end Plain
end Rproxy
