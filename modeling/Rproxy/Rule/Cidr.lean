import Rproxy.Rule.Basic

/-!
# Address ranges

`Cidr` is a range of addresses of one family: a network and the length of its prefix.
-/

namespace Rproxy

open BitVec Checks Text IpAddr

def maxAllowFrom : Nat := 64

namespace IpAddr

def isMapped (bits : BitVec 128) : Bool :=
  bits >>> 32 == 0xffff#128

def canonical : IpAddr → IpAddr
  | v6 bits => if isMapped bits then v4 (bits.setWidth 32) else v6 bits
  | v4 bits => v4 bits

def width : IpAddr → UInt8
  | v4 _ => 32
  | v6 _ => 128

def prefixBits (w : Nat) (n : UInt8) : BitVec w :=
  if n = 0 then 0 else allOnes w <<< (w - n.toNat)

def mask (ip : IpAddr) (n : UInt8) : IpAddr :=
  match ip with
  | v4 bits => v4 (bits &&& prefixBits 32 n)
  | v6 bits => v6 (bits &&& prefixBits 128 n)

@[simp] theorem width_mask (ip : IpAddr) (n : UInt8) : (ip.mask n).width = ip.width := by
  cases ip <;> rfl

@[simp] theorem mask_mask (ip : IpAddr) (n : UInt8) : (ip.mask n).mask n = ip.mask n := by
  cases ip <;> simp [mask, BitVec.and_assoc]

lemma isMapped_of_mask {bits : BitVec 128} {n : UInt8}
    (h : isMapped (bits &&& prefixBits 128 n)) : isMapped bits := by
  have hbit : ∀ i, i < 96 →
      (bits &&& prefixBits 128 n).getLsbD (32 + i) = (0xffff#128).getLsbD i := by
    intro i hi
    have heq : (bits &&& prefixBits 128 n) >>> 32 = 0xffff#128 := by simpa [isMapped] using h
    rw [← heq, getLsbD_ushiftRight]
  by_cases hn : n = 0
  · have hzero := hbit 0 (by omega)
    simp [prefixBits, hn] at hzero
  by_cases hlong : 128 - n.toNat ≤ 32
  · have hkeep : (bits &&& prefixBits 128 n) >>> 32 = bits >>> 32 := by
      apply eq_of_getLsbD_eq
      intro i hi
      simp only [prefixBits, hn, if_false, getLsbD_ushiftRight, getLsbD_and,
        getLsbD_shiftLeft, getLsbD_allOnes]
      by_cases hi' : 32 + i < 128
      · have hge : ¬ 32 + i < 128 - n.toNat := by omega
        have hlt : 32 + i - (128 - n.toNat) < 128 := by omega
        simp [hi', hge, hlt]
      rw [getLsbD_of_ge bits _ (by omega)]
      rfl
    rwa [isMapped, hkeep] at h
  have hzero := hbit 0 (by omega)
  have hlt : 32 < 128 - n.toNat := by omega
  simp [prefixBits, hn, hlt] at hzero

lemma canonical_canonical (ip : IpAddr) : ip.canonical.canonical = ip.canonical := by
  cases ip with
  | v4 bits => rfl
  | v6 bits =>
    by_cases h : isMapped bits <;> simp [canonical, h]

lemma canonical_mask {ip : IpAddr} (n : UInt8) (h : ip.canonical = ip) :
    (ip.mask n).canonical = ip.mask n := by
  cases ip with
  | v4 bits => rfl
  | v6 bits =>
    have hbits : isMapped bits = false := by
      rw [← Bool.not_eq_true]
      intro hm
      simp [canonical, hm] at h
    have hmask : isMapped (bits &&& prefixBits 128 n) = false := by
      rw [← Bool.not_eq_true]
      intro hm
      rw [isMapped_of_mask hm] at hbits
      cases hbits
    simp [mask, canonical, hmask]

end IpAddr

structure Cidr where
  net : IpAddr
  prefixLen : UInt8
  canonical : net.canonical = net
  fits : prefixLen ≤ net.width
  masked : net.mask prefixLen = net
deriving DecidableEq

namespace Cidr

def contains (c : Cidr) (ip : IpAddr) : Bool :=
  ip.canonical.isIpv4 == c.net.isIpv4 && ip.canonical.mask c.prefixLen == c.net

def ofAddr (ip : IpAddr) (n : UInt8) (h : n ≤ ip.canonical.width) : Cidr where
  net := ip.canonical.mask n
  prefixLen := n
  canonical := canonical_mask n (canonical_canonical ip)
  fits := by rw [width_mask]; exact h
  masked := mask_mask _ n

lemma ofAddr_net (c : Cidr) (h : c.prefixLen ≤ c.net.canonical.width) :
    ofAddr c.net c.prefixLen h = c := by
  obtain ⟨net, prefixLen, hcanonical, hfits, hmasked⟩ := c
  simp only [ofAddr, mk.injEq, and_true]
  rw [hcanonical, hmasked]

variable [External]

def fromStr (s : String) : Except ApiError Cidr := do
  let bad := ApiError.invalid s!"allow_from: not an address or CIDR: {s}"
  let (addr, given) ← match splitOnce '/' (trim s) with
    | some (a, p) => do
      let n ← okOr bad (parseUnsigned 255 p)
      pure (a, some (UInt8.ofNat n))
    | none => pure (trim s, none)
  let ip ← okOr bad (parseIp (trimBrackets addr))
  let n := given.getD ip.canonical.width
  if h : n ≤ ip.canonical.width then
    return ofAddr ip n h
  else
    throw (.invalid s!"allow_from: prefix /{n.toNat} is too long for {addr}")

def text (c : Cidr) : String :=
  showIp c.net ++ String.ofList ('/' :: c.prefixLen.toNat.repr.toList)

lemma fromStr_text [LawfulIpText] (c : Cidr) : fromStr c.text = .ok c := by
  have hchars := LawfulIpText.show_chars c.net
  have htrim : trim c.text = c.text := by
    apply trim_eq_self
    intro x hx
    simp only [text, String.toList_append, String.toList_ofList, List.mem_append,
      List.mem_cons] at hx
    rcases hx with hx | rfl | hx
    · exact (hchars x hx).1
    · decide
    · exact isWhitespace_of_isDigit (isDigit_of_mem_repr hx)
  have hsplit : splitOnce '/' c.text = some (showIp c.net, c.prefixLen.toNat.repr) :=
    splitOnce_append _ fun hmem => (hchars _ hmem).2.2 rfl
  have hnum : parseUnsigned 255 c.prefixLen.toNat.repr = some c.prefixLen.toNat :=
    parseUnsigned_repr (Nat.le_of_lt_succ c.prefixLen.toNat_lt)
  have hfits : c.prefixLen ≤ c.net.canonical.width := by
    rw [c.canonical]
    exact c.fits
  simp only [fromStr, htrim, hsplit, hnum, (parseIp_trim_show c.net).2, okOr, bind,
    Except.bind, pure, Except.pure, UInt8.ofNat_toNat, Option.getD_some, hfits, dif_pos,
    ofAddr_net]

def parseList (list : List String) : Except ApiError (List Cidr) := do
  refuseIf (list.length > maxAllowFrom)
    (.invalid s!"allow_from may hold at most {maxAllowFrom} entries")
  collect fromStr list

lemma parseList_text [LawfulIpText] {l : List Cidr} (h : l.length ≤ maxAllowFrom) :
    parseList (l.map text) = .ok l := by
  simp only [parseList, List.length_map, bind_eq_ok, exists_unit,
    refuseIf_eq_ok,
    Nat.not_lt, gt_iff_lt]
  exact ⟨h, collect_map fun c _ => fromStr_text c⟩

lemma length_le_of_parseList {list : List String} {l : List Cidr}
    (h : parseList list = .ok l) : l.length ≤ maxAllowFrom := by
  simp only [parseList, bind_eq_ok, exists_unit, refuseIf_eq_ok, gt_iff_lt,
    Nat.not_lt] at h
  rw [← (collect_eq_ok.mp h.2).length_eq]
  exact h.1

end Cidr
end Rproxy
