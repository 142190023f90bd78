import Rproxy.Dpdk.Checksum

/-!
# Rewriting a UDP frame

`rewrite_udp` writes over the frame in nine places and updates the UDP checksum from the bytes it
has changed, instead of summing the datagram again.
-/

namespace Rproxy
open List Option Bytes
namespace Dpdk
open Windows (slice write window overwrite exists_write)
open OnesComplement (words)
variable {f g : List UInt8} {dstMac srcMac : Mac} {dst src : SocketAddrV4} {u : Udp4} {i : ℕ}

lemma be16_eq_some {n : UInt16} :
    be16 f i = some n ↔ i + 2 ≤ f.length ∧ word (window f i 2) = n := by
  constructor
  · intro h
    obtain ⟨w, hw, rfl⟩ := map_eq_some_iff.mp h
    by_cases hi : i ≤ i + 2 ∧ i + 2 ≤ f.length
    · rw [slice, if_pos hi, Option.some.injEq, Nat.add_sub_cancel_left] at hw
      rw [hw]
      exact ⟨hi.2, rfl⟩
    rw [slice, if_neg hi] at hw
    exact absurd hw (by simp)
  · rintro ⟨hi, rfl⟩
    rw [be16, Windows.slice_eq_some hi rfl, map_some]

lemma octetsAt_eq_some {n : ℕ} {o : Octets n} :
    octetsAt n f i = some o ↔ i + n ≤ f.length ∧ window f i n = o.1 := by
  rw [octetsAt]
  split_ifs with h
  · rw [Option.some.injEq, Subtype.ext_iff]
    exact ⟨fun ho => ⟨h, ho⟩, fun ho => ho.2⟩
  · exact ⟨fun ho => absurd ho (by simp), fun ho => absurd ho.1 h⟩

/-! ## What a UDP frame is -/

structure Fields where
  first : UInt8
  total : UInt16
  frag : UInt16
  len : UInt16

def Fields.ihl (h : Fields) : ℕ := (h.first &&& 0x0f).toNat * 4

structure IsUdp (f : List UInt8) (u : Udp4) (h : Fields) : Prop where
  long : 34 ≤ f.length
  etherType : be16 f 12 = some etherTypeIpv4
  first : f[14]? = some h.first
  version : h.first >>> 4 = 4
  ihl : 20 ≤ h.ihl
  total : be16 f 16 = some h.total
  inside : 14 + h.total.toNat ≤ f.length
  header : checksum (window f 14 h.ihl) = 0
  frag : be16 f 20 = some h.frag
  whole : h.frag &&& 0x2000 = 0 ∧ h.frag &&& 0x1fff = 0
  protocol : f[23]? = some 17
  len : be16 f (14 + h.ihl + 4) = some h.len
  room : 8 ≤ h.len.toNat ∧ h.ihl + h.len.toNat ≤ h.total.toNat
  srcMac : macAt f 6 = some u.srcMac
  srcIp : ipAt f 26 = some u.src.ip
  dstIp : ipAt f 30 = some u.dst.ip
  srcPort : be16 f (14 + h.ihl) = some u.src.port
  dstPort : be16 f (14 + h.ihl + 2) = some u.dst.port
  l3 : u.l3 = 14
  l4 : u.l4 = 14 + h.ihl
  payload : u.payload + 8 = h.len.toNat

lemma parseArp_ne_udp (f : List UInt8) (u : Udp4) : parseArp f ≠ some (.udp u) := by
  intro h
  rw [parseArp] at h
  split at h
  · simp at h
  simp only [bind_eq_bind, bind_eq_some_iff] at h
  obtain ⟨_, _, _, _, _, _, _, _, h⟩ := h
  split at h
  · simp at h
  simp only [bind_eq_some_iff] at h
  simp at h

lemma parseL4_eq_udp {ihl total : ℕ} {src dst : Ipv4} {protocol : UInt8}
    (h : parseL4 f ihl total src dst protocol = some (.udp u)) : protocol = 17 ∧
      ∃ len, be16 f (14 + ihl + 4) = some len ∧ 8 ≤ len.toNat ∧ ihl + len.toNat ≤ total ∧
        macAt f 6 = some u.srcMac ∧ be16 f (14 + ihl) = some u.src.port ∧
        be16 f (14 + ihl + 2) = some u.dst.port ∧ u.src.ip = src ∧ u.dst.ip = dst ∧
        u.l3 = 14 ∧ u.l4 = 14 + ihl ∧ u.payload + 8 = len.toNat := by
  rw [parseL4] at h
  split at h
  next hprotocol =>
    split at h
    · simp at h
    next htotal =>
    simp only [bind_eq_bind, bind_eq_some_iff] at h
    obtain ⟨len, hlen, h⟩ := h
    split at h
    · simp at h
    next hroom =>
    simp only [bind_eq_some_iff] at h
    obtain ⟨mac, hmac, sport, hsport, dport, hdport, h⟩ := h
    cases h
    refine ⟨hprotocol, len, hlen, by omega, by omega, hmac, hsport, hdport, rfl, rfl, rfl, rfl, ?_⟩
    show len.toNat - 8 + 8 = len.toNat
    omega
  · split at h
    · simp only [bind_eq_bind, bind_eq_some_iff] at h
      obtain ⟨_, _, _, _, h⟩ := h
      split at h <;> simp at h
    · simp at h

lemma parseIpv4_eq_udp {f : List UInt8} {u : Udp4} (htype : be16 f 12 = some etherTypeIpv4)
    (h : parseIpv4 f = some (.udp u)) : ∃ fields, IsUdp f u fields := by
  rw [parseIpv4] at h
  split at h
  · simp at h
  next hlong =>
  simp only [bind_eq_bind, bind_eq_some_iff] at h
  obtain ⟨first, hfirst, total, htotal, h⟩ := h
  split at h
  · simp at h
  next hcheck =>
  simp only [bind_eq_some_iff] at h
  obtain ⟨header, hheader, h⟩ := h
  split at h
  · simp at h
  next hsum =>
  simp only [bind_eq_some_iff] at h
  obtain ⟨frag, hfrag, h⟩ := h
  split at h
  · simp at h
  next hwhole =>
  simp only [bind_eq_some_iff] at h
  obtain ⟨src, hsrc, dst, hdst, protocol, hprotocol, h⟩ := h
  obtain ⟨rfl, len, hlen, hlen8, hroom, hmac, hsport, hdport, rfl, rfl, hl3, hl4, hpayload⟩ :=
    parseL4_eq_udp h
  simp only [not_or, not_lt, ne_eq, not_not] at hcheck hwhole hsum
  obtain ⟨hversion, hihl, hle, hinside⟩ := hcheck
  have hwindow : header = window f 14 ((first &&& 0x0f).toNat * 4) := by
    have hs := Windows.slice_eq_some (l := f) (n := (first &&& 0x0f).toNat * 4)
      (show ethHdr + _ ≤ _ by omega) rfl
    exact Option.some.inj (hheader.symm.trans hs)
  subst hwindow
  exact ⟨⟨first, total, frag, len⟩,
    { long := Nat.le_of_not_lt hlong
      etherType := htype
      first := hfirst
      version := hversion
      ihl := hihl
      total := htotal
      inside := hinside
      header := hsum
      frag := hfrag
      whole := hwhole
      protocol := hprotocol
      len := hlen
      room := ⟨hlen8, hroom⟩
      srcMac := hmac
      srcIp := hsrc
      dstIp := hdst
      srcPort := hsport
      dstPort := hdport
      l3 := hl3
      l4 := hl4
      payload := hpayload }⟩

lemma isUdp_of_parse (h : parse f = some (.udp u)) : ∃ fields, IsUdp f u fields := by
  rw [parse] at h
  split at h
  · simp at h
  simp only [bind_eq_bind, bind_eq_some_iff] at h
  obtain ⟨etherType, htype, h⟩ := h
  split at h
  · exact absurd h (parseArp_ne_udp f u)
  split at h
  next hipv4 => exact parseIpv4_eq_udp (hipv4 ▸ htype) h
  · simp at h

lemma parse_of_isUdp {h : Fields} (hu : IsUdp f u h) : parse f = some (.udp u) := by
  have hinside := hu.inside
  obtain ⟨hlen8, hroom⟩ := hu.room
  obtain ⟨hmore, hoff⟩ := hu.whole
  have hihl : 20 ≤ (h.first &&& 0x0f).toNat * 4 := hu.ihl
  have hroom' : (h.first &&& 0x0f).toNat * 4 + h.len.toNat ≤ h.total.toNat := hroom
  have hheader : slice f 14 (14 + (h.first &&& 0x0f).toNat * 4) = some (window f 14 h.ihl) :=
    Windows.slice_eq_some (by rw [Fields.ihl]; omega) rfl
  have hlen := hu.len
  have hsport := hu.srcPort
  have hdport := hu.dstPort
  rw [Fields.ihl] at hlen hsport hdport
  have hpayload : h.len.toNat - 8 = u.payload := by
    have := hu.payload
    omega
  have hl4 : 14 + (h.first &&& 0x0f).toNat * 4 = u.l4 := hu.l4.symm
  have hL4 : parseL4 f ((h.first &&& 0x0f).toNat * 4) h.total.toNat u.src.ip u.dst.ip 17 =
      some (.udp u) := by
    rw [parseL4]
    simp only [ethHdr, hlen, hu.srcMac, hsport, hdport, bind_eq_bind, bind_some]
    rw [if_pos trivial, if_neg (by omega), if_neg (by omega), hpayload, hl4, ← hu.l3]
    rfl
  rw [parse, if_neg (by rw [ethHdr]; omega)]
  simp only [hu.etherType, bind_eq_bind, bind_some]
  rw [if_neg (by decide), if_pos trivial, parseIpv4, if_neg (by rw [ethHdr]; omega)]
  simp only [ethHdr, Nat.reduceAdd, hu.first, hu.total, hheader, hu.frag, hu.srcIp, hu.dstIp,
    hu.protocol, bind_eq_bind, bind_some, hL4]
  rw [if_neg, if_neg]
  · simp [hmore, hoff]
  · simp [hu.header]
  simp only [not_or, not_lt, ne_eq, not_not]
  exact ⟨hu.version, hihl, by omega, hinside⟩

open OnesComplement

lemma checksum_overwrite {data : List UInt8} (hlen : 12 ≤ data.length)
    (hlen' : data.length < 65536) (hzero : window data 10 2 = [0, 0]) :
    checksum (overwrite data 10 (be 2 (checksum data).toNat)) = 0 := by
  have hsplit : data = data.take 10 ++ [0, 0] ++ data.drop 12 := by
    have hdrop : data.drop 10 = [0, 0] ++ data.drop 12 := by
      rw [← hzero, window, ← drop_drop (i := 2) (j := 10), take_append_drop]
    rw [append_assoc, ← hdrop, take_append_drop]
  have heven : ∀ w : List UInt8, w.length = 2 → (data.take 10 ++ w).length % 2 = 0 := by
    intro w hw
    rw [length_append, length_take, hw]
    omega
  have htake : (data.take 10).length % 2 = 0 := by
    rw [length_take]
    omega
  have hwords : words data = words (data.take 10) + words (data.drop 12) := by
    conv_lhs => rw [hsplit]
    rw [words_append _ (heven _ rfl), words_append _ htake]
    rfl
  have hnew : words (overwrite data 10 (be 2 (checksum data).toNat)) =
      words data + (checksum data).toNat := by
    rw [overwrite, words_append _ (heven _ (length_be 2 _)), words_append _ htake, words_be]
    show words (data.take 10) + _ + words (data.drop 12) = _
    omega
  have hc : (checksum data).toNat < 65536 := UInt16.toNat_lt _
  have hle := words_le data
  rw [checksum_eq_zero (by rw [hnew]; omega), hnew]
  refine ⟨Nat.pos_of_ne_zero fun hnone => ?_, ?_⟩
  · -- with no word set the complement is the other zero
    have hsum : (sum data 0).toNat = 0 := by
      rw [toNat_sum (by rw [UInt32.toNat_zero]; omega), UInt32.toNat_zero]
      omega
    have hmax : checksum data = 0xffff := by
      rw [checksum, fold_eq_zero.mpr hsum]
      rfl
    have htoNat : (0xffff : UInt16).toNat = 65535 := rfl
    rw [hmax] at hnone
    omega
  · rw [Nat.cast_add, natCast_checksum (by omega)]
    ring

structure HeaderSet (f g : List UInt8) (l3 ihl : ℕ) (src dst : Ipv4) : Prop where
  length : g.length = f.length
  sum : checksum (window g l3 ihl) = 0
  src : window g (l3 + 12) 4 = src.1
  dst : window g (l3 + 16) 4 = dst.1
  same : ∀ i, i < l3 + 8 ∨ i = l3 + 9 ∨ l3 + 20 ≤ i → g[i]? = f[i]?

lemma setIpHeader_spec (l3 ihl : ℕ) (src dst : Ipv4) (hihl : 20 ≤ ihl) (hsmall : ihl < 65536)
    (hin : l3 + ihl ≤ f.length) :
    ∃ g, setIpHeader f l3 ihl src dst = some g ∧ HeaderSet f g l3 ihl src dst := by
  have hsrc : src.1.length = 4 := src.2
  have hdst : dst.1.length = 4 := dst.2
  have hone : [ttl].length = 1 := rfl
  have htwo : ([0, 0] : List UInt8).length = 2 := rfl
  obtain ⟨f₁, e₁, w₁⟩ := exists_write (l := f) (a := l3 + 8) (w := [ttl]) (by omega)
  have hlen₁ := w₁.length
  obtain ⟨f₂, e₂, w₂⟩ := exists_write (l := f₁) (a := l3 + 12) (w := src.1) (by omega)
  have hlen₂ := w₂.length
  obtain ⟨f₃, e₃, w₃⟩ := exists_write (l := f₂) (a := l3 + 16) (w := dst.1) (by omega)
  have hlen₃ := w₃.length
  obtain ⟨f₄, e₄, w₄⟩ := exists_write (l := f₃) (a := l3 + 10) (w := [0, 0]) (by omega)
  have hlen₄ := w₄.length
  obtain ⟨c, hc⟩ : ∃ c, c = checksum (window f₄ l3 ihl) := ⟨_, rfl⟩
  have hbe : (be 2 c.toNat).length = 2 := length_be 2 _
  obtain ⟨g, e₅, w₅⟩ := exists_write (l := f₄) (a := l3 + 10) (w := be 2 c.toNat) (by omega)
  have hlen₅ := w₅.length
  refine ⟨g, ?_, ?_⟩
  · have hslice : slice f₄ l3 (l3 + ihl) = some (window f₄ l3 ihl) :=
      Windows.slice_eq_some (by omega) rfl
    simp only [setIpHeader, e₁, e₂, e₃, e₄, hslice, bind_eq_bind, bind_some, writeBe16, ← hc, e₅]
  refine ⟨by omega, ?_, ?_, ?_, fun i hi => ?_⟩
  · have hzero : window (window f₄ l3 ihl) 10 2 = [0, 0] := by
      rw [Windows.window_window (by omega)]
      exact w₄.shows rfl
    rw [w₅.window_within (by omega) (by omega) (by omega), Nat.add_sub_cancel_left, hc]
    refine checksum_overwrite ?_ ?_ hzero
    · rw [Windows.length_window (by omega)]
      omega
    rw [Windows.length_window (by omega)]
    omega
  · rw [w₅.window_same (by omega), w₄.window_same (by omega), w₃.window_same (by omega)]
    exact w₂.shows hsrc
  · rw [w₅.window_same (by omega), w₄.window_same (by omega)]
    exact w₃.shows hdst
  · rw [w₅.same (by omega), w₄.same (by omega), w₃.same (by omega), w₂.same (by omega),
      w₁.same (by omega)]

/-! ## The UDP checksum -/

def coveredOf (f : List UInt8) (u : Udp4) : List UInt8 := window f (u.l3 + 12) 8 ++ window f u.l4 4

def sumField (f : List UInt8) (u : Udp4) : UInt16 := word (window f (u.l4 + 6) 2)

def othersOf (f : List UInt8) (u : Udp4) : ℕ :=
  17 + (u.payload + 8) + words (window f (u.l4 + 4) 2) + words (window f (u.l4 + 8) u.payload)

structure Inside (f : List UInt8) (u : Udp4) : Prop where
  ihl : u.l3 + 20 ≤ u.l4
  small : u.l4 - u.l3 < 65536
  room : u.l4 + 8 + u.payload ≤ f.length
  payload : u.payload < 65536

lemma covered_eq (h : Inside f u) : covered f u = some (coveredOf f u) := by
  have hihl := h.ihl
  have hroom := h.room
  have h₁ : slice f (u.l3 + 12) (u.l3 + 20) = some (window f (u.l3 + 12) 8) :=
    Windows.slice_eq_some (by omega) rfl
  have h₂ : slice f u.l4 (u.l4 + 4) = some (window f u.l4 4) := Windows.slice_eq_some (by omega) rfl
  simp only [covered, h₁, h₂, bind_eq_bind, bind_some, coveredOf]
  rfl

lemma words_coveredOf (h : Inside f u) :
    words (coveredOf f u) = words (window f (u.l3 + 12) 8) + words (window f u.l4 4) := by
  have hihl := h.ihl
  have hroom := h.room
  have hlen : (window f (u.l3 + 12) 8).length = 8 := Windows.length_window (by omega)
  rw [coveredOf, words_append _ (by rw [hlen])]

lemma length_coveredOf (h : Inside f u) : (coveredOf f u).length = 12 := by
  have hihl := h.ihl
  have hroom := h.room
  rw [coveredOf, length_append, Windows.length_window (by omega), Windows.length_window (by omega)]

lemma udpChecksum_spec (h : Inside f u) : ∃ c,
    udpChecksum f u = some c ∧ c ≠ 0 ∧ (c.toNat : ZMod 65535) =
      -((words (coveredOf f u) : ZMod 65535) + (othersOf f u : ZMod 65535)) := by
  have hihl := h.ihl
  have hroom := h.room
  have hpayload := h.payload
  have h₁ : slice f (u.l3 + 12) (u.l3 + 20) = some (window f (u.l3 + 12) 8) :=
    Windows.slice_eq_some (by omega) rfl
  have h₂ : slice f u.l4 (u.l4 + 6) = some (window f u.l4 6) := Windows.slice_eq_some (by omega) rfl
  have h₃ : slice f (u.l4 + 8) (u.l4 + (u.payload + 8)) = some (window f (u.l4 + 8) u.payload) :=
    Windows.slice_eq_some (by omega) (by omega)
  -- no accumulator reaches 2 ^ 32
  have b₁ := words_le (window f (u.l3 + 12) 8)
  have b₂ := words_le (window f u.l4 6)
  have b₃ := words_le (window f (u.l4 + 8) u.payload)
  rw [Windows.length_window (by omega)] at b₁ b₂ b₃
  have s₁ : (sum (window f (u.l3 + 12) 8) 0).toNat = words (window f (u.l3 + 12) 8) := by
    rw [toNat_sum (by rw [UInt32.toNat_zero]; omega), UInt32.toNat_zero, Nat.zero_add]
  have hlen : ((17 : UInt32) + UInt32.ofNat (u.payload + 8)).toNat = 17 + (u.payload + 8) := by
    show (17 + (u.payload + 8) % 2 ^ 32) % 2 ^ 32 = _
    omega
  have s₂ : (sum (window f (u.l3 + 12) 8) 0 + (17 + UInt32.ofNat (u.payload + 8))).toNat =
      words (window f (u.l3 + 12) 8) + (17 + (u.payload + 8)) := by
    rw [UInt32.toNat_add, s₁, hlen]
    exact Nat.mod_eq_of_lt (by omega)
  have hsplit : words (window f u.l4 6) =
      words (window f u.l4 4) + words (window f (u.l4 + 4) 2) := by
    have hlen' : (window f u.l4 4).length = 4 := Windows.length_window (by omega)
    rw [Windows.window_add (n := 4) (m := 2), words_append _ (by rw [hlen'])]
  obtain ⟨acc, hacc⟩ : ∃ acc, acc = sum (window f (u.l4 + 8) u.payload) (sum (window f u.l4 6)
      (sum (window f (u.l3 + 12) 8) 0 + (17 + UInt32.ofNat (u.payload + 8)))) := ⟨_, rfl⟩
  have s₃ : acc.toNat = words (coveredOf f u) + othersOf f u := by
    rw [hacc, toNat_sum, toNat_sum, words_coveredOf h, othersOf]
    · omega
    · omega
    rw [toNat_sum (by omega)]
    omega
  refine ⟨sentAs (~~~fold acc), ?_, sentAs_ne_zero _, ?_⟩
  · simp only [udpChecksum, h₁, h₂, h₃, bind_eq_bind, bind_some, ← hacc]
    rfl
  · rw [natCast_sentAs, natCast_not_fold, s₃, Nat.cast_add]

def SumRight (f : List UInt8) (u : Udp4) : Prop :=
  sumField f u = 0 ∨ ((sumField f u).toNat + words (coveredOf f u) + othersOf f u : ZMod 65535) = 0

lemma checksumsOk_spec (h : Inside f u) (hheader : checksum (window f u.l3 (u.l4 - u.l3)) = 0) :
    ∃ ok, checksumsOk f u = some ok ∧ (ok = true ↔ SumRight f u) := by
  have hihl := h.ihl
  have hroom := h.room
  obtain ⟨c, hc, hne, hres⟩ := udpChecksum_spec h
  have hslice : slice f u.l3 (u.l3 + (u.l4 - u.l3)) = some (window f u.l3 (u.l4 - u.l3)) :=
    Windows.slice_eq_some (by omega) rfl
  have hfield : be16 f (u.l4 + 6) = some (sumField f u) := be16_eq_some.mpr ⟨by omega, rfl⟩
  simp only [checksumsOk, hslice, hheader, hfield, hc, bind_eq_bind, bind_some, ne_eq,
    not_true_eq_false, if_false]
  split_ifs with hzero
  · exact ⟨true, rfl, fun _ => .inl hzero, fun _ => rfl⟩
  refine ⟨_, rfl, ?_⟩
  rw [decide_eq_true_iff, SumRight, or_iff_right hzero, ← natCast_inj hzero hne, hres,
    eq_neg_iff_add_eq_zero, add_assoc]

/-- What rewriting `u` may change: the MACs, the TTL, the addresses, the ports and the checksums. -/
def Rewrites (u : Udp4) (i : ℕ) : Prop :=
  i < 12 ∨ i = u.l3 + 8 ∨ (u.l3 + 10 ≤ i ∧ i < u.l3 + 20) ∨ (u.l4 ≤ i ∧ i < u.l4 + 4) ∨
    (u.l4 + 6 ≤ i ∧ i < u.l4 + 8)

structure Readdressed (f g : List UInt8) (u : Udp4) (srcMac dstMac : Mac) (src dst : SocketAddrV4) :
    Prop where
  length : g.length = f.length
  dstMac : window g 0 6 = dstMac.1
  srcMac : window g 6 6 = srcMac.1
  header : checksum (window g u.l3 (u.l4 - u.l3)) = 0
  srcIp : window g (u.l3 + 12) 4 = src.ip.1
  dstIp : window g (u.l3 + 16) 4 = dst.ip.1
  srcPort : window g u.l4 2 = be 2 src.port.toNat
  dstPort : window g (u.l4 + 2) 2 = be 2 dst.port.toNat
  same : ∀ i, ¬Rewrites u i → g[i]? = f[i]?

def sumAfter (f g : List UInt8) (u : Udp4) : UInt16 :=
  if sumField f u = 0 then 0 else sentAs (adjust (sumField f u) (coveredOf f u) (coveredOf g u))

lemma Inside.of_length (h : Inside f u) (hlen : g.length = f.length) : Inside g u :=
  ⟨h.ihl, h.small, hlen ▸ h.room, h.payload⟩

lemma Readdressed.write_sum {f g g' w : List UInt8} {u : Udp4} {srcMac dstMac : Mac}
    {src dst : SocketAddrV4} (h : Readdressed f g u srcMac dstMac src dst) (hu : Inside f u)
    (hl3 : 12 ≤ u.l3) (hw : Windows.Wrote g g' (u.l4 + 6) w) (hlen : w.length = 2) :
    Readdressed f g' u srcMac dstMac src dst := by
  have hihl := hu.ihl
  refine
    { length := hw.length.trans h.length
      dstMac := (hw.window_same (by omega)).trans h.dstMac
      srcMac := (hw.window_same (by omega)).trans h.srcMac
      header := ?_
      srcIp := (hw.window_same (by omega)).trans h.srcIp
      dstIp := (hw.window_same (by omega)).trans h.dstIp
      srcPort := (hw.window_same (by omega)).trans h.srcPort
      dstPort := (hw.window_same (by omega)).trans h.dstPort
      same := fun i hi => ?_ }
  · rw [hw.window_same (by omega)]
    exact h.header
  rw [← h.same i hi]
  rw [Rewrites] at hi
  exact hw.same (by omega)

lemma rewriteUdp_spec (srcMac dstMac : Mac) (src dst : SocketAddrV4) (h : Inside f u)
    (hl3 : 12 ≤ u.l3) :
    ∃ g, rewriteUdp f u srcMac dstMac src dst = some g ∧
      Readdressed f g u srcMac dstMac src dst ∧ sumField g u = sumAfter f g u := by
  have hihl := h.ihl
  have hroom := h.room
  have hsmac : srcMac.1.length = 6 := srcMac.2
  have hdmac : dstMac.1.length = 6 := dstMac.2
  have hbe : ∀ n : UInt16, (be 2 n.toNat).length = 2 := fun n => length_be 2 _
  have hsp := hbe src.port
  have hdp := hbe dst.port
  obtain ⟨f₁, e₁, w₁⟩ := exists_write (l := f) (a := 0) (w := dstMac.1) (by omega)
  have hlen₁ := w₁.length
  obtain ⟨f₂, e₂, w₂⟩ := exists_write (l := f₁) (a := 6) (w := srcMac.1) (by omega)
  have hlen₂ := w₂.length
  have hold : coveredOf f₂ u = coveredOf f u := by
    rw [coveredOf, w₂.window_same (by omega), w₁.window_same (by omega), w₂.window_same (by omega),
      w₁.window_same (by omega), coveredOf]
  have e₃ : covered f₂ u = some (coveredOf f u) := by
    rw [covered_eq (h.of_length (by omega)), hold]
  obtain ⟨f₄, e₄, w₄⟩ := setIpHeader_spec (f := f₂) u.l3 (u.l4 - u.l3) src.ip dst.ip
    (by omega) h.small (by omega)
  have hlen₄ := w₄.length
  obtain ⟨f₅, e₅, w₅⟩ :=
    exists_write (l := f₄) (a := u.l4) (w := be 2 src.port.toNat) (by omega)
  have hlen₅ := w₅.length
  obtain ⟨f₆, e₆, w₆⟩ :=
    exists_write (l := f₅) (a := u.l4 + 2) (w := be 2 dst.port.toNat) (by omega)
  have hlen₆ := w₆.length
  have hwindow : ∀ {i n : ℕ}, i + n ≤ u.l3 + 8 ∨ u.l4 + 4 ≤ i →
      window f₆ i n = window f₂ i n := by
    intro i n hi
    rw [w₆.window_same (by omega), w₅.window_same (by omega)]
    exact Windows.window_congr fun j _ _ => w₄.same j (by omega)
  have hfield : sumField f₆ u = sumField f u := by
    rw [sumField, hwindow (by omega), w₂.window_same (by omega), w₁.window_same (by omega),
      sumField]
  have e₇ : be16 f₆ (u.l4 + 6) = some (sumField f u) := be16_eq_some.mpr ⟨by omega, hfield⟩
  have hreaddressed : Readdressed f f₆ u srcMac dstMac src dst := by
    refine
      { length := by omega
        dstMac := ?_
        srcMac := ?_
        header := ?_
        srcIp := ?_
        dstIp := ?_
        srcPort := (w₆.window_same (by omega)).trans (w₅.shows hsp)
        dstPort := w₆.shows hdp
        same := fun i hi => ?_ }
    · rw [hwindow (by omega), w₂.window_same (by omega)]
      exact w₁.shows hdmac
    · rw [hwindow (by omega)]
      exact w₂.shows hsmac
    · rw [w₆.window_same (by omega), w₅.window_same (by omega)]
      exact w₄.sum
    · rw [w₆.window_same (by omega), w₅.window_same (by omega)]
      exact w₄.src
    · rw [w₆.window_same (by omega), w₅.window_same (by omega)]
      exact w₄.dst
    rw [Rewrites] at hi
    rw [w₆.same (by omega), w₅.same (by omega), w₄.same i (by omega), w₂.same (by omega),
      w₁.same (by omega)]
  by_cases hzero : sumField f u = 0
  · refine ⟨f₆, ?_, hreaddressed, ?_⟩
    · simp only [rewriteUdp, writeBe16, e₁, e₂, e₃, e₄, e₅, e₆, e₇, bind_eq_bind,
        bind_some, hzero, ne_eq, not_true_eq_false, if_false]
      rfl
    · rw [hfield, sumAfter, if_pos hzero, hzero]
  have e₈ : covered f₆ u = some (coveredOf f₆ u) := covered_eq (h.of_length (by omega))
  have hlen' := hbe (sentAs (adjust (sumField f u) (coveredOf f u) (coveredOf f₆ u)))
  obtain ⟨g, e₉, w₉⟩ := exists_write (l := f₆) (a := u.l4 + 6)
    (w := be 2 (sentAs (adjust (sumField f u) (coveredOf f u) (coveredOf f₆ u))).toNat)
    (by omega)
  have hnew : coveredOf g u = coveredOf f₆ u := by
    rw [coveredOf, w₉.window_same (by omega), w₉.window_same (by omega), coveredOf]
  refine ⟨g, ?_, hreaddressed.write_sum h hl3 w₉ hlen', ?_⟩
  · simp only [rewriteUdp, writeBe16, e₁, e₂, e₃, e₄, e₅, e₆, e₇, e₈, e₉, bind_eq_bind,
      bind_some, hzero, ne_eq, not_false_eq_true, if_true]
  · rw [sumField, w₉.shows hlen', word_be, sumAfter, if_neg hzero, hnew]

/-! ## The rewritten datagram -/

lemma IsUdp.datagram_inside {h : Fields} (hu : IsUdp f u h) : Inside f u := by
  have hihl := hu.ihl
  have hinside := hu.inside
  have hpayload := hu.payload
  have hroom := hu.room
  have htotal : h.total.toNat < 65536 := h.total.toNat_lt
  have hl3 := hu.l3
  have hl4 := hu.l4
  exact ⟨by omega, by omega, by omega, by omega⟩

def Udp4.readdress (u : Udp4) (srcMac : Mac) (src dst : SocketAddrV4) : Udp4 :=
  { u with srcMac := srcMac, src := src, dst := dst }

section
variable (h : Readdressed f g u srcMac dstMac src dst)
include h

lemma Readdressed.window_same {n : ℕ} (hi : ∀ j, i ≤ j → j < i + n → ¬Rewrites u j) :
    window g i n = window f i n :=
  Windows.window_congr fun j hj hj' => h.same j (hi j hj hj')

lemma Readdressed.be16_same {n : UInt16} (hf : be16 f i = some n)
    (hi : ∀ j, i ≤ j → j < i + 2 → ¬Rewrites u j) : be16 g i = some n := by
  obtain ⟨hle, hn⟩ := be16_eq_some.mp hf
  exact be16_eq_some.mpr ⟨h.length.symm ▸ hle, by rw [h.window_same hi, hn]⟩

lemma Readdressed.isUdp {fields : Fields} (hu : IsUdp f u fields) :
    IsUdp g (u.readdress srcMac src dst) fields := by
  have hlen := h.length
  have hl3 := hu.l3
  have hl4 := hu.l4
  have hihl := hu.ihl
  have hinside := hu.inside
  have hroom := hu.room
  have hheader := h.header
  have hport := word_be
  have hwidth : u.l4 - u.l3 = fields.ihl := by omega
  have hplace : ∀ j, Rewrites u j ↔ j < 12 ∨ j = 22 ∨ (24 ≤ j ∧ j < 34) ∨
      (14 + fields.ihl ≤ j ∧ j < 18 + fields.ihl) ∨
      (20 + fields.ihl ≤ j ∧ j < 22 + fields.ihl) := by
    intro j
    rw [Rewrites]
    omega
  rw [hwidth, hl3] at hheader
  exact
    { long := by omega
      etherType := h.be16_same hu.etherType fun j _ _ => by rw [hplace]; omega
      first := (h.same 14 (by rw [hplace]; omega)).trans hu.first
      version := hu.version
      ihl := hu.ihl
      total := h.be16_same hu.total fun j _ _ => by rw [hplace]; omega
      inside := by omega
      header := hheader
      frag := h.be16_same hu.frag fun j _ _ => by rw [hplace]; omega
      whole := hu.whole
      protocol := (h.same 23 (by rw [hplace]; omega)).trans hu.protocol
      len := h.be16_same hu.len fun j _ _ => by rw [hplace]; omega
      room := hu.room
      srcMac := octetsAt_eq_some.mpr ⟨by omega, h.srcMac⟩
      srcIp := octetsAt_eq_some.mpr ⟨by omega, by have := h.srcIp; rwa [hl3] at this⟩
      dstIp := octetsAt_eq_some.mpr ⟨by omega, by have := h.dstIp; rwa [hl3] at this⟩
      srcPort := be16_eq_some.mpr ⟨by omega, by rw [← hl4, h.srcPort, hport]; rfl⟩
      dstPort := be16_eq_some.mpr ⟨by omega, by rw [← hl4, h.dstPort, hport]; rfl⟩
      l3 := hl3
      l4 := hl4
      payload := hu.payload }

lemma Readdressed.sumRight_iff (hu : Inside f u) (hl3 : 12 ≤ u.l3)
    (hsum : sumField g u = sumAfter f g u) : SumRight g u ↔ SumRight f u := by
  have hihl := hu.ihl
  have hothers : othersOf g u = othersOf f u := by
    rw [othersOf, h.window_same fun j _ _ => by rw [Rewrites]; omega,
      h.window_same fun j _ _ => by rw [Rewrites]; omega, othersOf]
  by_cases hzero : sumField f u = 0
  · rw [sumAfter, if_pos hzero] at hsum
    exact ⟨fun _ => .inl hzero, fun _ => .inl hsum⟩
  rw [sumAfter, if_neg hzero] at hsum
  have hne : sumField g u ≠ 0 := hsum ▸ sentAs_ne_zero _
  have hres : ((sumField g u).toNat : ZMod 65535) =
      (sumField f u).toNat + words (coveredOf f u) - words (coveredOf g u) := by
    rw [hsum, natCast_sentAs, natCast_adjust _ (length_coveredOf hu)
      (length_coveredOf (hu.of_length h.length))]
  rw [SumRight, SumRight, or_iff_right hne, or_iff_right hzero, hres, hothers, sub_add_cancel]

end

/-- **A rewritten UDP frame is right.** The rewrite stays inside the frame, which is read as the
same datagram between the new addresses; all else is as before; there is a UDP checksum iff there
was one, and the checksums are right iff they were. -/
theorem rewritten_frame_right {f : List UInt8} {u : Udp4} (h : parse f = some (.udp u))
    (srcMac dstMac : Mac) (src dst : SocketAddrV4) :
    ∃ g, rewriteUdp f u srcMac dstMac src dst = some g ∧
      parse g = some (.udp (u.readdress srcMac src dst)) ∧
      macAt g 0 = some dstMac ∧
      (∃ bytes, payload f u = some bytes ∧ payload g (u.readdress srcMac src dst) = some bytes) ∧
      g.length = f.length ∧
      (∀ i, ¬Rewrites u i → g[i]? = f[i]?) ∧
      (be16 g (u.l4 + 6) = some 0 ↔ be16 f (u.l4 + 6) = some 0) ∧
      ∃ ok, checksumsOk f u = some ok ∧ checksumsOk g (u.readdress srcMac src dst) = some ok := by
  obtain ⟨fields, hu⟩ := isUdp_of_parse h
  have hin := hu.datagram_inside
  have hihl := hin.ihl
  have hroom := hin.room
  have hl3 : 12 ≤ u.l3 := by
    rw [hu.l3]
    decide
  obtain ⟨g, hg, hread, hsum⟩ := rewriteUdp_spec srcMac dstMac src dst hin hl3
  have hlen := hread.length
  have hin' : Inside g u := hin.of_length hlen
  refine ⟨g, hg, parse_of_isUdp (hread.isUdp hu), octetsAt_eq_some.mpr ⟨by omega, hread.dstMac⟩, ?_,
    hlen, hread.same, ?_, ?_⟩
  · refine ⟨window f (u.l4 + 8) u.payload, Windows.slice_eq_some (by omega) rfl, ?_⟩
    rw [← hread.window_same fun j _ _ => by rw [Rewrites]; omega]
    show slice g (u.l4 + 8) (u.l4 + 8 + u.payload) = some _
    exact Windows.slice_eq_some (by omega) rfl
  · have hfield : ∀ {l : List UInt8}, l.length = f.length →
        (be16 l (u.l4 + 6) = some 0 ↔ sumField l u = 0) := by
      intro l hl
      rw [be16_eq_some]
      exact ⟨fun hf => hf.2, fun hf => ⟨by omega, hf⟩⟩
    rw [hfield hlen, hfield rfl, hsum, sumAfter]
    split_ifs with hzero
    · exact ⟨fun _ => hzero, fun _ => rfl⟩
    · exact ⟨fun hs => absurd hs (sentAs_ne_zero _), fun hs => absurd hs hzero⟩
  have hheader : checksum (window f u.l3 (u.l4 - u.l3)) = 0 := by
    rw [hu.l4, hu.l3, Nat.add_sub_cancel_left]
    exact hu.header
  obtain ⟨ok, hok, hiff⟩ := checksumsOk_spec hin hheader
  obtain ⟨ok', hok', hiff'⟩ := checksumsOk_spec (f := g) (u := u.readdress srcMac src dst)
    ⟨hin'.ihl, hin'.small, hin'.room, hin'.payload⟩ hread.header
  have hsame : ok' = ok := by
    rw [Bool.eq_iff_iff, hiff, hiff']
    exact hread.sumRight_iff hin hl3 hsum
  exact ⟨ok, hok, hsame ▸ hok'⟩

end Dpdk

namespace Plain
open Dpdk

def query : List UInt8 :=
  [0x02, 0x00, 0x00, 0x00, 0x00, 0x02, 0x02, 0x00, 0x00, 0x00, 0x00, 0x01, 0x08, 0x00,
   0x45, 0x00, 0x00, 0x1e, 0x00, 0x00, 0x40, 0x00, 0x40, 0x11, 0x26, 0xcd,
   0x0a, 0x00, 0x00, 0x01, 0x0a, 0x00, 0x00, 0x02,
   0x9c, 0x40, 0x00, 0x35, 0x00, 0x0a, 0xe6, 0xf8,
   0x68, 0x69]

def queryDatagram : Udp4 where
  srcMac := ⟨[2, 0, 0, 0, 0, 1], rfl⟩
  src := ⟨⟨[10, 0, 0, 1], rfl⟩, 40000⟩
  dst := ⟨⟨[10, 0, 0, 2], rfl⟩, 53⟩
  l3 := 14
  l4 := 34
  payload := 2

theorem query_rewritten : ∃ g,
    rewriteUdp query queryDatagram ⟨[2, 0, 0, 0, 0, 2], rfl⟩ ⟨[2, 0, 0, 0, 0, 1], rfl⟩
      ⟨⟨[10, 0, 0, 2], rfl⟩, 33000⟩ ⟨⟨[192, 168, 7, 9], rfl⟩, 5353⟩ = some g ∧
    parse g = some (.udp (queryDatagram.readdress ⟨[2, 0, 0, 0, 0, 2], rfl⟩
      ⟨⟨[10, 0, 0, 2], rfl⟩, 33000⟩ ⟨⟨[192, 168, 7, 9], rfl⟩, 5353⟩)) := by
  have hparse : parse query = some (.udp queryDatagram) := by decide +kernel
  obtain ⟨g, hg, hparsed, -⟩ := rewritten_frame_right hparse ⟨[2, 0, 0, 0, 0, 2], rfl⟩
    ⟨[2, 0, 0, 0, 0, 1], rfl⟩ ⟨⟨[10, 0, 0, 2], rfl⟩, 33000⟩ ⟨⟨[192, 168, 7, 9], rfl⟩, 5353⟩
  exact ⟨g, hg, hparsed⟩

end Plain
end Rproxy
