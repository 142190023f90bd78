import Rproxy.Data.Split
import Rproxy.Net.ProxyHeader

/-!
# PROXY headers read back

What rproxy writes, rproxy reads: with its own length and the two addresses, whatever follows it.
-/

namespace Rproxy
open List Bytes UInt8
namespace ProxyHeader
variable {a c : List UInt8} {i : Nat} {b transport : UInt8}

lemma crlfAt_append {line : List UInt8} (h : 0x0D ∉ line) (rest : List UInt8) :
    crlfAt (line ++ 0x0D :: 0x0A :: rest) = some line.length := by
  induction line with
  | nil => rfl
  | cons a line ih =>
    have ha : a ≠ 0x0D := fun heq => h (by rw [heq]; exact mem_cons_self)
    have hline := ih fun hmem => h (mem_cons_of_mem _ hmem)
    cases line with
    | nil =>
      show (if a = 0x0D ∧ (0x0D : UInt8) = 0x0A then some 0 else _) = _
      rw [if_neg fun hc => ha hc.1]
      rfl
    | cons b line =>
      rw [cons_append, cons_append, crlfAt, if_neg fun hc => ha hc.1]
      rw [cons_append] at hline
      rw [hline]
      rfl

lemma utf8EncodeChar_ascii (h : b < 0x80) : String.utf8EncodeChar (Char.ofNat b.toNat) = [b] := by
  have hlt : b.toNat < 128 := h
  have hval : (Char.ofNat b.toNat).val.toNat = b.toNat := by
    rw [Char.ofNat, dif_pos (Or.inl (by omega))]
    rfl
  rw [String.utf8EncodeChar]
  simp only [hval]
  rw [if_pos (by omega), UInt8.ofNat_toNat]

lemma isUtf8_of_ascii {l : List UInt8} (h : ∀ b ∈ l, b < 0x80) : isUtf8 l := by
  have hencode : (l.map fun b => Char.ofNat b.toNat).flatMap String.utf8EncodeChar = l := by
    induction l with
    | nil => rfl
    | cons b l ih =>
      rw [map_cons, flatMap_cons, utf8EncodeChar_ascii (h b mem_cons_self),
        ih fun b hb => h b (mem_cons_of_mem _ hb), singleton_append]
  rw [isUtf8, ByteArray.validateUTF8_eq_true_iff]
  refine ⟨l.map fun b => Char.ofNat b.toNat, ?_⟩
  rw [List.utf8Encode, hencode]
  exact ByteArray.ext (by rw [data_toByteArray])

open Bytes

lemma port_decimal (p : UInt16) : port (decimal p.toNat) = some p := by
  have hlt : p.toNat < 65536 := p.toNat_lt
  have hlen : (decimal p.toNat).length ≤ 5 := length_decimal_le (by decide) (by omega)
  have hdigits : ¬ (decimal p.toNat).any (fun b => !isDigit b) = true := by
    simp only [any_eq_true, Bool.not_eq_true', not_exists, not_and, Bool.not_eq_false]
    exact fun b hb => isDigit_of_mem_decimal hb
  have hzero : ¬ (1 < (decimal p.toNat).length ∧
      (decimal p.toNat).head? = some 0x30) := by
    rintro ⟨hlong, hhead⟩
    by_cases hp : p.toNat = 0
    · rw [hp] at hlong
      exact absurd hlong (by decide)
    obtain ⟨b, l, hl, hb⟩ := decimal_head hp
    rw [hl, head?_cons] at hhead
    exact hb (Option.some.inj hhead)
  rw [port, if_neg, ofDecimal_decimal, if_pos (by omega), UInt16.ofNat_toNat]
  rintro (h | h | h | h)
  · exact decimal_ne_nil _ h
  · omega
  · exact hdigits h
  · exact hzero h

lemma visible_of_isDigit (h : isDigit b) : visible b := by
  simp only [isDigit, Bool.and_eq_true, decide_eq_true_eq] at h
  exact ⟨UInt8.lt_of_lt_of_le (by decide) h.1, UInt8.lt_of_le_of_lt h.2 (by decide)⟩

lemma visible_decimal (n : Nat) : ∀ b ∈ decimal n, visible b :=
  fun _ hb => visible_of_isDigit (isDigit_of_mem_decimal hb)

/-! ## Version 1 -/

def v1Pieces (proto src dst : List UInt8) (sport dport : UInt16) : List (List UInt8) :=
  [[0x50, 0x52, 0x4F, 0x58, 0x59], proto, src, dst, decimal sport.toNat, decimal dport.toNat]

lemma v1Line_eq (proto src dst : List UInt8) (sport dport : UInt16) :
    v1Line proto src dst sport dport =
      [0x20].intercalate (v1Pieces proto src dst sport dport) ++ [0x0D, 0x0A] := by
  simp [v1Line, v1Prefix, v1Pieces, List.intercalate, List.intersperse]

lemma length_v1Line (proto src dst : List UInt8) (sport dport : UInt16) :
    (v1Line proto src dst sport dport).length = proto.length + src.length + dst.length +
      (decimal sport.toNat).length + (decimal dport.toNat).length + 12 := by
  simp [v1Line, v1Prefix]
  omega

lemma visible_of_mem_intercalate {pieces : List (List UInt8)}
    (hvisible : ∀ piece ∈ pieces, ∀ b ∈ piece, visible b) (hb : b ∈ [0x20].intercalate pieces) :
    b = 0x20 ∨ visible b := by
  rcases Split.mem_intercalate hb with hb | ⟨piece, hpiece, hb⟩
  · exact .inl (mem_singleton.mp hb)
  · exact .inr (hvisible piece hpiece b hb)

section
variable [AddrText]

lemma parseV1_text {word proto : List UInt8} {fields : List (List UInt8)}
    (hproto : proto = tcp4 ∨ proto = tcp6)
    (hvisible : ∀ piece ∈ word :: proto :: fields, ∀ b ∈ piece, visible b)
    (hlen : ([0x20].intercalate (word :: proto :: fields)).length + 2 ≤ v1Max) (rest : List UInt8) :
    parseV1 ([0x20].intercalate (word :: proto :: fields) ++ [0x0D, 0x0A] ++ rest) =
      v1Fields (([0x20].intercalate (word :: proto :: fields)).length + 2) proto fields := by
  have hsplit : ([0x20].intercalate (word :: proto :: fields)).splitOn 0x20 =
      word :: proto :: fields := by
    refine splitOn_intercalate _ (fun piece hpiece hmem => ?_) (by simp)
    exact absurd (hvisible piece hpiece _ hmem).1 (by decide)
  have hcr : 0x0D ∉ [0x20].intercalate (word :: proto :: fields) := by
    intro hmem
    rcases visible_of_mem_intercalate hvisible hmem with h | h
    · exact absurd h (by decide)
    · exact absurd h.1 (by decide)
  have hascii : isUtf8 ([0x20].intercalate (word :: proto :: fields)) := by
    refine isUtf8_of_ascii fun b hb => ?_
    rcases visible_of_mem_intercalate hvisible hb with rfl | h
    · decide
    · exact UInt8.lt_trans h.2 (by decide)
  have hknown : proto ≠ unknown := by
    rcases hproto with rfl | rfl <;> decide
  generalize [0x20].intercalate (word :: proto :: fields) = text at hlen hsplit hcr hascii ⊢
  have hbuf : text ++ [0x0D, 0x0A] ++ rest = text ++ 0x0D :: 0x0A :: rest := by simp
  have hwindow : (text ++ 0x0D :: 0x0A :: rest).take v1Max =
      text ++ 0x0D :: 0x0A :: rest.take (v1Max - text.length - 2) := by
    have hfit : v1Max - text.length = v1Max - text.length - 2 + 1 + 1 := by omega
    rw [take_append, take_of_length_le (by omega), hfit, take_succ_cons, take_succ_cons]
    rfl
  rw [hbuf, parseV1, hwindow, crlfAt_append hcr]
  simp only [take_left, hascii, hsplit, tail_cons, Bool.true_eq_false, if_false,
    if_neg hknown, if_pos hproto]

omit [AddrText] in
lemma classify_v1 (l : List UInt8) : classify (v1Prefix ++ l) = .header .v1 := by
  simp [classify, v1Prefix, v2Signature]

lemma parse_v1Line {proto src dst : List UInt8} (sport dport : UInt16) (rest : List UInt8)
    (hproto : proto = tcp4 ∨ proto = tcp6) (hsrc : ∀ b ∈ src, visible b)
    (hdst : ∀ b ∈ dst, visible b) (hsrclen : src.length ≤ 39) (hdstlen : dst.length ≤ 39) :
    parse (v1Line proto src dst sport dport ++ rest) =
      v1Fields (v1Line proto src dst sport dport).length proto
        [src, dst, decimal sport.toNat, decimal dport.toNat] := by
  have hclass : classify (v1Line proto src dst sport dport ++ rest) = .header .v1 := by
    rw [v1Line]
    simp only [append_assoc]
    exact classify_v1 _
  have hvisible : ∀ piece ∈ v1Pieces proto src dst sport dport, ∀ b ∈ piece, visible b := by
    intro piece hpiece
    simp only [v1Pieces, mem_cons, not_mem_nil, or_false] at hpiece
    rcases hpiece with rfl | rfl | rfl | rfl | rfl | rfl
    · decide +kernel
    · rcases hproto with rfl | rfl <;> decide +kernel
    · exact hsrc
    · exact hdst
    · exact visible_decimal _
    · exact visible_decimal _
  have hport : ∀ p : UInt16, (decimal p.toNat).length ≤ 5 := by
    intro p
    have hp : p.toNat < 65536 := p.toNat_lt
    exact length_decimal_le (by decide) (by omega)
  have hlen : (v1Line proto src dst sport dport).length ≤ v1Max := by
    have hword : proto.length = 4 := by rcases hproto with rfl | rfl <;> rfl
    have hs := hport sport
    have hd := hport dport
    rw [length_v1Line, v1Max]
    omega
  rw [v1Line_eq, length_append] at hlen
  rw [parse, hclass]
  rw [v1Line_eq, length_append]
  exact parseV1_text hproto hvisible hlen rest

end

lemma take_drop_append {b : List UInt8} {n : Nat} (hi : a.length = i) (hn : b.length = n) :
    ((a ++ (b ++ c)).drop i).take n = b := by
  rw [← hi, drop_left, ← hn, take_left]

lemma length_tlv_le (kind : UInt8) (value : List UInt8) : (tlv kind value).length ≤ 1027 := by
  unfold tlv
  split
  · exact Nat.zero_le _
  rename_i h
  rw [maxTlvValue] at h
  simp only [cons_append, length_cons, length_append, length_be]
  omega

lemma length_tlv?_le (kind : UInt8) (value : Option (List UInt8)) :
    (tlv? kind value).length ≤ 1027 := by
  cases value with
  | none => exact Nat.zero_le _
  | some value => exact length_tlv_le kind value

lemma length_tlsTlvs_le (info : TlsInfo) : (tlsTlvs info).length ≤ 3081 := by
  have halpn := length_tlv?_le 0x01 info.alpn
  have hname := length_tlv?_le 0x02 info.serverName
  have hssl := length_tlv_le 0x20 (sslValue info)
  rw [tlsTlvs, length_append, length_append]
  omega

lemma classify_v2 (l : List UInt8) : classify (v2Signature ++ l) = .header .v2 := by
  simp [classify, v2Signature]

lemma parseV2_written {kind : UInt8} {body : List UInt8} {dgram : Bool} (rest : List UInt8)
    (hkind : kind = (if dgram then 0x12 else 0x11) ∨ kind = (if dgram then 0x22 else 0x21))
    (hlen : body.length ≤ v2MaxPayload) :
    parseV2 (v2Signature ++ ([0x21, kind] ++ (be 2 body.length ++ (body ++ rest)))) dgram =
      v2Body (16 + body.length) (kind >>> 4) (kind &&& 0x0F) body := by
  obtain ⟨bytes, hbytes⟩ : ∃ bytes, bytes =
      v2Signature ++ ([0x21, kind] ++ (be 2 body.length ++ (body ++ rest))) := ⟨_, rfl⟩
  have hpayload : be16 bytes 14 = body.length := by
    rw [hbytes, be16, ← append_assoc, take_drop_append (i := 14) rfl (length_be 2 _)]
    exact ofBe_be_of_lt (by rw [v2MaxPayload] at hlen; omega)
  have htotal : bytes.length = 16 + body.length + rest.length := by
    simp [hbytes, v2Signature]
    omega
  have hbody : (bytes.take (16 + body.length)).drop 16 = body := by
    rw [hbytes, drop_take, ← append_assoc, ← append_assoc]
    rw [take_drop_append (by simp [v2Signature]) (by omega)]
  have hcommand : bytes.getD 12 0 = 0x21 := hbytes ▸ rfl
  have hfamily : bytes.getD 13 0 = kind := hbytes ▸ rfl
  rw [← hbytes, parseV2, if_neg (by omega)]
  simp only [hpayload, htotal, hbody, hcommand, hfamily]
  rw [if_neg (by decide), if_neg (by decide), if_neg (by omega), if_neg (by omega)]
  cases dgram <;> rcases hkind with rfl | rfl <;> rfl

/-! ## Both -/

def carried (src dst : Endpoint) : Endpoint × Endpoint :=
  match src.ip, dst.ip with
  | .v4 s, .v4 d => (.v4 s src.port, .v4 d dst.port)
  | s, d => (.v6 (toV6 s) src.port 0 0, .v6 (toV6 d) dst.port 0 0)

lemma ofNat_be16 (p : UInt16) (hi : a.length = i) :
    UInt16.ofNat (be16 (a ++ (be 2 p.toNat ++ c)) i) = p := by
  have hp : p.toNat < 65536 := p.toNat_lt
  rw [be16, take_drop_append hi (length_be 2 _), ofBe_be_of_lt (by omega), UInt16.ofNat_toNat]

lemma v4At_append (ip : BitVec 32) (hi : a.length = i) :
    v4At (a ++ (be 4 ip.toNat ++ c)) i = .v4 ip := by
  have hip : ip.toNat < 256 ^ 4 := ip.isLt
  rw [v4At, take_drop_append hi (length_be 4 _), ofBe_be_of_lt hip,
    BitVec.ofNat_toNat, BitVec.setWidth_eq]

lemma v6At_append (ip : BitVec 128) (hi : a.length = i) :
    v6At (a ++ (be 16 ip.toNat ++ c)) i = .v6 ip := by
  have hip : ip.toNat < 256 ^ 16 := ip.isLt
  rw [v6At, take_drop_append hi (length_be 16 _), ofBe_be_of_lt hip,
    BitVec.ofNat_toNat, BitVec.setWidth_eq]

lemma v2Body_v4 (s d : BitVec 32) (sport dport : UInt16) (len : Nat) (tlvs : List UInt8)
    (ht : transport ≠ 0) :
    v2Body len 1 transport (be 4 s.toNat ++ (be 4 d.toNat ++
        (be 2 sport.toNat ++ (be 2 dport.toNat ++ tlvs))))
      = .header ⟨.v2, len, some (.v4 s sport, .v4 d dport)⟩ := by
  have hsrc := v4At_append (a := []) s (c := be 4 d.toNat ++
    (be 2 sport.toNat ++ (be 2 dport.toNat ++ tlvs))) rfl
  have hdst := v4At_append d (c := be 2 sport.toNat ++ (be 2 dport.toNat ++ tlvs))
    (length_be 4 s.toNat)
  have hsport := ofNat_be16 (a := be 4 s.toNat ++ be 4 d.toNat) (i := 8) sport
    (c := be 2 dport.toNat ++ tlvs) (by simp)
  have hdport := ofNat_be16 (a := be 4 s.toNat ++ (be 4 d.toNat ++
    be 2 sport.toNat)) (i := 10) dport (c := tlvs) (by simp)
  simp only [append_assoc, nil_append] at hsrc hdst hsport hdport
  rw [v2Body, if_pos rfl, if_neg (by simp; omega), hsport, hdport, hdst]
  rw [show v4At _ 0 = IpAddr.v4 s from hsrc]
  rfl

lemma v2Body_v6 (s d : BitVec 128) (sport dport : UInt16) (len : Nat) (tlvs : List UInt8)
    (ht : transport ≠ 0) :
    v2Body len 2 transport (be 16 s.toNat ++ (be 16 d.toNat ++
        (be 2 sport.toNat ++ (be 2 dport.toNat ++ tlvs))))
      = .header ⟨.v2, len, some (.v6 s sport 0 0, .v6 d dport 0 0)⟩ := by
  have hsrc := v6At_append (a := []) s (c := be 16 d.toNat ++
    (be 2 sport.toNat ++ (be 2 dport.toNat ++ tlvs))) rfl
  have hdst := v6At_append d (c := be 2 sport.toNat ++ (be 2 dport.toNat ++ tlvs))
    (length_be 16 s.toNat)
  have hsport := ofNat_be16 (a := be 16 s.toNat ++ be 16 d.toNat) (i := 32) sport
    (c := be 2 dport.toNat ++ tlvs) (by simp)
  have hdport := ofNat_be16 (a := be 16 s.toNat ++ (be 16 d.toNat ++
    be 2 sport.toNat)) (i := 34) dport (c := tlvs) (by simp)
  simp only [append_assoc, nil_append] at hsrc hdst hsport hdport
  have hknown : ¬ (transport = 0 ∨ (2 : UInt8) = 0 ∨ (2 : UInt8) = 3) := by
    rintro (h | h | h)
    · exact ht h
    · exact absurd h (by decide)
    · exact absurd h (by decide)
  rw [v2Body, if_neg hknown, if_neg (by decide), if_neg (by simp; omega), hsport, hdport, hdst]
  rw [show v6At _ 0 = IpAddr.v6 s from hsrc]
  rfl

variable (src dst : Endpoint)

lemma exists_v2Header (tls : Option TlsInfo) (dgram : Bool) : ∃ tlvs body,
    body = (v2Addrs src.ip dst.ip).2 ++ (be 2 src.port.toNat ++ (be 2 dst.port.toNat ++ tlvs)) ∧
    v2Header src dst tls dgram = v2Signature ++ ([0x21, (v2Addrs src.ip dst.ip).1 |||
      if dgram then 0x02 else 0x01] ++ (be 2 body.length ++ body)) ∧
    body.length ≤ v2MaxPayload := by
  have hlen : (tls.elim [] tlsTlvs).length ≤ 3081 := by
    cases tls with
    | none => exact Nat.zero_le _
    | some info => exact length_tlsTlvs_le info
  have haddrs : (v2Addrs src.ip dst.ip).2.length ≤ 32 := by
    unfold v2Addrs
    split <;> simp
  refine ⟨tls.elim [] tlsTlvs, _, rfl, ?_, ?_⟩
  · simp only [v2Header, if_neg (show ¬ (tls.elim [] tlsTlvs).length + 4 + 36 > 65535 by omega),
      append_assoc, length_append, length_be]
    rw [show (v2Addrs src.ip dst.ip).2.length + (2 + (2 + (tls.elim [] tlsTlvs).length)) =
      (v2Addrs src.ip dst.ip).2.length + (4 + (tls.elim [] tlsTlvs).length) by omega,
      Nat.add_assoc]
    rfl
  simp only [length_append, length_be, v2MaxPayload]
  omega

open Endpoint

lemma v2Body_addrs (len : Nat) (tlvs : List UInt8) (ht : transport ≠ 0) :
    v2Body len ((v2Addrs src.ip dst.ip).1 >>> 4) transport ((v2Addrs src.ip dst.ip).2 ++
        (be 2 src.port.toNat ++ (be 2 dst.port.toNat ++ tlvs)))
      = .header ⟨.v2, len, some (carried src dst)⟩ := by
  cases src with
  | v4 s sport =>
    cases dst with
    | v4 d dport =>
      simp only [v2Addrs, ip, Endpoint.port, append_assoc]
      exact v2Body_v4 s d sport dport len tlvs ht
    | v6 d dport _ _ =>
      simp only [v2Addrs, ip, Endpoint.port, append_assoc]
      exact v2Body_v6 (toV6 (.v4 s)) d sport dport len tlvs ht
  | v6 s sport _ _ =>
    cases dst with
    | v4 d dport =>
      simp only [v2Addrs, ip, Endpoint.port, append_assoc]
      exact v2Body_v6 s (toV6 (.v4 d)) sport dport len tlvs ht
    | v6 d dport _ _ =>
      simp only [v2Addrs, ip, Endpoint.port, append_assoc]
      exact v2Body_v6 s d sport dport len tlvs ht

lemma v2Kind (src dst : IpAddr) (dgram : Bool) {kind : UInt8}
    (hkind : kind = (v2Addrs src dst).1 ||| if dgram then 0x02 else 0x01) :
    (kind = (if dgram then 0x12 else 0x11) ∨ kind = (if dgram then 0x22 else 0x21)) ∧
      kind >>> 4 = (v2Addrs src dst).1 >>> 4 ∧ kind &&& 0x0F ≠ 0 := by
  have hfamily : (v2Addrs src dst).1 = 0x10 ∨ (v2Addrs src dst).1 = 0x20 := by
    cases src <;> cases dst <;> simp [v2Addrs]
  rw [hkind]
  rcases hfamily with h | h <;> rw [h] <;> cases dgram <;> decide

lemma parseV2_v2Header (tls : Option TlsInfo) (dgram : Bool) (rest : List UInt8) :
    parseV2 (v2Header src dst tls dgram ++ rest) dgram =
      .header ⟨.v2, (v2Header src dst tls dgram).length, some (carried src dst)⟩ := by
  obtain ⟨tlvs, body, hbody, hheader, hlen⟩ := exists_v2Header src dst tls dgram
  obtain ⟨hkind, hfamily, htransport⟩ := v2Kind src.ip dst.ip dgram rfl
  have haddrs := fun len => v2Body_addrs src dst len tlvs htransport
  rw [← hbody] at haddrs
  rw [hheader]
  generalize (v2Addrs src.ip dst.ip).1 ||| (if dgram then 0x02 else 0x01) = kind at *
  have hsize : (v2Signature ++ ([0x21, kind] ++ (be 2 body.length ++ body))).length =
      16 + body.length := by
    simp [v2Signature]
    omega
  simp only [append_assoc]
  rw [parseV2_written rest hkind hlen, hfamily, haddrs, hsize]

lemma classify_v2Header (tls : Option TlsInfo) (dgram : Bool)
    (rest : List UInt8) : classify (v2Header src dst tls dgram ++ rest) = .header .v2 :=
  classify_v2 _

open LawfulAddrText

lemma parse_proxyV1Header [AddrText] [LawfulAddrText] (rest : List UInt8) :
    parse (proxyV1Header src dst ++ rest) =
      .header ⟨.v1, (proxyV1Header src dst).length, some (carried src dst)⟩ := by
  have hv4 : ∀ (s d : BitVec 32) (sport dport : UInt16),
      parse (v1Line tcp4 (showV4 s) (showV4 d) sport dport ++ rest) = .header ⟨.v1,
        (v1Line tcp4 (showV4 s) (showV4 d) sport dport).length,
        some (.v4 s sport, .v4 d dport)⟩ := by
    intro s d sport dport
    have hs := length_showV4 s
    have hd := length_showV4 d
    rw [parse_v1Line sport dport rest (.inl rfl) (visible_showV4 s)
      (visible_showV4 d) (by omega) (by omega)]
    simp [v1Fields, port_decimal, v1Ips, parse_showV4, new]
  have hv6 : ∀ (s d : BitVec 128) (sport dport : UInt16),
      parse (v1Line tcp6 (showV6 s) (showV6 d) sport dport ++ rest) = .header ⟨.v1,
        (v1Line tcp6 (showV6 s) (showV6 d) sport dport).length,
        some (.v6 s sport 0 0, .v6 d dport 0 0)⟩ := by
    intro s d sport dport
    rw [parse_v1Line sport dport rest (.inr rfl) (visible_showV6 s)
      (visible_showV6 d) (length_showV6 s)
      (length_showV6 d)]
    simp [v1Fields, port_decimal, v1Ips, parse_showV6, new, tcp4, tcp6]
  cases src with
  | v4 s sport =>
    cases dst with
    | v4 d dport => exact hv4 s d sport dport
    | v6 d dport _ _ => exact hv6 (toV6 (.v4 s)) d sport dport
  | v6 s sport _ _ =>
    cases dst with
    | v4 d dport => exact hv6 s (toV6 (.v4 d)) sport dport
    | v6 d dport _ _ => exact hv6 s d sport dport

/-- **PROXY headers read back**, whatever follows them: of version 1, of version 2 with any TLS
session, and of a datagram. -/
theorem headers_read_back [AddrText] [LawfulAddrText] (src dst : Endpoint) (rest : List UInt8) :
    parse (proxyV1Header src dst ++ rest) =
        .header ⟨.v1, (proxyV1Header src dst).length, some (carried src dst)⟩ ∧
      (∀ tls, parse (proxyV2HeaderWith src dst tls ++ rest) =
        .header ⟨.v2, (proxyV2HeaderWith src dst tls).length, some (carried src dst)⟩) ∧
      parseDgram (proxyV2DgramHeader src dst ++ rest) =
        .header ⟨.v2, (proxyV2DgramHeader src dst).length, some (carried src dst)⟩ := by
  refine ⟨parse_proxyV1Header src dst rest, fun tls => ?_, ?_⟩
  · rw [parse, proxyV2HeaderWith, classify_v2Header]
    exact parseV2_v2Header src dst tls false rest
  rw [parseDgram, proxyV2DgramHeader, classify_v2Header]
  simp only [parseV2_v2Header]

end ProxyHeader

namespace Plain
open ProxyHeader

/-! ## Concrete headers -/

def dotted (ip : BitVec 32) : List UInt8 :=
  [0x2E].intercalate ((be 4 ip.toNat).map fun b => decimal b.toNat)

def ofDotted (l : List UInt8) : Option (BitVec 32) :=
  some (BitVec.ofNat 32 (ofBe ((l.splitOn 0x2E).map fun d => ofNat (ofDecimal d))))

def hexDigit (n : Nat) : UInt8 := ofNat (if n < 10 then 0x30 + n else 0x57 + n)

def ofHexDigit (b : UInt8) : Nat := if b.toNat < 0x3A then b.toNat - 0x30 else b.toNat - 0x57

def hexed (ip : BitVec 128) : List UInt8 :=
  (be 16 ip.toNat).flatMap fun b => [hexDigit (b.toNat / 16), hexDigit (b.toNat % 16)]

def ofPairs : List UInt8 → List UInt8
  | a :: b :: l => ofNat (ofHexDigit a * 16 + ofHexDigit b) :: ofPairs l
  | _ => []

def ofHexed (l : List UInt8) : Option (BitVec 128) :=
  some (BitVec.ofNat 128 (ofBe (ofPairs l)))

scoped instance addrText : AddrText where
  showV4 := dotted
  parseV4 := ofDotted
  showV6 := hexed
  parseV6 := ofHexed

lemma ofDotted_dotted (ip : BitVec 32) : ofDotted (dotted ip) = some ip := by
  have hsplit : (dotted ip).splitOn 0x2E =
      (be 4 ip.toNat).map fun b => decimal b.toNat := by
    refine splitOn_intercalate _ (fun piece hpiece hmem => ?_) (by simp [be])
    obtain ⟨b, -, rfl⟩ := mem_map.mp hpiece
    exact absurd (isDigit_of_mem_decimal hmem) (by decide)
  have hread : ((be 4 ip.toNat).map fun b => decimal b.toNat).map
      (fun d => ofNat (ofDecimal d)) = be 4 ip.toNat := by
    rw [map_map]
    refine (map_congr_left fun b _ => ?_).trans (map_id _)
    rw [Function.comp_apply, ofDecimal_decimal, UInt8.ofNat_toNat, id]
  have hip : ip.toNat < 256 ^ 4 := ip.isLt
  rw [ofDotted, hsplit, hread, ofBe_be_of_lt hip, BitVec.ofNat_toNat, BitVec.setWidth_eq]

lemma ofHexDigit_hexDigit {n : Nat} (h : n < 16) : ofHexDigit (hexDigit n) = n := by
  interval_cases n <;> rfl

lemma ofPairs_flatMap (l : List UInt8) : ofPairs (l.flatMap fun b =>
    [hexDigit (b.toNat / 16), hexDigit (b.toNat % 16)]) = l := by
  induction l with
  | nil => rfl
  | cons b l ih =>
    have hb : b.toNat < 256 := b.toNat_lt
    rw [flatMap_cons, cons_append, cons_append, nil_append, ofPairs, ih,
      ofHexDigit_hexDigit (by omega), ofHexDigit_hexDigit (by omega), Nat.div_add_mod',
      UInt8.ofNat_toNat]

variable (ip : BitVec 128)

lemma ofHexed_hexed : ofHexed (hexed ip) = some ip := by
  have hip : ip.toNat < 256 ^ 16 := ip.isLt
  rw [ofHexed, hexed, ofPairs_flatMap, ofBe_be_of_lt hip, BitVec.ofNat_toNat,
    BitVec.setWidth_eq]

lemma visible_hexDigit {n : Nat} (h : n < 16) : visible (hexDigit n) := by
  interval_cases n <;> decide

lemma visible_dotted (ip : BitVec 32) : ∀ b ∈ dotted ip, visible b := by
  intro b hb
  rcases Split.mem_intercalate hb with hdot | ⟨piece, hpiece, hb⟩
  · rw [mem_singleton.mp hdot]
    decide
  obtain ⟨c, -, rfl⟩ := mem_map.mp hpiece
  exact visible_decimal _ b hb

lemma length_dotted (ip : BitVec 32) : (dotted ip).length ≤ 15 := by
  have hbyte : ∀ b : UInt8, (decimal b.toNat).length ≤ 3 := by
    intro b
    have hb : b.toNat < 256 := b.toNat_lt
    exact length_decimal_le (by decide) (by omega)
  simp only [dotted, be, nil_append, cons_append, map_cons, map_nil,
    intercalate_cons_cons, intercalate_singleton, length_append,
    length_singleton]
  have h₁ := hbyte (ofNat (ip.toNat / 256 / 256 / 256))
  have h₂ := hbyte (ofNat (ip.toNat / 256 / 256))
  have h₃ := hbyte (ofNat (ip.toNat / 256))
  have h₄ := hbyte (ofNat ip.toNat)
  omega

lemma visible_hexed : ∀ b ∈ hexed ip, visible b := by
  intro b hb
  rw [hexed, mem_flatMap] at hb
  obtain ⟨c, -, hc⟩ := hb
  have hlt : c.toNat < 256 := c.toNat_lt
  rw [mem_cons, mem_singleton] at hc
  rcases hc with rfl | rfl
  · exact visible_hexDigit (by omega)
  · exact visible_hexDigit (by omega)

lemma length_hexed : (hexed ip).length ≤ 39 := by
  rw [hexed, length_flatMap]
  simp only [length_cons, length_nil, map_const', sum_replicate, length_be]
  decide

scoped instance lawfulAddrText : LawfulAddrText where
  parse_showV4 := ofDotted_dotted
  parse_showV6 := ofHexed_hexed
  visible_showV4 := visible_dotted
  visible_showV6 := visible_hexed
  length_showV4 := length_dotted
  length_showV6 := length_hexed

def linkLocal : Endpoint := .v6 0xFE800000000000000000000000000001#128 40000 0 2

def listening : Endpoint := .v6 0x20010DB8000000000000000000000001#128 443 0 0

/-- The scope of a link-local address is not in the header. -/
theorem scope_not_carried :
    parse (proxyV2HeaderWith linkLocal listening none) = .header ⟨.v2, 52, some
      (.v6 0xFE800000000000000000000000000001#128 40000 0 0, listening)⟩ ∧
    parse (proxyV2HeaderWith linkLocal listening none) ≠
      .header ⟨.v2, 52, some (linkLocal, listening)⟩ := by
  decide +kernel

theorem mixed_read_back :
    parse (proxyV1Header (.v4 0xC0000201#32 5000) listening ++ [0x47, 0x45, 0x54]) =
      .header ⟨.v1, (proxyV1Header (.v4 0xC0000201#32 5000) listening).length,
        some (.v6 0x00000000000000000000FFFFC0000201#128 5000 0 0, listening)⟩ :=
  (headers_read_back (.v4 0xC0000201#32 5000) listening [0x47, 0x45, 0x54]).1

end Plain
end Rproxy
