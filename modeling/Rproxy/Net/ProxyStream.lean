import Rproxy.Net.ProxyRoundTrip
import Rproxy.Rule.Limits

/-!
# Headers that arrive in pieces, and in datagrams

A connection's first bytes are looked at from the start each time more have arrived, until `parse`
can tell.
-/

namespace Rproxy
open List UInt8
namespace ProxyHeader
variable {dgram : Bool} {h : Header} {b s : List UInt8}

/-! ## The start of a header -/

lemma agrees_of_append {x : List UInt8} (h : (b ++ x).take s.length = s.take (b ++ x).length) :
    b.take s.length = s.take b.length := by
  have hcut := congrArg (List.take b.length) h
  rw [take_take, take_take, take_append_of_le_length (Nat.min_le_left _ _),
    length_append, Nat.min_eq_left (Nat.le_add_right _ _)] at hcut
  rw [← hcut, take_eq_take_iff]
  omega

lemma agrees_iff (h : s.length ≤ b.length) : b.take s.length = s.take b.length ↔ s <+: b := by
  rw [take_of_length_le h, prefix_iff_eq_take, eq_comm]

lemma ne_nil_of_isPrefix (h : s <+: b) (hs : s ≠ []) : b ≠ [] := by
  rintro rfl
  exact hs (prefix_nil.mp h)

lemma classify_eq_v2 : classify b = .header .v2 ↔ v2Signature <+: b := by
  constructor
  · intro h
    unfold classify at h
    split_ifs at h with hne h2 hlen
    · exact (agrees_iff hlen).mp h2
    · cases h
  intro h
  rw [classify, if_neg (ne_nil_of_isPrefix h (by decide)),
    if_pos ((agrees_iff h.length_le).mpr h), if_pos h.length_le]

lemma not_agrees_of_v1 (h : v1Prefix <+: b) :
    b.take v2Signature.length ≠ v2Signature.take b.length := by
  obtain ⟨rest, rfl⟩ := h
  simp [v1Prefix, v2Signature]

lemma classify_eq_v1 : classify b = .header .v1 ↔ v1Prefix <+: b := by
  constructor
  · intro h
    unfold classify at h
    split_ifs at h with hne h2 hlen2 h1 hlen
    · cases h
    · exact (agrees_iff hlen).mp h1
  intro h
  rw [classify, if_neg (ne_nil_of_isPrefix h (by decide)), if_neg (not_agrees_of_v1 h),
    if_pos ((agrees_iff h.length_le).mpr h), if_pos h.length_le]

lemma classify_append (x : List UInt8) (h : classify b ≠ .more) :
    classify (b ++ x) = classify b := by
  cases hb : classify b with
  | more => exact absurd hb h
  | header v =>
    cases v with
    | v1 => exact classify_eq_v1.mpr ((classify_eq_v1.mp hb).trans (prefix_append b x))
    | v2 => exact classify_eq_v2.mpr ((classify_eq_v2.mp hb).trans (prefix_append b x))
  | plain =>
    -- a signature that the bytes do not agree with is not agreed with by more of them
    unfold classify at hb ⊢
    split_ifs at hb with hne h2 hl2 h1 hl1
    rw [if_neg (by simp [hne]), if_neg fun hx => h2 (agrees_of_append hx),
      if_neg fun hx => h1 (agrees_of_append hx)]

lemma length_of_classify_more (h : classify b = .more) : b.length < 12 := by
  unfold classify at h
  split_ifs at h with hne h2 hl2 h1 hl1
  · simp [hne]
  · simpa [v2Signature] using hl2
  have hlen : b.length < v1Prefix.length := by omega
  exact lt_trans hlen (by decide)

lemma crlfAt_some {l : List UInt8} {stop : Nat} (h : crlfAt l = some stop) :
    stop + 2 ≤ l.length ∧ ∀ y, crlfAt (l ++ y) = some stop := by
  fun_induction crlfAt l generalizing stop with
  | case1 a b l hab =>
    obtain rfl : 0 = stop := by simpa using h
    exact ⟨by simp, fun y => by simp [crlfAt, hab]⟩
  | case2 a b l hab ih =>
    obtain ⟨n, hn, rfl⟩ := Option.map_eq_some_iff.mp h
    obtain ⟨hlen, happ⟩ := ih hn
    refine ⟨by simpa using hlen, fun y => ?_⟩
    have hmore := happ y
    rw [cons_append] at hmore
    rw [cons_append, cons_append, crlfAt, if_neg hab, hmore]
    rfl
  | case3 l hl => cases h

section
variable [AddrText]

lemma len_of_v1Fields {len : Nat} {proto : List UInt8} {fields : List (List UInt8)}
    (hf : v1Fields len proto fields = .header h) : h.len = len := by
  unfold v1Fields at hf
  split at hf
  · split at hf
    · split at hf
      · cases hf
        rfl
      · cases hf
    · cases hf
  · cases hf

lemma parseV1_append (x : List UInt8) (h : parseV1 b ≠ .more) : parseV1 (b ++ x) = parseV1 b := by
  cases hc : crlfAt (b.take v1Max) with
  | none =>
    have hlong : v1Max ≤ b.length := by
      by_contra hshort
      exact h (by simp [parseV1, hc, hshort])
    have hsame : (b ++ x).take v1Max = b.take v1Max := take_append_of_le_length hlong
    have hlong' : v1Max ≤ (b ++ x).length := by
      rw [length_append]
      omega
    simp only [parseV1, hsame, hc, if_pos hlong, if_pos hlong']
  | some stop =>
    obtain ⟨hlen, happ⟩ := crlfAt_some hc
    have hstop : stop ≤ b.length := by
      rw [length_take] at hlen
      omega
    have hsame : crlfAt ((b ++ x).take v1Max) = some stop := by
      rw [take_append]
      exact happ _
    have htake : (b ++ x).take stop = b.take stop := take_append_of_le_length hstop
    simp only [parseV1, hsame, hc, htake]

lemma len_le_of_parseV1 (hp : parseV1 b = .header h) : h.len ≤ b.length := by
  unfold parseV1 at hp
  split at hp
  · split at hp <;> cases hp
  rename_i stop hc
  have hlen := (crlfAt_some hc).1
  rw [length_take] at hlen
  have hle : stop + 2 ≤ b.length := by omega
  split at hp
  · cases hp
  split at hp
  · cases hp
  split_ifs at hp
  · cases hp
    exact hle
  rw [len_of_v1Fields hp]
  exact hle

lemma parseV1_ne_more (h : v1Max ≤ b.length) : parseV1 b ≠ .more := by
  intro hp
  unfold parseV1 v1Fields at hp
  split at hp
  · rw [if_pos h] at hp
    cases hp
  repeat' split at hp
  all_goals cases hp

end

/-! ## Version 2 -/

def named (family : UInt8) (body : List UInt8) : Option (Endpoint × Endpoint) :=
  if family = 1 then some (.new (v4At body 0) (UInt16.ofNat (be16 body 8)),
    .new (v4At body 4) (UInt16.ofNat (be16 body 10)))
  else if family = 2 then some (.new (v6At body 0) (UInt16.ofNat (be16 body 32)),
    .new (v6At body 16) (UInt16.ofNat (be16 body 34)))
  else none

/-- The bytes start with the fixed part and the body of a version 2 header: of LOCAL, of no
transport, or of the transport asked for, with room for the addresses. -/
structure StartsV2 (dgram : Bool) (b : List UInt8) (h : Header) : Prop where
  version : h.version = .v2
  len : h.len = 16 + be16 b 14
  whole : h.len ≤ b.length
  bounded : be16 b 14 ≤ v2MaxPayload
  fixed : b.getD 12 0 >>> 4 = 2
  family : b.getD 13 0 >>> 4 ≤ 3
  kind : b.getD 12 0 &&& 0x0F = 0 ∧ h.addrs = none ∨
    b.getD 12 0 &&& 0x0F = 1 ∧ (b.getD 13 0 &&& 0x0F = 0 ∧ h.addrs = none ∨
      b.getD 13 0 &&& 0x0F = (if dgram then 2 else 1) ∧
        h.addrs = named (b.getD 13 0 >>> 4) ((b.take h.len).drop 16) ∧
        (b.getD 13 0 >>> 4 = 1 → 12 ≤ be16 b 14) ∧ (b.getD 13 0 >>> 4 = 2 → 36 ≤ be16 b 14))

lemma v2Body_ne_more (len : Nat) (family transport : UInt8) (body : List UInt8) :
    v2Body len family transport body ≠ .more := by
  unfold v2Body
  split_ifs <;> exact nofun

lemma v2Body_eq_header {len : Nat} {family transport : UInt8} {body : List UInt8}
    (hb : v2Body len family transport body = .header h) (hf : family ≤ 3) :
    h.version = .v2 ∧ h.len = len ∧ (transport = 0 ∧ h.addrs = none ∨
      h.addrs = named family body ∧ (family = 1 → 12 ≤ body.length) ∧
        (family = 2 → 36 ≤ body.length)) := by
  unfold v2Body at hb
  split_ifs at hb with hnone h1 hlen hlen
  · cases hb
    rcases hnone with h | rfl | rfl
    · exact ⟨rfl, rfl, .inl ⟨h, rfl⟩⟩
    · exact ⟨rfl, rfl, .inr ⟨rfl, nofun, nofun⟩⟩
    · exact ⟨rfl, rfl, .inr ⟨rfl, nofun, nofun⟩⟩
  · cases hb
    subst h1
    exact ⟨rfl, rfl, .inr ⟨rfl, fun _ => Nat.not_lt.mp hlen, nofun⟩⟩
  cases hb
  have h2 : family = 2 := by
    simp only [not_or, ← UInt8.toNat_inj, le_iff_toNat_le, reduceToNat] at hnone h1 hf ⊢
    omega
  subst h2
  exact ⟨rfl, rfl, .inr ⟨rfl, nofun, fun _ => Nat.not_lt.mp hlen⟩⟩

lemma of_ite_eq {c : Prop} [Decidable c] {x y r : Parsed} (h : (if c then x else y) = r)
    (hx : x ≠ r) : ¬ c ∧ y = r :=
  (ite_eq_iff.mp h).resolve_left fun hc => hx hc.2

lemma parseV2_eq_header (hp : parseV2 b dgram = .header h) : StartsV2 dgram b h := by
  obtain ⟨-, hp⟩ := of_ite_eq hp nofun
  obtain ⟨hver, hp⟩ := of_ite_eq hp nofun
  obtain ⟨hcmd, hp⟩ := of_ite_eq hp nofun
  obtain ⟨hmax, hp⟩ := of_ite_eq hp nofun
  obtain ⟨hlen, hp⟩ := of_ite_eq hp nofun
  obtain ⟨hfam, hp⟩ := of_ite_eq hp nofun
  rw [not_ne_iff] at hver
  by_cases hlocal : b.getD 12 0 &&& 0x0F = 0
  · rw [if_pos hlocal] at hp
    cases hp
    rw [not_or, UInt8.not_lt] at hfam
    exact ⟨rfl, rfl, Nat.not_lt.mp hlen, Nat.not_lt.mp hmax, hver, hfam.1, .inl ⟨hlocal, rfl⟩⟩
  rw [if_neg hlocal] at hp
  obtain ⟨hstream, hp⟩ := of_ite_eq hp nofun
  obtain ⟨hdgram, hp⟩ := of_ite_eq hp nofun
  rw [not_or, UInt8.not_lt, UInt8.not_lt] at hfam
  have hproxy : b.getD 12 0 &&& 0x0F = 1 := by
    simp only [← UInt8.toNat_inj, lt_iff_toNat_lt, reduceToNat] at hcmd hlocal ⊢
    omega
  have hbody : ((b.take (16 + be16 b 14)).drop 16).length = be16 b 14 := by
    rw [length_drop, length_take]
    omega
  obtain ⟨hversion, hlen', haddrs⟩ := v2Body_eq_header hp hfam.1
  rw [hbody] at haddrs
  refine ⟨hversion, hlen', hlen' ▸ Nat.not_lt.mp hlen, Nat.not_lt.mp hmax, hver,
    hfam.1, .inr ⟨hproxy, ?_⟩⟩
  rw [hlen']
  by_cases hzero : b.getD 13 0 &&& 0x0F = 0
  · refine .inl ⟨hzero, ?_⟩
    rw [hzero] at hp
    cases hp
    rfl
  refine .inr ⟨?_, haddrs.resolve_left fun h => hzero h.1⟩
  have htransport := hfam.2
  simp only [← UInt8.toNat_inj, le_iff_toNat_le, reduceToNat]
    at htransport hzero hstream hdgram ⊢
  cases dgram
  · simp only [and_true, Bool.false_eq_true, if_false, reduceToNat] at hstream ⊢
    omega
  simp only [and_true, if_true, reduceToNat] at hdgram ⊢
  omega

lemma parseV2_append (x : List UInt8) (h : parseV2 b dgram ≠ .more) :
    parseV2 (b ++ x) dgram = parseV2 b dgram := by
  have h16 : ¬ b.length < 16 := fun hs => h (by rw [parseV2, if_pos hs])
  have h16' : ¬ (b ++ x).length < 16 := by
    rw [length_append]
    omega
  have hfixed : ∀ i < 16, (b ++ x).getD i 0 = b.getD i 0 := by
    intro i hi
    rw [getD_eq_getElem?_getD, getD_eq_getElem?_getD, getElem?_append_left (by omega)]
  have hpayload : be16 (b ++ x) 14 = be16 b 14 := by
    rw [be16, be16, drop_append_of_le_length (by omega),
      take_append_of_le_length (by rw [length_drop]; omega)]
  unfold parseV2 at h ⊢
  simp only [if_neg h16, if_neg h16', hfixed 12 (by decide), hfixed 13 (by decide), hpayload] at h ⊢
  -- the first three checks look at the fixed part only
  by_cases hver : b.getD 12 0 >>> 4 ≠ 2
  · rw [if_pos hver, if_pos hver]
  rw [if_neg hver] at h ⊢
  by_cases hcmd : 1 < b.getD 12 0 &&& 0x0F
  · rw [if_pos hcmd, if_neg hver, if_pos hcmd]
  rw [if_neg hcmd] at h ⊢
  by_cases hmax : v2MaxPayload < be16 b 14
  · rw [if_pos hmax, if_neg hver, if_neg hcmd, if_pos hmax]
  rw [if_neg hmax] at h ⊢
  have hlen : ¬ b.length < 16 + be16 b 14 := fun hlt => h (if_pos hlt)
  have hlen' : ¬ (b ++ x).length < 16 + be16 b 14 := by
    rw [length_append]
    omega
  rw [if_neg hlen', if_neg hver, if_neg hcmd, if_neg hmax, if_neg hlen,
    take_append_of_le_length (Nat.not_lt.mp hlen)]

lemma parseV2_ne_more (h : 16 + v2MaxPayload ≤ b.length) : parseV2 b dgram ≠ .more := by
  intro hp
  rw [parseV2, if_neg (by omega)] at hp
  obtain ⟨-, hp⟩ := of_ite_eq hp (by simp)
  obtain ⟨-, hp⟩ := of_ite_eq hp (by simp)
  obtain ⟨hmax, hp⟩ := of_ite_eq hp (by simp)
  rw [if_neg (by omega)] at hp
  obtain ⟨-, hp⟩ := of_ite_eq hp (by simp)
  obtain ⟨-, hp⟩ := of_ite_eq hp (by simp)
  obtain ⟨-, hp⟩ := of_ite_eq hp (by simp)
  obtain ⟨-, hp⟩ := of_ite_eq hp (by simp)
  exact v2Body_ne_more _ _ _ _ hp

/-! ## Streams -/

def v2Max : Nat := 16 + v2MaxPayload

section
variable [AddrText]

lemma parse_append (x : List UInt8) (h : parse b ≠ .more) : parse (b ++ x) = parse b := by
  have hmore : classify b ≠ .more := fun hc => h (by rw [parse, hc])
  unfold parse at h ⊢
  rw [classify_append x hmore]
  split at h
  · exact absurd rfl h
  · rfl
  · exact parseV1_append x h
  · exact parseV2_append x h

lemma len_le_of_parse (hp : parse b = .header h) : h.len ≤ b.length := by
  unfold parse at hp
  split at hp
  · cases hp
  · cases hp
  · exact len_le_of_parseV1 hp
  · exact (parseV2_eq_header hp).whole

lemma parse_ne_more (h : v2Max ≤ b.length) : parse b ≠ .more := by
  have hlen : 16 + v2MaxPayload ≤ b.length := h
  unfold parse
  split
  next hc =>
    have hshort := length_of_classify_more hc
    omega
  · exact nofun
  · exact parseV1_ne_more (le_trans (by decide) hlen)
  · exact parseV2_ne_more hlen

def decision (b : List UInt8) : Option Parsed :=
  match parse b with
  | .more => none
  | parsed => some parsed

lemma decision_eq (h : parse b ≠ .more) : decision b = some (parse b) := by
  unfold decision
  split
  next hp => exact absurd hp h
  · rfl

end

/-- `peek_until` over what each look shows: an error, nothing when the peer has closed, or the bytes
that wait. -/
def peekUntil {T : Type} (decide : List UInt8 → Option T) :
    List (Except String (List UInt8)) → Option (Except String (T × Nat))
  | [] => none
  | .error e :: _ => some (.error e)
  | .ok seen :: rest =>
    if seen = [] then some (.error "closed before sending a PROXY header")
    else
      match decide seen with
      | some t => some (.ok (t, seen.length))
      | none => peekUntil decide rest

variable [AddrText]

lemma peekUntil_full {before : List (Except String (List UInt8))} {full : List UInt8}
    {after : List (Except String (List UInt8))} (hfull : parse full ≠ .more)
    (hne : full ≠ []) (hbefore : ∀ p ∈ before, ∃ seen, p = .ok seen ∧ seen ≠ [] ∧ seen <+: full) :
    ∃ n, peekUntil decision (before ++ .ok full :: after) = some (.ok (parse full, n)) := by
  induction before with
  | nil =>
    rw [nil_append, peekUntil, if_neg hne, decision_eq hfull]
    exact ⟨_, rfl⟩
  | cons p before ih =>
    obtain ⟨seen, rfl, hseen, x, rfl⟩ := hbefore _ mem_cons_self
    rw [cons_append, peekUntil, if_neg hseen]
    by_cases hp : parse seen = .more
    · have hnone : decision seen = none := by rw [decision, hp]
      rw [hnone]
      exact ih fun q hq => hbefore q (mem_cons_of_mem _ hq)
    rw [decision_eq hp, parse_append x hp]
    exact ⟨_, rfl⟩

/-- **Reading a header piece by piece.** A decision stands, whatever follows; what ends before the
end of a header is undecided; a header is within the bytes it was read from; and `V2_MAX` bytes are
always decided, so a reader that has filled its buffer has decided as the full buffer decides. -/
theorem parse_decides : (∀ b x, parse b ≠ .more → parse (b ++ x) = parse b) ∧
    (∀ b h p, parse b = .header h → p <+: b → p.length < h.len → parse p = .more) ∧
    (∀ b h, parse b = .header h → h.len ≤ b.length) ∧
    (∀ b, v2Max ≤ b.length → parse b ≠ .more) ∧
    ∀ before full after, full.length = v2Max →
      (∀ p ∈ before, ∃ seen, p = .ok seen ∧ seen ≠ [] ∧ seen <+: full) →
      ∃ n, peekUntil decision (before ++ .ok full :: after) = some (.ok (parse full, n)) := by
  refine ⟨fun b x => parse_append x, ?_, fun b h => len_le_of_parse, fun b => parse_ne_more, ?_⟩
  · rintro _ h p hb ⟨x, rfl⟩ hlt
    by_contra hp
    rw [parse_append x hp] at hb
    exact absurd (len_le_of_parse hb) (Nat.not_le.mpr hlt)
  intro before full after hfull hbefore
  refine peekUntil_full (parse_ne_more hfull.ge) ?_ hbefore
  rintro rfl
  exact absurd hfull (by decide)

end ProxyHeader

/-! ## Datagrams -/

def ProxyProtocol.trusts (pp : ProxyProtocol) (peer : IpAddr) : Bool :=
  pp.from.any fun c => c.contains peer

namespace ProxyHeader

structure Refusal where
  reason : String
  why : String
  version : Option Version
deriving DecidableEq

def datagram (pp : ProxyProtocol) (peer : IpAddr) (data : List UInt8) :
    Except Refusal (Option Endpoint × Nat) :=
  let refused why := .error ⟨"proxy_protocol", why, none⟩
  if pp.trusts peer then
    match parseDgram data with
    | .header h => .ok (h.addrs.map Prod.fst, h.len)
    | .notHeader =>
      if pp.required then refused "no PROXY header (proxy_protocol.required)" else .ok (none, 0)
    | .invalid why => refused why
    | .more => refused "incomplete PROXY header"
  else
    match classify data with
    | .header v => .error ⟨"proxy_protocol_untrusted",
        "a PROXY header from a peer outside proxy_protocol.from", some v⟩
    | _ => .ok (none, 0)

lemma parseDgram_eq_header {data : List UInt8} {h : Header} (hp : parseDgram data = .header h) :
    v2Signature <+: data ∧ StartsV2 true data h := by
  unfold parseDgram at hp
  split at hp
  · cases hp
  · cases hp
  · cases hp
  rename_i hc
  split at hp
  · cases hp
  · exact ⟨classify_eq_v2.mp hc, parseV2_eq_header hp⟩

/-- **Datagram headers are believed only from trusted peers.** A client or a length to strip comes
from a trusted peer's datagram with a whole version 2 header of that length, of DGRAM, LOCAL or no
transport; from another peer a datagram with a whole signature is refused, and one without passes;
and what `proxy_v2_dgram_header` wrote gives the source back and leaves the payload. -/
theorem datagram_believed (pp : ProxyProtocol) (peer : IpAddr) (data : List UInt8) :
    (∀ client n, datagram pp peer data = .ok (client, n) → client ≠ none ∨ n ≠ 0 →
      pp.trusts peer = true ∧ v2Signature <+: data ∧
        ∃ h, StartsV2 true data h ∧ client = h.addrs.map Prod.fst ∧ n = h.len) ∧
    (pp.trusts peer = false →
      (v1Prefix <+: data ∨ v2Signature <+: data → ∃ v, datagram pp peer data =
        .error ⟨"proxy_protocol_untrusted",
          "a PROXY header from a peer outside proxy_protocol.from", some v⟩) ∧
      (¬ (v1Prefix <+: data ∨ v2Signature <+: data) → datagram pp peer data = .ok (none, 0))) ∧
    (pp.trusts peer = true → ∀ src dst payload, data = proxyV2DgramHeader src dst ++ payload →
      ∃ n, datagram pp peer data = .ok (some (carried src dst).1, n) ∧ data.drop n = payload) := by
  refine ⟨fun client n hd hsome => ?_, fun htrust => ⟨?_, ?_⟩, ?_⟩
  · unfold datagram at hd
    split at hd
    next htrust =>
      split at hd
      next h hp =>
        simp only [Except.ok.injEq, Prod.mk.injEq] at hd
        obtain ⟨hsig, hstarts⟩ := parseDgram_eq_header hp
        exact ⟨htrust, hsig, h, hstarts, hd.1.symm, hd.2.symm⟩
      · split at hd <;> cases hd
        simp at hsome
      · cases hd
      · cases hd
    · split at hd <;> cases hd
      simp at hsome
  · rintro (h | h)
    · exact ⟨.v1, by simp [datagram, htrust, classify_eq_v1.mpr h]⟩
    · exact ⟨.v2, by simp [datagram, htrust, classify_eq_v2.mpr h]⟩
  · intro hnone
    rw [not_or, ← classify_eq_v1, ← classify_eq_v2] at hnone
    simp only [datagram, htrust, Bool.false_eq_true, if_false]
    split
    next v hv =>
      cases v
      · exact absurd hv hnone.1
      · exact absurd hv hnone.2
    · rfl
  rintro htrust src dst payload rfl
  have hparse : parseDgram (proxyV2DgramHeader src dst ++ payload) =
      .header ⟨.v2, (proxyV2DgramHeader src dst).length, some (carried src dst)⟩ := by
    rw [parseDgram, proxyV2DgramHeader, classify_v2Header]
    simp only [parseV2_v2Header]
  refine ⟨(proxyV2DgramHeader src dst).length, ?_, drop_left⟩
  simp [datagram, htrust, hparse]

end ProxyHeader

namespace Plain
open ProxyHeader

theorem cut_header_undecided :
    parse ((proxyV2HeaderWith (.v4 0xC0000201#32 5000) (.v4 0xC0000202#32 53) none).take 20)
      = .more :=
  parse_decides.2.1 (proxyV2HeaderWith (.v4 0xC0000201#32 5000) (.v4 0xC0000202#32 53) none)
    ⟨.v2, 28, some (.v4 0xC0000201#32 5000, .v4 0xC0000202#32 53)⟩ _ (by decide +kernel)
    ⟨_, take_append_drop _ _⟩ (by decide +kernel)

def frontEnd : ProxyProtocol where
  «from» := [⟨.v4 0x0A000001#32, 32, rfl, by decide, by decide⟩]
  required := true

/-- The scope of a link-local client is not in the header of its datagram. -/
theorem datagram_scope_lost : ¬ ∀ pp peer src dst payload, pp.trusts peer = true →
      datagram pp peer (proxyV2DgramHeader src dst ++ payload) =
        .ok (some src, (proxyV2DgramHeader src dst).length) := by
  intro h
  have hsame := h frontEnd (.v4 0x0A000001#32) linkLocal listening [] (by decide +kernel)
  revert hsame
  decide +kernel

theorem datagram_from_front_end : ∃ n,
    datagram frontEnd (.v4 0x0A000001#32) (proxyV2DgramHeader (.v4 0xC0000201#32 5000)
      (.v4 0xC0000202#32 53) ++ [0x68, 0x69]) = .ok (some (.v4 0xC0000201#32 5000), n) ∧
    (proxyV2DgramHeader (.v4 0xC0000201#32 5000) (.v4 0xC0000202#32 53) ++ [0x68, 0x69]).drop n
      = [0x68, 0x69] :=
  (datagram_believed frontEnd (.v4 0x0A000001#32) _).2.2 (by decide +kernel)
    (.v4 0xC0000201#32 5000) (.v4 0xC0000202#32 53) [0x68, 0x69] rfl

end Plain
end Rproxy
