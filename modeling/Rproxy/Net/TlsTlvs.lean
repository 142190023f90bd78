import Rproxy.Net.ProxyRoundTrip

/-!
# The TLS details of a PROXY header

`tls_tlvs` tells the backend about the TLS session in type-length-value records.
-/

namespace Rproxy.ProxyHeader
open List

/-! ## Records -/

open Bytes UInt8

abbrev Record := UInt8 × List UInt8

def readTlvs : List UInt8 → Option (List Record)
  | [] => some []
  | kind :: hi :: lo :: rest =>
    let n := ofBe [hi, lo]
    if rest.length < n then none
    else (readTlvs (rest.drop n)).map fun records => (kind, rest.take n) :: records
  | _ => none
termination_by l => l.length
decreasing_by simp only [length_drop, length_cons]; omega

def readSsl : List UInt8 → Option (UInt8 × ℕ × List Record)
  | flags :: a :: b :: c :: d :: rest =>
    (readTlvs rest).map fun records => (flags, ofBe [a, b, c, d], records)
  | _ => none

def written (records : List Record) : List UInt8 :=
  records.flatMap fun r => r.1 :: (be 2 r.2.length ++ r.2)

lemma be_two (x : ℕ) : be 2 x = [ofNat (x / 256), ofNat x] := rfl

lemma readTlvs_written {records : List Record} (h : ∀ r ∈ records, r.2.length < 65536) :
    readTlvs (written records) = some records := by
  induction records with
  | nil =>
    rw [written, flatMap_nil, readTlvs]
  | cons r records ih =>
    have hlen : ofBe [ofNat (r.2.length / 256), ofNat r.2.length]
        = r.2.length := by
      rw [← be_two]
      exact ofBe_be_of_lt (h r mem_cons_self)
    have hrest := ih fun s hs => h s (mem_cons_of_mem _ hs)
    have hcons : written (r :: records) = r.1 :: ofNat (r.2.length / 256) ::
        ofNat r.2.length :: (r.2 ++ written records) := by
      simp [written, be_two]
    rw [hcons, readTlvs, hlen]
    simp [hrest]

variable (kind : UInt8) (info : TlsInfo)

def record (value : List UInt8) : List Record :=
  if maxTlvValue < value.length then [] else [(kind, value)]

def record? (value : Option (List UInt8)) : List Record :=
  value.elim [] (record kind)

lemma tlv_eq (value : List UInt8) : tlv kind value = written (record kind value) := by
  unfold tlv record
  split
  · rfl
  · simp [written]

lemma tlv?_eq (value : Option (List UInt8)) : tlv? kind value = written (record? kind value) := by
  cases value with
  | none => rfl
  | some value => exact tlv_eq kind value

lemma written_append (a b : List Record) : written (a ++ b) = written a ++ written b :=
  flatMap_append

variable {value : Option (List UInt8)} {kind : UInt8}

lemma mem_record? {r : Record} :
    r ∈ record? kind value ↔ ∃ v, value = some v ∧ v.length ≤ maxTlvValue ∧ r = (kind, v) := by
  cases value with
  | none => simp [record?]
  | some v =>
    by_cases hv : maxTlvValue < v.length
    · simp [record?, record, hv]
    · simp [record?, record, hv, Nat.not_lt.mp hv]

lemma filter_record? {k : UInt8} (value : Option (List UInt8)) (h : kind ≠ k) :
    (record? kind value).filter (fun r => r.1 = k) = [] := by
  rw [filter_eq_nil_iff]
  intro r hr
  obtain ⟨v, -, -, rfl⟩ := mem_record?.mp hr
  simpa using h

/-! ## The session -/

def shownCn : Option (List UInt8) :=
  if !info.clientCert || info.clientVerified then info.clientCn else none

def sslRecords : List Record :=
  record? 0x21 info.version ++ record? 0x22 (shownCn info)

def tlsRecords : List Record :=
  record? 0x01 info.alpn ++ record? 0x02 info.serverName ++ record 0x20 (sslValue info)

lemma length_of_mem_record? {r : Record} (h : r ∈ record? kind value) : r.2.length < 65536 := by
  obtain ⟨v, -, hv, rfl⟩ := mem_record?.mp h
  exact lt_of_le_of_lt hv (by decide)

lemma readTlvs_tlsTlvs : readTlvs (tlsTlvs info) = some (tlsRecords info) := by
  have hbytes : tlsTlvs info = written (tlsRecords info) := by
    rw [tlsTlvs, tlsRecords, written_append, written_append, tlv?_eq, tlv?_eq, tlv_eq]
  rw [hbytes]
  refine readTlvs_written fun r hr => ?_
  rw [tlsRecords, mem_append, mem_append] at hr
  rcases hr with (hr | hr) | hr
  · exact length_of_mem_record? hr
  · exact length_of_mem_record? hr
  · exact length_of_mem_record? (show r ∈ record? 0x20 (some (sslValue info)) from hr)

lemma readSsl_sslValue : readSsl (sslValue info) = some
    (if info.clientCert then 0x03 else 0x01, if info.clientCert && !info.clientVerified then 1
      else 0, sslRecords info) := by
  have hread : readTlvs (tlv? 0x21 info.version ++ tlv? 0x22 (shownCn info))
      = some (sslRecords info) := by
    rw [tlv?_eq, tlv?_eq, ← written_append]
    refine readTlvs_written fun r hr => ?_
    rcases mem_append.mp hr with hr | hr
    · exact length_of_mem_record? hr
    · exact length_of_mem_record? hr
  have hvalue : sslValue info = (if info.clientCert then 0x03 else 0x01) ::
      (be 4 (if info.clientCert && !info.clientVerified then 1 else 0) ++
        (tlv? 0x21 info.version ++ tlv? 0x22 (shownCn info))) := by
    simp [sslValue, shownCn]
  rw [hvalue]
  cases hverify : info.clientCert && !info.clientVerified
  · exact congrArg (Option.map _) hread
  · exact congrArg (Option.map _) hread

/-- What a backend should be told: records up to their end, one `PP2_TYPE_SSL` among them with the
flags and the verification, no common name that did not verify, and every other value that is not
too long by itself. -/
structure Told (info : TlsInfo) (records nested : List Record) : Prop where
  ends : readTlvs (tlsTlvs info) = some records
  ssl : ∃ value, records.filter (fun r => r.1 = 0x20) = [(0x20, value)] ∧
    readSsl value = some (if info.clientCert then 0x03 else 0x01,
      if info.clientCert && !info.clientVerified then 1 else 0, nested)
  unverified : info.clientCert = true → info.clientVerified = false → ∀ r ∈ nested, r.1 ≠ 0x22
  alpn : ∀ v, info.alpn = some v → v.length ≤ maxTlvValue → (0x01, v) ∈ records
  serverName : ∀ v, info.serverName = some v → v.length ≤ maxTlvValue → (0x02, v) ∈ records
  version : ∀ v, info.version = some v → v.length ≤ maxTlvValue → (0x21, v) ∈ nested
  clientCn : (info.clientCert = true → info.clientVerified = true) →
    ∀ v, info.clientCn = some v → v.length ≤ maxTlvValue → (0x22, v) ∈ nested

lemma filter_tlsRecords : (tlsRecords info).filter (fun r => r.1 = 0x20) = record 0x20
    (sslValue info) := by
  rw [tlsRecords, filter_append, filter_append, filter_record? _ (by decide),
    filter_record? _ (by decide), filter_eq_self.mpr]
  · rfl
  intro r hr
  obtain ⟨v, -, -, rfl⟩ := mem_record?.mp (show r ∈ record? 0x20 (some (sslValue info)) from hr)
  rfl

lemma told_of_fits {info : TlsInfo} (h : (sslValue info).length ≤ maxTlvValue) :
    Told info (tlsRecords info) (sslRecords info) where
  ends := readTlvs_tlsTlvs info
  ssl := by
    refine ⟨sslValue info, ?_, readSsl_sslValue info⟩
    rw [filter_tlsRecords, record, if_neg (Nat.not_lt.mpr h)]
  unverified := by
    intro hcert hverified r hr
    simp only [sslRecords, shownCn, hcert, hverified, mem_append, mem_record?] at hr
    rcases hr with ⟨v, -, -, rfl⟩ | ⟨v, hv, -⟩
    · exact (by decide : (0x21 : UInt8) ≠ 0x22)
    · cases hv
  alpn v hv hle := mem_append_left _ (mem_append_left _ (mem_record?.mpr ⟨v, hv, hle, rfl⟩))
  serverName v hv hle := mem_append_left _ (mem_append_right _ (mem_record?.mpr ⟨v, hv, hle, rfl⟩))
  version v hv hle := mem_append_left _ (mem_record?.mpr ⟨v, hv, hle, rfl⟩)
  clientCn := by
    intro hverified v hv hle
    refine mem_append_right _ (mem_record?.mpr ⟨v, ?_, hle, rfl⟩)
    have hshown : (!info.clientCert || info.clientVerified) := by
      cases hcert : info.clientCert
      · rfl
      rw [hverified hcert]
      rfl
    rw [shownCn, if_pos hshown, hv]

/-- **The backend is told of the TLS session exactly when the version and the common name fit in one
record together** with its five other bytes. -/
theorem tls_told_iff : (∃ records nested, Told info records nested) ↔ 5 +
    (tlv? 0x21 info.version).length + (tlv? 0x22 (shownCn info)).length ≤ maxTlvValue := by
  have hlen : (sslValue info).length =
      5 + (tlv? 0x21 info.version).length + (tlv? 0x22 (shownCn info)).length := by
    simp only [sslValue, shownCn, cons_append, length_cons, length_append, length_be]
    omega
  rw [← hlen]
  constructor
  · rintro ⟨records, nested, hends, ⟨value, hssl, -⟩, -⟩
    by_contra hlong
    rw [readTlvs_tlsTlvs, Option.some.injEq] at hends
    rw [← hends, filter_tlsRecords, record, if_pos (Nat.not_le.mp hlong)] at hssl
    cases hssl
  intro h
  exact ⟨_, _, told_of_fits h⟩

def longName : TlsInfo where
  serverName := none
  alpn := none
  version := none
  clientCn := some (List.replicate 1017 0x61)
  clientCert := true
  clientVerified := true

/-- With that name, not too long by itself, there is no `PP2_TYPE_SSL` record. -/
theorem long_name_hides_tls : tlsTlvs longName = [] ∧
      ¬ ∃ records nested, Told longName records nested := by
  have hnone : tlsTlvs longName = [] := by decide +kernel
  refine ⟨hnone, ?_⟩
  rintro ⟨records, nested, hends, ⟨value, hssl, -⟩, -⟩
  rw [hnone, readTlvs, Option.some.injEq] at hends
  rw [← hends] at hssl
  cases hssl

theorem unverified_told : ∃ records nested,
      Told ⟨none, some [0x68, 0x32], none, some [0x63, 0x61], true, false⟩ records nested :=
  (tls_told_iff ⟨none, some [0x68, 0x32], none, some [0x63, 0x61], true, false⟩).mpr (by decide)

end Rproxy.ProxyHeader
