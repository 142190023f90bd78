import Rproxy.Data.Split
import Rproxy.L7.Cache.Answer

/-!
# The key of a request

Flat bytes: the route, scheme and port, and host, each up to a NUL, the path and query, and after
each line feed a `vary` header or the client certificate.
-/

namespace Rproxy.Cache
open List HeaderValue Prod Split UInt8

structure Same (cfg : Settings) (r r' : Request) : Prop where
  route : r.route = r'.route
  https : r.https = r'.https
  port : r.port = r'.port
  host : r.host.map lowerByte = r'.host.map lowerByte
  target : target r = target r'
  vary : ∀ name ∈ cfg.vary, joined r.headers name = joined r'.headers name
  cert : r.cert.map snd = r'.cert.map snd

lemma lowerByte_eq_iff {b c : UInt8} (hc : c < 0x41) : lowerByte b = c ↔ b = c := by
  simp only [lowerByte, Bool.and_eq_true, decide_eq_true_eq]
  split
  next h =>
    have h1 := le_iff_toNat_le.mp h.1
    have h2 := le_iff_toNat_le.mp h.2
    have hlt := lt_iff_toNat_lt.mp hc
    simp only [reduceToNat] at h1 h2 hlt
    constructor
    · rintro rfl
      rw [UInt8.toNat_add] at hlt
      simp only [reduceToNat] at hlt
      omega
    rintro rfl
    omega
  · exact Iff.rfl

lemma notMem_ascii {l : List Char} {b : UInt8} (hb : b < 0x20)
    (h : ∀ c ∈ l, visible c) : b ∉ ascii l := by
  intro hmem
  obtain ⟨c, hc, rfl⟩ := mem_map.mp hmem
  have hvisible := h c hc
  have hlt := lt_iff_toNat_lt.mp hb
  rw [toNat_ascii hvisible] at hlt
  simp only [visible, Bool.and_eq_true, decide_eq_true_eq] at hvisible
  simp only [reduceToNat] at hlt
  omega

lemma lf_notMem_bytes (v : HeaderValue) : 0x0A ∉ v.bytes := by
  intro h
  exact absurd (v.valid _ h) (by decide)

lemma lf_notMem_codings {values : List HeaderValue} : ∀ c ∈ codings values, 0x0A ∉ c := by
  intro c hc hlf
  have hc' := (destutter_sublist (· ≠ ·) _).subset hc
  simp only [mem_mergeSort, mem_filter, mem_map, mem_flatMap] at hc'
  obtain ⟨⟨piece, ⟨v, -, hpiece⟩, rfl⟩, -⟩ := hc'
  obtain ⟨b, hb, hlower⟩ := mem_map.mp hlf
  rw [lowerByte_eq_iff (by decide)] at hlower
  subst hlower
  exact absurd (mem_filter.mp hb).2 (by decide)

variable {name : HeaderName}

lemma lf_notMem_joined {headers : HeaderMap} {v : List UInt8}
    (h : joined headers name = some v) : 0x0A ∉ v := by
  intro hmem
  simp only [joined] at h
  split at h
  · cases h
  split at h <;> cases h <;> rcases mem_intercalate hmem with hsep | ⟨x, hx, hlf⟩
  · exact absurd hsep (by decide)
  · exact lf_notMem_codings x hx hlf
  · exact absurd hsep (by decide)
  obtain ⟨value, -, rfl⟩ := mem_map.mp hx
  exact lf_notMem_bytes value hlf

/-! ## Reading a key -/

def varyValue (r : Request) (name : HeaderName) : List UInt8 :=
  (joined r.headers name).elim [] (0x3D :: ·)

lemma varyPart_eq (r : Request) (name : HeaderName) :
    varyPart r name = 0x0A :: varyValue r name := by
  rw [varyPart, varyValue]
  cases joined r.headers name <;> rfl

lemma lf_notMem_varyValue (r : Request) (name : HeaderName) : 0x0A ∉ varyValue r name := by
  rw [varyValue]
  cases h : joined r.headers name with
  | none => simp
  | some v =>
    simp only [Option.elim_some, mem_cons, not_or]
    exact ⟨by decide, lf_notMem_joined h⟩

variable {r r' : Request}

lemma joined_eq_of_varyValue (h : varyValue r name = varyValue r' name) :
    joined r.headers name = joined r'.headers name := by
  rw [varyValue, varyValue] at h
  cases hr : joined r.headers name <;> cases hr' : joined r'.headers name <;> simp_all

lemma cert_eq_of_append {a a' : List UInt8} (ha : 0x0A ∉ a) (ha' : 0x0A ∉ a')
    (h : a ++ certPart r = a' ++ certPart r') :
    a = a' ∧ r.cert.map snd = r'.cert.map snd := by
  rw [certPart, certPart] at h
  rcases hr : r.cert with _ | ⟨given, cert⟩ <;> rcases hr' : r'.cert with _ | ⟨given', cert'⟩ <;>
    simp only [hr, hr', append_nil, cons_append] at h
  · exact ⟨h, rfl⟩
  · exact absurd (by rw [h]; simp) ha
  · exact absurd (by rw [← h]; simp) ha'
  obtain ⟨hpart, hcert⟩ := append_cons_inj ha ha' h
  refine ⟨hpart, ?_⟩
  simpa using hcert

lemma varies_eq_of_append {names : List HeaderName} {a a' : List UInt8}
    (ha : 0x0A ∉ a) (ha' : 0x0A ∉ a') (h : a ++ (names.flatMap (varyPart r) ++ certPart r)
      = a' ++ (names.flatMap (varyPart r') ++ certPart r')) :
    a = a' ∧ (∀ name ∈ names, joined r.headers name = joined r'.headers name) ∧
      r.cert.map snd = r'.cert.map snd := by
  induction names generalizing a a' with
  | nil =>
    obtain ⟨hpart, hcert⟩ := cert_eq_of_append ha ha' h
    exact ⟨hpart, by simp, hcert⟩
  | cons name names ih =>
    simp only [flatMap_cons, varyPart_eq, cons_append, append_assoc] at h
    obtain ⟨hpart, hrest⟩ := append_cons_inj ha ha' h
    obtain ⟨hvalue, hnames, hcert⟩ := ih (lf_notMem_varyValue r name) (lf_notMem_varyValue r' name)
      (by simpa only [flatMap_cons, varyPart_eq] using hrest)
    refine ⟨hpart, fun n hn => ?_, hcert⟩
    rcases mem_cons.mp hn with rfl | hn
    · exact joined_eq_of_varyValue hvalue
    · exact hnames n hn

lemma visible_repr (n : Nat) : ∀ c ∈ n.repr.toList, visible c :=
  fun _ hc => (visible_of_isDigit (Text.isDigit_of_mem_repr hc)).1

lemma nul_notMem_schemePort (r : Request) : 0 ∉ schemePort r := by
  rw [schemePort, mem_append, not_or]
  refine ⟨notMem_ascii (by decide) ?_, notMem_ascii (by decide) (visible_repr _)⟩
  cases r.https <;> simp [visible]

lemma scheme_port_eq (h : schemePort r = schemePort r') :
    r.https = r'.https ∧ r.port = r'.port := by
  have hport : ascii r.port.toNat.repr.toList
      = ascii r'.port.toNat.repr.toList → r.port = r'.port := by
    intro hbytes
    have hchars := congrArg chars hbytes
    rw [chars_ascii (visible_repr _), chars_ascii (visible_repr _)] at hchars
    exact UInt16.toNat_inj.mp (Nat.repr_inj.mp (String.toList_inj.mp hchars))
  rw [schemePort, schemePort] at h
  cases hr : r.https <;> cases hr' : r'.https <;>
    simp only [hr, hr', if_true, if_false, Bool.false_eq_true] at h
  · exact ⟨rfl, hport (append_cancel_left h)⟩
  · exact absurd (congrArg (fun l => l[4]?) h) (by simp [ascii])
  · exact absurd (congrArg (fun l => l[4]?) h) (by simp [ascii])
  · exact ⟨rfl, hport (append_cancel_left h)⟩

lemma same_of_key_eq {cfg : Settings} (h : key cfg r = key cfg r') : Same cfg r r' := by
  have hhost : ∀ r : Request, 0 ∉ r.host.map lowerByte := by
    intro r hmem
    obtain ⟨b, hb, hlower⟩ := mem_map.mp hmem
    rw [lowerByte_eq_iff (by decide)] at hlower
    exact r.host_nul (hlower ▸ hb)
  have htarget : ∀ r : Request, 0x0A ∉ target r := by
    intro r
    rw [target]
    cases hpq : r.pathAndQuery with
    | none => decide
    | some pq => exact r.path_line pq hpq
  obtain ⟨hroute, h⟩ := append_cons_inj r.route_nul r'.route_nul h
  obtain ⟨hscheme, h⟩ :=
    append_cons_inj (nul_notMem_schemePort r) (nul_notMem_schemePort r') h
  obtain ⟨hhosts, h⟩ := append_cons_inj (hhost r) (hhost r') h
  obtain ⟨htargets, hvary, hcert⟩ := varies_eq_of_append (htarget r) (htarget r') h
  obtain ⟨hhttps, hport⟩ := scheme_port_eq hscheme
  exact ⟨hroute, hhttps, hport, hhosts, htargets, hvary, hcert⟩

end Rproxy.Cache
