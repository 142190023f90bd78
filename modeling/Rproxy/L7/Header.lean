import Rproxy.Data.Text

/-!
# Headers

The headers of a message as the `http` crate has them; a value is any bytes but control characters.
-/

namespace Rproxy

open Bool List UInt8

def HeaderValue.validByte (b : UInt8) : Bool :=
  (0x20 ≤ b && b != 0x7F) || b == 0x09

structure HeaderValue where
  bytes : List UInt8
  valid : ∀ b ∈ bytes, HeaderValue.validByte b = true
deriving DecidableEq

namespace HeaderValue

def textByte (b : UInt8) : Bool :=
  (0x20 ≤ b && b < 0x7F) || b == 0x09

def isText (v : HeaderValue) : Bool :=
  v.bytes.all textByte

def chars (bytes : List UInt8) : List Char :=
  bytes.map fun b => Char.ofNat b.toNat

def toStr (v : HeaderValue) : Option String :=
  if v.isText then some (String.ofList (chars v.bytes)) else none

lemma isText_iff (v : HeaderValue) : v.isText ↔ ∀ b ∈ v.bytes, b < 0x80 := by
  rw [isText, all_eq_true]
  refine forall₂_congr fun b hb => ?_
  have hvalid := v.valid b hb
  simp only [validByte, textByte, or_eq_true, and_eq_true, decide_eq_true_eq,
    bne_iff_ne, ne_eq, beq_iff_eq, ← UInt8.toNat_inj, le_iff_toNat_le,
    lt_iff_toNat_lt] at hvalid ⊢
  have h2 : (0x7F : UInt8).toNat = 127 := rfl
  have h3 : (0x80 : UInt8).toNat = 128 := rfl
  have h4 : (0x09 : UInt8).toNat = 9 := rfl
  omega

variable {v : HeaderValue}

lemma toStr_of_isText (h : v.isText) : v.toStr = some (String.ofList (chars v.bytes)) := by
  simp [toStr, h]

lemma toStr_of_not_isText (h : v.isText = false) : v.toStr = none := by
  simp [toStr, h]

def ascii (l : List Char) : List UInt8 :=
  l.map fun c => UInt8.ofNat c.toNat

def visible (c : Char) : Bool :=
  0x20 ≤ c.toNat && c.toNat < 0x7F

variable {c : Char}

lemma toNat_ascii (h : visible c) : (UInt8.ofNat c.toNat).toNat = c.toNat := by
  simp only [visible, and_eq_true, decide_eq_true_eq] at h
  rw [toNat_ofNat']
  omega

variable {l : List Char}

lemma chars_ascii (h : ∀ c ∈ l, visible c) : chars (ascii l) = l := by
  rw [chars, ascii, map_map]
  refine (map_congr_left fun c hc => ?_).trans (map_id l)
  rw [Function.comp_apply, toNat_ascii (h c hc), Char.ofNat_toNat]
  rfl

lemma textByte_ascii (h : visible c) : textByte (UInt8.ofNat c.toNat) := by
  have hn := toNat_ascii h
  simp only [visible, and_eq_true, decide_eq_true_eq] at h
  simp only [textByte, or_eq_true, and_eq_true, decide_eq_true_eq,
    le_iff_toNat_le, lt_iff_toNat_lt, hn]
  exact .inl h

lemma validByte_of_textByte {b : UInt8} (h : textByte b) : validByte b := by
  simp only [textByte, validByte, or_eq_true, and_eq_true, decide_eq_true_eq,
    bne_iff_ne, ne_eq] at h ⊢
  refine h.imp_left fun h => ⟨h.1, ?_⟩
  rintro rfl
  exact absurd h.2 (by decide)

def ofText (l : List Char) (h : ∀ c ∈ l, visible c = true) : HeaderValue where
  bytes := ascii l
  valid := by
    intro b hb
    obtain ⟨c, hc, rfl⟩ := mem_map.mp hb
    exact validByte_of_textByte (textByte_ascii (h c hc))

def append (v w : HeaderValue) : HeaderValue where
  bytes := v.bytes ++ w.bytes
  valid := by
    intro b hb
    rcases mem_append.mp hb with hb | hb
    · exact v.valid b hb
    · exact w.valid b hb

variable (h : ∀ c ∈ l, visible c = true)

lemma isText_ofText : (ofText l h).isText := by
  rw [isText, all_eq_true]
  intro b hb
  obtain ⟨c, hc, rfl⟩ := mem_map.mp hb
  exact textByte_ascii (h c hc)

lemma toStr_ofText : (ofText l h).toStr = some (String.ofList l) := by
  rw [toStr_of_isText (isText_ofText h)]
  simp only [ofText, chars_ascii h]

lemma isText_append (v w : HeaderValue) : (v.append w).isText = (v.isText && w.isText) := by
  simp [isText, append]

lemma toStr_append_ofText (hv : v.isText) :
    (v.append (ofText l h)).toStr = some (String.ofList (chars v.bytes ++ l)) := by
  have htext : (v.append (ofText l h)).isText := by
    rw [isText_append, hv, isText_ofText h]
    rfl
  have hchars : chars (v.append (ofText l h)).bytes = chars v.bytes ++ chars (ascii l) :=
    map_append
  rw [toStr_of_isText htext, hchars, chars_ascii h]

lemma visible_of_isDigit (h : c.isDigit) : visible c ∧ c ≠ ',' := by
  simp only [Char.isDigit, and_eq_true, decide_eq_true_eq] at h
  have h1 : 48 ≤ c.toNat := h.1
  have h2 : c.toNat ≤ 57 := h.2
  constructor
  · simp only [visible, and_eq_true, decide_eq_true_eq]
    omega
  rintro rfl
  exact absurd h1 (by decide)

def ofNat (n : Nat) : HeaderValue :=
  ofText n.repr.toList fun _ hc => (visible_of_isDigit (Text.isDigit_of_mem_repr hc)).1

end HeaderValue

/-! ## Names and maps -/

structure HeaderName where
  text : String
deriving DecidableEq

namespace HeaderName

def nameChar (c : Char) : Bool :=
  Text.isAlphanumeric c || "!#$%&'*+-.^_`|~".toList.contains c

def fromBytes (s : String) : Option HeaderName :=
  if s ≠ "" ∧ s.toList.all nameChar = true ∧ s.toList.length ≤ 65535 then some ⟨Text.lower s⟩
  else none

end HeaderName

abbrev HeaderMap := List (HeaderName × HeaderValue)

namespace HeaderMap
variable (m : HeaderMap)

def getAll (name : HeaderName) : List HeaderValue :=
  m.filterMap fun line => if line.1 = name then some line.2 else none

def get (name : HeaderName) : Option HeaderValue :=
  (m.getAll name).head?

def containsKey (name : HeaderName) : Bool :=
  m.any fun line => line.1 = name

def remove (name : HeaderName) : HeaderMap :=
  m.filter fun line => line.1 ≠ name

def insert (name : HeaderName) (v : HeaderValue) : HeaderMap :=
  m.remove name ++ [(name, v)]

end HeaderMap
end Rproxy
