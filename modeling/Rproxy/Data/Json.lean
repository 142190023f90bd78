import Rproxy.Data.Table

/-!
# JSON values and lawful codecs

The data format between the modules of the source is JSON, written and read by derived encoders and
decoders.
-/

namespace Rproxy
open List Option

inductive Json where
  | null
  | bool (b : Bool)
  | num (n : Int)
  | str (s : String)
  | arr (elements : List Json)
  | obj (fields : List (String × Json))

namespace Json

def isNull : Json → Bool
  | null => true
  | _ => false

def get? (name : String) : Json → Option Json
  | obj fields => fields.lookup name
  | _ => none

def shownFields (names : List String) (value : String → Option Json) : List (String × Json) :=
  names.filterMap fun n => (value n).map fun j => (n, j)

lemma lookup_shownFields (names : List String) (value : String → Option Json) (n : String) :
    (shownFields names value).lookup n = if n ∈ names then value n else none := by
  induction names with
  | nil => rfl
  | cons m names ih =>
    rw [shownFields] at ih ⊢
    rcases hv : value m with _ | j
    · rw [filterMap_cons_none (by simp [hv]), ih]
      by_cases hnm : n = m
      · subst hnm
        simp [hv]
      · simp [hnm]
    rw [filterMap_cons_some (b := (m, j)) (by simp [hv]), lookup_cons, ih]
    by_cases hnm : n = m
    · subst hnm
      simp [hv]
    · simp [hnm, beq_eq_false_iff_ne.mpr hnm]

lemma mem_shownFields {names : List String} {value : String → Option Json}
    {field : String × Json} (h : field ∈ shownFields names value) : field.1 ∈ names := by
  rw [shownFields, mem_filterMap] at h
  obtain ⟨n, hn, hfield⟩ := h
  rw [map_eq_some_iff] at hfield
  obtain ⟨j, -, rfl⟩ := hfield
  exact hn

def filledSlots (slots : List (String × Option Json)) : List (String × Json) :=
  slots.filterMap fun slot => slot.2.map fun j => (slot.1, j)

lemma lookup_filledSlots {slots : List (String × Option Json)}
    (hnodup : (slots.map (·.1)).Nodup) (n : String) :
    (filledSlots slots).lookup n = (slots.lookup n).join := by
  induction slots with
  | nil => rfl
  | cons slot slots ih =>
    obtain ⟨m, v⟩ := slot
    rw [map_cons, nodup_cons] at hnodup
    have hrest := ih hnodup.2
    rw [filledSlots] at hrest ⊢
    rw [lookup_cons]
    by_cases hnm : n = m
    · subst hnm
      cases v with
      | none =>
        -- an empty slot shows nothing, and the name is in no later slot
        rw [filterMap_cons_none rfl, hrest]
        simp [Table.lookup_eq_none_of_notMem hnodup.1]
      | some j => simp
    have hne : (n == m) = false := beq_eq_false_iff_ne.mpr hnm
    cases v with
    | none => simpa [hne] using hrest
    | some j => simpa [hne, lookup_cons] using hrest

lemma lookup_filter (fields : List (String × Json)) (keep : String → Bool) (n : String) :
    (fields.filter fun f => keep f.1).lookup n = if keep n then fields.lookup n else none := by
  induction fields with
  | nil => simp
  | cons f fields ih =>
    obtain ⟨m, j⟩ := f
    by_cases hnm : n = m
    · subst hnm
      by_cases hk : keep n
      · simp [hk]
      · simp [hk, ih]
    have hne : (n == m) = false := beq_eq_false_iff_ne.mpr hnm
    by_cases hk : keep m <;> simp [hk, ih, hne, lookup_cons]

end Json

/-! ## Codecs -/

/-- A JSON encoder and decoder of `α`: what is written is not `null` and reads back. -/
structure Codec (α : Type) where
  enc : α → Json
  /-- How a value is read; `none` when the JSON is not of the shape. -/
  dec : Json → Option α
  dec_enc : ∀ a, dec (enc a) = some a
  enc_ne_null : ∀ a, enc a ≠ .null

namespace Codec
variable {α : Type}

def bool : Codec Bool where
  enc := .bool
  dec
    | .bool b => some b
    | _ => none
  dec_enc _ := rfl
  enc_ne_null _ := nofun

def str : Codec String where
  enc := .str
  dec
    | .str s => some s
    | _ => none
  dec_enc _ := rfl
  enc_ne_null _ := nofun

def unsigned (max : Nat) (toNat : α → Nat) (ofNat : Nat → α) (hmax : ∀ a, toNat a ≤ max)
    (hofNat : ∀ a, ofNat (toNat a) = a) : Codec α where
  enc a := .num (toNat a)
  dec
    | .num (.ofNat n) => if n ≤ max then some (ofNat n) else none
    | _ => none
  dec_enc a := by
    change (if toNat a ≤ max then some (ofNat (toNat a)) else none) = some a
    rw [if_pos (hmax a), hofNat]
  enc_ne_null _ := nofun

def enum (name : α → String) (all : List α)
    (h : ∀ a, all.find? (fun b => name b == name a) = some a) : Codec α where
  enc a := .str (name a)
  dec
    | .str s => all.find? fun b => name b == s
    | _ => none
  dec_enc := h
  enc_ne_null _ := nofun

def list (c : Codec α) : Codec (List α) where
  enc l := .arr (l.map c.enc)
  dec
    | .arr l => l.mapM c.dec
    | _ => none
  dec_enc l := by
    induction l with
    | nil => rfl
    | cons a l ih =>
      simp only at ih ⊢
      simp [c.dec_enc, ih]
  enc_ne_null _ := nofun

def u8 : Codec UInt8 :=
  unsigned 255 UInt8.toNat UInt8.ofNat (fun a => Nat.le_of_lt_succ a.toNat_lt) fun _ => by simp

def u16 : Codec UInt16 :=
  unsigned 65535 UInt16.toNat UInt16.ofNat (fun a => Nat.le_of_lt_succ a.toNat_lt) fun _ => by simp

def u32 : Codec UInt32 :=
  unsigned (2 ^ 32 - 1) UInt32.toNat UInt32.ofNat (fun a => Nat.le_of_lt_succ a.toNat_lt)
    fun _ => by simp

def u64 : Codec UInt64 :=
  unsigned (2 ^ 64 - 1) UInt64.toNat UInt64.ofNat (fun a => Nat.le_of_lt_succ a.toNat_lt)
    fun _ => by simp

end Codec

/-! ## Reading fields -/

namespace Json
variable {α : Type}

def readRequired (c : Codec α) (name : String) (get : String → Option Json) : Option α :=
  get name >>= c.dec

def readOptional (c : Codec α) (name : String) (get : String → Option Json) : Option (Option α) :=
  match get name with
  | none => some none
  | some .null => some none
  | some j => (c.dec j).map some

def readDefault (c : Codec α) (d : α) (name : String) (get : String → Option Json) : Option α :=
  match get name with
  | none => some d
  | some j => c.dec j

variable {c : Codec α} {name : String} {get : String → Option Json}

lemma readRequired_enc {a : α} (h : get name = some (c.enc a)) :
    readRequired c name get = some a := by
  rw [readRequired, h]
  exact c.dec_enc a

lemma readOptional_enc {a : Option α} (h : get name = a.map c.enc) :
    readOptional c name get = some a := by
  rw [readOptional, h]
  cases a with
  | none => rfl
  | some a =>
    have hnull := c.enc_ne_null a
    have hdec := c.dec_enc a
    rw [map_some]
    cases hj : c.enc a with
    | null => exact absurd hj hnull
    | bool | num | str | arr | obj => simp only [← hj, hdec, map_some]

lemma readOptional_null (h : get name = some .null) : readOptional c name get = some none := by
  rw [readOptional, h]

lemma readDefault_enc {d a : α} (h : get name = some (c.enc a)) :
    readDefault c d name get = some a := by
  rw [readDefault, h]
  exact c.dec_enc a

lemma readDefault_none {d : α} (h : get name = none) : readDefault c d name get = some d := by
  rw [readDefault, h]

def orNull (c : Codec α) (a : Option α) : Option Json :=
  some ((a.map c.enc).getD .null)

def unlessEmpty (c : Codec α) (l : List α) : Option Json :=
  if l.isEmpty then none else some ((Codec.list c).enc l)

def ifTrue (b : Bool) : Option Json :=
  if b then some (.bool b) else none

lemma readOptional_orNull {a : Option α} (h : get name = orNull c a) :
    readOptional c name get = some a := by
  cases a with
  | none => exact readOptional_null h
  | some a => exact readOptional_enc h

lemma readDefault_unlessEmpty {l : List α} (h : get name = unlessEmpty c l) :
    readDefault (.list c) [] name get = some l := by
  cases l with
  | nil => exact readDefault_none h
  | cons a l => exact readDefault_enc h

lemma readDefault_ifTrue {b : Bool} (h : get name = ifTrue b) :
    readDefault .bool false name get = some b := by
  cases b with
  | false => exact readDefault_none h
  | true => exact readDefault_enc (c := .bool) h

end Json

/-! ## Records -/

/-- How (some of) the fields of `σ` are written and read; `τ` is the tuple of their values. -/
structure Fields (σ τ : Type) where
  names : List String
  value : σ → String → Option Json
  read : (String → Option Json) → Option τ
  values : σ → τ
  read_value : ∀ s get, (∀ n ∈ names, get n = value s n) → read get = some (values s)

namespace Fields
variable {σ τ₁ τ₂ α : Type}

def required (name : String) (c : Codec α) (field : σ → α) : Fields σ α where
  names := [name]
  value s _ := some (c.enc (field s))
  read := Json.readRequired c name
  values := field
  read_value s get h := Json.readRequired_enc (h name (by simp))

def optional (name : String) (c : Codec α) (field : σ → Option α) : Fields σ (Option α) where
  names := [name]
  value s _ := (field s).map c.enc
  read := Json.readOptional c name
  values := field
  read_value s get h := Json.readOptional_enc (h name (by simp))

def nullable (name : String) (c : Codec α) (field : σ → Option α) : Fields σ (Option α) where
  names := [name]
  value s _ := Json.orNull c (field s)
  read := Json.readOptional c name
  values := field
  read_value s get h := Json.readOptional_orNull (h name (by simp))

def default [DecidableEq α] (name : String) (c : Codec α) (d : α) (field : σ → α) :
    Fields σ α where
  names := [name]
  value s _ := if field s = d then none else some (c.enc (field s))
  read := Json.readDefault c d name
  values := field
  read_value s get h := by
    have hget := h name (by simp)
    by_cases hd : field s = d
    · rw [Json.readDefault_none (by rw [hget, if_pos hd]), hd]
    · exact Json.readDefault_enc (by rw [hget, if_neg hd])

def shown (name : String) (c : Codec α) (d : α) (field : σ → α) : Fields σ α where
  names := [name]
  value s _ := some (c.enc (field s))
  read := Json.readDefault c d name
  values := field
  read_value s get h := Json.readDefault_enc (h name (by simp))

def and (F : Fields σ τ₁) (G : Fields σ τ₂)
    (h : ∀ n ∈ G.names, n ∉ F.names := by decide) : Fields σ (τ₁ × τ₂) where
  names := F.names ++ G.names
  value s n := if n ∈ F.names then F.value s n else G.value s n
  read get := F.read get >>= fun a => (G.read get).map fun b => (a, b)
  values s := (F.values s, G.values s)
  read_value s get hget := by
    have hF : F.read get = some (F.values s) := F.read_value s get fun n hn => by
      rw [hget n (by simp [hn]), if_pos hn]
    have hG : G.read get = some (G.values s) := G.read_value s get fun n hn => by
      rw [hget n (by simp [hn]), if_neg (h n hn)]
    rw [hF, hG]
    rfl

end Fields

namespace Codec
variable {σ τ : Type}

def record (strict : Bool) (F : Fields σ τ) (make : τ → σ)
    (h : ∀ s, make (F.values s) = s := by exact fun _ => rfl) : Codec σ where
  enc s := .obj (Json.shownFields F.names (F.value s))
  dec
    | .obj fields =>
      if strict && fields.any (fun f => !F.names.contains f.1) then none
      else (F.read fun n => fields.lookup n).map make
    | _ => none
  dec_enc s := by
    have hknown : (Json.shownFields F.names (F.value s)).any (fun f => !F.names.contains f.1)
        = false := by
      rw [List.any_eq_false]
      intro f hf
      simpa using Json.mem_shownFields hf
    have hread : F.read (fun n => (Json.shownFields F.names (F.value s)).lookup n)
        = some (F.values s) := F.read_value s _ fun n hn => by
      rw [Json.lookup_shownFields, if_pos hn]
    simp only [hknown, Bool.and_false, Bool.false_eq_true, if_false, hread, map_some, h]
  enc_ne_null _ := nofun

end Codec
end Rproxy
