import Mathlib

/-!
# Text, as the standard library of the source reads and prints it

The string functions of the validators, over the characters of a `String`: trimming, splitting,
reading and printing an unsigned number.
-/

namespace Rproxy.Text
open List

/-! ## Characters -/

variable (c : Char) (s : String)

open Char Nat

def isWhitespace : Bool :=
  let n := c.toNat
  (9 ≤ n && n ≤ 13) || n == 0x20 || n == 0x85 || n == 0xA0 || n == 0x1680 ||
    (0x2000 ≤ n && n ≤ 0x200A) || n == 0x2028 || n == 0x2029 || n == 0x202F || n == 0x205F ||
    n == 0x3000

def isControl : Bool :=
  c.toNat < 0x20 || (0x7F ≤ c.toNat && c.toNat < 0xA0)

def isAlphanumeric : Bool :=
  c.isLower || c.isUpper || c.isDigit

def lowerChar : Char :=
  if c.isUpper then ofNat (c.toNat + 32) else c

lemma isWhitespace_of_isDigit {c : Char} (h : c.isDigit) : isWhitespace c = false := by
  simp only [isDigit, Bool.and_eq_true, decide_eq_true_eq] at h
  have h1 : 48 ≤ c.toNat := h.1
  have h2 : c.toNat ≤ 57 := h.2
  simp [isWhitespace]
  omega

def lower : String :=
  String.ofList (s.toList.map lowerChar)

def byteLen : Nat :=
  (s.toList.map utf8Size).sum

/-! ## Trimming -/

section Trim
variable {α : Type} (p : α → Bool)

def trimMatches (l : List α) : List α :=
  (l.dropWhile p).rdropWhile p

lemma trimMatches_eq_self {l : List α} (h : ∀ c ∈ l, p c = false) : trimMatches p l = l := by
  have hdrop : l.dropWhile p = l := by
    cases l with
    | nil => rfl
    | cons c rest => simp [h c (by simp)]
  rw [trimMatches, hdrop, rdropWhile_eq_self_iff]
  intro hl
  simp [h _ (getLast_mem hl)]

lemma dropWhile_trimMatches (l : List α) : (trimMatches p l).dropWhile p = trimMatches p l := by
  rcases h : trimMatches p l with _ | ⟨c, rest⟩
  · rfl
  -- the first character left is the first one that `dropWhile` stopped at
  have hpre : trimMatches p l <+: l.dropWhile p := rdropWhile_prefix p _
  rw [h] at hpre
  obtain ⟨tail, htail⟩ := hpre
  have hne : l.dropWhile p ≠ [] := by
    rw [← htail]
    simp
  have hhead : (l.dropWhile p).head hne = c := by
    simp [← htail]
  have hc : p c = false := by
    rw [← hhead]
    simpa using head_dropWhile_not p hne
  simp [hc]

lemma trimMatches_idem (l : List α) : trimMatches p (trimMatches p l) = trimMatches p l := by
  rw [trimMatches, dropWhile_trimMatches, trimMatches, rdropWhile_idempotent]

variable {p} in
lemma trimMatches_congr {q : α → Bool} {l : List α} (h : ∀ c ∈ l, p c = q c) :
    trimMatches p l = trimMatches q l := by
  have hdrop (l : List α) (h : ∀ c ∈ l, p c = q c) : l.dropWhile p = l.dropWhile q := by
    induction l with
    | nil => rfl
    | cons c rest ih =>
      rw [dropWhile_cons, dropWhile_cons, h c mem_cons_self,
        ih fun x hx => h x (mem_cons_of_mem c hx)]
  have hrest : ∀ c ∈ (l.dropWhile q).reverse, p c = q c := fun c hc =>
    h c ((dropWhile_sublist q).subset (mem_reverse.mp hc))
  rw [trimMatches, trimMatches, hdrop l h, List.rdropWhile, List.rdropWhile, hdrop _ hrest]

end Trim

def trim : String :=
  String.ofList (trimMatches isWhitespace s.toList)

def isBracket : Bool :=
  c == '[' || c == ']'

def trimBrackets : String :=
  String.ofList (trimMatches isBracket s.toList)

lemma trim_eq_self {s : String} (h : ∀ c ∈ s.toList, isWhitespace c = false) : trim s = s := by
  rw [trim, trimMatches_eq_self _ h, String.ofList_toList]

lemma trimBrackets_eq_self {s : String} (h : ∀ c ∈ s.toList, isBracket c = false) :
    trimBrackets s = s := by
  rw [trimBrackets, trimMatches_eq_self _ h, String.ofList_toList]

lemma trimBrackets_idem (s : String) : trimBrackets (trimBrackets s) = trimBrackets s := by
  simp only [trimBrackets, String.toList_ofList, trimMatches_idem]

/-! ## Splitting -/

def splitOnce : Option (String × String) :=
  match s.toList.dropWhile (· != c) with
  | [] => none
  | _ :: rest => some (String.ofList (s.toList.takeWhile (· != c)), String.ofList rest)

lemma splitOnce_append {c : Char} {a : String} (b : String) (h : c ∉ a.toList) :
    splitOnce c (a ++ String.ofList (c :: b.toList)) = some (a, b) := by
  have hne : ∀ x ∈ a.toList, (x != c) = true := fun x hx =>
    bne_iff_ne.mpr fun heq => h (heq ▸ hx)
  have hl : (a ++ String.ofList (c :: b.toList)).toList = a.toList ++ c :: b.toList := by
    simp
  rw [splitOnce, hl, dropWhile_append_of_pos hne, takeWhile_append_of_pos hne]
  simp

def rsplitOnce : Option (String × String) :=
  match s.toList.reverse.dropWhile (· != c) with
  | [] => none
  | _ :: rest =>
    some (String.ofList rest.reverse, String.ofList (s.toList.reverse.takeWhile (· != c)).reverse)

def splitOn (c : Char) (s : String) : List String :=
  go [] s.toList
where
  go (piece : List Char) : List Char → List String
    | [] => [String.ofList piece.reverse]
    | x :: rest =>
      if x = c then String.ofList piece.reverse :: go [] rest else go (x :: piece) rest

lemma splitOn_eq (c : Char) (s : String) :
    splitOn c s = (s.toList.splitOn c).map String.ofList := by
  have hgo : ∀ l piece, splitOn.go c piece l
      = (List.splitOnPPrepend (· == c) l piece).map String.ofList := by
    intro l
    induction l with
    | nil => simp [splitOn.go]
    | cons x l ih =>
      intro piece
      rw [splitOn.go, splitOnPPrepend_cons_eq_if]
      by_cases hx : x = c <;> simp [hx, ih]
  exact hgo s.toList []

lemma mem_of_mem_splitOn {c x : Char} {s piece : String} (hpiece : piece ∈ splitOn c s)
    (hx : x ∈ piece.toList) : x ∈ s.toList := by
  rw [splitOn_eq] at hpiece
  obtain ⟨p, hp, rfl⟩ := mem_map.mp hpiece
  rw [String.toList_ofList] at hx
  obtain ⟨i, hi⟩ := mem_iff_getElem?.mp hp
  rw [← @intercalate_splitOn _ s.toList _ _ c]
  refine mem_flatten.mpr ⟨p, mem_iff_getElem?.mpr ⟨2 * i, ?_⟩, hx⟩
  rw [getElem?_intersperse_two_mul, hi]

def stripStart (start s : String) : Option String :=
  if start.toList.isPrefixOf s.toList then
    some (String.ofList (s.toList.drop start.toList.length))
  else none

def trimStartMatches (start s : String) : String :=
  String.ofList (go s.toList.length s.toList)
where
  go : Nat → List Char → List Char
    | 0, l => l
    | n + 1, l =>
      if start.toList.isPrefixOf l then go n (l.drop start.toList.length) else l

def startsWith (start s : String) : Bool :=
  start.toList.isPrefixOf s.toList

def contains (part s : String) : Bool :=
  s.toList.tails.any part.toList.isPrefixOf

def splitDigits : String × String :=
  (String.ofList (s.toList.takeWhile isDigit), String.ofList (s.toList.dropWhile isDigit))

lemma splitDigits_append {a b : String} (ha : ∀ c ∈ a.toList, c.isDigit)
    (hb : ∀ c, b.toList.head? = some c → c.isDigit = false) :
    splitDigits (a ++ b) = (a, b) := by
  have hrest : b.toList.takeWhile isDigit = [] ∧ b.toList.dropWhile isDigit = b.toList := by
    rcases h : b.toList with _ | ⟨c, rest⟩
    · exact ⟨rfl, rfl⟩
    · simp [hb c (by simp [h])]
  simp only [splitDigits, String.toList_append, takeWhile_append_of_pos ha,
    dropWhile_append_of_pos ha, hrest, append_nil, String.ofList_toList]

def stripPlus : List Char → List Char
  | '+' :: rest => rest
  | digits => digits

def parseUnsigned (max : Nat) (s : String) : Option Nat :=
  let digits := stripPlus s.toList
  if digits = [] ∨ ¬ digits.all isDigit then none
  else
    let n := ofDigitChars 10 digits 0
    if n ≤ max then some n else none

lemma isDigit_of_mem_repr {n : Nat} {c : Char} (h : c ∈ n.repr.toList) : c.isDigit := by
  rw [toList_repr] at h
  exact isDigit_of_mem_toDigits (by decide) (by decide) h

lemma stripPlus_repr (n : Nat) : stripPlus n.repr.toList = n.repr.toList := by
  unfold stripPlus
  split
  next rest hrest =>
    have hplus : ('+').isDigit := isDigit_of_mem_repr (n := n) (by simp [hrest])
    exact absurd hplus (by decide)
  · rfl

lemma parseUnsigned_repr {max n : Nat} (h : n ≤ max) : parseUnsigned max n.repr = some n := by
  have hall : n.repr.toList.all isDigit :=
    all_eq_true.mpr fun _ hc => isDigit_of_mem_repr hc
  have hne : n.repr.toList ≠ [] := by
    rw [toList_repr]
    exact toDigits_ne_nil
  have hn : ofDigitChars 10 n.repr.toList 0 = n := by
    rw [toList_repr]
    exact ofDigitChars_ten_toDigits
  simp only [parseUnsigned, stripPlus_repr, hne, hall, hn, h, not_true_eq_false, or_self, if_true,
    if_false]

end Rproxy.Text
