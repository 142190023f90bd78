import Rproxy.Data.Split
import Rproxy.Rule.Plain

/-!
# Server name patterns

A pattern is a name, `*.` and a name (one label more) or `**.` and a name (one or more). The code
compares texts: a suffix after a dot, a length.
-/

namespace Rproxy
open List Option Text Checks
namespace Names
variable {l : List Char} {name p s suffix : String}
section Best
variable {α R : Type} [LinearOrder R]

scoped instance lawfulOrderMin : Std.LawfulOrderMin R where
  min_eq_or a b := min_choice a b
  le_min_iff _ _ _ := le_min_iff

def best (rank : α → Option R) (lists : List (List α)) : Option ℕ :=
  ((lists.zipIdx.filterMap fun (l, i) =>
    (l.filterMap rank).min?.map fun r => toLex (r, i)).min?).map fun x => (ofLex x).2

variable {rank : α → Option R}

lemma min?_filterMap_eq_some {l : List α} {r : R} : (l.filterMap rank).min? = some r ↔
      (∃ p ∈ l, rank p = some r) ∧ ∀ q ∈ l, ∀ s, rank q = some s → r ≤ s := by
  rw [min?_eq_some_iff, mem_filterMap]
  refine and_congr_right fun _ => ⟨fun h q hq s hs => ?_, fun h s hs => ?_⟩
  · exact h s (mem_filterMap.mpr ⟨q, hq, hs⟩)
  obtain ⟨q, hq, hs⟩ := mem_filterMap.mp hs
  exact h q hq s hs

lemma exists_min? {l : List α} {q : α} {s : R} (hq : q ∈ l)
    (hs : rank q = some s) : ∃ r, (l.filterMap rank).min? = some r ∧ r ≤ s := by
  cases h : (l.filterMap rank).min? with
  | none =>
    rw [min?_eq_none_iff, filterMap_eq_nil_iff] at h
    rw [h q hq] at hs
    cases hs
  | some r => exact ⟨r, rfl, (min?_filterMap_eq_some.mp h).2 q hq s hs⟩

variable {lists : List (List α)}

lemma best_eq_none : best rank lists = none ↔ ∀ l ∈ lists, ∀ p ∈ l, rank p = none := by
  rw [best, map_eq_none_iff, min?_eq_none_iff]
  simp only [map_eq_none_iff, min?_eq_none_iff, filterMap_eq_nil_iff]
  constructor
  · intro h l hl
    obtain ⟨i, hi⟩ := mem_iff_getElem?.mp hl
    exact h (l, i) (mk_mem_zipIdx_iff_getElem?.mpr hi)
  rintro h ⟨l, i⟩ hli
  exact h l (mem_of_getElem? (mk_mem_zipIdx_iff_getElem?.mp hli))

lemma best_eq_some {i : ℕ} :
    best rank lists = some i ↔ ∃ l p r, lists[i]? = some l ∧ p ∈ l ∧ rank p = some r ∧
      (∀ l' ∈ lists, ∀ q ∈ l', ∀ s, rank q = some s → r ≤ s) ∧
      ∀ j < i, ∀ l', lists[j]? = some l' → ∀ q ∈ l', rank q ≠ some r := by
  have hmem : ∀ x : R ×ₗ ℕ, x ∈ (lists.zipIdx.filterMap fun (l, i) =>
      (l.filterMap rank).min?.map fun r => toLex (r, i)) ↔
      ∃ l, lists[(ofLex x).2]? = some l ∧ (l.filterMap rank).min? = some (ofLex x).1 := by
    intro x
    simp only [mem_filterMap, Prod.exists, mk_mem_zipIdx_iff_getElem?, map_eq_some_iff]
    constructor
    · rintro ⟨l, k, hk, r, hr, rfl⟩
      exact ⟨l, hk, hr⟩
    rintro ⟨l, hl, hr⟩
    exact ⟨l, _, hl, _, hr, rfl⟩
  rw [best, map_eq_some_iff]
  constructor
  · rintro ⟨x, hx, rfl⟩
    obtain ⟨hin, hleast⟩ := min?_eq_some_iff.mp hx
    obtain ⟨l, hl, hr⟩ := (hmem x).mp hin
    obtain ⟨⟨p, hp, hrank⟩, -⟩ := min?_filterMap_eq_some.mp hr
    have hall : ∀ (j : ℕ) l', lists[j]? = some l' → ∀ q ∈ l', ∀ s, rank q = some s →
        x ≤ toLex (s, j) := by
      intro j l' hj q hq s hs
      obtain ⟨t, ht, hts⟩ := exists_min? hq hs
      refine (hleast _ ((hmem (toLex (t, j))).mpr ⟨l', hj, ht⟩)).trans ?_
      exact Prod.Lex.toLex_le_toLex.mpr (hts.lt_or_eq.imp_right fun h => ⟨h, le_rfl⟩)
    refine ⟨l, p, _, hl, hp, hrank, fun l' hl' q hq s hs => ?_, fun j hj l' hl' q hq hs => ?_⟩
    · obtain ⟨j, hj⟩ := mem_iff_getElem?.mp hl'
      rcases Prod.Lex.le_iff.mp (hall j l' hj q hq s hs) with h | h
      · exact h.le
      · exact h.1.le
    rcases Prod.Lex.le_iff.mp (hall j l' hl' q hq _ hs) with h | h
    · exact lt_irrefl _ h
    · exact absurd h.2 (Nat.not_le.mpr hj)
  rintro ⟨l, p, r, hl, hp, hrank, hleast, hfirst⟩
  refine ⟨toLex (r, i), min?_eq_some_iff.mpr ⟨(hmem _).mpr ⟨l, hl, ?_⟩, fun y hy => ?_⟩, rfl⟩
  · exact min?_filterMap_eq_some.mpr ⟨⟨p, hp, hrank⟩, hleast l (mem_of_getElem? hl)⟩
  obtain ⟨l', hl', hr'⟩ := (hmem y).mp hy
  obtain ⟨⟨q, hq, hs⟩, -⟩ := min?_filterMap_eq_some.mp hr'
  refine Prod.Lex.le_iff.mpr ?_
  rcases (hleast l' (mem_of_getElem? hl') q hq _ hs).lt_or_eq with h | h
  · exact .inl h
  refine .inr ⟨h, Nat.not_lt.mp fun hj => hfirst _ hj l' hl' q hq ?_⟩
  rw [hs]
  exact congrArg some h.symm

end Best

/-! ## Patterns -/

inductive Shape where
  | exact (name : String)
  | oneLabel (suffix : String)
  | someLabels (suffix : String)

namespace Shape

def text : Shape → String
  | exact name => name
  | oneLabel suffix => suffix
  | someLabels suffix => suffix

def lower : Shape → Shape
  | exact name => exact (Text.lower name)
  | oneLabel suffix => oneLabel (Text.lower suffix)
  | someLabels suffix => someLabels (Text.lower suffix)

def usizeMax : ℕ := 2 ^ 64 - 1

def rank : Shape → ℕ ×ₗ ℕ
  | exact _ => toLex (0, 0)
  | oneLabel _ => toLex (1, 0)
  | someLabels suffix => toLex (2, usizeMax - byteLen suffix)

end Shape

def shape (p : String) : Shape :=
  match stripStart "**." p with
  | some suffix => .someLabels suffix
  | none =>
    match stripStart "*." p with
    | some suffix => .oneLabel suffix
    | none => .exact p

def endsWith (stop s : String) : Bool :=
  stop.toList.isSuffixOf s.toList

def matchRank (pattern name : String) : Option (ℕ ×ₗ ℕ) :=
  let name := lower name
  match shape (lower pattern) with
  | .someLabels suffix =>
    let dotted := "." ++ suffix
    if byteLen name > byteLen dotted ∧ endsWith dotted name = true ∧
        startsWith "." name = false then
      some (toLex (2, Shape.usizeMax - byteLen suffix))
    else none
  | .oneLabel suffix =>
    if (splitOnce '.' name).any fun (label, rest) => label != "" && rest == suffix then
      some (toLex (1, 0))
    else none
  | .exact pattern => if pattern = name then some (toLex (0, 0)) else none

def nameMatches (pattern name : String) : Bool :=
  (matchRank pattern name).isSome

def bestMatch (lists : List (List String)) (name : String) : Option ℕ :=
  best (fun p => matchRank p name) lists

/-! ## Labels -/

def labels (s : String) : List (List Char) :=
  s.toList.splitOn '.'

def Shape.Fits : Shape → String → Prop
  | exact p, name => labels name = labels p
  | oneLabel suffix, name => ∃ l, l ≠ [] ∧ labels name = l :: labels suffix
  | someLabels suffix, name => ∃ l more, l ≠ [] ∧ labels name = l :: (more ++ labels suffix)

def Fits (pattern name : String) : Prop :=
  (shape (lower pattern)).Fits (lower name)

/-- A name is closer than `*.`, `*.` than `**.`, and of two `**.` the longer one. -/
def Shape.Closer : Shape → Shape → Prop
  | exact _, oneLabel _ => True
  | exact _, someLabels _ => True
  | oneLabel _, someLabels _ => True
  | someLabels s, someLabels t => byteLen t < byteLen s
  | _, _ => False

def Closer (p q : String) : Prop :=
  (shape p).Closer (shape q)

lemma labels_inj {a b : String} (h : labels a = labels b) : a = b := by
  have hlist := congrArg (List.intercalate ['.']) h
  rw [labels, labels, intercalate_splitOn, intercalate_splitOn] at hlist
  exact String.toList_inj.mp hlist

lemma labels_append {a b : List Char} (h : s.toList = a ++ '.' :: b) :
    labels s = a.splitOn '.' ++ b.splitOn '.' := by
  rw [labels, h, splitOn_append_cons_self]

variable {more : List (List Char)}

lemma toList_of_labels (h : labels s = l :: (more ++ labels suffix)) :
    s.toList = ['.'].intercalate (l :: more) ++ '.' :: suffix.toList ∧
      ∀ p ∈ l :: more, '.' ∉ p := by
  have hno : ∀ p ∈ l :: more, '.' ∉ p := by
    intro p hp
    refine Split.notMem_of_mem_splitOn (l := s.toList) ?_
    have hlabels : s.toList.splitOn '.' = (l :: more) ++ labels suffix := h
    rw [hlabels]
    exact mem_append_left _ hp
  refine ⟨?_, hno⟩
  have hsame : s.toList.splitOn '.' =
      (['.'].intercalate (l :: more) ++ '.' :: suffix.toList).splitOn '.' := by
    rw [splitOn_append_cons_self, splitOn_intercalate '.' hno (by simp)]
    exact h
  have hjoin := congrArg ['.'].intercalate hsame
  rwa [intercalate_splitOn, intercalate_splitOn] at hjoin

lemma fits_oneLabel :
    ((splitOnce '.' name).any fun (label, rest) => label != "" && rest == suffix) = true ↔
      (Shape.oneLabel suffix).Fits name := by
  constructor
  · intro h
    obtain ⟨⟨label, rest⟩, hsplit, hok⟩ := (any_eq_true _ _).mp h
    simp only [Bool.and_eq_true, bne_iff_ne, ne_eq, beq_iff_eq] at hok
    obtain ⟨hlabel, rfl⟩ := hok
    unfold splitOnce at hsplit
    split at hsplit
    · cases hsplit
    rename_i c rest hdrop
    obtain ⟨rfl, rfl⟩ := hsplit
    have hhead : c = '.' := by
      have hc := head?_dropWhile_not (· != '.') name.toList
      simpa [hdrop] using hc
    have hlist : name.toList = name.toList.takeWhile (· != '.') ++ '.' :: rest := by
      rw [hhead] at hdrop
      rw [← hdrop, takeWhile_append_dropWhile]
    have hdot : '.' ∉ name.toList.takeWhile (· != '.') := by
      intro hmem
      simpa using mem_takeWhile_imp hmem
    refine ⟨name.toList.takeWhile (· != '.'), ?_, ?_⟩
    · intro hnil
      exact hlabel (by rw [hnil])
    rw [labels_append hlist, splitOn_eq_singleton hdot, labels, String.toList_ofList]
    rfl
  rintro ⟨l, hl, hlabels⟩
  obtain ⟨hlist, hno⟩ := @toList_of_labels _ _ _ [] hlabels
  have hname : name = String.ofList l ++ String.ofList ('.' :: suffix.toList) := by
    rw [← String.toList_inj, hlist]
    simp
  rw [hname, splitOnce_append _ (by simpa using hno l mem_cons_self)]
  simpa using hl

lemma byteLen_append (a b : String) :
    byteLen (a ++ b) = byteLen a + byteLen b := by
  simp [byteLen]

lemma byteLen_eq_zero (h : byteLen s = 0) : s = "" := by
  rw [← String.toList_inj]
  rcases hs : s.toList with _ | ⟨c, l⟩
  · rfl
  rw [byteLen, hs, map_cons, sum_cons] at h
  have hc := c.utf8Size_pos
  omega

lemma fits_someLabels :
    (byteLen name > byteLen ("." ++ suffix) ∧ endsWith ("." ++ suffix) name ∧
      startsWith "." name = false) ↔ (Shape.someLabels suffix).Fits name := by
  have hdotted : ("." ++ suffix).toList = '.' :: suffix.toList := by simp
  constructor
  · rintro ⟨hlen, hends, hstart⟩
    rw [endsWith, isSuffixOf_iff_suffix, hdotted] at hends
    obtain ⟨x, hx⟩ := hends
    rcases x with _ | ⟨c, x⟩
    · have hname : name = "." ++ suffix := by
        rw [← String.toList_inj, ← hx]
        simp
      rw [hname] at hlen
      exact absurd hlen (lt_irrefl _)
    have hc : c ≠ '.' := by
      rintro rfl
      simp [startsWith, ← hx] at hstart
    obtain ⟨l, more, hsplit⟩ := exists_cons_of_ne_nil (splitOn_ne_nil '.' x)
    refine ⟨c :: l, more, by simp, ?_⟩
    rw [labels_append hx.symm, splitOn_cons_eq_if_modifyHead, hsplit]
    simp [hc, labels]
  rintro ⟨l, more, hl, hlabels⟩
  obtain ⟨hlist, hno⟩ := toList_of_labels hlabels
  obtain ⟨c, l, rfl⟩ := exists_cons_of_ne_nil hl
  have hc : c ≠ '.' := by
    rintro rfl
    exact hno _ mem_cons_self mem_cons_self
  obtain ⟨x, hx⟩ : ∃ x, ['.'].intercalate ((c :: l) :: more) = c :: x := by
    cases more with
    | nil => exact ⟨l, by simp⟩
    | cons m more => exact ⟨_, by rw [intercalate_cons_cons]; rfl⟩
  rw [hx] at hlist
  have hname : name = String.ofList (c :: x) ++ ("." ++ suffix) := by
    rw [← String.toList_inj, hlist]
    simp
  refine ⟨?_, ?_, ?_⟩
  · rw [hname, byteLen_append, gt_iff_lt, Nat.lt_add_left_iff_pos]
    refine Nat.pos_of_ne_zero fun hzero => ?_
    have hempty := congrArg String.toList (byteLen_eq_zero hzero)
    simp at hempty
  · rw [endsWith, isSuffixOf_iff_suffix, hdotted, hlist]
    exact suffix_append _ _
  · simp [startsWith, hlist, List.isPrefixOf, Ne.symm hc]

lemma matchRank_eq_some {r : ℕ ×ₗ ℕ} :
    matchRank p name = some r ↔ Fits p name ∧ r = (shape (lower p)).rank := by
  unfold matchRank Fits
  have hexact : ∀ pattern, pattern = lower name ↔
      (Shape.exact pattern).Fits (lower name) := fun pattern =>
    ⟨fun h => congrArg labels (Eq.symm h), fun h => (labels_inj h).symm⟩
  cases shape (lower p) <;>
    simp only [ite_none_right_eq_some, Option.some.injEq, hexact, fits_oneLabel,
      fits_someLabels, Shape.rank, eq_comm (a := r)]

/-! ## Case -/

lemma toNat_lowerChar {c : Char} (h : c.isUpper) :
    (lowerChar c).toNat = c.toNat + 32 ∧ 65 ≤ c.toNat ∧ c.toNat ≤ 90 := by
  have hle : 65 ≤ c.toNat ∧ c.toNat ≤ 90 := by
    simp only [Char.isUpper, decide_eq_true_eq] at h
    exact h
  rw [lowerChar, if_pos h, Char.ofNat, dif_pos (Or.inl (by omega))]
  exact ⟨rfl, hle⟩

lemma utf8Size_lowerChar (c : Char) : (lowerChar c).utf8Size = c.utf8Size := by
  by_cases h : c.isUpper
  · obtain ⟨hlower, hlt⟩ := toNat_lowerChar h
    have hsize : ∀ d : Char, d.toNat < 128 → d.utf8Size = 1 := by
      intro d hd
      have hval : d.val ≤ 127 := UInt32.le_iff_toNat_le.mpr (Nat.le_of_lt_succ hd)
      exact if_pos hval
    rw [hsize _ (by omega), hsize _ (by omega)]
  · simp [lowerChar, h]

lemma byteLen_lower (s : String) : byteLen (lower s) = byteLen s := by
  rw [byteLen, lower, String.toList_ofList, List.map_map]
  exact congrArg List.sum (List.map_congr_left fun c _ => utf8Size_lowerChar c)

lemma lowerChar_eq_of_lt {c d : Char} (hd : d.toNat < 65 ∨ d = '[' ∨ d = ']')
    (h : lowerChar c = d) : c = d := by
  by_cases hu : c.isUpper
  · have hlower := toNat_lowerChar hu
    rw [h] at hlower
    rcases hd with hd | rfl | rfl
    · omega
    · exact absurd hlower.1 (by have : '['.toNat = 91 := rfl; omega)
    · exact absurd hlower.1 (by have : ']'.toNat = 93 := rfl; omega)
  · simpa [lowerChar, hu] using h

lemma lowerChar_eq {c d : Char} (hd : d = '*' ∨ d = '.') : lowerChar c = d ↔ c = d := by
  have hnum : d.toNat < 65 ∧ lowerChar d = d := by
    rcases hd with rfl | rfl <;> decide
  refine ⟨lowerChar_eq_of_lt (.inl hnum.1), ?_⟩
  rintro rfl
  exact hnum.2

lemma stripStart_lower (start : List Char) (hstart : ∀ c ∈ start, c = '*' ∨ c = '.')
    (s : String) :
    stripStart (String.ofList start) (lower s) =
      (stripStart (String.ofList start) s).map lower := by
  have hpre : ∀ l : List Char, start.isPrefixOf (l.map lowerChar) = start.isPrefixOf l := by
    induction start with
    | nil => intro l; simp
    | cons c start ih =>
      intro l
      cases l with
      | nil => rfl
      | cons d l =>
        have hc := lowerChar_eq (c := d) (hstart c mem_cons_self)
        have hbeq : (c == lowerChar d) = (c == d) := by
          rw [Bool.eq_iff_iff, beq_iff_eq, beq_iff_eq, eq_comm, hc, eq_comm]
        rw [map_cons, List.isPrefixOf, List.isPrefixOf, hbeq,
          ih fun x hx => hstart x (mem_cons_of_mem _ hx)]
  simp only [stripStart, lower, String.toList_ofList, hpre]
  split
  · simp [lower]
  · rfl

lemma shape_lower (p : String) : shape (lower p) = (shape p).lower := by
  have htwo := stripStart_lower ['*', '*', '.'] (by simp) p
  have hone := stripStart_lower ['*', '.'] (by simp) p
  unfold shape
  rw [htwo, hone]
  cases stripStart "**." p with
  | some suffix => rfl
  | none => cases stripStart "*." p <;> rfl

lemma text_lower (s : Shape) : s.lower.text = lower s.text := by
  cases s <;> rfl

lemma byteLen_text_le (h : validPattern p) :
    byteLen (shape (lower p)).text ≤ 253 := by
  have htext : ((stripStart "**." p).or (stripStart "*." p)).getD p = (shape p).text := by
    unfold shape
    cases stripStart "**." p with
    | some suffix => rfl
    | none => cases stripStart "*." p <;> rfl
  simp only [validPattern, htext, Bool.and_eq_true, decide_eq_true_eq] at h
  rw [shape_lower, text_lower, byteLen_lower]
  exact h.1.2

/-! ## One pattern of a rank -/

lemma toList_of_stripStart {start : String} (h : stripStart start p = some s) :
    p.toList = start.toList ++ s.toList := by
  unfold stripStart at h
  split at h
  next hpre =>
    obtain ⟨rest, hrest⟩ := isPrefixOf_iff_prefix.mp hpre
    simp only [Option.some.injEq] at h
    rw [← h, ← hrest]
    simp
  · cases h

def Shape.pattern : Shape → String
  | exact name => name
  | oneLabel suffix => "*." ++ suffix
  | someLabels suffix => "**." ++ suffix

lemma pattern_shape (p : String) : (shape p).pattern = p := by
  unfold shape
  cases htwo : stripStart "**." p with
  | some suffix =>
    rw [← String.toList_inj, toList_of_stripStart htwo]
    exact String.toList_append
  | none =>
    cases hone : stripStart "*." p with
    | some suffix =>
      rw [← String.toList_inj, toList_of_stripStart hone]
      exact String.toList_append
    | none => rfl

lemma eq_of_suffix {t : String} (hs : s.toList <:+ l) (ht : t.toList <:+ l)
    (hlen : byteLen s = byteLen t) : s = t := by
  have hone : ∀ {s t : String}, s.toList <:+ t.toList → byteLen s = byteLen t →
      s = t := by
    rintro s t ⟨x, hx⟩ hlen
    have ht : t = String.ofList x ++ s := by
      rw [← String.toList_inj, ← hx]
      simp
    rw [ht, byteLen_append] at hlen
    have hempty := byteLen_eq_zero (s := String.ofList x) (by omega)
    rw [ht, hempty]
    simp
  rcases suffix_or_suffix_of_suffix hs ht with h | h
  · exact hone h hlen
  · exact (hone h hlen.symm).symm

lemma suffix_of_labels (h : labels name = l :: (more ++ labels s)) :
    s.toList <:+ name.toList := by
  rw [(toList_of_labels h).1]
  exact (suffix_cons _ _).trans (suffix_append _ _)

lemma shape_eq_of_rank {s t : Shape} (hs : byteLen s.text ≤ 253)
    (ht : byteLen t.text ≤ 253) (hfs : s.Fits name) (hft : t.Fits name)
    (hrank : s.rank = t.rank) : s = t := by
  have hkind : (ofLex s.rank).1 = (ofLex t.rank).1 := by rw [hrank]
  cases s with
  | exact a =>
    cases t with
    | exact b => rw [labels_inj (Eq.trans (Eq.symm hfs) hft)]
    | _ => simp [Shape.rank] at hkind
  | oneLabel a =>
    cases t with
    | oneLabel b =>
      obtain ⟨l, -, hl⟩ := hfs
      obtain ⟨m, -, hm⟩ := hft
      rw [hl, List.cons.injEq] at hm
      rw [labels_inj hm.2]
    | _ => simp [Shape.rank] at hkind
  | someLabels a =>
    cases t with
    | someLabels b =>
      obtain ⟨l, more, -, hl⟩ := hfs
      obtain ⟨m, more', -, hm⟩ := hft
      have hlen : byteLen a = byteLen b := by
        have h : Shape.usizeMax - byteLen a = Shape.usizeMax - byteLen b :=
          congrArg (fun r => (ofLex r).2) hrank
        simp only [Shape.text, Shape.usizeMax] at h hs ht
        omega
      rw [eq_of_suffix (suffix_of_labels hl) (suffix_of_labels hm) hlen]
    | _ => simp [Shape.rank] at hkind

-- Elaboration would otherwise evaluate `shape` on every name.
attribute [irreducible] shape

lemma lower_eq_of_matchRank {p q name : String} {r : ℕ ×ₗ ℕ} (hp : validPattern p)
    (hq : validPattern q) (hpr : matchRank p name = some r)
    (hqr : matchRank q name = some r) : lower p = lower q := by
  obtain ⟨hfp, hrp⟩ := matchRank_eq_some.mp hpr
  obtain ⟨hfq, hrq⟩ := matchRank_eq_some.mp hqr
  rw [← pattern_shape (lower p), ← pattern_shape (lower q),
    shape_eq_of_rank (byteLen_text_le hp) (byteLen_text_le hq) hfp hfq (hrp.symm.trans hrq)]

lemma rank_lt_iff {q : String} (hp : validPattern p) (hq : validPattern q) :
    (shape (lower p)).rank < (shape (lower q)).rank ↔ Closer p q := by
  have hlp := byteLen_text_le hp
  have hlq := byteLen_text_le hq
  rw [shape_lower, text_lower] at hlp hlq
  rw [Closer, shape_lower, shape_lower]
  generalize shape p = s at hlp ⊢
  generalize shape q = t at hlq ⊢
  cases s <;> cases t <;>
    simp [Shape.lower, Shape.rank, Shape.Closer, Prod.Lex.toLex_lt_toLex, byteLen_lower,
      Shape.usizeMax, Shape.text] at hlp hlq ⊢
  omega

lemma matchRank_ne : matchRank p name ≠ some (toLex (3, 0)) := by
  intro h
  have hrank := (matchRank_eq_some.mp h).2
  have hkind := congrArg (fun r => (ofLex r).1) hrank
  cases hs : shape (lower p) <;> simp [hs, Shape.rank] at hkind

/-! ## Groups -/

end Names

namespace Misdirected
open Names

def groupRank (name p : String) : Option (ℕ ×ₗ ℕ) :=
  if p = "*" then some (toLex (3, 0)) else matchRank p name

def groupOf (m : Misdirected) (name : String) : Option ℕ :=
  best (groupRank name) m.groups

structure Valid (m : Misdirected) : Prop where
  patterns : ∀ g ∈ m.groups, ∀ p ∈ g, p = "*" ∨ validPattern p = true
  once : (m.groups.flatten.map lower).Nodup

lemma checkGroupNames_eq_ok [External] {seen ps : List String}
    (h : checkGroupNames seen ps = .ok ()) :
    (∀ p ∈ ps, p = "*" ∨ validPattern p) ∧ (ps.map lower).Nodup ∧
      ∀ p ∈ ps, lower p ∉ seen := by
  induction ps generalizing seen with
  | nil => simp
  | cons p ps ih =>
    simp only [checkGroupNames, bind_eq_ok, exists_unit, refuseIf_eq_ok] at h
    obtain ⟨hbad, hseen, h⟩ := h
    obtain ⟨hvalid, honce, hnew⟩ := ih h
    have hp : p = "*" ∨ validPattern p := by
      by_contra hno
      exact hbad (not_or.mp hno)
    refine ⟨forall_mem_cons.mpr ⟨hp, hvalid⟩, ?_, ?_⟩
    · rw [map_cons, nodup_cons]
      refine ⟨fun hmem => ?_, honce⟩
      obtain ⟨q, hq, hqp⟩ := mem_map.mp hmem
      exact hnew q hq (by rw [hqp]; exact mem_cons_self)
    refine forall_mem_cons.mpr ⟨hseen, fun q hq hmem => ?_⟩
    exact hnew q hq (mem_cons_of_mem _ hmem)

variable {m : Misdirected}

lemma valid_of_validate [External] (h : m.validate = .ok ()) : m.Valid := by
  simp only [validate, bind_eq_ok, exists_unit] at h
  obtain ⟨hvalid, honce, -⟩ := checkGroupNames_eq_ok h.2
  exact ⟨fun g hg p hp => hvalid p (mem_flatten.mpr ⟨g, hg, hp⟩), honce⟩

lemma lower_eq_of_groupRank {p q name : String} {r : ℕ ×ₗ ℕ}
    (hp : p = "*" ∨ validPattern p) (hq : q = "*" ∨ validPattern q)
    (hpr : groupRank name p = some r) (hqr : groupRank name q = some r) :
    lower p = lower q := by
  unfold groupRank at hpr hqr
  split_ifs at hpr hqr with h1 h2 h2
  · rw [h1, h2]
  · rw [← hpr] at hqr
    exact absurd hqr matchRank_ne
  · rw [← hqr] at hpr
    exact absurd hpr matchRank_ne
  · exact lower_eq_of_matchRank (hp.resolve_left h1) (hq.resolve_left h2) hpr hqr

lemma Valid.group_unique (h : m.Valid) {a b : List String} {p q : String}
    (ha : a ∈ m.groups) (hb : b ∈ m.groups) (hp : p ∈ a) (hq : q ∈ b)
    (hsame : lower p = lower q) : a = b := by
  have honce := h.once
  rw [map_flatten] at honce
  have hdisjoint := pairwise_map.mp (nodup_flatten.mp honce).2
  have : Std.Symm fun a b : List String => (a.map lower).Disjoint (b.map lower) :=
    ⟨fun _ _ h _ ha hb => h hb ha⟩
  by_contra hne
  have hq' := mem_map_of_mem (f := lower) hq
  rw [← hsame] at hq'
  exact hdisjoint.forall ha hb hne (mem_map_of_mem hp) hq'

def Reordered (m m' : Misdirected) : Prop :=
  ∃ gs, gs.Perm m.groups ∧ List.Forall₂ List.Perm gs m'.groups

lemma Reordered.forall_iff {m' : Misdirected} (h : Reordered m m') {P : String → Prop} :
    (∀ g ∈ m.groups, ∀ p ∈ g, P p) ↔ ∀ g ∈ m'.groups, ∀ p ∈ g, P p := by
  obtain ⟨gs, hperm, hall⟩ := h
  have hgs : (∀ g ∈ gs, ∀ p ∈ g, P p) ↔ ∀ g ∈ m'.groups, ∀ p ∈ g, P p := by
    clear hperm
    generalize m'.groups = gs' at hall ⊢
    induction hall with
    | nil => rfl
    | cons hg _ ih => simp only [forall_mem_cons, ih, hg.mem_iff]
  rw [← hgs]
  exact forall_congr' fun g => imp_congr_left hperm.mem_iff.symm

lemma groupOf_reordered {m' : Misdirected} (hvalid : m.Valid) (h : Reordered m m')
    (name : String) :
    (m.groupOf name = none ↔ m'.groupOf name = none) ∧
    ∀ i j, m.groupOf name = some i → m'.groupOf name = some j →
      ∃ g g', m.groups[i]? = some g ∧ m'.groups[j]? = some g' ∧ g.Perm g' := by
  constructor
  · simp only [groupOf, best_eq_none]
    exact h.forall_iff
  intro i j hi hj
  obtain ⟨g, p, r, hg, hp, hpr, hleast, -⟩ := best_eq_some.mp hi
  obtain ⟨g', q, s, hg', hq, hqs, hleast', -⟩ := best_eq_some.mp hj
  -- both have the least rank of one set of patterns
  have hrs : r = s := le_antisymm
    (h.forall_iff.mp hleast g' (mem_of_getElem? hg') q hq s hqs)
    (h.forall_iff.mpr hleast' g (mem_of_getElem? hg) p hp r hpr)
  subst hrs
  obtain ⟨gs, hperm, hall⟩ := h
  obtain ⟨k, hk⟩ := forall₂_iff_get.mp hall
  have hjlen : j < m'.groups.length := (List.getElem?_eq_some_iff.mp hg').1
  have hsame := hk j (by omega) hjlen
  have hgj : m'.groups.get ⟨j, hjlen⟩ = g' := (List.getElem?_eq_some_iff.mp hg').2
  rw [hgj] at hsame
  have hin : gs.get ⟨j, by omega⟩ ∈ m.groups := hperm.mem_iff.mp (get_mem _ _)
  have hqin := hsame.mem_iff.mpr hq
  have hpq := lower_eq_of_groupRank (hvalid.patterns g (mem_of_getElem? hg) p hp)
    (hvalid.patterns _ hin q hqin) hpr hqs
  have heq := hvalid.group_unique (mem_of_getElem? hg) hin hp hqin hpq
  exact ⟨g, g', hg, hg', heq ▸ hsame⟩

end Misdirected

namespace Names

/-- **Name routing picks the closest pattern, and groups are unambiguous.** No list is chosen
exactly when no pattern matches label by label, else the first with a closest pattern; two patterns
that match with one rank are the same, ignoring case; and in groups that validate, the group of a
name depends on no order of the groups or patterns. -/
theorem name_routing [External] (lists : List (List String))
    (hvalid : ∀ l ∈ lists, ∀ p ∈ l, validPattern p = true) (name : String) :
    (bestMatch lists name = none ↔ ∀ l ∈ lists, ∀ p ∈ l, ¬ Fits p name) ∧
    (∀ i, bestMatch lists name = some i ↔ ∃ l p, lists[i]? = some l ∧ p ∈ l ∧ Fits p name ∧
      (∀ l' ∈ lists, ∀ q ∈ l', Fits q name → ¬ Closer q p) ∧
      ∀ j < i, ∀ l', lists[j]? = some l' → ∀ q ∈ l', Fits q name → Closer p q) ∧
    (∀ p q r, validPattern p = true → validPattern q = true → matchRank p name = some r →
      matchRank q name = some r → lower p = lower q) ∧
    ∀ m m' : Misdirected, m.validate = .ok () → m.Reordered m' →
      (m.groupOf name = none ↔ m'.groupOf name = none) ∧
      ∀ i j, m.groupOf name = some i → m'.groupOf name = some j →
        ∃ g g', m.groups[i]? = some g ∧ m'.groups[j]? = some g' ∧ g.Perm g' := by
  have hnone : ∀ p, matchRank p name = none ↔ ¬ Fits p name := by
    intro p
    rw [eq_none_iff_forall_ne_some]
    refine ⟨fun h hf => h _ (matchRank_eq_some.mpr ⟨hf, rfl⟩), fun h r hr => ?_⟩
    exact h (matchRank_eq_some.mp hr).1
  refine ⟨?_, fun i => ?_, fun p q r => lower_eq_of_matchRank, fun m m' hm h => ?_⟩
  · simp only [bestMatch, best_eq_none, hnone]
  · rw [bestMatch, best_eq_some]
    constructor
    · rintro ⟨l, p, r, hl, hp, hr, hleast, hfirst⟩
      obtain ⟨hfits, rfl⟩ := matchRank_eq_some.mp hr
      have hvp := hvalid l (mem_of_getElem? hl) p hp
      refine ⟨l, p, hl, hp, hfits, fun l' hl' q hq hf hcloser => ?_, fun j hj l' hl' q hq hf => ?_⟩
      · have hlt := (rank_lt_iff (hvalid l' hl' q hq) hvp).mpr hcloser
        exact absurd (hleast l' hl' q hq _ (matchRank_eq_some.mpr ⟨hf, rfl⟩)) (not_le.mpr hlt)
      have hl'' := mem_of_getElem? hl'
      rw [← rank_lt_iff hvp (hvalid l' hl'' q hq)]
      refine lt_of_le_of_ne (hleast l' hl'' q hq _ (matchRank_eq_some.mpr ⟨hf, rfl⟩)) ?_
      intro heq
      exact hfirst j hj l' hl' q hq (matchRank_eq_some.mpr ⟨hf, heq⟩)
    rintro ⟨l, p, hl, hp, hfits, hleast, hfirst⟩
    have hvp := hvalid l (mem_of_getElem? hl) p hp
    refine ⟨l, p, _, hl, hp, matchRank_eq_some.mpr ⟨hfits, rfl⟩, fun l' hl' q hq s hs => ?_,
      fun j hj l' hl' q hq hs => ?_⟩
    · obtain ⟨hf, rfl⟩ := matchRank_eq_some.mp hs
      rw [← not_lt, rank_lt_iff (hvalid l' hl' q hq) hvp]
      exact hleast l' hl' q hq hf
    obtain ⟨hf, heq⟩ := matchRank_eq_some.mp hs
    have hcloser := hfirst j hj l' hl' q hq hf
    rw [← rank_lt_iff hvp (hvalid l' (mem_of_getElem? hl') q hq), heq] at hcloser
    exact absurd hcloser (lt_irrefl _)
  · exact Misdirected.groupOf_reordered (Misdirected.valid_of_validate hm) h name

end Names

namespace Plain
open Names

theorem closest_pattern : bestMatch [["**.com"], ["*.example.com"]] "a.Example.com" = some 1 ∧
    ¬ ∀ l ∈ [["**.com"], ["*.example.com"]], ∀ p ∈ l, ¬ Fits p "a.Example.com" := by
  have hvalid : ∀ l ∈ [["**.com"], ["*.example.com"]], ∀ p ∈ l, validPattern p = true := by
    decide +kernel
  have hsome : bestMatch [["**.com"], ["*.example.com"]] "a.Example.com" = some 1 := by
    decide +kernel
  refine ⟨hsome, fun hnone => ?_⟩
  rw [(name_routing _ hvalid _).1.mpr hnone] at hsome
  cases hsome

end Plain
end Rproxy
