import Rproxy.Data.Split
import Rproxy.L7.Normalize

/-!
# One spelling for every path

What `normalize::path` gives, for every path that starts with `/`.
-/

namespace Rproxy.Normalize
open List
variable {segs : List (List UInt8)} {p seg : List UInt8}
open Cow Split

section Pieces
variable {P : UInt8 → UInt8 → Prop} (hP : ∀ x y, P x y → Digits x y)

include hP

lemma Escapes.append {a b : List UInt8} (ha : Escapes P a) (hb : Escapes P b) :
    Escapes P (a ++ b) := by
  induction a using reading with
  | nil => exact hb
  | plain c rest hc ih =>
    rw [cons_append, escapes_cons hc]
    exact ih ((escapes_cons hc).mp ha)
  | escaped x y c rest hxy ih =>
    obtain ⟨hdigits, hrest⟩ := (escapes_escape hP).mp ha
    exact (escapes_escape hP).mpr ⟨hdigits, ih hrest⟩
  | broken r hr => exact absurd (ha.mono hP) (not_escapes_broken hr)

lemma Escapes.of_mem_splitOn (hp : Escapes P p) (hseg : seg ∈ p.splitOn slash) :
    Escapes P seg := by
  induction p using reading generalizing seg with
  | nil =>
    simp only [splitOn_nil, mem_singleton] at hseg
    rw [hseg]
    exact escapes_nil
  | plain b rest hb ih =>
    have hrest := (escapes_cons hb).mp hp
    obtain ⟨first, more, hsplit⟩ := exists_cons_of_ne_nil (splitOn_ne_nil slash rest)
    rw [splitOn_cons_eq_if_modifyHead] at hseg
    by_cases hs : b = slash
    · simp only [hs, beq_self_eq_true, if_true, mem_cons] at hseg
      rcases hseg with rfl | hseg
      · exact escapes_nil
      · exact ih hrest hseg
    simp only [beq_iff_eq, hs, if_false, hsplit, modifyHead_cons, mem_cons] at hseg
    rcases hseg with rfl | hseg
    · exact (escapes_cons hb).mpr (ih hrest (by simp [hsplit]))
    · exact ih hrest (by simp [hsplit, hseg])
  | escaped x y c rest hxy ih =>
    obtain ⟨hdigits, hrest⟩ := (escapes_escape hP).mp hp
    obtain ⟨first, more, hsplit⟩ := exists_cons_of_ne_nil (splitOn_ne_nil slash rest)
    rw [splitOn_escape hxy hsplit, mem_cons] at hseg
    rcases hseg with rfl | hseg
    · exact (escapes_escape hP).mpr ⟨hdigits, ih hrest (by simp [hsplit])⟩
    · exact ih hrest (by simp [hsplit, hseg])
  | broken r hr => exact absurd (hp.mono hP) (not_escapes_broken hr)

lemma Escapes.flatMap (h : ∀ seg ∈ segs, Escapes P seg) :
    Escapes P (segs.flatMap (slash :: ·)) := by
  induction segs with
  | nil => exact escapes_nil
  | cons seg segs ih =>
    have hseg : Escapes P (slash :: seg) := (escapes_cons (by decide)).mpr (h seg mem_cons_self)
    exact hseg.append hP (ih fun s hs => h s (mem_cons_of_mem _ hs))

end Pieces

/-! ## Resolving -/

lemma pushSegment_of_stays (h : Stays seg) : pushSegment segs seg = segs ++ [seg] := by
  obtain ⟨hempty, hdot, hdots⟩ := h
  simp [pushSegment, hempty, hdot, hdots]

@[simp] theorem pushSegment_nil (segs : List (List UInt8)) : pushSegment segs [] = segs := by
  simp [pushSegment]

lemma stays_of_pushSegment {s : List UInt8} (h : s ∈ pushSegment segs seg) :
    s ∈ segs ∨ (s = seg ∧ Stays s) := by
  unfold pushSegment at h
  split at h
  · exact .inl h
  rename_i hkeep
  split at h
  · exact .inl (dropLast_subset _ h)
  rename_i hdots
  rw [mem_append, mem_singleton] at h
  refine h.imp_right fun hs => ⟨hs, ?_⟩
  rw [not_or] at hkeep
  rw [hs]
  exact ⟨hkeep.1, hkeep.2, hdots⟩

lemma mem_of_mem_foldl {pieces : List (List UInt8)} {s : List UInt8}
    (h : s ∈ pieces.foldl pushSegment segs) : s ∈ segs ∨ (s ∈ pieces ∧ Stays s) := by
  induction pieces generalizing segs with
  | nil => exact .inl h
  | cons piece pieces ih =>
    rcases ih h with h | ⟨h, hs⟩
    · rcases stays_of_pushSegment h with h | ⟨rfl, hs⟩
      · exact .inl h
      · exact .inr ⟨mem_cons_self, hs⟩
    · exact .inr ⟨mem_cons_of_mem _ h, hs⟩

lemma foldl_pushSegment {pieces : List (List UInt8)} (h : ∀ s ∈ pieces, Stays s)
    (segs : List (List UInt8)) : pieces.foldl pushSegment segs = segs ++ pieces := by
  induction pieces generalizing segs with
  | nil => simp
  | cons piece pieces ih =>
    rw [foldl_cons, pushSegment_of_stays (h piece mem_cons_self),
      ih fun s hs => h s (mem_cons_of_mem _ hs)]
    simp

def Normal (p : List UInt8) : Prop :=
  ∃ q, p = slash :: q ∧ Escapes NormalDigits p ∧ CleanSegments (q.splitOn slash)

lemma normal_iff : Normal p ↔ p.head? = some slash ∧ isNormal p = .ok true := by
  constructor
  · rintro ⟨q, rfl, hesc, hclean⟩
    refine ⟨rfl, isNormalFrom_eq_true.mpr ⟨?_, fun _ => hclean, hclean.tail⟩⟩
    exact (escapes_cons (by decide)).mp hesc
  rintro ⟨hhead, h⟩
  cases p with
  | nil => cases hhead
  | cons b q =>
    simp only [head?_cons, Option.some.injEq] at hhead
    subst hhead
    obtain ⟨hesc, hclean, -⟩ := isNormalFrom_eq_true.mp h
    exact ⟨q, rfl, (escapes_cons (by decide)).mpr hesc, hclean rfl⟩

lemma normal_of_segments (hstay : ∀ s ∈ segs, Stays s) (hslash : ∀ s ∈ segs, slash ∉ s)
    (hesc : ∀ s ∈ segs, Escapes NormalDigits s) :
    (segs ≠ [] → Normal (segs.flatMap (slash :: ·))) ∧
      Normal (segs.flatMap (slash :: ·) ++ [slash]) := by
  constructor
  · intro hne
    refine ⟨_, flatMap_cons_eq_intercalate hne,
      Escapes.flatMap (fun _ _ h => h.digits) hesc, ?_⟩
    rw [splitOn_intercalate slash hslash hne]
    refine ⟨fun s hs => hstay s (dropLast_subset _ hs), fun s hs => .inr (hstay s ?_)⟩
    exact mem_of_getLast? hs
  -- a final slash is an empty segment after the last one
  have hsegs : segs.flatMap (slash :: ·) ++ [slash] = (segs ++ [[]]).flatMap (slash :: ·) := by
    simp
  have hne : segs ++ [[]] ≠ [] := by simp
  have hslash' : ∀ s ∈ segs ++ [[]], slash ∉ s := by
    simp only [mem_append, mem_singleton]
    rintro s (hs | rfl)
    · exact hslash s hs
    · exact not_mem_nil
  have hesc' : ∀ s ∈ segs ++ [[]], Escapes NormalDigits s := by
    simp only [mem_append, mem_singleton]
    rintro s (hs | rfl)
    · exact hesc s hs
    · exact escapes_nil
  rw [hsegs]
  refine ⟨_, flatMap_cons_eq_intercalate hne,
    Escapes.flatMap (fun _ _ h => h.digits) hesc', ?_⟩
  rw [splitOn_intercalate slash hslash' hne]
  refine ⟨fun s hs => hstay s (by simpa using hs), fun s hs => .inl ?_⟩
  simpa using hs.symm

lemma normal_resolve {d : List UInt8} (h : Escapes NormalDigits d) : Normal (resolve d) := by
  have hmem : ∀ s ∈ (d.splitOn slash).foldl pushSegment [], s ∈ d.splitOn slash ∧ Stays s := by
    intro s hs
    rcases mem_of_mem_foldl hs with hs | hs
    · exact absurd hs not_mem_nil
    · exact hs
  obtain ⟨hplain, hfinal⟩ := normal_of_segments (fun s hs => (hmem s hs).2)
    (fun s hs => notMem_of_mem_splitOn (hmem s hs).1)
    (fun s hs => h.of_mem_splitOn (fun _ _ h => h.digits) (hmem s hs).1)
  simp only [resolve]
  split
  · exact hfinal
  rename_i hout
  refine hplain fun hnil => hout (.inl ?_)
  simp [hnil]

lemma resolve_of_normal (h : Normal p) : resolve p = p := by
  obtain ⟨q, rfl, -, hinit, hlast⟩ := h
  obtain ⟨init, last, hq⟩ : ∃ init last, q.splitOn slash = init ++ [last] :=
    ⟨_, _, (dropLast_append_getLast (splitOn_ne_nil slash q)).symm⟩
  have hp : slash :: q = (init ++ [last]).flatMap (slash :: ·) := by
    rw [flatMap_cons_eq_intercalate (by simp), ← hq, intercalate_splitOn]
  have hstay : ∀ s ∈ init, Stays s := by
    intro s hs
    exact hinit s (by simpa [hq] using hs)
  have hsplit : (slash :: q).splitOn slash = [] :: (init ++ [last]) := by
    rw [splitOn_cons_eq_if_modifyHead, if_pos (by decide), hq]
  have hfold : ((slash :: q).splitOn slash).foldl pushSegment [] = pushSegment init last := by
    rw [hsplit, foldl_cons, foldl_append, foldl_pushSegment hstay]
    rfl
  simp only [resolve, hfold]
  rcases hlast last (by simp [hq]) with rfl | hkeep
  · -- the path ends in a slash
    simp [hp]
  -- the last byte of the path is the last one of its last segment
  have hnoslash : slash ∉ last := notMem_of_mem_splitOn (l := q) (by simp [hq])
  have htrail : (slash :: q).getLast? ≠ some slash := by
    have hlast' : (slash :: q).getLast? = last.getLast? := by
      rw [hp, flatMap_append, flatMap_singleton, getLast?_append,
        getLast?_cons, getLast?_eq_some_getLast hkeep.1]
      simp
    rw [hlast']
    intro hsome
    exact hnoslash (mem_of_getLast? hsome)
  rw [pushSegment_of_stays hkeep, ← hp]
  simp [htrail]

/-! ## The path routes see -/

lemma path_eq (hp : p.head? = some slash) : (path p).map text = (decode p).map resolve := by
  have hhead : ¬ p.head? ≠ some slash := fun h => h hp
  rw [path, if_neg hhead]
  rcases h : isNormal p with e | _ | _
  · -- refused by the check: decoding refuses it too
    have hno : ¬ ∃ d, decode p = .ok d := by
      rw [exists_decode]
      cases p with
      | nil => cases hp
      | cons b q =>
        simp only [head?_cons, Option.some.injEq] at hp
        subst hp
        rw [escapes_cons (by decide)]
        exact not_escapes_of_isNormalFrom h
    cases hd : decode p with
    | error e' =>
      cases e
      cases e'
      rfl
    | ok d => exact absurd ⟨d, hd⟩ hno
  · cases decode p <;> rfl
  have hnormal : Normal p := normal_iff.mpr ⟨hp, h⟩
  have hdecode : decode p = .ok p := by
    obtain ⟨q, -, hesc, -⟩ := hnormal
    exact decode_of_escapes hesc
  simp [hdecode, Except.map, text, resolve_of_normal hnormal]

lemma path_eq_ok (hp : p.head? = some slash) {c : Cow} (h : path p = .ok c) :
    ∃ d, decode p = .ok d ∧ c.text = resolve d := by
  have heq := path_eq hp
  rw [h] at heq
  cases hd : decode p with
  | error e => simp [hd, Except.map] at heq
  | ok d =>
    simp only [hd, Except.map, Except.ok.injEq] at heq
    exact ⟨d, rfl, heq⟩

lemma path_of_normal (h : Normal p) : path p = .ok (.borrowed p) := by
  obtain ⟨hhead, hnormal⟩ := normal_iff.mp h
  simp [path, hhead, hnormal]

/-- **The check without a copy agrees with the normaliser**: a path passes it exactly when decoding
and resolving give the path back, and what it refuses they refuse. -/
theorem isNormal_iff_unchanged (p : List UInt8) (hp : p.head? = some slash) :
    (isNormal p = .ok true ↔ (decode p).map resolve = .ok p) ∧
    ∀ e, isNormal p = .error e → (decode p).map resolve = .error e := by
  refine ⟨⟨fun h => ?_, fun h => ?_⟩, fun e h => ?_⟩
  · rw [← path_eq hp, path_of_normal (normal_iff.mpr ⟨hp, h⟩)]
    rfl
  · cases hd : decode p with
    | error e => simp [hd, Except.map] at h
    | ok d =>
      have hresolve : resolve d = p := by simpa [hd, Except.map] using h
      have hnormal := normal_resolve (escapes_of_decode hd)
      rw [hresolve] at hnormal
      exact (normal_iff.mp hnormal).2
  · rw [← path_eq hp, path, if_neg fun hno => hno hp, h]
    rfl

theorem unchanged_escaped_slash : isNormal [slash, 0x61, percent, 0x32, 0x46, 0x62] = .ok true ∧
    (decode [slash, 0x61, percent, 0x32, 0x46, 0x62]).map resolve
      = .ok [slash, 0x61, percent, 0x32, 0x46, 0x62] := by
  have hcheck : isNormal [slash, 0x61, percent, 0x32, 0x46, 0x62] = .ok true := by decide
  exact ⟨hcheck, (isNormal_iff_unchanged [slash, 0x61, percent, 0x32, 0x46, 0x62] rfl).1.mp hcheck⟩

/-- The byte `c` before `b` and after `a` is one of the two digits of an escape. -/
def InEscape (a : List UInt8) (c : UInt8) (b : List UInt8) : Prop :=
  (∃ a' y b', a = a' ++ [percent] ∧ b = y :: b' ∧ Digits c y) ∨
    ∃ a' x, a = a' ++ [percent, x] ∧ Digits x c

/-- **An unreserved byte and its escape are decoded alike**, unless the byte is itself a digit of an
escape. -/
theorem decode_respell {a b : List UInt8} {c x y : UInt8} (hc : unreserved c)
    (hxy : escape x y = .ok c) (hout : ¬ InEscape a c b) :
    decode (a ++ percent :: x :: y :: b) = decode (a ++ c :: b) := by
  induction a using reading with
  | nil =>
    have hne : c ≠ percent := by
      rintro rfl
      simp [unreserved_percent] at hc
    simp [decode_escape b hxy, decode_cons b hne, hc]
  | plain e rest he ih =>
    have hout' : ¬ InEscape rest c b := by
      rintro (⟨a', y', b', rfl, hb, hd⟩ | ⟨a', x', rfl, hd⟩)
      · exact hout (.inl ⟨e :: a', y', b', rfl, hb, hd⟩)
      · exact hout (.inr ⟨e :: a', x', rfl, hd⟩)
    rw [cons_append, cons_append, decode_cons _ he, decode_cons _ he, ih hout']
  | escaped x' y' c' rest hxy' ih =>
    have hout' : ¬ InEscape rest c b := by
      rintro (⟨a', z, b', rfl, hb, hd⟩ | ⟨a', z, rfl, hd⟩)
      · exact hout (.inl ⟨percent :: x' :: y' :: a', z, b', rfl, hb, hd⟩)
      · exact hout (.inr ⟨percent :: x' :: y' :: a', z, rfl, hd⟩)
    simp only [cons_append]
    rw [decode_escape _ hxy', decode_escape _ hxy', ih hout']
  | broken r hr =>
    -- the text before the byte ends in a broken escape, or in one that the byte would complete
    rw [cons_append, cons_append, decode_broken, decode_broken]
    · intro u v rest hrest hd
      rcases r with _ | ⟨w, _ | ⟨z, r⟩⟩
      · obtain ⟨rfl, rfl⟩ := hrest
        exact hout (.inl ⟨[], v, rest, rfl, rfl, hd⟩)
      · simp only [cons_append, nil_append, List.cons.injEq] at hrest
        obtain ⟨rfl, rfl, -⟩ := hrest
        exact hout (.inr ⟨[], w, rfl, hd⟩)
      simp only [cons_append, List.cons.injEq] at hrest
      obtain ⟨rfl, rfl, -⟩ := hrest
      exact hr w z r rfl hd
    intro u v rest hrest hd
    obtain ⟨d, hd⟩ := hd
    obtain ⟨⟨hu, -⟩, hv, -⟩ := escape_digits hd
    rcases r with _ | ⟨w, _ | ⟨z, r⟩⟩
    · simp only [nil_append, List.cons.injEq] at hrest
      exact hu hrest.1.symm
    · simp only [cons_append, nil_append, List.cons.injEq] at hrest
      exact hv hrest.2.1.symm
    simp only [cons_append, List.cons.injEq] at hrest
    obtain ⟨rfl, rfl, -⟩ := hrest
    exact hr w z r rfl ⟨d, hd⟩

/-- **Normalisation closes spelling bypasses.** A path that starts with `/` is refused exactly when
some `%` is not followed by two hex digits; else the result starts with `/`, has no empty, `.` or
`..` segment but the empty one at its end, and no escape of an unreserved byte or in lower case; it
is normal; and an unreserved byte that is no digit of an escape may be written as its escape. -/
theorem path_one_spelling (p : List UInt8) (hp : p.head? = some slash) :
    (path p = .error .invalidPath ↔ ¬ Escapes Digits p) ∧
    (∀ c, path p = .ok c → ∃ q, c.text = slash :: q ∧ CleanSegments (q.splitOn slash) ∧
      Escapes NormalDigits c.text ∧ path c.text = .ok (.borrowed c.text)) ∧
    ∀ a c b x y, p = a ++ c :: b → unreserved c = true → escape x y = .ok c → ¬ InEscape a c b →
      (path (a ++ percent :: x :: y :: b)).map text = (path p).map text := by
  refine ⟨?_, ?_, ?_⟩
  · rw [← exists_decode]
    have heq := path_eq hp
    constructor
    · rintro herr ⟨d, hd⟩
      simp [herr, hd, Except.map] at heq
    intro hno
    cases hpath : path p with
    | error e => cases e; rfl
    | ok c =>
      obtain ⟨d, hd, -⟩ := path_eq_ok hp hpath
      exact absurd ⟨d, hd⟩ hno
  · intro c hc
    obtain ⟨d, hd, htext⟩ := path_eq_ok hp hc
    have hnormal : Normal c.text := by
      rw [htext]
      exact normal_resolve (escapes_of_decode hd)
    obtain ⟨q, hq, hesc, hclean⟩ := hnormal
    exact ⟨q, hq, hclean, hesc, path_of_normal ⟨q, hq, hesc, hclean⟩⟩
  rintro a c b x y rfl hun hxy hout
  have hhead : (a ++ percent :: x :: y :: b).head? = some slash := by
    cases a with
    | nil =>
      simp only [nil_append, head?_cons, Option.some.injEq] at hp
      subst hp
      simp [unreserved_slash] at hun
    | cons e a => exact hp
  rw [path_eq hhead, path_eq hp, decode_respell hun hxy hout]

theorem path_admin : path [slash, 0x61, 0x64, 0x6D, 0x69, 0x6E]
      = .ok (.borrowed [slash, 0x61, 0x64, 0x6D, 0x69, 0x6E]) ∧
    (path [slash, percent, 0x36, 0x31, 0x64, 0x6D, 0x69, 0x6E]).map text
      = (path [slash, 0x61, 0x64, 0x6D, 0x69, 0x6E]).map text := by
  refine ⟨by decide, ?_⟩
  have h := (path_one_spelling [slash, 0x61, 0x64, 0x6D, 0x69, 0x6E] rfl).2.2 [slash] 0x61
    [0x64, 0x6D, 0x69, 0x6E] 0x36 0x31 rfl (by decide) (by decide)
  apply h
  rintro (⟨a', y, b', ha, -⟩ | ⟨a', x, ha, -⟩)
  · have hlast := congrArg List.getLast? ha
    simp only [getLast?_singleton, getLast?_append, Option.some_or, Option.some.injEq] at hlast
    exact absurd hlast (by decide)
  have hlen := congrArg List.length ha
  simp at hlen

/-- The digits of an escape are unreserved bytes themselves: `/%2F` is normal, and with its `2` as
an escape, `/%%32F`, refused. -/
theorem path_respelled_digit :
    ¬ ∀ p a c b x y, p.head? = some slash → p = a ++ c :: b → unreserved c = true →
      escape x y = .ok c →
      (path (a ++ percent :: x :: y :: b)).map text = (path p).map text := by
  intro h
  have hsame := h [slash, percent, 0x32, 0x46] [slash, percent] 0x32 [0x46] 0x33 0x32 rfl rfl
    (by decide) (by decide)
  revert hsame
  decide

end Rproxy.Normalize
