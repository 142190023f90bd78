import Mathlib

/-!
# The path of a request, as routes see it

`normalize::path` decodes escapes of unreserved bytes, writes the others in upper case, and resolves
empty, `.` and `..` segments before the routes match.
-/

namespace Rproxy.Normalize
open List
variable {segs : List (List UInt8)} {p r rest seg : List UInt8} {b c prev x y : UInt8}

/-! ## The source -/

inductive InvalidPath where
  | invalidPath
deriving DecidableEq

/-- `Cow<str>`: the text of the path itself, or a new one. -/
inductive Cow where
  | borrowed (text : List UInt8)
  | owned (text : List UInt8)
deriving DecidableEq

def Cow.text : Cow → List UInt8
  | borrowed text => text
  | owned text => text

abbrev percent : UInt8 := 0x25
abbrev dot : UInt8 := 0x2E
abbrev slash : UInt8 := 0x2F

def isLowercase (b : UInt8) : Bool :=
  0x61 ≤ b && b ≤ 0x7A

def toUppercase (b : UInt8) : UInt8 :=
  if isLowercase b then b - 0x20 else b

def isAlphanumeric (b : UInt8) : Bool :=
  (0x30 ≤ b && b ≤ 0x39) || (0x41 ≤ b && b ≤ 0x5A) || isLowercase b

def unreserved (b : UInt8) : Bool :=
  isAlphanumeric b || b == 0x2D || b == dot || b == 0x5F || b == 0x7E

def hex (b : UInt8) : Option UInt8 :=
  if 0x30 ≤ b && b ≤ 0x39 then some (b - 0x30)
  else if 0x61 ≤ b && b ≤ 0x66 then some (b - 0x61 + 10)
  else if 0x41 ≤ b && b ≤ 0x46 then some (b - 0x41 + 10)
  else none

def escape (x y : UInt8) : Except InvalidPath UInt8 :=
  match hex x, hex y with
  | some h, some l => .ok (h <<< 4 ||| l)
  | _, _ => .error .invalidPath

def endsSegment : List UInt8 → Bool
  | [] => true
  | c :: _ => c == slash

def badSegment (b : UInt8) (rest : List UInt8) : Bool :=
  b == slash ||
    (b == dot && (endsSegment rest || (rest.head? == some dot && endsSegment rest.tail)))

def isNormalFrom (prev : UInt8) : List UInt8 → Except InvalidPath Bool
  | [] => .ok true
  | b :: rest =>
    if b = percent then
      match rest with
      | x :: y :: rest =>
        match escape x y with
        | .error e => .error e
        | .ok decoded =>
          if unreserved decoded || isLowercase x || isLowercase y then .ok false
          else isNormalFrom y rest
      | _ => .error .invalidPath
    else if prev = slash ∧ badSegment b rest = true then .ok false
    else isNormalFrom b rest

def isNormal : List UInt8 → Except InvalidPath Bool
  | [] => .ok true
  | first :: rest => isNormalFrom first rest

/-- The first loop of `path`: unreserved escapes are decoded, the others written in upper case. -/
def decode : List UInt8 → Except InvalidPath (List UInt8)
  | [] => .ok []
  | b :: rest =>
    if b = percent then
      match rest with
      | x :: y :: rest => do
        let byte ← escape x y
        let decoded ← decode rest
        if unreserved byte then return byte :: decoded
        else return percent :: toUppercase x :: toUppercase y :: decoded
      | _ => .error .invalidPath
    else do
      let decoded ← decode rest
      return b :: decoded

def pushSegment (segments : List (List UInt8)) (seg : List UInt8) : List (List UInt8) :=
  if seg = [] ∨ seg = [dot] then segments
  else if seg = [dot, dot] then segments.dropLast
  else segments ++ [seg]

def resolve (decoded : List UInt8) : List UInt8 :=
  let segments := (decoded.splitOn slash).foldl pushSegment []
  let out := segments.flatMap (slash :: ·)
  if out = [] ∨ decoded.getLast? = some slash then out ++ [slash] else out

def path (p : List UInt8) : Except InvalidPath Cow :=
  if p.head? ≠ some slash then .ok (.borrowed p)
  else
    match isNormal p with
    | .error e => .error e
    | .ok true => .ok (.borrowed p)
    | .ok false => do
      let decoded ← decode p
      return .owned (resolve decoded)

example : path "/x/.%2E/%61dmin%2f//".toUTF8.toList
    = .ok (.owned "/admin%2F/".toUTF8.toList) := by decide +kernel

/-! ## Bytes -/

lemma byte_forall {P : UInt8 → Prop} (h : ∀ n : Fin 256, P (UInt8.ofFin n)) (b : UInt8) : P b :=
  h b.toFin

lemma hex_toUppercase (b : UInt8) : hex (toUppercase b) = hex b := by
  revert b
  exact byte_forall (by decide +kernel)

lemma isLowercase_toUppercase (b : UInt8) : isLowercase (toUppercase b) = false := by
  revert b
  exact byte_forall (by decide +kernel)

lemma toUppercase_of_not_isLowercase (h : isLowercase b = false) : toUppercase b = b := by
  simp [toUppercase, h]

lemma hex_percent : hex percent = none := by decide

lemma hex_slash : hex slash = none := by decide

lemma unreserved_percent : unreserved percent = false := by decide

lemma unreserved_slash : unreserved slash = false := by decide

lemma escape_toUppercase (x y : UInt8) : escape (toUppercase x) (toUppercase y) = escape x y := by
  simp only [escape, hex_toUppercase]

lemma escape_digits (h : escape x y = .ok b) :
    (x ≠ percent ∧ x ≠ slash) ∧ (y ≠ percent ∧ y ≠ slash) := by
  refine ⟨⟨?_, ?_⟩, ?_, ?_⟩ <;> rintro rfl <;> revert h <;>
    simp [escape, hex_percent, hex_slash]

/-! ## Escapes -/

/-- Every `%` of the text is followed by two bytes that `P` holds of. -/
def Escapes (P : UInt8 → UInt8 → Prop) (p : List UInt8) : Prop :=
  ∀ a r, p = a ++ percent :: r → ∃ x y rest, r = x :: y :: rest ∧ P x y

def Digits (x y : UInt8) : Prop :=
  ∃ b, escape x y = .ok b

def NormalDigits (x y : UInt8) : Prop :=
  ∃ b, escape x y = .ok b ∧ unreserved b = false ∧ isLowercase x = false ∧ isLowercase y = false

lemma NormalDigits.digits (h : NormalDigits x y) : Digits x y := by
  obtain ⟨b, hb, _⟩ := h
  exact ⟨b, hb⟩

section Escapes
variable {P : UInt8 → UInt8 → Prop}

lemma Escapes.mono {Q : UInt8 → UInt8 → Prop} (h : Escapes P p) (himp : ∀ x y, P x y → Q x y) :
    Escapes Q p := by
  intro a r hp
  obtain ⟨x, y, rest, hr, hxy⟩ := h a r hp
  exact ⟨x, y, rest, hr, himp x y hxy⟩

@[simp] theorem escapes_nil : Escapes P [] := by
  intro a r h
  simp at h

lemma escapes_cons (hb : b ≠ percent) : Escapes P (b :: rest) ↔ Escapes P rest := by
  constructor
  · intro h a r hr
    exact h (b :: a) r (by rw [hr]; rfl)
  intro h a r hr
  cases a with
  | nil =>
    simp only [nil_append, List.cons.injEq] at hr
    exact absurd hr.1 hb
  | cons c a =>
    simp only [cons_append, List.cons.injEq] at hr
    exact h a r hr.2

lemma escapes_escape (hP : ∀ x y, P x y → Digits x y) :
    Escapes P (percent :: x :: y :: rest) ↔ P x y ∧ Escapes P rest := by
  constructor
  · intro h
    obtain ⟨x', y', rest', hr, hxy⟩ := h [] (x :: y :: rest) rfl
    obtain ⟨rfl, rfl, rfl⟩ := hr
    refine ⟨hxy, fun a r hr => h (percent :: x :: y :: a) r (by rw [hr]; rfl)⟩
  rintro ⟨hxy, h⟩
  obtain ⟨b, hb⟩ := hP x y hxy
  obtain ⟨⟨hx, -⟩, hy, -⟩ := escape_digits hb
  have hrest : Escapes P (x :: y :: rest) := (escapes_cons hx).mpr ((escapes_cons hy).mpr h)
  intro a r hr
  cases a with
  | nil =>
    simp only [nil_append, List.cons.injEq, true_and] at hr
    exact ⟨x, y, rest, hr.symm, hxy⟩
  | cons c a =>
    simp only [cons_append, List.cons.injEq] at hr
    exact hrest a r hr.2

end Escapes

@[elab_as_elim]
lemma reading {motive : List UInt8 → Prop} (nil : motive [])
    (plain : ∀ b rest, b ≠ percent → motive rest → motive (b :: rest))
    (escaped : ∀ x y c rest, escape x y = .ok c → motive rest → motive (percent :: x :: y :: rest))
    (broken : ∀ r, (∀ x y rest, r = x :: y :: rest → ¬ Digits x y) → motive (percent :: r)) :
    ∀ p, motive p
  | [] => nil
  | b :: rest => by
    by_cases hb : b = percent
    · subst hb
      rcases rest with _ | ⟨x, _ | ⟨y, rest⟩⟩
      · exact broken _ (by simp)
      · exact broken _ (by simp)
      rcases h : escape x y with e | c
      · refine broken _ fun x' y' rest' hr => ?_
        simp only [List.cons.injEq] at hr
        obtain ⟨rfl, rfl, -⟩ := hr
        rintro ⟨c, hc⟩
        rw [h] at hc
        cases hc
      · exact escaped x y c rest h (reading nil plain escaped broken rest)
    · exact plain b rest hb (reading nil plain escaped broken rest)

lemma not_escapes_broken (h : ∀ x y rest, r = x :: y :: rest → ¬ Digits x y) :
    ¬ Escapes Digits (percent :: r) := by
  intro hr
  obtain ⟨x, y, rest, hxy, hd⟩ := hr [] r rfl
  exact h x y rest hxy hd

/-! ## Decoding -/

lemma decode_cons (rest : List UInt8) (hb : b ≠ percent) :
    decode (b :: rest) = (decode rest).map (b :: ·) := by
  rw [decode.eq_def]
  simp only [if_neg hb]
  cases decode rest <;> rfl

lemma decode_escape (rest : List UInt8) (h : escape x y = .ok c) :
    decode (percent :: x :: y :: rest) = (decode rest).map fun d =>
      if unreserved c then c :: d else percent :: toUppercase x :: toUppercase y :: d := by
  rw [decode]
  simp only [h, bind, Except.bind, pure, Except.pure]
  cases decode rest with
  | error e => rfl
  | ok d => by_cases hc : unreserved c = true <;> simp [Except.map, hc]

lemma decode_broken (h : ∀ x y rest, r = x :: y :: rest → ¬ Digits x y) :
    decode (percent :: r) = .error .invalidPath := by
  rw [decode.eq_def]
  rcases r with _ | ⟨x, _ | ⟨y, rest⟩⟩
  · rfl
  · rfl
  rcases he : escape x y with e | c
  · cases e
    simp [he, bind, Except.bind]
  · exact absurd ⟨c, he⟩ (h x y rest rfl)

lemma exists_decode : (∃ d, decode p = .ok d) ↔ Escapes Digits p := by
  induction p using reading with
  | nil => simp [decode]
  | plain b rest hb ih =>
    rw [decode_cons rest hb, escapes_cons hb, ← ih]
    cases decode rest <;> simp [Except.map]
  | escaped x y c rest hxy ih =>
    rw [decode_escape rest hxy, escapes_escape fun _ _ h => h, ← ih]
    have hd : Digits x y := ⟨c, hxy⟩
    cases decode rest <;> simp [Except.map, hd]
  | broken r hr =>
    simp [decode_broken hr, not_escapes_broken hr]

lemma escapes_of_decode {d : List UInt8} (h : decode p = .ok d) : Escapes NormalDigits d := by
  induction p using reading generalizing d with
  | nil =>
    cases h
    exact escapes_nil
  | plain b rest hb ih =>
    rw [decode_cons rest hb] at h
    cases hrest : decode rest with
    | error e => simp [hrest, Except.map] at h
    | ok d' =>
      simp only [hrest, Except.map, Except.ok.injEq] at h
      rw [← h]
      exact (escapes_cons hb).mpr (ih hrest)
  | escaped x y c rest hxy ih =>
    rw [decode_escape rest hxy] at h
    cases hrest : decode rest with
    | error e => simp [hrest, Except.map] at h
    | ok d' =>
      simp only [hrest, Except.map, Except.ok.injEq] at h
      rw [← h]
      split
      next hc =>
        refine (escapes_cons ?_).mpr (ih hrest)
        rintro rfl
        simp [unreserved_percent] at hc
      rename_i hc
      refine (escapes_escape fun _ _ h => h.digits).mpr ⟨⟨c, ?_, by simpa using hc, ?_, ?_⟩,
        ih hrest⟩
      · rw [escape_toUppercase, hxy]
      · exact isLowercase_toUppercase x
      · exact isLowercase_toUppercase y
  | broken r hr => simp [decode_broken hr] at h

lemma decode_of_escapes (h : Escapes NormalDigits p) : decode p = .ok p := by
  induction p using reading with
  | nil => rfl
  | plain b rest hb ih =>
    rw [decode_cons rest hb, ih ((escapes_cons hb).mp h)]
    rfl
  | escaped x y c rest hxy ih =>
    obtain ⟨⟨c', hc', hun, hx, hy⟩, hrest⟩ := (escapes_escape fun _ _ h => h.digits).mp h
    rw [hxy, Except.ok.injEq] at hc'
    subst hc'
    rw [decode_escape rest hxy, ih hrest]
    simp [Except.map, hun, toUppercase_of_not_isLowercase hx, toUppercase_of_not_isLowercase hy]
  | broken r hr => exact absurd (h.mono fun _ _ h => h.digits) (not_escapes_broken hr)

/-! ## Segments -/

def Stays (seg : List UInt8) : Prop :=
  seg ≠ [] ∧ seg ≠ [dot] ∧ seg ≠ [dot, dot]

/-- The segments after the first `/` of a resolved path: all stay, but the one after a final `/`. -/
def CleanSegments (segs : List (List UInt8)) : Prop :=
  (∀ seg ∈ segs.dropLast, Stays seg) ∧ ∀ seg, segs.getLast? = some seg → seg = [] ∨ Stays seg

@[simp] theorem cleanSegments_nil : CleanSegments [] := by
  simp [CleanSegments]

@[simp] theorem cleanSegments_singleton {seg : List UInt8} :
    CleanSegments [seg] ↔ seg = [] ∨ Stays seg := by
  simp [CleanSegments]

lemma cleanSegments_cons (h : segs ≠ []) :
    CleanSegments (seg :: segs) ↔ Stays seg ∧ CleanSegments segs := by
  obtain ⟨last, hlast⟩ : ∃ last, segs.getLast? = some last := ⟨_, getLast?_eq_some_getLast h⟩
  simp [CleanSegments, dropLast_cons_of_ne_nil h, getLast?_cons, hlast, and_assoc]

lemma cleanSegments_cons_cons :
    CleanSegments ((b :: seg) :: segs) ↔ Stays (b :: seg) ∧ CleanSegments segs := by
  by_cases h : segs = []
  · subst h
    simp
  · exact cleanSegments_cons h

lemma CleanSegments.tail (h : CleanSegments segs) : CleanSegments segs.tail := by
  rcases segs with _ | ⟨seg, segs⟩
  · exact h
  by_cases hs : segs = []
  · subst hs
    exact cleanSegments_nil
  · exact ((cleanSegments_cons hs).mp h).2

lemma endsSegment_iff (h : rest.splitOn slash = seg :: segs) :
    endsSegment rest ↔ seg = [] := by
  cases rest with
  | nil =>
    simp only [splitOn_nil, List.cons.injEq] at h
    simp [endsSegment, ← h.1]
  | cons c rest =>
    rw [splitOn_cons_eq_if_modifyHead] at h
    by_cases hc : c = slash
    · simp only [hc, beq_self_eq_true, if_true, List.cons.injEq] at h
      simp [endsSegment, hc, ← h.1]
    obtain ⟨s, t, hst⟩ := exists_cons_of_ne_nil (splitOn_ne_nil slash rest)
    simp only [beq_iff_eq, hc, if_false, hst, modifyHead_cons, List.cons.injEq] at h
    simp [endsSegment, hc, ← h.1]

lemma badSegment_iff (hb : b ≠ slash) (h : rest.splitOn slash = seg :: segs) :
    badSegment b rest ↔ ¬ Stays (b :: seg) := by
  have hone := endsSegment_iff h
  have htwo : (rest.head? == some dot && endsSegment rest.tail) ↔ seg = [dot] := by
    cases rest with
    | nil =>
      simp only [splitOn_nil, List.cons.injEq] at h
      simp [← h.1]
    | cons c rest =>
      obtain ⟨s, t, hst⟩ := exists_cons_of_ne_nil (splitOn_ne_nil slash rest)
      rw [splitOn_cons_eq_if_modifyHead] at h
      by_cases hc : c = slash
      · simp only [hc, beq_self_eq_true, if_true, List.cons.injEq] at h
        have hdot : ¬ slash = dot := by decide
        simp [hc, ← h.1, hdot]
      simp only [beq_iff_eq, hc, if_false, hst, modifyHead_cons, List.cons.injEq] at h
      simp [← h.1, endsSegment_iff hst]
  simp only [badSegment, Bool.or_eq_true, beq_iff_eq, hb, false_or, Bool.and_eq_true (b == dot),
    hone, htwo, Stays, ne_eq, List.cons.injEq, reduceCtorEq, not_false_eq_true, true_and]
  tauto

lemma splitOn_escape (hxy : escape x y = .ok c) (h : rest.splitOn slash = seg :: segs) :
    (percent :: x :: y :: rest).splitOn slash = (percent :: x :: y :: seg) :: segs := by
  obtain ⟨⟨-, hx⟩, -, hy⟩ := escape_digits hxy
  have hpercent : ¬ percent = slash := by decide
  simp only [splitOn_cons_eq_if_modifyHead, beq_iff_eq, hx, hy, hpercent, if_false, h,
    modifyHead_cons]

lemma isNormalFrom_cons (hb : b ≠ percent) : isNormalFrom prev (b :: rest)
      = if prev = slash ∧ badSegment b rest = true then .ok false else isNormalFrom b rest := by
  rw [isNormalFrom.eq_def]
  simp only [if_neg hb]

lemma isNormalFrom_escape (h : escape x y = .ok c) : isNormalFrom prev (percent :: x :: y :: rest)
      = if unreserved c || isLowercase x || isLowercase y then .ok false
        else isNormalFrom y rest := by
  rw [isNormalFrom.eq_def]
  simp only [if_pos, h]

lemma isNormalFrom_broken (h : ∀ x y rest, r = x :: y :: rest → ¬ Digits x y) :
    isNormalFrom prev (percent :: r) = .error .invalidPath := by
  rw [isNormalFrom.eq_def]
  rcases r with _ | ⟨x, _ | ⟨y, rest⟩⟩
  · rfl
  · rfl
  rcases he : escape x y with e | c
  · cases e
    simp [he]
  · exact absurd ⟨c, he⟩ (h x y rest rfl)

lemma not_escapes_of_isNormalFrom {e : InvalidPath} (h : isNormalFrom prev rest = .error e) :
    ¬ Escapes Digits rest := by
  induction rest using reading generalizing prev with
  | nil => cases h
  | plain b rest hb ih =>
    rw [isNormalFrom_cons hb] at h
    rw [escapes_cons hb]
    split at h
    · cases h
    · exact ih h
  | escaped x y c rest hxy ih =>
    rw [isNormalFrom_escape hxy] at h
    rw [escapes_escape fun _ _ h => h, not_and]
    intro _
    split at h
    · cases h
    · exact ih h
  | broken r hr => exact not_escapes_broken hr

/-- **What the check accepts**: after `prev`, the escapes are normal and so are the segments that
start here. -/
theorem isNormalFrom_eq_true : isNormalFrom prev rest = .ok true ↔
      Escapes NormalDigits rest ∧ (prev = slash → CleanSegments (rest.splitOn slash)) ∧
        CleanSegments (rest.splitOn slash).tail := by
  induction rest using reading generalizing prev with
  | nil => simp [isNormalFrom]
  | plain b rest hb ih =>
    obtain ⟨seg, segs, hsegs⟩ := exists_cons_of_ne_nil (splitOn_ne_nil slash rest)
    rw [isNormalFrom_cons hb, escapes_cons hb, splitOn_cons_eq_if_modifyHead]
    by_cases hs : b = slash
    · -- an empty segment ends here: the next one starts
      have hbad : badSegment slash rest := by simp [badSegment]
      have hempty : ¬ CleanSegments ([] :: rest.splitOn slash) := by
        rw [cleanSegments_cons (splitOn_ne_nil slash rest)]
        exact fun h => h.1.1 rfl
      have htail : CleanSegments (rest.splitOn slash) → CleanSegments (rest.splitOn slash).tail :=
        CleanSegments.tail
      by_cases hprev : prev = slash
      · simp [hprev, hs, hbad, hempty]
      simp only [hprev, false_and, if_false, ih, hs, true_imp_iff, false_imp_iff, true_and,
        beq_self_eq_true, if_true, tail_cons]
      tauto
    have hbeq : (b == slash) = false := by simpa using hs
    rw [hbeq, hsegs]
    simp only [Bool.false_eq_true, if_false, modifyHead_cons, tail_cons, cleanSegments_cons_cons]
    have hbad := badSegment_iff hs hsegs
    have ih' := @ih b
    rw [hsegs, tail_cons] at ih'
    split
    next h =>
      have hstay := hbad.mp h.2
      simp [h.1, hstay]
    rename_i h
    rw [ih']
    tauto
  | escaped x y c rest hxy ih =>
    obtain ⟨seg, segs, hsegs⟩ := exists_cons_of_ne_nil (splitOn_ne_nil slash rest)
    obtain ⟨-, -, hy⟩ := escape_digits hxy
    have hsplit := splitOn_escape hxy hsegs
    have hstay : Stays (percent :: x :: y :: seg) := by simp [Stays]
    have hnormal : NormalDigits x y ↔
        ¬ (unreserved c || isLowercase x || isLowercase y) := by
      simp only [NormalDigits, hxy, Except.ok.injEq, exists_eq_left', Bool.or_eq_true, not_or,
        Bool.not_eq_true, and_assoc]
    have ih' := @ih y
    rw [hsegs, tail_cons] at ih'
    rw [isNormalFrom_escape hxy, escapes_escape fun _ _ h => h.digits, hsplit, hnormal]
    simp only [cleanSegments_cons_cons, tail_cons, hstay, true_and]
    split
    next h => simp [h]
    rename_i h
    rw [ih']
    tauto
  | broken r hr =>
    have hno : ¬ Escapes NormalDigits (percent :: r) := fun h =>
      not_escapes_broken hr (h.mono fun _ _ h => h.digits)
    simp [isNormalFrom_broken hr, hno]

end Rproxy.Normalize
