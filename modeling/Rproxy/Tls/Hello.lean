import Rproxy.Data.Bytes
import Rproxy.Data.Text

/-!
# The server name of a TLS ClientHello

`parse_client_hello` gathers the handshake bytes from the records of a stream, and starts over with
each read. Every answer but `Incomplete` stays, and the message is found with the record that
completes it, however it was cut.
-/

namespace Rproxy.Tls
open List Bytes

inductive Parse
  | incomplete
  | done (name : Option String)
  | notTls
deriving DecidableEq

/-! ## The message -/

abbrev Reader := StateT (List UInt8) Option

namespace Reader

def take (n : ℕ) : Reader (List UInt8) := fun r =>
  if r.length < n then none else some (r.take n, r.drop n)

def skip (n : ℕ) : Reader Unit := discard (take n)

def u8 : Reader ℕ := return ofBe (← take 1)

def u16 : Reader ℕ := return ofBe (← take 2)

def vec16 : Reader (List UInt8) := do take (← u16)

end Reader
open Reader

/-- The loop over the names of a `server_name`, and what comes `next` if none is a host name. A
round takes three bytes or more, so the length is rounds enough. -/
def readNames (next : Option String) : ℕ → List UInt8 → Option String
  | _, [] => next
  | 0, _ => none
  | rounds + 1, names => do
    let ((kind, name), names) ← (return (← u8, ← vec16) : Reader _).run names
    if kind = 0 then (String.fromUTF8? name.toByteArray).map Text.lower
    else readNames next rounds names

/-- The loop over the extensions. -/
def readExts : ℕ → List UInt8 → Option String
  | _, [] => none
  | 0, _ => none
  | rounds + 1, exts => do
    let ((kind, data), exts) ← (return (← u16, ← vec16) : Reader _).run exts
    if kind ≠ 0 then readExts rounds exts
    else
      let names ← vec16.run' data
      readNames (readExts rounds exts) names.length names

def helloServerName (body : List UInt8) (dtls : Bool) : Option String := do
  let toExts : Reader (List UInt8) := do
    skip (2 + 32)
    skip (← u8)
    if dtls then skip (← u8)
    skip (← u16)
    skip (← u8)
    vec16
  let exts ← toExts.run' body
  readExts exts.length exts

def parseHandshake : List UInt8 → Parse
  | kind :: a :: b :: c :: rest =>
    if kind ≠ 0x01 then .notTls
    else
      let body := ofBe [0, a, b, c]
      if rest.length < body then .incomplete
      else .done (helloServerName (rest.take body) false)
  | kind :: _ => if kind ≠ 0x01 then .notTls else .incomplete
  | [] => .incomplete

/-! ## The records -/

/-- The loop of `parse_client_hello` from the record at the head of `buf` on; `first` where `pos` is
0, and `hs` what the records before gave. -/
def parseRecords (first : Bool) (hs buf : List UInt8) : Parse :=
  match buf with
  | kind :: major :: _ :: hi :: lo :: rest =>
    if kind ≠ 0x16 ∨ major ≠ 0x03 then .notTls
    else
      let len := ofBe [hi, lo]
      if rest.length < len then .incomplete
      else
        match parseHandshake (hs ++ rest.take len) with
        | .incomplete => parseRecords false (hs ++ rest.take len) (rest.drop len)
        | done => done
  | kind :: _ => if first ∧ kind ≠ 0x16 then .notTls else .incomplete
  | [] => .incomplete
termination_by buf.length
decreasing_by
  simp only [length_drop, length_cons]
  omega

def parseClientHello (buf : List UInt8) : Parse := parseRecords true [] buf

lemma parseHandshake_of_ne {kind : UInt8} (h : kind ≠ 0x01) :
    ∀ rest, parseHandshake (kind :: rest) = .notTls
  | [] | [_] | [_, _] | _ :: _ :: _ :: _ => by simp [parseHandshake, h]

lemma parseHandshake_append {hs : List UInt8} (x : List UInt8)
    (h : parseHandshake hs ≠ .incomplete) : parseHandshake (hs ++ x) = parseHandshake hs := by
  match hs with
  | [] => exact absurd rfl h
  | kind :: rest =>
    by_cases hkind : kind = 0x01
    · subst hkind
      match rest with
      | [] | [_] | [_, _] => exact absurd (by simp [parseHandshake]) h
      | a :: b :: c :: rest =>
        simp only [cons_append, parseHandshake, ne_eq, not_true_eq_false, if_false] at h ⊢
        have hlen : ¬rest.length < ofBe [0, a, b, c] := fun hlt => h (if_pos hlt)
        rw [if_neg hlen, if_neg (by rw [length_append]; omega),
          take_append_of_le_length (Nat.le_of_not_lt hlen)]
    · rw [cons_append, parseHandshake_of_ne hkind, parseHandshake_of_ne hkind]

lemma parseRecords_of_ne {kind : UInt8} (hs : List UInt8) (h : kind ≠ 0x16) :
    ∀ rest, parseRecords true hs (kind :: rest) = .notTls
  | [] | [_] | [_, _] | [_, _, _] | _ :: _ :: _ :: _ :: _ => by simp [parseRecords, h]

lemma parseRecords_record (first : Bool) (hs : List UInt8) (version : UInt8) {hi lo : UInt8}
    {rest : List UInt8} (x : List UInt8) (h : ofBe [hi, lo] ≤ rest.length) :
    parseRecords first hs (0x16 :: 0x03 :: version :: hi :: lo :: rest ++ x) =
      match parseHandshake (hs ++ rest.take (ofBe [hi, lo])) with
      | .incomplete => parseRecords false (hs ++ rest.take (ofBe [hi, lo]))
          (rest.drop (ofBe [hi, lo]) ++ x)
      | done => done := by
  have hle : ¬rest.length + x.length < ofBe [hi, lo] := by omega
  simp only [cons_append]
  rw [parseRecords]
  simp [hle, take_append_of_le_length h, drop_append_of_le_length h]

lemma parseRecords_append {first : Bool} {hs buf : List UInt8} (x : List UInt8)
    (h : parseRecords first hs buf ≠ .incomplete) :
    parseRecords first hs (buf ++ x) = parseRecords first hs buf := by
  fun_induction parseRecords first hs buf with
  | case1 first hs kind major version hi lo rest hkind =>
    simp only [cons_append]
    rw [parseRecords, if_pos hkind]
  | case2 => exact absurd rfl h
  | case3 first hs kind major version hi lo rest hkind len hlen hhs ih =>
    simp only [ne_eq, not_or, not_not] at hkind
    obtain ⟨rfl, rfl⟩ := hkind
    rw [parseRecords_record _ _ _ _ (Nat.le_of_not_lt hlen), hhs]
    exact ih h
  | case4 first hs kind major version hi lo rest hkind len hlen hhs =>
    simp only [ne_eq, not_or, not_not] at hkind
    obtain ⟨rfl, rfl⟩ := hkind
    rw [parseRecords_record _ _ _ _ (Nat.le_of_not_lt hlen)]
    split
    next hdone => exact absurd hdone h
    · rfl
  | case5 first hs kind rest hshort hfirst =>
    rw [cons_append, hfirst.1, parseRecords_of_ne hs hfirst.2]
  | case6 => exact absurd rfl h
  | case7 => exact absurd rfl h

/-! ## What is sent -/

structure Record where
  version : UInt8
  data : List UInt8
  fits : data.length < 65536

def Record.wire (r : Record) : List UInt8 :=
  0x16 :: 0x03 :: r.version :: (be 2 r.data.length ++ r.data)

variable {first : Bool} {hs : List UInt8}

lemma Record.exists_wire (r : Record) : ∃ hi lo, ofBe [hi, lo] = r.data.length ∧
    r.wire = 0x16 :: 0x03 :: r.version :: hi :: lo :: r.data := by
  obtain ⟨hi, lo, hbe⟩ := length_eq_two.mp (length_be 2 r.data.length)
  refine ⟨hi, lo, ?_, ?_⟩
  · rw [← hbe, ofBe_be_of_lt r.fits]
  · rw [wire, hbe, cons_append, singleton_append]

lemma parseRecords_wire (r : Record) (rest : List UInt8) :
    parseRecords first hs (r.wire ++ rest) = match parseHandshake (hs ++ r.data) with
      | .incomplete => parseRecords false (hs ++ r.data) rest
      | done => done := by
  obtain ⟨hi, lo, hlen, hwire⟩ := r.exists_wire
  rw [hwire, parseRecords_record _ _ _ _ hlen.le, hlen, take_length, drop_length, nil_append]

open Record

lemma parseRecords_records {n : Option String} (records : List Record) (x : List UInt8)
    (hhs : parseHandshake hs = .incomplete)
    (h : parseHandshake (hs ++ records.flatMap data) = .done n) :
    parseRecords first hs (records.flatMap wire ++ x) = .done n := by
  induction records generalizing first hs with
  | nil =>
    rw [flatMap_nil, append_nil, hhs] at h
    cases h
  | cons r records ih =>
    rw [flatMap_cons, ← append_assoc] at h
    rw [flatMap_cons, append_assoc, parseRecords_wire]
    cases hr : parseHandshake (hs ++ r.data) with
    | incomplete => exact ih hr h
    | done name =>
      rw [parseHandshake_append _ (by rw [hr]; simp), hr] at h
      exact h
    | notTls =>
      rw [parseHandshake_append _ (by rw [hr]; simp), hr] at h
      cases h

lemma parseRecords_cut {r : Record} {p : List UInt8} (hp : p <+: r.wire)
    (hlt : p.length < r.wire.length) : parseRecords first hs p = .incomplete := by
  obtain ⟨hi, lo, hlen, hwire⟩ := r.exists_wire
  rw [hwire] at hp hlt
  obtain ⟨x, hx⟩ := hp
  match p with
  | [] => simp [parseRecords]
  | [_] | [_, _] | [_, _, _] | [_, _, _, _] =>
    simp only [cons_append, cons.injEq] at hx
    simp [parseRecords, hx.1]
  | _ :: _ :: _ :: _ :: _ :: p =>
    simp only [cons_append, cons.injEq] at hx hlt
    obtain ⟨rfl, rfl, -, rfl, rfl, -⟩ := hx
    rw [parseRecords]
    simp only [length_cons] at hlt
    simp [hlen]
    omega

lemma parseRecords_early {before : List Record} {r : Record} {p : List UInt8}
    (h : parseHandshake (hs ++ before.flatMap data) = .incomplete)
    (hp : p <+: before.flatMap wire ++ r.wire)
    (hlt : p.length < (before.flatMap wire ++ r.wire).length) :
    parseRecords first hs p = .incomplete := by
  induction before generalizing first hs p with
  | nil => exact parseRecords_cut hp hlt
  | cons q before ih =>
    rw [flatMap_cons, ← append_assoc] at h
    rw [flatMap_cons, append_assoc] at hp hlt
    rcases le_or_gt q.wire.length p.length with hle | hlt'
    · obtain ⟨p, rfl⟩ := prefix_of_prefix_length_le (prefix_append _ _) hp hle
      have hq : parseHandshake (hs ++ q.data) = .incomplete := by
        by_contra hne
        rw [parseHandshake_append _ hne] at h
        exact hne h
      rw [parseRecords_wire, hq]
      refine ih h ((prefix_append_right_inj _).mp hp) ?_
      rw [length_append, length_append] at hlt
      omega
    · exact parseRecords_cut (prefix_of_prefix_length_le hp (prefix_append _ _) hlt'.le) hlt'

/-- **The server name depends neither on the records nor on what has arrived.** A ClientHello gives
its name however it is cut into records and whatever follows; nothing is found before the record
that completes it; and an answer stays. -/
theorem server_name_independent_of_records :
    (∀ (n : Option String) (records : List Record) (x : List UInt8),
      parseHandshake (records.flatMap data) = .done n →
      parseClientHello (records.flatMap wire ++ x) = .done n) ∧
    (∀ (before : List Record) (r : Record) (p : List UInt8),
      parseHandshake (before.flatMap data) = .incomplete →
      p <+: before.flatMap wire ++ r.wire →
      p.length < (before.flatMap wire ++ r.wire).length →
      parseClientHello p = .incomplete) ∧
    ∀ b x, parseClientHello b ≠ .incomplete → parseClientHello (b ++ x) = parseClientHello b :=
  ⟨fun _ records x h => parseRecords_records records x rfl h,
    fun _ _ _ h hp hlt => parseRecords_early h hp hlt, fun _ x h => parseRecords_append x h⟩

/-- A ClientHello that names the host `a`, cut after its first byte and before the name's length. -/
def cutHello : List Record :=
  [⟨1, [1], by decide⟩,
    ⟨3, [0, 0, 53, 3, 3] ++ replicate 33 0 ++ [0, 2, 0x13, 1, 1, 0, 0, 10, 0, 0, 0, 6, 0, 4, 0],
      by decide⟩,
    ⟨3, [0, 1, 0x61], by decide⟩]

theorem server_name_of_cut_hello :
    parseClientHello (cutHello.flatMap wire ++ [0x17]) = .done (some "a") ∧
    parseClientHello (cutHello.flatMap wire).dropLast = .incomplete :=
  ⟨server_name_independent_of_records.1 _ cutHello _ (by decide +kernel),
    server_name_independent_of_records.2.1 (cutHello.take 2) cutHello[2] _ (by decide)
      (by decide) (by decide)⟩

end Rproxy.Tls
