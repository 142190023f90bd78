import Rproxy.Data.Table

/-!
# Tables of counts that travel as lists

A process counts by key in a table, and hands its counts over as a list that another adds to its
own.
-/

namespace Rproxy

open List

/-- Counts of the kind `C`, which travel as `D`; each is a row of numbers indexed by `ι`. -/
structure Tally (C D ι : Type) where
  zero : C
  get : C → ι → ℕ
  read : D → ι → ℕ
  plus : C → D → C
  out : C → D
  minus : D → Option D → D
  get_zero : ∀ i, get zero i = 0
  get_plus : ∀ c d i, get (plus c d) i = get c i + read d i
  read_out : ∀ c i, read (out c) i = get c i
  read_minus : ∀ d o i, read (minus d o) i = read d i - o.elim 0 (read · i)

namespace Tally
variable {κ C D ι : Type} [DecidableEq κ] (T : Tally C D ι)

def value (t : Table κ C) (k : κ) (i : ι) : ℕ := (t.lookup k).elim 0 (T.get · i)

def sent (l : List (κ × D)) (k : κ) (i : ι) : ℕ := (l.lookup k).elim 0 (T.read · i)

def listed (t : Table κ C) : List (κ × D) := t.pairs.map fun e => (e.1, T.out e.2)

def since (now before : List (κ × D)) : List (κ × D) :=
  now.map fun e => (e.1, T.minus e.2 (before.lookup e.1))

def update (t : Table κ C) (k : κ) (f : C → C) : Table κ C :=
  t.insert k (f ((t.lookup k).getD T.zero))

def addOne (t : Table κ C) (e : κ × D) : Table κ C := T.update t e.1 (T.plus · e.2)

def add (t : Table κ C) (l : List (κ × D)) : Table κ C := l.foldl T.addOne t

variable (t : Table κ C)

lemma sent_listed (k : κ) (i : ι) : T.sent (T.listed t) k i = T.value t k i := by
  rw [sent, listed, Table.lookup_map_pairs, value]
  cases t.lookup k with
  | none => rfl
  | some c => exact T.read_out c i

omit [DecidableEq κ] in
lemma nodup_listed : ((T.listed t).map Prod.fst).Nodup := by
  rw [listed, map_map]
  exact t.nodup_map_fst_pairs

variable (now before : List (κ × D))

lemma map_fst_since : (T.since now before).map Prod.fst = now.map Prod.fst := by
  rw [since, map_map]
  rfl

lemma lookup_since (k : κ) : (T.since now before).lookup k =
      (now.lookup k).map fun d => T.minus d (before.lookup k) := by
  induction now with
  | nil => rfl
  | cons e now ih =>
    rw [since, map_cons, lookup_cons, lookup_cons]
    by_cases hk : k = e.1
    · subst hk
      simp
    simp only [beq_eq_false_iff_ne.mpr hk]
    exact ih

lemma sent_since (k : κ) (i : ι) :
    T.sent (T.since now before) k i = T.sent now k i - T.sent before k i := by
  rw [sent, lookup_since, sent]
  cases now.lookup k with
  | none => exact (Nat.zero_sub _).symm
  | some d => exact T.read_minus d _ i

lemma value_update {f : C → C} {d : ι → ℕ} (hf : ∀ c i, T.get (f c) i = T.get c i + d i)
    (t : Table κ C) (a k : κ) (i : ι) :
    T.value (T.update t a f) k i = T.value t k i + if k = a then d i else 0 := by
  rw [value, update, Table.lookup_insert_eq, value]
  split
  · rename_i hk
    subst hk
    rw [Option.elim_some, hf]
    cases t.lookup k with
    | none =>
      rw [Option.getD_none, T.get_zero]
      rfl
    | some c => rfl
  · rfl

lemma value_addOne (e : κ × D) (k : κ) (i : ι) :
    T.value (T.addOne t e) k i = T.value t k i + if k = e.1 then T.read e.2 i else 0 :=
  T.value_update (fun c i => T.get_plus c e.2 i) t e.1 k i

@[simp] theorem value_empty (k : κ) (i : ι) : T.value ∅ k i = 0 := by
  rfl

lemma value_update_empty {f : C → C} {d : ι → ℕ} (hf : ∀ c i, T.get (f c) i = T.get c i + d i)
    (t : Table κ C) (a k : κ) (i : ι) :
    T.value (T.update t a f) k i = T.value t k i + T.value (T.update ∅ a f) k i := by
  rw [T.value_update hf, T.value_update hf, value_empty, Nat.zero_add]

lemma value_add {l : List (κ × D)} (hl : (l.map Prod.fst).Nodup) (t : Table κ C) (k : κ) (i : ι) :
    T.value (T.add t l) k i = T.value t k i + T.sent l k i := by
  induction l generalizing t with
  | nil => rfl
  | cons e l ih =>
    obtain ⟨hnot, hl⟩ := nodup_cons.mp hl
    show T.value (T.add (T.addOne t e) l) k i = _
    rw [ih hl, value_addOne, sent, sent, lookup_cons]
    by_cases hk : k = e.1
    · subst hk
      simp [Table.lookup_eq_none_of_notMem hnot]
    · simp [hk, beq_eq_false_iff_ne.mpr hk]

end Tally
end Rproxy
