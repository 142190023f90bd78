import Mathlib

/-!
# Tables

Association lists without duplicate keys whose values have one type: `AList` at a constant family.
-/

namespace Rproxy
open List AList

abbrev Table (α β : Type) := AList fun _ : α => β

namespace Table
variable {α β : Type}

def pairs (t : Table α β) : List (α × β) :=
  t.entries.map fun e => (e.1, e.2)

variable (t : Table α β)

lemma nodup_map_fst_pairs : (t.pairs.map Prod.fst).Nodup := by
  have h := t.keys_nodup
  rw [pairs, map_map]
  exact h

variable [DecidableEq α]

lemma lookup_insert_eq (a k : α) (b : β) :
    (t.insert a b).lookup k = if k = a then some b else t.lookup k := by
  split
  next h =>
    subst h
    exact lookup_insert t
  next h => exact lookup_insert_ne h

lemma lookup_insert_cases {t : Table α β} {a k : α} {b v : β}
    (h : (t.insert a b).lookup k = some v) : k = a ∧ v = b ∨ t.lookup k = some v := by
  rw [lookup_insert_eq] at h
  split at h
  next hk => exact .inl ⟨hk, (Option.some.inj h).symm⟩
  · exact .inr h

lemma lookup_erase_eq (a k : α) : (t.erase a).lookup k = if k = a then none else t.lookup k := by
  split
  next h =>
    subst h
    exact lookup_erase k t
  next h => exact lookup_erase_ne h

lemma mem_pairs {t : Table α β} {a : α} {b : β} : (a, b) ∈ t.pairs ↔ t.lookup a = some b := by
  rw [← Option.mem_def, mem_lookup_iff, pairs, mem_map]
  constructor
  · rintro ⟨⟨a', b'⟩, he, heq⟩
    cases heq
    exact he
  · exact fun he => ⟨_, he, rfl⟩

lemma lookup_filter_pairs {γ : Type} (p : β → Bool) (f : β → γ) (a : α) :
    ((t.pairs.filter fun e => p e.2).map fun e => (e.1, f e.2)).lookup a
      = ((t.lookup a).filter p).map f := by
  rw [pairs, AList.lookup]
  have hnodup := t.nodupKeys
  generalize t.entries = l at hnodup
  induction l with
  | nil => rfl
  | cons e l ih =>
    obtain ⟨k, b⟩ := e
    obtain ⟨hk, hnodup⟩ := nodupKeys_cons.mp hnodup
    have ih := ih hnodup
    rw [map_cons, filter_cons]
    by_cases hak : a = k
    · subst hak
      have hnone : l.dlookup a = none := dlookup_eq_none.mpr hk
      rw [hnone] at ih
      rw [dlookup_cons_eq]
      cases hp : p b with
      | true => simp [hp, Option.filter]
      | false =>
        rw [Option.filter_some, hp]
        exact ih
    rw [dlookup_cons_ne _ _ hak, ← ih]
    cases hp : p b with
    | true =>
      rw [if_pos rfl, map_cons, lookup_cons, beq_eq_false_iff_ne.mpr hak]
    | false => rw [if_neg (by simp)]

lemma lookup_map_pairs {γ : Type} (f : β → γ) (a : α) :
    (t.pairs.map fun e => (e.1, f e.2)).lookup a = (t.lookup a).map f := by
  have h := lookup_filter_pairs t (fun _ => true) f a
  rw [filter_true] at h
  rw [h]
  cases t.lookup a <;> rfl

lemma lookup_eq_none_of_notMem {l : List (α × β)} {a : α} (h : a ∉ l.map Prod.fst) :
    l.lookup a = none := by
  refine lookup_eq_none_iff.mpr fun p hp => ?_
  rw [bne_iff_ne]
  intro heq
  exact h (mem_map.mpr ⟨p, hp, heq.symm⟩)

lemma lookup_pairs (a : α) : t.pairs.lookup a = t.lookup a := by
  simpa using t.lookup_map_pairs id a

lemma find?_pairs (a : α) :
    t.pairs.find? (fun e => e.1 = a) = (t.lookup a).map fun b => (a, b) := by
  rw [← lookup_pairs]
  generalize t.pairs = l
  induction l with
  | nil => rfl
  | cons e l ih =>
    rw [find?_cons, lookup_cons, ih]
    by_cases ha : e.1 = a
    · subst ha
      simp
    · simp [ha, beq_eq_false_iff_ne.mpr (Ne.symm ha)]

lemma sum_pairs_ite (a : α) (f : β → ℕ) :
    (t.pairs.map fun e => if e.1 = a then f e.2 else 0).sum = (t.lookup a).elim 0 f := by
  have hnodup := t.nodup_map_fst_pairs
  rw [← lookup_pairs]
  generalize t.pairs = l at hnodup
  induction l with
  | nil => rfl
  | cons e l ih =>
    rw [map_cons, nodup_cons] at hnodup
    rw [map_cons, sum_cons, lookup_cons, ih hnodup.2]
    by_cases ha : e.1 = a
    · subst ha
      simp [lookup_eq_none_of_notMem hnodup.1]
    · simp [ha, beq_eq_false_iff_ne.mpr (Ne.symm ha)]

def find? (p : α → β → Bool) (t : Table α β) : Option (α × β) :=
  t.pairs.find? fun e => p e.1 e.2

lemma find?_eq_none {p : α → β → Bool} {t : Table α β} :
    find? p t = none ↔ ∀ a b, t.lookup a = some b → p a b = false := by
  rw [find?, List.find?_eq_none]
  constructor
  · intro h a b hab
    simpa using h (a, b) (mem_pairs.mpr hab)
  rintro h ⟨a, b⟩ hab
  simpa using h a b (mem_pairs.mp hab)

def eraseAll (t : Table α β) (ks : List α) : Table α β :=
  ks.foldl (fun t k => t.erase k) t

lemma lookup_eraseAll (ks : List α) (k : α) :
    (t.eraseAll ks).lookup k = if k ∈ ks then none else t.lookup k := by
  induction ks generalizing t with
  | nil => simp [eraseAll]
  | cons a ks ih =>
    change (Table.eraseAll (t.erase a) ks).lookup k = _
    rw [ih, lookup_erase_eq]
    by_cases hk : k ∈ ks <;> by_cases ha : k = a <;> simp [hk, ha]

lemma lookup_eraseAll_filter (p : α × β → Bool) (a : α) :
    (t.eraseAll ((t.pairs.filter p).map Prod.fst)).lookup a =
      (t.lookup a).filter fun b => !p (a, b) := by
  rw [lookup_eraseAll]
  cases hb : t.lookup a with
  | none => rw [Option.filter_none, ite_self]
  | some b =>
    have hgone : a ∈ (t.pairs.filter p).map Prod.fst ↔ p (a, b) := by
      rw [mem_map]
      constructor
      · rintro ⟨⟨a', b'⟩, hmem, rfl⟩
        obtain ⟨hpair, hp⟩ := mem_filter.mp hmem
        cases hb.symm.trans (mem_pairs.mp hpair)
        exact hp
      intro hp
      exact ⟨(a, b), mem_filter.mpr ⟨mem_pairs.mpr hb, hp⟩, rfl⟩
    cases hp : p (a, b) with
    | true => rw [if_pos (hgone.mpr hp), Option.filter_some, hp, if_neg (by simp)]
    | false => rw [if_neg (by simp [hgone, hp]), Option.filter_some, hp, if_pos (by simp)]

def retain (t : Table α β) (keep : α → β → Bool) : Table α β :=
  t.eraseAll ((t.pairs.filter fun e => !keep e.1 e.2).map Prod.fst)

lemma lookup_retain (keep : α → β → Bool) (a : α) :
    (t.retain keep).lookup a = (t.lookup a).filter (keep a) := by
  rw [retain, lookup_eraseAll_filter]
  simp only [Bool.not_not]

lemma of_mem_retain {t : Table α β} {keep : α → β → Bool} {a : α} (h : a ∈ t.retain keep) :
    ∃ b, t.lookup a = some b ∧ keep a b = true := by
  obtain ⟨b, hb⟩ := Option.isSome_iff_exists.mp (lookup_isSome.mpr h)
  rw [lookup_retain] at hb
  exact ⟨b, Option.filter_eq_some_iff.mp hb⟩

end Table
end Rproxy
