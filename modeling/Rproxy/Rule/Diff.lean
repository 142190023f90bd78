import Rproxy.Global.Items

/-!
# What a dry run says is different

`diff` walks two documents through their common objects and tells the values that differ, each with
its keys joined with dots.
-/

namespace Rproxy.Diff
open List Json

structure DiffEntry where
  path : String
  before : Json
  after : Json

def member (fields : List (String × Json)) (k : String) : Json := (fields.lookup k).getD .null

def keys (x y : List (String × Json)) : List String :=
  (((x ++ y).map Prod.fst).insertionSort (· ≤ ·)).dedup

def join (path k : String) : String := if path = "" then k else path ++ "." ++ k

lemma member_cons (f : String × Json) (x : List (String × Json)) (k : String) :
    member (f :: x) k = if k = f.1 then f.2 else member x k := by
  by_cases h : k = f.1
  · simp [member, List.lookup, h]
  · simp [member, List.lookup, h, beq_false_of_ne h]

lemma sizeOf_member_lt (fields : List (String × Json)) (k : String) :
    sizeOf (member fields k) < sizeOf (obj fields) := by
  induction fields with
  | nil => exact (by decide : sizeOf null < sizeOf (obj []))
  | cons f fields ih =>
    obtain ⟨name, j⟩ := f
    simp only [member_cons, obj.sizeOf_spec, cons.sizeOf_spec, Prod.mk.sizeOf_spec] at ih ⊢
    split <;> omega

structure Change where
  keys : List String
  before : Json
  after : Json

def Change.under (k : String) (c : Change) : Change := { c with keys := k :: c.keys }

def Change.entry (path : String) (c : Change) : DiffEntry :=
  ⟨c.keys.foldl join path, c.before, c.after⟩

def valueAt : List String → Json → Json
  | [], j => j
  | k :: ks, .obj x => valueAt ks (member x k)
  | _ :: _, _ => .null

/-- The same values at all keys through objects, whether null or absent. -/
def Same (a b : Json) : Prop :=
  ∀ ks, valueAt ks a = valueAt ks b ∨ ∃ x y, valueAt ks a = .obj x ∧ valueAt ks b = .obj y

def put (value : Json) : List String → Json → Json
  | [], _ => value
  | k :: ks, .obj x => .obj (insertKey k (put value ks (member x k)) x)
  | _ :: _, j => j

def made (a : Json) (l : List Change) : Json := l.foldl (fun j c => put c.after c.keys j) a

variable {a b : Json} {x y : List (String × Json)}

lemma member_insertKey (k k' : String) (j : Json) (x : List (String × Json)) :
    member (insertKey k j x) k' = if k' = k then j else member x k' := by
  induction x with
  | nil => rw [insertKey, member_cons]
  | cons f x ih =>
    rw [insertKey]
    split
    next hf =>
      rw [member_cons, member_cons, hf]
      split <;> rfl
    next hf =>
      rw [member_cons, member_cons]
      split_ifs <;> simp_all

lemma same_obj : Same (.obj x) (.obj y) ↔ ∀ k, Same (member x k) (member y k) :=
  ⟨fun h k ks => h (k :: ks), fun h ks => match ks with
    | [] => .inr ⟨x, y, rfl, rfl⟩
    | k :: ks => h k ks⟩

open Change

lemma made_under (k : String) (l : List Change) (x : List (String × Json)) :
    ∃ x', made (.obj x) (l.map (under k)) = .obj x' ∧
      ∀ k', member x' k' = if k' = k then made (member x k) l else member x k' := by
  induction l generalizing x with
  | nil => exact ⟨x, rfl, fun k' => by split <;> simp [*, made]⟩
  | cons c l ih =>
    obtain ⟨x', hmade, hx'⟩ := ih (insertKey k (put c.after c.keys (member x k)) x)
    refine ⟨x', hmade, fun k' => ?_⟩
    rw [hx', member_insertKey, member_insertKey, if_pos rfl]
    split <;> rfl

lemma made_append (a : Json) (l l' : List Change) : made a (l ++ l') = made (made a l) l' :=
  foldl_append

lemma made_members (f : String → List Change) {ks : List String} (hks : ks.Nodup)
    (x : List (String × Json)) :
    ∃ x', made (.obj x) (ks.flatMap fun k => (f k).map (under k)) = .obj x' ∧
      ∀ k, member x' k = if k ∈ ks then made (member x k) (f k) else member x k := by
  induction ks generalizing x with
  | nil => exact ⟨x, rfl, fun k => rfl⟩
  | cons k ks ih =>
    obtain ⟨hk, hks⟩ := nodup_cons.mp hks
    obtain ⟨x₁, h₁, hx₁⟩ := made_under k (f k) x
    obtain ⟨x₂, h₂, hx₂⟩ := ih hks x₁
    refine ⟨x₂, ?_, fun k' => ?_⟩
    · rw [flatMap_cons, made_append, h₁]
      exact h₂
    by_cases heq : k' = k
    · subst heq
      rw [hx₂, hx₁, if_neg hk, if_pos rfl, if_pos mem_cons_self]
    rw [hx₂, hx₁, if_neg heq]
    simp only [mem_cons, heq, false_or]

lemma member_eq_null {k : String} (hk : k ∉ keys x y) :
    member x k = .null ∧ member y k = .null := by
  rw [keys, mem_dedup, mem_insertionSort, map_append, mem_append, not_or] at hk
  have hnone {z : List (String × Json)} (hz : k ∉ z.map Prod.fst) : member z k = .null := by
    rw [member, lookup_eq_none_iff.mpr fun f hf => ?_, Option.getD_none]
    exact bne_iff_ne.mpr fun h => hz (mem_map.mpr ⟨f, hf, h.symm⟩)
  exact ⟨hnone hk.1, hnone hk.2⟩

/-! ## The walk -/

section
variable [DecidableEq Json]

def walk (path : String) : Json → Json → List DiffEntry
  | .obj x, .obj y => (keys x y).flatMap fun k => walk (join path k) (member x k) (member y k)
  | a, b => if a ≠ b then [⟨path, a, b⟩] else []
termination_by a => sizeOf a
decreasing_by exact sizeOf_member_lt x k

def diff (before after : Json) : List DiffEntry := walk "" before after

def changes : Json → Json → List Change
  | .obj x, .obj y =>
    (keys x y).flatMap fun k => (changes (member x k) (member y k)).map (under k)
  | a, b => if a ≠ b then [⟨[], a, b⟩] else []
termination_by a => sizeOf a
decreasing_by exact sizeOf_member_lt x k

lemma walk_eq (path : String) (a b : Json) :
    walk path a b = (changes a b).map (entry path) := by
  fun_induction walk path a b with
  | case1 path x y ih =>
    rw [changes, map_flatMap]
    refine flatMap_congr fun k _ => ?_
    rw [ih, map_map]
    rfl
  | case2 path a b hobj hne => rw [changes.eq_2 _ _ hobj, if_pos hne]; rfl
  | case3 path a b hobj heq => rw [changes.eq_2 _ _ hobj, if_neg heq]; rfl

lemma same_made (a b : Json) : Same (made a (changes a b)) b := by
  fun_induction changes a b with
  | case1 x y ih =>
    have hnodup : (keys x y).Nodup := nodup_dedup _
    obtain ⟨x', hmade, hx'⟩ := made_members (fun k => changes (member x k) (member y k)) hnodup x
    rw [hmade, same_obj]
    intro k
    rw [hx']
    split
    · exact ih k
    rename_i hk
    obtain ⟨hx, hy⟩ := member_eq_null hk
    rw [hx, hy]
    exact fun ks => .inl rfl
  | case2 a b hobj hne => exact fun ks => .inl rfl
  | case3 a b hobj heq =>
    rw [not_not] at heq
    subst heq
    exact fun ks => .inl rfl

lemma changes_eq_nil_iff : changes a b = [] ↔ Same a b := by
  constructor
  · intro h
    have hsame := same_made a b
    rw [h] at hsame
    exact hsame
  fun_induction changes a b with
  | case1 x y ih =>
    intro h
    exact flatMap_eq_nil_iff.mpr fun k _ => map_eq_nil_iff.mpr (ih k (same_obj.mp h k))
  | case2 a b hobj hne =>
    intro h
    rcases h [] with heq | ⟨x, y, rfl, rfl⟩
    · exact absurd heq hne
    · exact (hobj x y rfl rfl).elim
  | case3 => exact fun _ => rfl

lemma value_of_mem_changes {c : Change} (hc : c ∈ changes a b) :
    c.before = valueAt c.keys a ∧ c.after = valueAt c.keys b ∧ c.before ≠ c.after := by
  fun_induction changes a b generalizing c with
  | case1 x y ih =>
    obtain ⟨k, -, hk⟩ := mem_flatMap.mp hc
    obtain ⟨c', hc', rfl⟩ := mem_map.mp hk
    exact ih k hc'
  | case2 a b hobj hne =>
    cases mem_singleton.mp hc
    exact ⟨rfl, rfl, hne⟩
  | case3 => cases hc

lemma nodup_changes (a b : Json) : ((changes a b).map Change.keys).Nodup := by
  fun_induction changes a b with
  | case1 x y ih =>
    rw [map_flatMap, nodup_flatMap]
    refine ⟨fun k _ => ?_, (nodup_dedup _).imp fun hne ks hks hks' => ?_⟩
    · rw [map_map, show Change.keys ∘ under k = (k :: ·) ∘ Change.keys from rfl, ← map_map]
      exact (ih k).map cons_injective
    simp only [map_map, mem_map] at hks hks'
    obtain ⟨c, -, rfl⟩ := hks
    obtain ⟨c', -, heq⟩ := hks'
    exact hne (cons.inj heq).1.symm
  | case2 a b hobj hne => exact nodup_singleton _
  | case3 => exact nodup_nil

/-- **The diff of a dry run is sound and complete, by its keys.** The entries of `diff` are changes
at different sequences of keys, whose dotted text is their path, each with the values there before
and after, which differ; and with every change made the first document is the second up to null
members. -/
theorem diff_complete (a b : Json) :
    ∃ l : List Change, diff a b = l.map (entry "") ∧ (l = [] ↔ Same a b) ∧
      (l.map Change.keys).Nodup ∧ Same (made a l) b ∧
      ∀ c ∈ l, c.before = valueAt c.keys a ∧ c.after = valueAt c.keys b ∧ c.before ≠ c.after :=
  ⟨changes a b, walk_eq "" a b, changes_eq_nil_iff, nodup_changes a b, same_made a b,
    fun _ hc => value_of_mem_changes hc⟩

end

def twice (n : Int) : Json := .obj [("a", .obj [("b", .num n)]), ("a.b", .num n)]

open Classical in
/-- A key with a dot in it has the path of a member of an object. -/
theorem dotted_paths_clash : (diff (twice 1) (twice 2)).map DiffEntry.path = ["a.b", "a.b"] := by
  have hkeys : keys [("a", .obj [("b", .num 1)]), ("a.b", .num 1)]
      [("a", .obj [("b", .num 2)]), ("a.b", .num 2)] = ["a", "a.b"] := by decide +kernel
  have hb : keys [("b", .num 1)] [("b", .num 2)] = ["b"] := by decide +kernel
  simp [diff, twice, walk, hkeys, hb, member, join, lookup_cons]

end Rproxy.Diff
