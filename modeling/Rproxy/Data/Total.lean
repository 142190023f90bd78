import Rproxy.Data.Table

/-!
# Totals over a table

The sum of a measure over the values of a table, as keys are put in and taken out.
`total_le_of_cover` bounds it by a list of allowances, one for each key.
-/

namespace Rproxy.Table
open List
variable {α β : Type}

open Prod

def total (f : β → ℕ) (t : Table α β) : ℕ := (t.pairs.map fun e => f e.2).sum

lemma total_one (t : Table α β) : total (fun _ => 1) t = t.pairs.length := by
  simp [total]

lemma total_mono {f g : β → ℕ} (h : ∀ b, f b ≤ g b) (t : Table α β) : total f t ≤ total g t :=
  sum_le_sum fun e _ => h e.2

lemma total_add (f g : β → ℕ) (t : Table α β) :
    total (fun b => f b + g b) t = total f t + total g t := sum_map_add

lemma total_eq_zero {f g : β → ℕ} {t : Table α β} (h : total f t = 0)
    (hg : ∀ b, f b = 0 → g b = 0) : total g t = 0 := by
  simp only [total, sum_eq_zero_iff, forall_mem_map] at h ⊢
  exact fun e he => hg e.2 (h e he)

lemma length_filter_eq_sum {γ : Type} (l : List γ) (p : γ → Prop) [DecidablePred p] :
    (l.filter fun c => decide (p c)).length = (l.map fun c => if p c then 1 else 0).sum := by
  induction l with
  | nil => rfl
  | cons c l ih =>
    rw [map_cons, sum_cons, ← ih]
    by_cases hp : p c
    · simp [hp]
      omega
    · simp [hp]

lemma sum_filter_eq_total (t : Table α β) (p : β → Prop) [DecidablePred p] (f : β → ℕ) :
    ((t.pairs.filter fun e => decide (p e.2)).map fun e => f e.2).sum
      = total (fun b => if p b then f b else 0) t := by
  rw [total]
  induction t.pairs with
  | nil => rfl
  | cons e l ih =>
    rw [map_cons, sum_cons, ← ih]
    by_cases hp : p e.2 <;> simp [hp]

variable [DecidableEq α] {f g : β → ℕ} {t : Table α β}

lemma total_congr (h : ∀ a b, t.lookup a = some b → f b = g b) : total f t = total g t := by
  refine congrArg List.sum (map_congr_left fun e he => ?_)
  exact h e.1 e.2 (mem_pairs.mp he)

lemma total_insert (f : β → ℕ) (t : Table α β) (a : α) (b : β) :
    total f (t.insert a b) = f b + total f (t.erase a) := by
  simp [total, pairs, AList.entries_insert, AList.erase]

lemma total_insert_of_notMem {a : α} (b : β) (h : a ∉ t) :
    total f (t.insert a b) = f b + total f t := by
  have herase : t.erase a = t := AList.ext (kerase_of_notMem_keys h)
  rw [total_insert, herase]

lemma total_of_lookup {a : α} {b : β} (h : t.lookup a = some b) :
    total f t = f b + total f (t.erase a) := by
  have hperm : t.entries ~ (t.insert a b).entries := by
    refine lookup_ext t.nodupKeys (t.insert a b).nodupKeys fun k v => ?_
    show v ∈ t.lookup k ↔ v ∈ (t.insert a b).lookup k
    rw [lookup_insert_eq]
    split
    next hk => rw [hk, h]
    · rfl
  rw [← total_insert]
  exact ((hperm.map _).map _).sum_eq

lemma total_erase_add (f : β → ℕ) (t : Table α β) (a : α) :
    total f (t.erase a) + (t.lookup a).elim 0 f = total f t := by
  cases h : t.lookup a with
  | none =>
    have herase : t.erase a = t := AList.ext (kerase_of_notMem_keys (AList.lookup_eq_none.mp h))
    rw [herase]
    rfl
  | some b =>
    rw [total_of_lookup h, Nat.add_comm]
    rfl

lemma total_insert_add (f : β → ℕ) (t : Table α β) (a : α) (b : β) :
    total f (t.insert a b) + (t.lookup a).elim 0 f = total f t + f b := by
  rw [total_insert, ← total_erase_add f t a]
  omega

lemma total_eraseAll_add {gone : List (α × β)} (hkeys : (gone.map fst).Nodup)
    (hgone : ∀ e ∈ gone, t.lookup e.1 = some e.2) :
    total f (t.eraseAll (gone.map fst)) + (gone.map fun e => f e.2).sum = total f t := by
  induction gone generalizing t with
  | nil => rfl
  | cons e gone ih =>
    obtain ⟨hnot, hkeys⟩ := nodup_cons.mp hkeys
    have hrest : ∀ e' ∈ gone, (t.erase e.1).lookup e'.1 = some e'.2 := by
      intro e' he'
      rw [lookup_erase_eq, if_neg]
      · exact hgone e' (mem_cons_of_mem _ he')
      intro heq
      exact hnot (mem_map.mpr ⟨e', he', heq⟩)
    have herase := total_erase_add f t e.1
    rw [hgone e mem_cons_self] at herase
    have hstep : total f (t.eraseAll ((e :: gone).map fst)) =
        total f (Table.eraseAll (t.erase e.1) (gone.map fst)) := rfl
    have hsum : ((e :: gone).map fun e => f e.2).sum = f e.2 + (gone.map fun e => f e.2).sum := rfl
    rw [← herase, ← ih hkeys hrest, Option.elim_some]
    omega

lemma length_eraseAll_add {gone : List (α × β)} (hkeys : (gone.map fst).Nodup)
    (hgone : ∀ e ∈ gone, t.lookup e.1 = some e.2) :
    (pairs (t.eraseAll (gone.map fst))).length + gone.length = t.pairs.length := by
  have h := total_eraseAll_add (f := fun _ => 1) hkeys hgone
  rw [total_one, total_one] at h
  simpa using h

lemma sum_le_of_cover {l : List (α × β)} (hl : (l.map fst).Nodup) {L : List (α × ℕ)}
    (h : ∀ e ∈ l, ∃ n, (e.1, n) ∈ L ∧ f e.2 ≤ n) :
    (l.map fun e => f e.2).sum ≤ (L.map snd).sum := by
  induction l generalizing L with
  | nil => exact Nat.zero_le _
  | cons e l ih =>
    obtain ⟨hnot, hl⟩ := nodup_cons.mp hl
    obtain ⟨n, hn, hle⟩ := h e mem_cons_self
    -- the allowance of this key is not that of another
    have hrest : (l.map fun e => f e.2).sum ≤ ((L.erase (e.1, n)).map snd).sum := by
      refine ih hl fun e' he' => ?_
      obtain ⟨n', hn', hle'⟩ := h e' (mem_cons_of_mem _ he')
      refine ⟨n', (mem_erase_of_ne ?_).mpr hn', hle'⟩
      intro heq
      exact hnot (mem_map.mpr ⟨e', he', (mk.inj heq).1⟩)
    have hsum : (L.map snd).sum = n + ((L.erase (e.1, n)).map snd).sum := by
      rw [((perm_cons_erase hn).map snd).sum_eq]
      simp
    rw [map_cons, sum_cons]
    omega

lemma total_le_of_cover {L : List (α × ℕ)}
    (h : ∀ a b, t.lookup a = some b → ∃ n, (a, n) ∈ L ∧ f b ≤ n) :
    total f t ≤ (L.map snd).sum :=
  sum_le_of_cover (nodup_map_fst_pairs t) fun e he => h e.1 e.2 (mem_pairs.mp he)

lemma total_retain (f : β → ℕ) (t : Table α β) (keep : β → Bool) :
    total f (t.retain fun _ b => keep b) = total (fun b => if keep b then f b else 0) t := by
  have hkeys : ((t.pairs.filter fun e => !keep e.2).map fst).Nodup :=
    t.nodup_map_fst_pairs.sublist (filter_sublist.map fst)
  have hgone : ∀ e ∈ t.pairs.filter fun e => !keep e.2, t.lookup e.1 = some e.2 := fun e he =>
    mem_pairs.mp (mem_of_mem_filter he)
  have herased : total f (t.retain fun _ b => keep b) +
      ((t.pairs.filter fun e => !keep e.2).map fun e => f e.2).sum = total f t :=
    total_eraseAll_add hkeys hgone
  have hsum := sum_filter_eq_total t (fun b => (!keep b) = true) f
  simp only [Bool.decide_eq_true] at hsum
  have hsplit := total_add (fun b => if keep b then f b else 0)
    (fun b => if (!keep b) = true then f b else 0) t
  have hwhole : total (fun b => (if keep b then f b else 0) + if (!keep b) = true then f b else 0) t
      = total f t := total_congr fun _ b _ => by cases keep b <;> simp
  omega

lemma length_retain_le (t : Table α β) (keep : β → Bool) :
    (pairs (t.retain fun _ b => keep b)).length ≤ t.pairs.length := by
  rw [← total_one, ← total_one, total_retain]
  exact total_mono (fun b => by split <;> omega) t

lemma length_insert_add (t : Table α β) (a : α) (b : β) :
    (pairs (t.insert a b)).length + (t.lookup a).elim 0 (fun _ => 1) = t.pairs.length + 1 := by
  rw [← total_one, ← total_one]
  exact total_insert_add (fun _ => 1) t a b

lemma length_insert_le (t : Table α β) (a : α) (b : β) :
    (pairs (t.insert a b)).length ≤ t.pairs.length + 1 := by
  have h := length_insert_add t a b
  omega

lemma length_insert_of_lookup {a : α} {b₀ : β} (h : t.lookup a = some b₀) (b : β) :
    (pairs (t.insert a b)).length = t.pairs.length := by
  have hlen := length_insert_add t a b
  rw [h] at hlen
  exact Nat.add_right_cancel hlen

end Rproxy.Table
