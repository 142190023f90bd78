import Mathlib

/-!
# Replacing the values of a map one by one

A map of keys to values is brought to a new list of items, one item after the other.
-/

namespace Rproxy.Replace
open List Function

inductive Mode where
  | kept
  | forced
  /-- It goes in if nothing is in its way, and it is `free` of other obstacles. -/
  | checked (free : Bool)

structure Item (κ V : Type) where
  key : κ
  val : V
  mode : Mode

variable {κ V : Type} (clash : V → V → Prop)

def InWay (m : κ → Option V) (k : κ) (v : V) : Prop :=
  ∃ k' w, k' ≠ k ∧ m k' = some w ∧ clash w v

def Ordered (m : κ → Option V) : List (Item κ V) → Prop
  | [] => True
  | i :: l =>
    (∀ free, i.mode = .checked free →
      free = true ∧ ∀ j ∈ l, ∀ w, m j.key = some w → ¬ clash w i.val) ∧ Ordered m l

variable {clash} {m m' : κ → Option V} {i : Item κ V} {l : List (Item κ V)}

lemma ordered_congr (h : ∀ j ∈ l, m' j.key = m j.key) :
    Ordered clash m' l ↔ Ordered clash m l := by
  induction l with
  | nil => exact Iff.rfl
  | cons i l ih =>
    have htail : ∀ j ∈ l, m' j.key = m j.key := fun j hj => h j (mem_cons_of_mem _ hj)
    refine and_congr (forall_congr' fun free => imp_congr Iff.rfl (and_congr Iff.rfl ?_)) (ih htail)
    exact forall_congr' fun j => forall_congr' fun hj => by rw [htail j hj]

variable [DecidableEq κ]

variable (clash) in
open Classical in
noncomputable def put (m : κ → Option V) (i : Item κ V) : κ → Option V :=
  match i.mode with
  | .kept => m
  | .forced => update m i.key (some i.val)
  | .checked free =>
    update m i.key (if free = true ∧ ¬ InWay clash m i.key i.val then some i.val else none)

variable (clash) in
noncomputable def putAll (m : κ → Option V) (l : List (Item κ V)) : κ → Option V :=
  l.foldl (put clash) m

lemma put_apply_of_ne {k : κ} (h : k ≠ i.key) : put clash m i k = m k := by
  obtain ⟨k', v, mode⟩ := i
  cases mode with
  | kept => rfl
  | forced | checked free => exact update_of_ne h _ _

lemma put_forced_self {k : κ} {v : V} : put clash m ⟨k, v, .forced⟩ k = some v :=
  update_self k _ m

lemma put_checked_self {k : κ} {v : V} {free : Bool}
    (h : free ∧ ¬ InWay clash m k v) : put clash m ⟨k, v, .checked free⟩ k = some v :=
  (update_self k _ m).trans (if_pos h)

lemma put_checked_self_none {k : κ} {v : V} {free : Bool}
    (h : ¬ (free ∧ ¬ InWay clash m k v)) : put clash m ⟨k, v, .checked free⟩ k = none :=
  (update_self k _ m).trans (if_neg h)

lemma put_apply_self_iff (hkept : i.mode = .kept → m i.key = some i.val) :
    put clash m i i.key = some i.val ↔
      ∀ free, i.mode = .checked free → free ∧ ¬ InWay clash m i.key i.val := by
  obtain ⟨k, v, mode⟩ := i
  cases mode with
  | kept => simpa [put] using hkept
  | forced | checked free => simp [put]

lemma eq_of_put_apply_self {w : V} (hkept : i.mode = .kept → m i.key = some i.val)
    (h : put clash m i i.key = some w) : w = i.val := by
  obtain ⟨k, v, mode⟩ := i
  cases mode with
  | kept => exact Option.some.inj (h.symm.trans (hkept rfl))
  | forced =>
    simp only [put, update_self, Option.some.injEq] at h
    exact h.symm
  | checked free =>
    simp only [put, update_self] at h
    split at h
    · exact (Option.some.inj h).symm
    · cases h

lemma putAll_apply_of_notMem {k : κ} (h : k ∉ l.map Item.key) : putAll clash m l k = m k := by
  induction l generalizing m with
  | nil => rfl
  | cons i l ih =>
    simp only [map_cons, mem_cons, not_or] at h
    exact (ih h.2).trans (put_apply_of_ne h.1)

/-- **The map holds every item at the end exactly if each meets no old value of a later one**, for
items that do not clash with each other nor with what the map holds besides. -/
theorem putAll_iff (hkeys : (l.map Item.key).Nodup)
    (hpair : l.Pairwise fun i j => ¬ clash i.val j.val)
    (hkept : ∀ i ∈ l, i.mode = .kept → m i.key = some i.val)
    (hout : ∀ i ∈ l, ∀ free, i.mode = .checked free →
      ∀ k w, k ∉ l.map Item.key → m k = some w → ¬ clash w i.val) :
    (∀ i ∈ l, putAll clash m l i.key = some i.val) ↔ Ordered clash m l := by
  induction l generalizing m with
  | nil => simp [Ordered]
  | cons i l ih =>
    obtain ⟨hi, hkeys⟩ := nodup_cons.mp hkeys
    obtain ⟨hclash, hpair⟩ := pairwise_cons.mp hpair
    have hkeptI := hkept i mem_cons_self
    have hne : ∀ j ∈ l, j.key ≠ i.key := fun j hj h => hi (h ▸ mem_map_of_mem hj)
    have hsame : ∀ j ∈ l, put clash m i j.key = m j.key := fun j hj => put_apply_of_ne (hne j hj)
    have htail := ih (m := put clash m i) hkeys hpair
      (fun j hj hmode => (hsame j hj).trans (hkept j (mem_cons_of_mem _ hj) hmode))
      (fun j hj free hmode k w hk hw => ?_)
    · rw [ordered_congr hsame] at htail
      have hhead : putAll clash (put clash m i) l i.key = put clash m i i.key :=
        putAll_apply_of_notMem hi
      rw [forall_mem_cons]
      refine and_congr ?_ htail
      refine (Eq.congr_left hhead).trans ((put_apply_self_iff hkeptI).trans ?_)
      refine forall_congr' fun free => forall_congr' fun hmode => and_congr Iff.rfl ?_
      -- what is in the way of `i` is an old value of a later item
      constructor
      · intro hway j hj w hw hc
        exact hway ⟨j.key, w, hne j hj, hw, hc⟩
      rintro hlater ⟨k, w, hk, hw, hc⟩
      by_cases hmem : k ∈ l.map Item.key
      · obtain ⟨j, hj, rfl⟩ := mem_map.mp hmem
        exact hlater j hj w hw hc
      · exact hout i mem_cons_self free hmode k w (by simp [hk, hmem]) hw hc
    by_cases hki : k = i.key
    · subst hki
      rw [eq_of_put_apply_self hkeptI hw]
      exact hclash j hj
    rw [put_apply_of_ne hki] at hw
    exact hout j (mem_cons_of_mem _ hj) free hmode k w
      (by simp only [map_cons, mem_cons, not_or]; exact ⟨hki, hk⟩) hw

end Rproxy.Replace
