import Mathlib

/-!
# Splitting a list at a separator

For programs that split a text, work on the pieces and join them again, or write parts with a
separator that none of them holds.
-/

namespace Rproxy.Split
open List
variable {α : Type*}

lemma notMem_of_mem_splitOn [BEq α] [LawfulBEq α] {a : α} {l piece : List α}
    (h : piece ∈ l.splitOn a) : a ∉ piece := by
  induction l generalizing piece with
  | nil =>
    simp only [splitOn_nil, mem_singleton] at h
    simp [h]
  | cons x l ih =>
    rw [splitOn_cons_eq_if_modifyHead] at h
    obtain ⟨first, more, hl⟩ := exists_cons_of_ne_nil (splitOn_ne_nil a l)
    by_cases hx : x = a
    · simp only [hx, beq_self_eq_true, if_true, mem_cons] at h
      rcases h with rfl | h
      · exact not_mem_nil
      · exact ih h
    simp only [beq_iff_eq, hx, if_false, hl, modifyHead_cons, mem_cons] at h
    rcases h with rfl | h
    · simp only [mem_cons, not_or]
      exact ⟨fun heq => hx heq.symm, ih (by simp [hl])⟩
    · exact ih (by simp [hl, h])

lemma flatMap_cons_eq_intercalate {a : α} {pieces : List (List α)} (h : pieces ≠ []) :
    pieces.flatMap (a :: ·) = a :: [a].intercalate pieces := by
  induction pieces with
  | nil => exact absurd rfl h
  | cons piece pieces ih =>
    rcases pieces with _ | ⟨next, pieces⟩
    · simp
    rw [flatMap_cons, ih (by simp)]
    simp

lemma append_cons_inj {a a' b b' : List α} {c : α} (ha : c ∉ a) (ha' : c ∉ a')
    (h : a ++ c :: b = a' ++ c :: b') : a = a' ∧ b = b' := by
  classical
  have hlength : ∀ {x y : List α}, c ∉ x → (x ++ c :: y).idxOf c = x.length := fun hx => by
    rw [idxOf_append_of_notMem hx, idxOf_cons_self, Nat.add_zero]
  obtain ⟨rfl, hb⟩ := append_inj h (by rw [← hlength ha, h, hlength ha'])
  exact ⟨rfl, (cons.inj hb).2⟩

lemma mem_intercalate {a : α} {sep : List α} {l : List (List α)} (h : a ∈ sep.intercalate l) :
    a ∈ sep ∨ ∃ x ∈ l, a ∈ x := by
  induction l with
  | nil => simp at h
  | cons x l ih =>
    rcases l with _ | ⟨y, l⟩
    · exact .inr ⟨x, mem_cons_self, by simpa using h⟩
    rw [intercalate_cons_cons, mem_append, mem_append] at h
    rcases h with (h | h) | h
    · exact .inr ⟨x, mem_cons_self, h⟩
    · exact .inl h
    exact (ih h).imp_right fun ⟨z, hz, ha⟩ => ⟨z, mem_cons_of_mem _ hz, ha⟩

end Rproxy.Split
