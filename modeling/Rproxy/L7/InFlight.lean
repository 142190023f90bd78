import Rproxy.Data.Table
import Rproxy.Programs.Runs

/-!
# Requests in progress

`InFlight` counts the requests in progress of each client, `Hold::counting_below` those on a server.
-/

namespace Rproxy
open List

/-! ## By client -/

structure InFlight where
  amount : ℕ
  counts : Table String ℕ
  holds : List String

namespace InFlight

def new (amount : ℕ) : InFlight := ⟨amount, ∅, []⟩

def acquire (x : InFlight) (key : String) : InFlight × Bool :=
  let n := (x.counts.lookup key).getD 0
  if x.amount ≤ n then ({ x with counts := x.counts.insert key n }, false)
  else ({ x with counts := x.counts.insert key (n + 1), holds := key :: x.holds }, true)

def drop (x : InFlight) (key : String) : InFlight :=
  { x with
    holds := x.holds.erase key
    counts :=
      match x.counts.lookup key with
      | some n => if n - 1 = 0 then x.counts.erase key else x.counts.insert key (n - 1)
      | none => x.counts }

inductive Act where
  | acquire (key : String)
  | drop (key : String)

def step (x : InFlight) : Act → InFlight
  | .acquire key => (x.acquire key).1
  | .drop key => if key ∈ x.holds then x.drop key else x

def entry (n : ℕ) : Option ℕ := if n = 0 then none else some n

structure Exact (x : InFlight) : Prop where
  amount : 0 < x.amount
  counts : ∀ key, x.counts.lookup key = entry (x.holds.count key)
  le : ∀ key, x.holds.count key ≤ x.amount

variable {x : InFlight}

lemma Exact.getD (h : x.Exact) (key : String) :
    (x.counts.lookup key).getD 0 = x.holds.count key := by
  rw [h.counts, entry]
  split
  next h0 => exact h0.symm
  · rfl

lemma Exact.acquire (h : x.Exact) (key : String) : (x.acquire key).1.Exact := by
  simp only [InFlight.acquire, h.getD]
  split
  next hfull =>
    refine ⟨h.amount, fun k => ?_, h.le⟩
    -- a full key has holds, as `amount` is not zero: its entry was there
    have hpos : x.holds.count key ≠ 0 := Nat.ne_of_gt (Nat.lt_of_lt_of_le h.amount hfull)
    rw [Table.lookup_insert_eq]
    split
    next hk => rw [hk, entry, if_neg hpos]
    · exact h.counts k
  rename_i hroom
  refine ⟨h.amount, fun k => ?_, fun k => ?_⟩
  · rw [Table.lookup_insert_eq]
    split
    next hk => rw [hk, count_cons_self, entry, if_neg (Nat.succ_ne_zero _)]
    next hk => rw [count_cons_of_ne (Ne.symm hk), h.counts]
  by_cases hk : k = key
  · rw [hk, count_cons_self]
    exact Nat.not_le.mp hroom
  rw [count_cons_of_ne (Ne.symm hk)]
  exact h.le k

lemma Exact.drop (h : x.Exact) {key : String} (hkey : key ∈ x.holds) : (x.drop key).Exact := by
  have hpos : x.holds.count key ≠ 0 := Nat.ne_of_gt (count_pos_iff.mpr hkey)
  refine ⟨h.amount, fun k => ?_, fun k => ?_⟩
  · simp only [InFlight.drop, h.counts key, entry, if_neg hpos]
    by_cases hk : k = key
    · rw [hk, count_erase_self]
      split
      · rw [Table.lookup_erase_eq, if_pos rfl]
      · rw [Table.lookup_insert_eq, if_pos rfl]
    rw [count_erase_of_ne hk, ← entry, ← h.counts]
    split
    · rw [Table.lookup_erase_eq, if_neg hk]
    · rw [Table.lookup_insert_eq, if_neg hk]
  · exact Nat.le_trans (erase_sublist.count_le k) (h.le k)

lemma Exact.step (h : x.Exact) (act : Act) : (x.step act).Exact := by
  cases act with
  | acquire key => exact h.acquire key
  | drop key =>
    rw [InFlight.step]
    split
    next hkey => exact h.drop hkey
    · exact h

end InFlight

/-- The counter of a server, its live holds, and the calls of `counting_below` on their way with
what they know. -/
structure Counting where
  counter : ℕ
  holds : ℕ
  calls : List ℕ

namespace Counting

inductive Act where
  | load
  /-- A turn of the loop; whether `compare_exchange_weak` fails for no reason. -/
  | turn (call : ℕ) (spurious : Bool)
  | drop

def step (most : ℕ) (x : Counting) : Act → Counting
  | .load => { x with calls := x.calls ++ [x.counter] }
  | .turn i spurious =>
    match x.calls[i]? with
    | some n =>
      if most ≤ n then { x with calls := x.calls.eraseIdx i }
      else if x.counter = n ∧ spurious = false then
        ⟨n + 1, x.holds + 1, x.calls.eraseIdx i⟩
      else { x with calls := x.calls.set i x.counter }
    | none => x
  | .drop => if x.holds = 0 then x else { x with counter := x.counter - 1, holds := x.holds - 1 }

lemma counted_step {most : ℕ} {x : Counting} (h : x.counter = x.holds ∧ x.holds ≤ most)
    (act : Act) : (x.step most act).counter = (x.step most act).holds ∧
      (x.step most act).holds ≤ most := by
  obtain ⟨heq, hle⟩ := h
  cases act with
  | load => exact ⟨heq, hle⟩
  | turn i spurious =>
    simp only [step]
    split
    · split
      · exact ⟨heq, hle⟩
      split
      · dsimp only
        omega
      · exact ⟨heq, hle⟩
    · exact ⟨heq, hle⟩
  | drop =>
    simp only [step]
    split
    · exact ⟨heq, hle⟩
    dsimp only
    omega

end Counting

/-- **Places are counted exactly.** The map has the number of live holds of each key, at most
`amount`, and no key without one; `acquire` refuses only when `amount` are live; and the counter of
a server is the number of its live holds, at most `max`. -/
theorem places_counted (amount : ℕ) (hamount : 1 ≤ amount) (acts : List InFlight.Act) (most : ℕ)
    (calls : List Counting.Act) :
    let x := after InFlight.step (.new amount) acts
    let y := after (Counting.step most) ⟨0, 0, []⟩ calls
    (∀ key, x.counts.lookup key
        = if x.holds.count key = 0 then none else some (x.holds.count key)) ∧
      (∀ key, x.holds.count key ≤ x.amount) ∧
      (∀ key, (x.acquire key).2 = false → x.holds.count key = x.amount) ∧
      y.counter = y.holds ∧ y.counter ≤ most := by
  have hx : (after InFlight.step (.new amount) acts).Exact :=
    after_invariant acts ⟨hamount, fun _ => rfl, fun _ => Nat.zero_le _⟩ fun _ act h => h.step act
  have hy := after_invariant (I := fun y : Counting => y.counter = y.holds ∧ y.holds ≤ most)
    (s := ⟨0, 0, []⟩) calls ⟨rfl, Nat.zero_le _⟩ fun _ act h => Counting.counted_step h act
  refine ⟨hx.counts, hx.le, fun key hrefused => ?_, hy.1, hy.1 ▸ hy.2⟩
  simp only [InFlight.acquire, hx.getD] at hrefused
  split at hrefused
  next hfull => exact Nat.le_antisymm (hx.le key) hfull
  · cases hrefused

theorem second_refused :
    let x := after InFlight.step (.new 1) [.acquire "a"]
    (x.acquire "a").2 = false ∧ x.holds.count "a" = x.amount :=
  ⟨by decide, (places_counted 1 (Nat.le_refl 1) [.acquire "a"] 0 []).2.2.1 "a" (by decide)⟩

end Rproxy
