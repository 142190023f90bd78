import Rproxy.Balance.Order

/-!
# The choice among the eligible targets

Round robin is exact: while the eligible targets and their weights stay, each is chosen as often as
its weight in as many calls as the weights sum up to, from any value of the counter.
-/

namespace Rproxy.Balancing
open List Turns
namespace Roster

def load (r : Roster) (i : ℕ) : ℚ := r.active i / r.weight i

lemma weight_pos (r : Roster) (i : ℕ) : 0 < r.weight i := by
  unfold weight
  cases r.members[i]? with
  | none => exact Nat.one_pos
  | some m => exact Nat.le_max_right _ _

lemma heavier_iff (r : Roster) (a b : ℕ) : r.heavier a b ↔ r.load b < r.load a := by
  have ha : (0 : ℚ) < r.weight a := by exact_mod_cast r.weight_pos a
  have hb : (0 : ℚ) < r.weight b := by exact_mod_cast r.weight_pos b
  rw [heavier, decide_eq_true_eq, load, load, div_lt_div_iff₀ hb ha]
  exact_mod_cast Iff.rfl

def choices (balance : Balance) (eligible : List ℕ) : UInt64 → List (List Seen) → List (Option ℕ)
  | _, [] => []
  | next, members :: rest =>
    let chosen := choose ⟨balance, members, next⟩ eligible
    chosen.1 :: choices balance eligible chosen.2 rest

variable {eligible : List ℕ}

lemma choose_roundRobin (hne : eligible ≠ []) {w : ℕ → ℕ} {members : List Seen} {next : UInt64}
    (hw : ∀ i ∈ eligible, weight ⟨.roundRobin, members, next⟩ i = w i) :
    choose ⟨.roundRobin, members, next⟩ eligible =
      (turn w eligible (next.toNat % (eligible.map w).sum), next + 1) := by
  have hsum : (eligible.map (weight ⟨.roundRobin, members, next⟩)).sum = (eligible.map w).sum := by
    rw [map_congr_left hw]
  have hpos : 0 < (eligible.map w).sum := by
    rw [← hsum]
    obtain ⟨i, hi⟩ := exists_mem_of_ne_nil _ hne
    exact (weight_pos _ i).trans_le (le_sum_of_mem (mem_map_of_mem hi))
  have hsome := turn_isSome w (Nat.mod_lt next.toNat hpos)
  rw [choose, if_neg hne]
  simp only [hsum, turn_congr hw, Option.or_of_isSome hsome]

lemma choices_roundRobin (hne : eligible ≠ []) {w : ℕ → ℕ} {next : UInt64}
    {states : List (List Seen)}
    (hw : ∀ members ∈ states, ∀ i ∈ eligible, ∀ n, weight ⟨.roundRobin, members, n⟩ i = w i)
    (hwrap : next.toNat + states.length ≤ 2 ^ 64) :
    choices .roundRobin eligible next states =
      (List.range' next.toNat states.length).map fun n =>
        turn w eligible (n % (eligible.map w).sum) := by
  induction states generalizing next with
  | nil => rfl
  | cons members rest ih =>
    rw [choices, choose_roundRobin hne fun i hi => hw members mem_cons_self i hi next]
    rw [length_cons] at hwrap ⊢
    rw [range'_succ]
    cases rest with
    | nil => rfl
    | cons members' rest' =>
      have hnext : (next + 1).toNat = next.toNat + 1 := by
        rw [length_cons] at hwrap
        exact Nat.mod_eq_of_lt (by simp; omega)
      rw [← hnext]
      refine congrArg _ (ih (fun ms hms => hw ms (mem_cons_of_mem _ hms)) ?_)
      show (next + 1).toNat + _ ≤ _
      omega

end Roster

/-- **Weighted round robin is exact, and the fewest connections are by weight.** In as many calls as
the weights sum up to, without a wrap of the counter, each target is chosen as often as its weight;
among the fewest connections the least load, first in the rotation, is chosen. -/
theorem choose_exact (eligible : List ℕ) (hne : eligible ≠ []) :
    (∀ (w : ℕ → ℕ) (next : UInt64) (states : List (List Seen)),
      (∀ members ∈ states, ∀ i ∈ eligible, ∀ n, Roster.weight ⟨.roundRobin, members, n⟩ i = w i) →
      states.length = (eligible.map w).sum → next.toNat + states.length ≤ 2 ^ 64 →
      (∀ i, (Roster.choices .roundRobin eligible next states).count (some i) =
        eligible.count i * w i) ∧
      (eligible.Nodup → ∀ i ∈ eligible,
        (Roster.choices .roundRobin eligible next states).count (some i) = w i)) ∧
    ∀ r : Roster, r.balance = .leastConn →
      ∃ i before rest, (r.choose eligible).1 = some i ∧
        eligible.rotate (r.next.toNat % eligible.length) = before ++ i :: rest ∧
        (∀ j ∈ eligible, r.load i ≤ r.load j) ∧ ∀ j ∈ before, r.load i < r.load j := by
  constructor
  · intro w next states hw hlen hwrap
    have hcount : ∀ i, (Roster.choices .roundRobin eligible next states).count (some i) =
        eligible.count i * w i := by
      intro i
      rw [Roster.choices_roundRobin hne hw hwrap, hlen, List.count, countP_map,
        ← countP_turn_window w eligible i next.toNat]
      refine countP_congr fun n _ => ?_
      simp
    refine ⟨hcount, fun hnodup i hi => ?_⟩
    rw [hcount, count_eq_one_of_mem hnodup hi, Nat.one_mul]
  intro r hr
  have hrotate : eligible.drop (r.next.toNat % eligible.length) ++
      eligible.take (r.next.toNat % eligible.length) =
        eligible.rotate (r.next.toNat % eligible.length) :=
    (rotate_eq_drop_append_take (Nat.mod_lt _ (length_pos_iff.mpr hne)).le).symm
  have hchoose : (r.choose eligible).1 =
      minBy r.heavier (eligible.rotate (r.next.toNat % eligible.length)) := by
    rw [Roster.choose, if_neg hne, hr, ← hrotate]
  obtain ⟨i, before, rest, hmin, heq, hbefore, hrest⟩ :=
    minBy_eq_some r.load (l := eligible.rotate (r.next.toNat % eligible.length))
      (fun x _ y _ => r.heavier_iff x y) (mt rotate_eq_nil_iff.mp hne)
  refine ⟨i, before, rest, hchoose.trans hmin, heq, fun j hj => ?_, hbefore⟩
  have hmem : j ∈ before ++ i :: rest := heq ▸ mem_rotate.mpr hj
  rcases mem_append.mp hmem with hb | hr
  · exact (hbefore j hb).le
  rcases mem_cons.mp hr with rfl | hr
  · exact le_rfl
  · exact hrest j hr

def threeToOne : List Seen :=
  [⟨⟨"10.0.0.1", 80, some 3, false, none⟩, 2, true⟩, ⟨⟨"10.0.0.2", 80, none, false, none⟩, 1, true⟩]

theorem choose_exact_of_threeToOne :
    (Roster.choices .roundRobin [0, 1] 6 (List.replicate 4 threeToOne)).count (some 0) = 3 ∧
      ∃ i before rest, (Roster.choose ⟨.leastConn, threeToOne, 7⟩ [0, 1]).1 = some i ∧
        [0, 1].rotate 1 = before ++ i :: rest ∧
        (∀ j ∈ [0, 1], Roster.load ⟨.leastConn, threeToOne, 7⟩ i ≤
          Roster.load ⟨.leastConn, threeToOne, 7⟩ j) ∧
        ∀ j ∈ before, Roster.load ⟨.leastConn, threeToOne, 7⟩ i <
          Roster.load ⟨.leastConn, threeToOne, 7⟩ j := by
  obtain ⟨hround, hleast⟩ := choose_exact [0, 1] (by decide)
  refine ⟨?_, hleast ⟨.leastConn, threeToOne, 7⟩ rfl⟩
  refine (hround (fun i => if i = 0 then 3 else 1) 6 (List.replicate 4 threeToOne) ?_ (by decide)
    (by decide)).2 (by decide) 0 (by decide)
  intro members hmembers i hi n
  rw [eq_of_mem_replicate hmembers]
  rcases mem_cons.mp hi with rfl | hi
  · rfl
  rw [mem_singleton.mp hi]
  rfl

end Rproxy.Balancing
