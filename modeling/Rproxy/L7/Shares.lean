import Rproxy.L7.Picks

/-!
# How often round robin picks each server

A pick takes values of the counter until one falls on a server that may be taken, so the values of a
run are used up in order, and each that falls on a usable server is one pick of it.
-/

namespace Rproxy.Upstream
open List Option Turns Service Nat
namespace Service
variable {s : Service}
variable {next : UInt64} {first : ℕ}

/-! ## One pick -/

def taken (s : Service) : ℕ → UInt64 → ℕ
  | 0, _ => 0
  | k + 1, next =>
    if (s.turnOf (next.toNat % s.totalWeight)).any s.usableAt then 1
    else s.taken k (next + 1) + 1

lemma map_weight (s : Service) :
    (List.range s.servers.length).map s.weight = s.servers.map Server.weight := by
  refine ext_getElem (by simp) fun i hi _ => ?_
  rw [length_map, length_range] at hi
  simp [weight, hi]

lemma exists_turnOf (s : Service) (n : ℕ) : ∃ i, s.turnOf (n % s.totalWeight) = some i := by
  refine isSome_iff_exists.mp (turn_isSome _ ?_)
  rw [map_weight]
  refine mod_lt _ ?_
  obtain ⟨v, hv⟩ := exists_mem_of_ne_nil _ s.servers_ne
  exact v.weight_pos.trans_le (le_sum_of_mem (mem_map_of_mem hv))

lemma draws_succ (k : ℕ) (next : UInt64) : s.draws (k + 1) next =
      if (s.turnOf (next.toNat % s.totalWeight)).any s.usableAt then
        (s.turnOf (next.toNat % s.totalWeight), next + 1)
      else s.draws k (next + 1) := by
  obtain ⟨i, hi⟩ := s.exists_turnOf next.toNat
  simp only [draws, hi, any_some]

lemma draws_next (k : ℕ) (next : UInt64) :
    (s.draws k next).2.toNat = (next.toNat + s.taken k next) % 2 ^ 64 := by
  induction k generalizing next with
  | zero => exact (mod_eq_of_lt next.toNat_lt).symm
  | succ k ih =>
    have hnext : (next + 1).toNat = (next.toNat + 1) % 2 ^ 64 := UInt64.toNat_add next 1
    rw [draws_succ, taken]
    split
    · exact hnext
    rw [ih, hnext, mod_add_mod]
    congr 1
    omega

lemma range'_next {t : ℕ} (hwrap : next.toNat + (t + 1) ≤ 2 ^ 64) :
    List.range' next.toNat (t + 1) = next.toNat :: List.range' (next + 1).toNat t := by
  rw [range'_succ]
  cases t with
  | zero => rfl
  | succ t =>
    have hnext : (next + 1).toNat = next.toNat + 1 := by
      exact mod_eq_of_lt (by simp; omega)
    rw [hnext]

lemma countP_taken {k : ℕ} (hwrap : next.toNat + s.taken k next ≤ 2 ^ 64) {i : ℕ}
    (hi : s.usableAt i) :
    (List.range' next.toNat (s.taken k next)).countP
        (fun c => s.turnOf (c % s.totalWeight) = some i) =
      if (s.draws k next).1 = some i then 1 else 0 := by
  induction k generalizing next with
  | zero => rfl
  | succ k ih =>
    obtain ⟨j, hj⟩ := s.exists_turnOf next.toNat
    by_cases husable : s.usableAt j
    · have htaken : s.taken (k + 1) next = 1 := by
        rw [taken, hj, any_some, if_pos husable]
      have hdraws : (s.draws (k + 1) next).1 = some j := by
        rw [draws_succ, hj, any_some, if_pos husable]
      rw [htaken, hdraws, range'_one, countP_singleton, hj]
      simp
    have htaken : s.taken (k + 1) next = s.taken k (next + 1) + 1 := by
      rw [taken, hj, any_some, if_neg husable]
    have hdraws : s.draws (k + 1) next = s.draws k (next + 1) := by
      rw [draws_succ, hj, any_some, if_neg husable]
    rw [htaken] at hwrap ⊢
    rw [hdraws, range'_next hwrap, countP_cons, ih, hj]
    · have hne : j ≠ i := fun heq => husable (heq ▸ hi)
      simp [hne]
    have hle : (next + 1).toNat ≤ next.toNat + 1 := by
      exact mod_le _ _
    omega

lemma draws_eq_none {k : ℕ} (hnone : (s.draws k next).1 = none) : s.taken k next = k ∧
      (next.toNat + k ≤ 2 ^ 64 → ∀ c ∈ List.range' next.toNat k, ∀ i,
        s.turnOf (c % s.totalWeight) = some i → ¬ s.usableAt i) := by
  induction k generalizing next with
  | zero => exact ⟨rfl, fun _ => nofun⟩
  | succ k ih =>
    obtain ⟨j, hj⟩ := s.exists_turnOf next.toNat
    rw [draws_succ, hj, any_some] at hnone
    rw [taken, hj, any_some]
    split at hnone
    · cases hnone
    rename_i husable
    obtain ⟨htaken, hall⟩ := ih hnone
    rw [if_neg husable, htaken]
    refine ⟨rfl, fun hwrap c hc i hci => ?_⟩
    rw [range'_next hwrap] at hc
    rcases mem_cons.mp hc with rfl | hc
    · rwa [← Option.some.inj (hj.symm.trans hci)]
    have hle : (next + 1).toNat ≤ next.toNat + 1 := by
      exact mod_le _ _
    exact hall (by omega) c hc i hci

/-! ## Runs of picks -/

def picks : UInt64 → List Service → List (Option ℕ)
  | _, [] => []
  | next, s :: rest => (s.pick none next).1 :: picks (s.pick none next).2 rest

def advance : UInt64 → List Service → ℕ
  | _, [] => 0
  | next, s :: rest =>
    s.taken (s.servers.length * 4) next + advance (s.pick none next).2 rest

def scans : UInt64 → List Service → ℕ
  | _, [] => 0
  | next, s :: rest =>
    (if (s.draws (s.servers.length * 4) next).1 = none then 1 else 0) +
      scans (s.pick none next).2 rest

def turnIn (weights : List ℕ) (n : ℕ) : Option ℕ :=
  turn (fun i => weights.getD i 0) (List.range weights.length) n

structure Alike (weights : List ℕ) (mayTake : ℕ → Bool) (s : Service) : Prop where
  roundRobin : s.balance = .roundRobin
  weights : s.servers.map Server.weight = weights
  usable : ∀ i, s.usableAt i = mayTake i

namespace Alike
variable {weights : List ℕ} {mayTake : ℕ → Bool}
section
variable (h : Alike weights mayTake s)
include h

lemma length : s.servers.length = weights.length := by
  rw [← h.weights, length_map]

lemma totalWeight : s.totalWeight = weights.sum := by
  rw [Service.totalWeight, h.weights]

lemma turnOf (n : ℕ) : s.turnOf n = turnIn weights n := by
  rw [Service.turnOf, h.length]
  refine turn_congr (fun i _ => ?_) n
  rw [weight, ← h.weights, getD_eq_getElem?_getD, getElem?_map]
  cases s.servers[i]? <;> rfl

lemma scan (hfirst : mayTake first) (hleast : ∀ j < first, mayTake j = false) :
    s.servers.findIdx? s.usable = some first := by
  have husable : ∀ {i : ℕ} (hi : i < s.servers.length),
      s.usable s.servers[i] = mayTake i := fun hi => by
    rw [← h.usable, usableAt, getElem?_eq_getElem hi, any_some]
  have hlt : first < s.servers.length := by
    by_contra hge
    rw [← h.usable, usableAt, getElem?_eq_none (by omega)] at hfirst
    cases hfirst
  refine findIdx?_eq_some_iff_getElem.mpr ⟨hlt, (husable hlt).trans hfirst, fun j hj => ?_⟩
  rw [husable (hj.trans hlt), hleast j hj]
  exact Bool.false_ne_true

lemma pick (hfirst : mayTake first) (hleast : ∀ j < first, mayTake j = false) (next : UInt64) :
    s.pick none next =
      ((s.draws (s.servers.length * 4) next).1.or (some first),
        (s.draws (s.servers.length * 4) next).2) := by
  rw [Service.pick, h.roundRobin]
  rw [draw]
  cases hdraws : s.draws (s.servers.length * 4) next with
  | mk drawn next' =>
    cases drawn with
    | some i => rfl
    | none =>
      rw [h.scan hfirst hleast]
      rfl

end
end Alike

variable {states : List Service} {mayTake : ℕ → Bool} {weights : List ℕ}

/-- **A run of picks**: each usable server is picked once for each value that falls on it, the first
for each scan too. -/
theorem count_picks (hfirst : mayTake first) (hleast : ∀ j < first, mayTake j = false)
    (halike : ∀ s ∈ states, Alike weights mayTake s)
    (hwrap : next.toNat + advance next states ≤ 2 ^ 64) {i : ℕ} (hi : mayTake i) :
    (picks next states).count (some i) =
      (List.range' next.toNat (advance next states)).countP
          (fun c => turnIn weights (c % weights.sum) = some i) +
        if i = first then scans next states else 0 := by
  induction states generalizing next with
  | nil => simp [picks, advance, scans]
  | cons s rest ih =>
    have hs := halike s mem_cons_self
    have hpick := hs.pick hfirst hleast next
    obtain ⟨t, ht⟩ : ∃ t, s.taken (s.servers.length * 4) next = t := ⟨_, rfl⟩
    obtain ⟨next', hnext'⟩ : ∃ next', (s.draws (s.servers.length * 4) next).2 = next' := ⟨_, rfl⟩
    have hadvance : advance next (s :: rest) = t + advance next' rest := by
      rw [advance, hpick, hnext', ht]
    rw [hadvance] at hwrap ⊢
    have hcount : (List.range' next.toNat t).countP
          (fun c => turnIn weights (c % weights.sum) = some i) =
        if (s.draws (s.servers.length * 4) next).1 = some i then 1 else 0 := by
      have hwrap' : next.toNat + s.taken (s.servers.length * 4) next ≤ 2 ^ 64 := by omega
      rw [← countP_taken hwrap' ((hs.usable i).trans hi), ht]
      simp only [hs.turnOf, hs.totalWeight]
    -- the rest goes on with the value after the last one taken
    have hrest : List.range' next.toNat (t + advance next' rest) =
        List.range' next.toNat t ++ List.range' next'.toNat (advance next' rest) := by
      rw [← range'_append_1]
      have htoNat := s.draws_next (s.servers.length * 4) next
      rw [hnext', ht] at htoNat
      cases hzero : advance next' rest with
      | zero => rfl
      | succ n => rw [htoNat, mod_eq_of_lt (by omega)]
    have hle : next'.toNat + advance next' rest ≤ 2 ^ 64 := by
      have htoNat := s.draws_next (s.servers.length * 4) next
      rw [hnext'] at htoNat
      omega
    rw [hrest, countP_append, hcount, picks, scans, hpick, hnext', count_cons,
      ih (fun s' hs' => halike s' (mem_cons_of_mem _ hs')) hle]
    cases hdrawn : (s.draws (s.servers.length * 4) next).1 with
    | some j =>
      simp only [some_or, reduceCtorEq, if_false, Nat.zero_add, beq_iff_eq]
      omega
    | none =>
      simp only [none_or, reduceCtorEq, if_false, if_true, beq_iff_eq, Option.some.injEq]
      by_cases heq : i = first
      · rw [if_pos heq, if_pos heq, if_pos heq.symm]
        omega
      rw [if_neg heq, if_neg heq, if_neg (Ne.symm heq)]
      omega

lemma scans_eq_zero (hfirst : mayTake first) (hleast : ∀ j < first, mayTake j = false)
    (halike : ∀ s ∈ states, Alike weights mayTake s)
    (hwrap : next.toNat + advance next states ≤ 2 ^ 64)
    (hdense : ∀ c, ∃ d < weights.length * 4, (turnIn weights ((c + d) % weights.sum)).any mayTake) :
    scans next states = 0 := by
  induction states generalizing next with
  | nil => rfl
  | cons s rest ih =>
    have hs := halike s mem_cons_self
    rw [advance, hs.pick hfirst hleast next] at hwrap
    have htoNat := s.draws_next (s.servers.length * 4) next
    rw [scans, hs.pick hfirst hleast next,
      ih (fun s' hs' => halike s' (mem_cons_of_mem _ hs')) (by rw [htoNat]; omega)]
    split
    · rename_i hnone
      obtain ⟨htaken, hall⟩ := draws_eq_none hnone
      obtain ⟨d, hd, hany⟩ := hdense next.toNat
      obtain ⟨i, hi, hmay⟩ := (any_eq_true _ _).mp hany
      rw [← hs.length] at hd
      refine absurd ((hs.usable i).trans hmay) (hall (by omega) (next.toNat + d) ?_ i ?_)
      · rw [mem_range'_1]
        omega
      · rw [hs.turnOf, hs.totalWeight, hi]
    · rfl

end Service

/-- **Round robin picks by weight while servers are down, but for its scans.** In a run of picks
without a cookie that takes the counter `k` times round without a wrap, with the same servers to be
taken, each is picked `k` times its weight, and the first once more for each pick whose draws all
failed; there is none if any four times as many values in a row as servers have one of them. -/
theorem picks_by_weight (weights : List ℕ) (mayTake : ℕ → Bool) (first : ℕ) (hfirst : mayTake first)
    (hleast : ∀ j < first, mayTake j = false) (next : UInt64) (states : List Service)
    (halike : ∀ s ∈ states, Service.Alike weights mayTake s) (k : ℕ)
    (hround : advance next states = k * weights.sum)
    (hwrap : next.toNat + k * weights.sum ≤ 2 ^ 64) :
    (∀ i, mayTake i → i < weights.length →
      (picks next states).count (some i) =
        k * weights.getD i 0 + if i = first then scans next states else 0) ∧
    ((∀ c, ∃ d < weights.length * 4, (turnIn weights ((c + d) % weights.sum)).any mayTake) →
      scans next states = 0) := by
  have hwrap' : next.toNat + advance next states ≤ 2 ^ 64 := by rw [hround]; exact hwrap
  refine ⟨fun i hi hlt => ?_, scans_eq_zero hfirst hleast halike hwrap'⟩
  have hsum : ((List.range weights.length).map fun i => weights.getD i 0).sum = weights.sum := by
    congr 1
    refine ext_getElem (by simp) fun j _ hj => ?_
    simp [hj]
  rw [count_picks hfirst hleast halike hwrap' hi, hround]
  congr 1
  have hwindows := countP_turn_windows (fun i => weights.getD i 0) (List.range weights.length) i
    next.toNat k
  rw [hsum, count_eq_one_of_mem nodup_range (mem_range.mpr hlt), Nat.one_mul] at hwindows
  exact hwindows

def firstDown (weight : ℕ) (hpos : 0 < weight) (others : ℕ) : Service :=
  ⟨.roundRobin,
    ⟨"down", weight, 0, 0, false, false, hpos⟩ ::
      List.replicate others ⟨"up", 1, 0, 0, true, false, Nat.one_pos⟩, cons_ne_nil _ _⟩

theorem picks_by_weight_of_firstDown :
    (picks 0 [firstDown 3 (by decide) 1]).count (some 1) = 1 := by
  have halike : Service.Alike [3, 1] (fun i => i = 1) (firstDown 3 (by decide) 1) := by
    refine ⟨rfl, rfl, fun i => ?_⟩
    match i with
    | 0 | 1 => rfl
    | i + 2 => simp [usableAt, firstDown]
  have h := (picks_by_weight [3, 1] (fun i => i = 1) 1 (by decide) (by decide) 0
    [firstDown 3 (by decide) 1] (fun s hs => mem_singleton.mp hs ▸ halike) 1 (by decide +kernel)
    (by decide)).1 1 (by decide) (by decide)
  rw [h]
  decide +kernel

/-- Once round beside a server of weight 100 that is down, the first of two servers of weight 1 is
picked nine times. -/
theorem scans_beside_turns : advance 0 (List.replicate 10 (firstDown 100 (by decide) 2)) =
        1 * (firstDown 100 (by decide) 2).totalWeight ∧
      (picks 0 (List.replicate 10 (firstDown 100 (by decide) 2))).count (some 1) = 9 ∧
      (picks 0 (List.replicate 10 (firstDown 100 (by decide) 2))).count (some 2) = 1 ∧
      (firstDown 100 (by decide) 2).weight 1 = 1 := by
  decide +kernel

end Rproxy.Upstream
