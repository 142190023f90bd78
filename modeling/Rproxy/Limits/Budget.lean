import Rproxy.Data.Holders
import Rproxy.Programs.Runs
import Rproxy.Rule.Targets

/-!
# The budget of file descriptors

Connections and sessions take descriptors from one budget, as tickets; `IN_USE` counts what is
taken.
-/

namespace Rproxy.Budget

/-! ## The two caps -/

def reserve : ℕ := 1024

def floor : ℕ := 256

def minListeners : ℕ := 256

def fallbackListeners : ℕ := 16384

def saturatingAdd (a b : ℕ) : ℕ := min (a + b) maxU64

def autoListeners : Option ℕ → ℕ
  | some n => max ((n - reserve) / 2) minListeners
  | none => fallbackListeners

def fromNofile (nofile : Option ℕ) (listeners : ℕ) : ℕ :=
  match nofile with
  | some n => if n = maxU64 then maxU64 else max (n - reserve - listeners) floor
  | none => floor

def overcommit (nofile : Option ℕ) (listeners budget : ℕ) : Option ℕ :=
  match nofile with
  | none => none
  | some n =>
    if n = maxU64 then none
    else
      let both := saturatingAdd listeners budget
      -- `checked_sub`, and then only what is positive
      if n - reserve ≤ both ∧ 0 < both - (n - reserve) then some (both - (n - reserve)) else none

/-! ## Tickets -/

structure Try where
  n : UInt64
  /-- `Ticket::force` goes past the limit, into half of the reserve. -/
  forced : Bool
  used : UInt64
deriving DecidableEq

def Try.within (limit : UInt64) (t : Try) : ℕ :=
  if t.forced then saturatingAdd limit.toNat (reserve / 2) else limit.toNat

structure World where
  inUse : UInt64
  tickets : List UInt64
  trying : List Try
deriving DecidableEq

inductive Act where
  /-- `Ticket::take` or `Ticket::force` is called and reads the counter. -/
  | load (n : UInt64) (forced : Bool)
  /-- The `compare_exchange_weak` of a call, which may fail without reason. -/
  | exchange (i : ℕ) (spurious : Bool)
  | keep (i : ℕ) (n : UInt64)
  | drop (i : ℕ)
deriving DecidableEq

namespace World

def new : World := ⟨0, [], []⟩

/-- One step of a call of `reserve`: it gives up, it takes, or it has seen the counter again. -/
def exchange (limit : UInt64) (w : World) (i : ℕ) (spurious : Bool) (t : Try) : World :=
  -- `checked_add`, and then only what is within the limit
  if ¬ (t.used.toNat + t.n.toNat ≤ maxU64 ∧ t.used.toNat + t.n.toNat ≤ t.within limit) then
    { w with trying := w.trying.eraseIdx i }
  else if w.inUse = t.used ∧ ¬ spurious then
    ⟨t.used + t.n, w.tickets ++ [t.n], w.trying.eraseIdx i⟩
  else { w with trying := w.trying.set i { t with used := w.inUse } }

def step (limit : UInt64) (w : World) : Act → World
  | .load n forced => { w with trying := w.trying ++ [⟨n, forced, w.inUse⟩] }
  | .exchange i spurious =>
    match w.trying[i]? with
    | some t => w.exchange limit i spurious t
    | none => w
  | .keep i n =>
    match w.tickets[i]? with
    | some m =>
      if n < m then { w with inUse := w.inUse - (m - n), tickets := w.tickets.set i n } else w
    | none => w
  | .drop i =>
    match w.tickets[i]? with
    | some m => { w with inUse := w.inUse - m, tickets := w.tickets.eraseIdx i }
    | none => w

def held (w : World) : ℕ := (w.tickets.map UInt64.toNat).sum

lemma le_held {w : World} {i : ℕ} {m : UInt64} (hm : w.tickets[i]? = some m) :
    m.toNat ≤ w.held := by
  rw [held, ← Holders.sum_eraseIdx_add UInt64.toNat hm]
  exact Nat.le_add_left _ _

lemma exchange_cases (limit : UInt64) (w : World) (i : ℕ) (spurious : Bool) (t : Try) :
    (w.exchange limit i spurious t).tickets = w.tickets ∧
        (w.exchange limit i spurious t).inUse = w.inUse ∨
      (w.exchange limit i spurious t).tickets = w.tickets ++ [t.n] ∧
        (w.exchange limit i spurious t).inUse.toNat = w.inUse.toNat + t.n.toNat ∧
        w.inUse.toNat + t.n.toNat ≤ t.within limit := by
  unfold exchange
  split
  · exact .inl ⟨rfl, rfl⟩
  rename_i hfits
  obtain ⟨hmax, hwithin⟩ := not_not.mp hfits
  split
  · rename_i hsame
    rw [hsame.1]
    refine .inr ⟨rfl, ?_, hwithin⟩
    rw [UInt64.toNat_add]
    exact Nat.mod_eq_of_lt (by rw [maxU64] at hmax; omega)
  · exact .inl ⟨rfl, rfl⟩

lemma held_step {limit : UInt64} {w : World} (h : w.held = w.inUse.toNat) (a : Act) :
    (w.step limit a).held = (w.step limit a).inUse.toNat := by
  cases a with
  | load n forced => exact h
  | exchange i spurious =>
    rw [step]
    split
    · rename_i t _
      rcases w.exchange_cases limit i spurious t with ⟨htickets, huse⟩ | ⟨htickets, huse, -⟩
      · rw [held, htickets, huse]
        exact h
      rw [held, htickets, huse, List.map_append, List.sum_append, ← h]
      rfl
    · exact h
  | keep i n =>
    rw [step]
    split
    · rename_i m hm
      split
      · rename_i hlt
        have hle := le_held hm
        have hset := Holders.sum_set_add UInt64.toNat n hm
        have hdiff : (m - n).toNat = m.toNat - n.toNat :=
          UInt64.toNat_sub_of_le _ _ (UInt64.le_of_lt hlt)
        have huse : (w.inUse - (m - n)).toNat = w.inUse.toNat - (m - n).toNat :=
          UInt64.toNat_sub_of_le _ _ (by rw [UInt64.le_iff_toNat_le]; omega)
        have hlt' := UInt64.lt_iff_toNat_lt.mp hlt
        show ((w.tickets.set i n).map UInt64.toNat).sum = (w.inUse - (m - n)).toNat
        rw [held] at h hle
        omega
      · exact h
    · exact h
  | drop i =>
    rw [step]
    split
    · rename_i m hm
      have hle := le_held hm
      have herase := Holders.sum_eraseIdx_add UInt64.toNat hm
      have huse : (w.inUse - m).toNat = w.inUse.toNat - m.toNat :=
        UInt64.toNat_sub_of_le _ _ (by rw [UInt64.le_iff_toNat_le]; omega)
      show ((w.tickets.eraseIdx i).map UInt64.toNat).sum = (w.inUse - m).toNat
      rw [held] at h hle
      omega
    · exact h

end World

lemma overcommit_eq {n : ℕ} (hn : n < maxU64) (listeners budget : ℕ) :
    overcommit (some n) listeners budget =
      if n - reserve < saturatingAdd listeners budget then
        some (saturatingAdd listeners budget - (n - reserve))
      else none := by
  have hiff : (n - reserve ≤ saturatingAdd listeners budget ∧
      0 < saturatingAdd listeners budget - (n - reserve)) ↔
        n - reserve < saturatingAdd listeners budget := by omega
  rw [overcommit, if_neg hn.ne]
  simp only [hiff]

lemma autoListeners_add {n : ℕ} (hn : 1536 ≤ n) (hmax : n < maxU64) :
    autoListeners (some n) + fromNofile (some n) (autoListeners (some n)) = n - reserve := by
  have hauto : autoListeners (some n) = (n - reserve) / 2 := by
    exact Nat.max_eq_left (by unfold minListeners reserve; omega)
  have hbudget : fromNofile (some n) ((n - reserve) / 2) = n - reserve - (n - reserve) / 2 := by
    rw [fromNofile, if_neg hmax.ne]
    exact Nat.max_eq_left (by unfold floor reserve; omega)
  rw [hauto]
  omega

/-- **The budget holds.** The counter is the sum of what the live tickets hold, and a call that
takes one leaves it within the limit, or within 512 beyond it for `force`. For every file limit from
1536 on the automatic cap and the budget together are the limit less the reserve, without
`overcommit`; and in general `overcommit` is what they are more than that, as far as a `u64` goes.
-/
theorem budget_holds (limit : UInt64) : (∀ acts : List Act,
      (after (World.step limit) .new acts).held = (after (World.step limit) .new acts).inUse.toNat ∧
      ∀ i spurious t, (after (World.step limit) .new acts).trying[i]? = some t →
        ((after (World.step limit) .new acts).step limit (.exchange i spurious)).tickets ≠
          (after (World.step limit) .new acts).tickets →
        ((after (World.step limit) .new acts).step limit (.exchange i spurious)).inUse.toNat ≤
          if t.forced then limit.toNat + 512 else limit.toNat) ∧
    (∀ n, 1536 ≤ n → n < maxU64 →
      autoListeners (some n) + fromNofile (some n) (autoListeners (some n)) = n - 1024 ∧
      overcommit (some n) (autoListeners (some n))
        (fromNofile (some n) (autoListeners (some n))) = none) ∧
    ∀ n < maxU64, ∀ listeners budget,
      overcommit (some n) listeners budget =
        if n - 1024 < min (listeners + budget) maxU64 then
          some (min (listeners + budget) maxU64 - (n - 1024))
        else none := by
  refine ⟨fun acts => ?_, fun n hn hmax => ?_, fun n hmax listeners budget =>
    overcommit_eq hmax listeners budget⟩
  · obtain ⟨w, hw⟩ : ∃ w, after (World.step limit) .new acts = w := ⟨_, rfl⟩
    rw [hw]
    refine ⟨hw ▸ after_invariant (I := fun w : World => w.held = w.inUse.toNat) acts rfl
      fun _ a h => World.held_step h a, fun i spurious t ht hmore => ?_⟩
    have hstep : w.step limit (.exchange i spurious) = w.exchange limit i spurious t := by
      rw [World.step, ht]
    rw [hstep] at hmore ⊢
    rcases w.exchange_cases limit i spurious t with ⟨hsame, -⟩ | ⟨-, huse, hwithin⟩
    · exact absurd hsame hmore
    rw [huse]
    refine hwithin.trans ?_
    unfold Try.within saturatingAdd reserve
    split
    · exact Nat.min_le_left _ _
    · exact Nat.le_refl _
  have hadd := autoListeners_add hn hmax
  refine ⟨hadd, ?_⟩
  rw [overcommit_eq hmax, if_neg]
  rw [saturatingAdd]
  omega

/-- Without a file limit the two caps are no shares of it; and an excess beyond `u64` is not told
exactly. -/
theorem caps_at_the_bounds :
    autoListeners (some maxU64) + fromNofile (some maxU64) (autoListeners (some maxU64)) ≠
        maxU64 - 1024 ∧
      overcommit (some 2000) maxU64 (fromNofile (some 2000) maxU64) ≠
        some (maxU64 + fromNofile (some 2000) maxU64 - (2000 - 1024)) := by
  decide

end Rproxy.Budget
