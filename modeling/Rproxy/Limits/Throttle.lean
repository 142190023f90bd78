import Rproxy.Data.Total

/-!
# Log lines that a throttle leaves out

A `Throttle` limits the log lines of each key, of its group and of all keys. A line it leaves out is
counted with its key, or in `overflow` without room for the key, and the count goes into the key's
next line or into the report of a sweep. What the buckets answer is left open; the counts, `u64`,
are numbers.
-/

namespace Rproxy.Logging
open List Table

class ThrottleKey (K : Type) where
  canonical : K → K
  group : K → Option K

/-- The token bucket, with the numbers `F` of its burst and its rate. -/
structure Buckets (F B : Type) where
  full : F → ℕ → B
  ready : F → F → ℕ → B → B × Bool
  spend : B → B
  idle : F → F → ℕ → B → Bool
  lastSeen : B → ℕ
  groupFactor : F → F

structure Seen (B : Type) where
  bucket : B
  skipped : ℕ

structure State (K B : Type) where
  keys : Table K (Seen B)
  groups : Table K B
  swept : Option ℕ
  overflow : ℕ

structure Dropped where
  sources : ℕ
  lines : ℕ
  overflow : ℕ

def sweepEvery : ℕ := 1000000000

def maxAge : ℕ := 60000000000

structure Throttle (F B : Type) where
  buckets : Buckets F B
  burst : F
  perSec : F
  maxKeys : ℕ

/-- A call of `check_at` with what the global bound answers for a new or a known source. -/
structure Call (K : Type) where
  key : K
  now : ℕ
  take : Bool → Bool

variable {K F B : Type} [DecidableEq K] (th : Throttle F B) (t : State K B)
namespace Throttle

def groupBurst : F := th.buckets.groupFactor th.burst

def groupPerSec : F := th.buckets.groupFactor th.perSec

def isOld (now : ℕ) (s : Seen B) : Bool :=
  s.skipped ≠ 0 && maxAge ≤ now - th.buckets.lastSeen s.bucket

def stays (now : ℕ) (s : Seen B) : Bool :=
  if s.skipped = 0 then !th.buckets.idle th.burst th.perSec now s.bucket
  else now - th.buckets.lastSeen s.bucket < maxAge

def sweep (now : ℕ) : State K B × Dropped :=
  if t.swept.all fun last => sweepEvery ≤ now - last then
    let old := t.keys.pairs.filter fun e => th.isOld now e.2
    ({ keys := t.keys.retain fun _ s => th.stays now s
       groups := t.groups.retain fun _ b => !th.buckets.idle th.groupBurst th.groupPerSec now b
       swept := some now
       overflow := 0 },
     { sources := old.length
       lines := (old.map fun e => e.2.skipped).sum
       overflow := t.overflow })
  else (t, ⟨0, 0, 0⟩)

/-- The groups with `g`, if there is room for it. -/
def withGroup (now : ℕ) (g : K) : Table K B :=
  if (t.groups.lookup g).isNone ∧ t.groups.pairs.length < th.maxKeys then
    t.groups.insert g (th.buckets.full th.groupBurst now)
  else t.groups

def askGroup (now : ℕ) : Option K → State K B × Bool
  | none => (t, true)
  | some g =>
    match (th.withGroup t now g).lookup g with
    | none => ({ t with groups := th.withGroup t now g }, true)
    | some b =>
      let (b, ready) := th.buckets.ready th.groupBurst th.groupPerSec now b
      ({ t with groups := (th.withGroup t now g).insert g b }, ready)

def write (key : K) (now : ℕ) (take : Bool → Bool) (groupReady : Bool) :
    State K B × Option ℕ :=
  let seen := t.keys.lookup key
  if seen.isNone ∧ th.maxKeys ≤ t.keys.pairs.length then
    -- no room to remember it: only the global bound's share for new sources
    if groupReady && take true then (t, some 0) else ({ t with overflow := t.overflow + 1 }, none)
  else
    let entry := seen.getD ⟨th.buckets.full th.burst now, 0⟩
    let (bucket, ready) := th.buckets.ready th.burst th.perSec now entry.bucket
    if ready && groupReady && take seen.isNone then
      ({ t with keys := t.keys.insert key ⟨th.buckets.spend bucket, 0⟩ }, some entry.skipped)
    else ({ t with keys := t.keys.insert key ⟨bucket, entry.skipped + 1⟩ }, none)

def spendGroup (group : Option K) (written : Option ℕ) : State K B :=
  match written.bind fun _ => group with
  | none => t
  | some g =>
    match t.groups.lookup g with
    | none => t
    | some b => { t with groups := t.groups.insert g (th.buckets.spend b) }

variable [ThrottleKey K]

def checkAt (c : Call K) : State K B × Option ℕ × Dropped :=
  let key := ThrottleKey.canonical c.key
  let group := ThrottleKey.group key
  let (t, dropped) := th.sweep t c.now
  let (t, groupReady) := th.askGroup t c.now group
  let (t, written) := th.write t key c.now c.take groupReady
  (th.spendGroup t group written, written, dropped)

def run : State K B → List (Call K) → State K B × List (Option ℕ × Dropped)
  | t, [] => (t, [])
  | t, c :: calls =>
    let (t, answer) := th.checkAt t c
    let (t, answers) := run t calls
    (t, answer :: answers)

end Throttle

/-! ## What is counted, and the room -/

def State.new : State K B := ⟨∅, ∅, none, 0⟩

open Seen

/-- The lines left out that are still to be reported. -/
def State.held : ℕ := t.keys.total skipped + t.overflow

variable (n : ℕ)

structure State.Fits : Prop where
  keys : t.keys.pairs.length ≤ n
  groups : t.groups.pairs.length ≤ n

def Dropped.counted (d : Dropped) : ℕ := d.lines + d.overflow

/-- From `t` to `t'` a call wrote its line, or left it out, after the report of `dropped` lines. -/
structure Counted (t t' : State K B) (written : Option ℕ) (dropped : ℕ) : Prop where
  held : t'.held + written.getD 0 + dropped = t.held + if written.isNone then 1 else 0
  fits : t'.Fits n

variable {t n}

omit [DecidableEq K] in
lemma total_isOld (now : ℕ) (keys : Table K (Seen B)) :
    ((keys.pairs.filter fun e => th.isOld now e.2).map fun e => e.2.skipped).sum =
      keys.total fun s => if th.isOld now s then s.skipped else 0 := by
  have h := sum_filter_eq_total keys (fun s => th.isOld now s = true) skipped
  simpa only [Bool.decide_eq_true] using h

open Throttle

lemma held_sweep (now : ℕ) : (th.sweep t now).1.held + (th.sweep t now).2.counted = t.held := by
  rw [sweep]
  split
  · simp only [State.held, Dropped.counted, total_isOld, total_retain]
    -- a key with lines left out stays or is reported
    have hsplit : t.keys.total (fun s => (if th.stays now s then s.skipped else 0) +
        if th.isOld now s then s.skipped else 0) = t.keys.total skipped := by
      refine total_congr fun _ s _ => ?_
      by_cases hzero : s.skipped = 0
      · simp [hzero]
      by_cases hage : now - th.buckets.lastSeen s.bucket < maxAge
      · simp [stays, isOld, hzero, hage]
      · simp [stays, isOld, hzero, hage, Nat.le_of_not_lt hage]
    rw [total_add] at hsplit
    omega
  · rfl

lemma State.Fits.sweep (h : t.Fits n) (now : ℕ) : (th.sweep t now).1.Fits n := by
  rw [Throttle.sweep]
  split
  · exact ⟨(length_retain_le t.keys _).trans h.keys, (length_retain_le t.groups _).trans h.groups⟩
  · exact h

lemma askGroup_spec (h : t.Fits th.maxKeys) (now : ℕ) (group : Option K) :
    (th.askGroup t now group).1.held = t.held ∧ (th.askGroup t now group).1.Fits th.maxKeys := by
  cases group with
  | none => exact ⟨rfl, h⟩
  | some g =>
    have hgroups : (th.withGroup t now g).pairs.length ≤ th.maxKeys := by
      rw [withGroup]
      split
      next hroom => exact (length_insert_le _ _ _).trans hroom.2
      · exact h.groups
    rw [askGroup]
    split
    · exact ⟨rfl, h.keys, hgroups⟩
    next b hb => exact ⟨rfl, h.keys, (length_insert_of_lookup hb _).trans_le hgroups⟩

lemma spendGroup_spec (h : t.Fits n) (group : Option K) (written : Option ℕ) :
    (th.spendGroup t group written).held = t.held ∧ (th.spendGroup t group written).Fits n := by
  unfold spendGroup
  split
  · exact ⟨rfl, h⟩
  split
  · exact ⟨rfl, h⟩
  next b hb => exact ⟨rfl, h.keys, (length_insert_of_lookup hb _).trans_le h.groups⟩

lemma Counted.write (h : t.Fits th.maxKeys) (key : K) (now : ℕ) (take : Bool → Bool)
    (groupReady : Bool) :
    Counted th.maxKeys t (th.write t key now take groupReady).1
      (th.write t key now take groupReady).2 0 := by
  unfold Throttle.write
  extract_lets seen entry
  have hskipped : seen.elim 0 skipped = entry.skipped := by
    cases hseen : seen <;> simp [entry, hseen]
  have hheld (s : Seen B) : total skipped (t.keys.insert key s) + entry.skipped =
      t.keys.total skipped + s.skipped := by
    rw [← hskipped]
    exact total_insert_add skipped t.keys key s
  by_cases hfull : seen.isNone ∧ th.maxKeys ≤ t.keys.pairs.length
  · rw [if_pos hfull]
    split
    · exact ⟨rfl, h⟩
    · exact ⟨rfl, h.keys, h.groups⟩
  rw [if_neg hfull]
  have hlen (s : Seen B) : (pairs (t.keys.insert key s)).length ≤ th.maxKeys := by
    cases hseen : seen with
    | none =>
      have hlt : t.keys.pairs.length < th.maxKeys := by simpa [hseen] using hfull
      exact (length_insert_le _ _ _).trans hlt
    | some s₀ => exact (length_insert_of_lookup hseen s).trans_le h.keys
  rcases th.buckets.ready th.burst th.perSec now entry.bucket with ⟨bucket, ready⟩
  dsimp only
  split
  · refine ⟨?_, hlen _, h.groups⟩
    have := hheld ⟨th.buckets.spend bucket, 0⟩
    simp [State.held] at this ⊢
    omega
  refine ⟨?_, hlen _, h.groups⟩
  have := hheld ⟨bucket, entry.skipped + 1⟩
  simp [State.held] at this ⊢
  omega

open ThrottleKey
variable [ThrottleKey K]

lemma Counted.checkAt (h : t.Fits th.maxKeys) (c : Call K) :
    Counted th.maxKeys t (th.checkAt t c).1 (th.checkAt t c).2.1 (th.checkAt t c).2.2.counted := by
  have hswept := held_sweep th (t := t) c.now
  obtain ⟨hasked, hfits⟩ := askGroup_spec th (h.sweep th c.now) c.now (group (canonical c.key))
  have hwritten := Counted.write th hfits (canonical c.key) c.now c.take
    (th.askGroup (th.sweep t c.now).1 c.now (group (canonical c.key))).2
  obtain ⟨hspent, hfits⟩ := spendGroup_spec th hwritten.fits (group (canonical c.key))
    (th.checkAt t c).2.1
  refine ⟨?_, hfits⟩
  have hheld := hwritten.held
  have hlast : (th.checkAt t c).1.held = _ := hspent
  change _ + (th.checkAt t c).2.1.getD 0 + 0 = _ + (if (th.checkAt t c).2.1.isNone then 1 else 0)
    at hheld
  change _ + _ + (th.sweep t c.now).2.counted = _
  omega

lemma run_counted (h : t.Fits th.maxKeys) (calls : List (Call K)) :
    t.held + (th.run t calls).2.countP (·.1.isNone) =
        ((th.run t calls).2.map (·.1.getD 0)).sum +
          ((th.run t calls).2.map (·.2.counted)).sum + (th.run t calls).1.held ∧
      (th.run t calls).1.Fits th.maxKeys := by
  induction calls generalizing t with
  | nil => exact ⟨by simp [run], h⟩
  | cons c calls ih =>
    have hstep := Counted.checkAt th h c
    obtain ⟨hrun, hfits⟩ := ih hstep.fits
    refine ⟨?_, hfits⟩
    have hheld := hstep.held
    simp only [run, countP_cons, map_cons, sum_cons]
    omega

/-- No line that a throttle leaves out goes uncounted, and its table stays within `max_keys`. -/
theorem suppressed_counted (calls : List (Call K)) :
    let (t, answers) := th.run State.new calls
    answers.countP (·.1.isNone) =
        (answers.map (·.1.getD 0)).sum + (answers.map fun a => a.2.lines + a.2.overflow).sum +
          (t.keys.total skipped + t.overflow) ∧
      t.keys.pairs.length ≤ th.maxKeys ∧ t.groups.pairs.length ≤ th.maxKeys := by
  have hnew : (State.new : State K B).Fits th.maxKeys := ⟨Nat.zero_le _, Nat.zero_le _⟩
  obtain ⟨hcounted, hfits⟩ := run_counted th hnew calls
  refine ⟨?_, hfits.keys, hfits.groups⟩
  have hzero : (State.new : State K B).held = 0 := rfl
  rw [hzero, Nat.zero_add] at hcounted
  exact hcounted

end Rproxy.Logging
