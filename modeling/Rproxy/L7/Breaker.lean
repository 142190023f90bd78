import Rproxy.Data.Holders
import Rproxy.Programs.Runs

/-!
# The circuit breaker

`circuit_breaker` answers requests with 503 for a while when too many responses fail.
-/

namespace Rproxy.Breaker

def minRequests : Nat := 10

inductive Phase where
  | closed
  | opened (deadline : Nat)
  | halfOpen
deriving DecidableEq

/-- The settings of a `Breaker`. Times are in nanoseconds. -/
structure Config where
  window : Nat
  recovery : Nat
  /-- `failures as f64 >= self.ratio * total as f64`, for the failures and the total. -/
  tooMany : Nat → Nat → Bool

structure State where
  phase : Phase
  samples : List (Nat × Bool)
deriving DecidableEq

def State.new : State := ⟨.closed, []⟩

structure Ticket where
  probe : Bool
deriving DecidableEq

variable (cfg : Config) (s : State)

def admitAt (now : Nat) : State × Option Ticket :=
  match s.phase with
  | .closed => (s, some ⟨false⟩)
  | .opened deadline =>
    if deadline ≤ now then ({ s with phase := .halfOpen }, some ⟨true⟩) else (s, none)
  | .halfOpen => (s, none)

def recent (window now : Nat) (samples : List (Nat × Bool)) : List (Nat × Bool) :=
  samples.dropWhile fun r => now - r.1 > window

def recordAt (probe failed : Bool) (now : Nat) : State :=
  if probe then
    if failed then ⟨.opened (now + cfg.recovery), []⟩ else ⟨.closed, []⟩
  else if s.phase ≠ .closed then s
  else
    let samples := recent cfg.window now (s.samples ++ [(now, failed)])
    let failures := samples.countP fun r => r.2
    if minRequests ≤ samples.length ∧ cfg.tooMany failures samples.length then
      ⟨.opened (now + cfg.recovery), []⟩
    else { s with samples }

def dropAt (t : Ticket) (now : Nat) : State :=
  if t.probe then recordAt cfg s true true now else s

inductive Act where
  | admits (now : Nat)
  | record (ticket : Nat) (failed : Bool) (now : Nat)
  | drop (ticket : Nat) (now : Nat)

structure World where
  state : State
  tickets : List Ticket

def World.new : World := ⟨.new, []⟩

def World.step (x : World) : Act → World
  | .admits now => ⟨(admitAt x.state now).1, x.tickets ++ (admitAt x.state now).2.toList⟩
  | .record i failed now =>
    match x.tickets[i]? with
    | some t => ⟨recordAt cfg x.state t.probe failed now, x.tickets.eraseIdx i⟩
    | none => x
  | .drop i now =>
    match x.tickets[i]? with
    | some t => ⟨dropAt cfg x.state t now, x.tickets.eraseIdx i⟩
    | none => x

def World.probes (x : World) : Nat := x.tickets.countP Ticket.probe

/-! ## One probe -/

variable {cfg : Config} {s : State} {x : World}

lemma recordAt_late (h : s.phase ≠ .closed) (failed : Bool) (now : Nat) :
    recordAt cfg s false failed now = s := by
  rw [recordAt, if_neg (by decide), if_pos h]

lemma halfOpen_of_recordAt {probe failed : Bool} {now : Nat}
    (h : (recordAt cfg s probe failed now).phase = .halfOpen) :
    probe = false ∧ s.phase = .halfOpen := by
  cases probe with
  | true => cases failed <;> cases h
  | false =>
    refine ⟨rfl, ?_⟩
    by_cases hphase : s.phase = .closed
    · simp only [recordAt, Bool.false_eq_true, if_false, hphase, ne_eq, not_true_eq_false] at h
      split at h <;> simp_all
    · rwa [recordAt_late hphase] at h

def World.Probed (x : World) : Prop :=
  x.probes = if x.state.phase = .halfOpen then 1 else 0

open World

lemma probed_admits (h : x.Probed) (now : Nat) : (x.step cfg (.admits now)).Probed := by
  obtain ⟨⟨phase, samples⟩, tickets⟩ := x
  simp only [World.Probed, probes] at h ⊢
  cases phase with
  | closed =>
    show (tickets ++ [Ticket.mk false]).countP Ticket.probe = 0
    rw [Holders.countP_concat]
    exact h
  | opened deadline =>
    by_cases hnow : deadline ≤ now
    · simp only [step, admitAt, if_pos hnow, Option.toList_some]
      rw [Holders.countP_concat, h]
      rfl
    · simpa [step, admitAt, if_neg hnow] using h
  | halfOpen => simpa [step, admitAt] using h

lemma probed_end {i : Nat} {t : Ticket} {s' : State} (h : x.Probed) (hi : x.tickets[i]? = some t)
    (hprobe : t.probe → s'.phase ≠ .halfOpen)
    (hother : t.probe = false → (s'.phase = .halfOpen ↔ x.state.phase = .halfOpen)) :
    World.Probed ⟨s', x.tickets.eraseIdx i⟩ := by
  have hcount := Holders.countP_eraseIdx_add Ticket.probe hi
  simp only [World.Probed, probes] at h ⊢
  cases ht : t.probe with
  | true =>
    rw [if_neg (hprobe ht)]
    rw [ht, if_pos rfl, h] at hcount
    split at hcount <;> omega
  | false =>
    rw [ht, if_neg (by decide), h] at hcount
    rw [Nat.add_zero] at hcount
    simp only [hcount, hother ht]

lemma probed_step (h : x.Probed) (a : Act) : (x.step cfg a).Probed := by
  cases a with
  | admits now => exact probed_admits h now
  | record i failed now =>
    simp only [step]
    split
    next t hi =>
      refine probed_end h hi (fun ht hopen => ?_) fun ht => ⟨fun hopen => ?_, fun hopen => ?_⟩
      · rw [ht] at hopen
        exact absurd (halfOpen_of_recordAt hopen).1 (by decide)
      · exact (halfOpen_of_recordAt hopen).2
      rw [ht, recordAt_late (by rw [hopen]; decide)]
      exact hopen
    · exact h
  | drop i now =>
    simp only [step]
    split
    next t hi =>
      refine probed_end h hi (fun ht hopen => ?_) fun ht => ?_
      · rw [dropAt, if_pos ht] at hopen
        exact absurd (halfOpen_of_recordAt hopen).1 (by decide)
      · rw [dropAt, if_neg (by rw [ht]; decide)]
    · exact h

structure World.OneProbe (cfg : Config) (x : World) : Prop where
  halfOpen : x.state.phase = .halfOpen ↔ x.probes = 1
  probes : x.probes ≤ 1
  /-- Nothing is let through before an open breaker's time, or while it is half open. -/
  refuses : ∀ now, (x.state.phase = .halfOpen ∨
      ∃ deadline, x.state.phase = .opened deadline ∧ now < deadline) →
    (x.step cfg (.admits now)).tickets = x.tickets
  /-- A request that was no probe changes no breaker that is not closed, however it ends. -/
  late : ∀ i t, x.tickets[i]? = some t → t.probe = false → x.state.phase ≠ .closed →
    ∀ failed now, (x.step cfg (.record i failed now)).state = x.state ∧
      (x.step cfg (.drop i now)).state = x.state
  reopens : ∀ i t, x.tickets[i]? = some t → t.probe = true →
    ∀ now, (x.step cfg (.record i true now)).state.phase = .opened (now + cfg.recovery) ∧
      (x.step cfg (.drop i now)).state.phase = .opened (now + cfg.recovery)

/-- **One probe**: after any run, whatever the order in which the tickets end. -/
theorem one_probe (cfg : Config) (acts : List Act) :
    (after (step cfg) new acts).OneProbe cfg := by
  have hprobed : (after (step cfg) new acts).Probed :=
    after_invariant acts rfl fun x a hx => probed_step hx a
  generalize after (step cfg) new acts = x at hprobed
  constructor
  · rw [hprobed]
    split <;> simp_all
  · rw [hprobed]
    split <;> omega
  · intro now hphase
    rcases hphase with hphase | ⟨deadline, hphase, hnow⟩
    · simp [step, admitAt, hphase]
    · simp [step, admitAt, hphase, Nat.not_le.mpr hnow]
  · intro i t hi ht hphase failed now
    simp only [step, hi, dropAt, ht, recordAt_late hphase]
    exact ⟨trivial, rfl⟩
  intro i t hi ht now
  simp only [step, hi, dropAt, ht, recordAt]
  exact ⟨rfl, rfl⟩

/-! ## Recovery -/

def Act.time : Act → Nat
  | .admits now | .record _ _ now | .drop _ now => now

def State.OpenUntil (s : State) (limit : Nat) : Prop :=
  ∀ deadline, s.phase = .opened deadline → deadline ≤ limit

lemma openUntil_recordAt {limit now : Nat} (hs : s.OpenUntil limit)
    (hnow : now + cfg.recovery ≤ limit) (probe failed : Bool) :
    (recordAt cfg s probe failed now).OpenUntil limit := by
  intro deadline h
  simp only [recordAt] at h
  split_ifs at h <;> first | (cases h; exact hnow) | exact hs deadline h

lemma openUntil_step {time : Nat} {a : Act} (hx : x.state.OpenUntil (time + cfg.recovery))
    (ha : a.time ≤ time) : (x.step cfg a).state.OpenUntil (time + cfg.recovery) := by
  have hnow : a.time + cfg.recovery ≤ time + cfg.recovery := by omega
  cases a with
  | admits now =>
    intro deadline h
    simp only [step, admitAt] at h
    split at h <;> try split at h
    all_goals first | exact hx deadline h | cases h
  | record i failed now =>
    simp only [step]
    split
    · exact openUntil_recordAt hx hnow _ failed
    · exact hx
  | drop i now =>
    simp only [step, dropAt]
    split
    · split
      · exact openUntil_recordAt hx hnow true true
      · exact hx
    · exact hx

/-- **A breaker recovers**: after any run, if no probe is under way, the recovery time after the
last event a request is let through. -/
theorem lets_through_after_recovery {acts : List Act} (time : Nat) {now : Nat}
    (htimes : ∀ a ∈ acts, a.time ≤ time)
    (hprobes : (after (step cfg) new acts).probes = 0)
    (hnow : time + cfg.recovery ≤ now) :
    (admitAt (after (step cfg) new acts).state now).2.isSome := by
  have hprobed : (after (step cfg) new acts).Probed :=
    after_invariant acts rfl fun x a hx => probed_step hx a
  have hopen : (after (step cfg) new acts).state.OpenUntil (time + cfg.recovery) :=
    (Along.of_forall_mem htimes new).invariant
      (I := fun x => x.state.OpenUntil (time + cfg.recovery)) (fun _ h => by cases h)
      fun x a hx ha => openUntil_step hx ha
  rw [World.Probed, hprobes] at hprobed
  rw [admitAt]
  split
  · rfl
  next deadline hphase => rw [if_pos ((hopen deadline hphase).trans hnow)]; rfl
  next hphase => rw [if_pos hphase] at hprobed; cases hprobed

theorem one_probe_of_two_tickets :
    let cfg : Config := ⟨10, 5, fun _ _ => true⟩
    let x := after (step cfg) new (List.replicate 11 (.admits 1) ++
      List.replicate 10 (.record 0 true 2) ++ [.admits 7, .admits 7])
    x.state.phase = .halfOpen ∧ x.tickets = [⟨false⟩, ⟨true⟩] ∧ x.OneProbe cfg :=
  ⟨by decide, by decide, one_probe _ _⟩

theorem lets_through_after_ten_failures :
    let cfg : Config := ⟨10, 5, fun _ _ => true⟩
    let x := after (step cfg) new
      (List.replicate 10 (.admits 1) ++ List.replicate 10 (.record 0 true 2))
    x.state.phase = .opened 7 ∧ (admitAt x.state 7).2.isSome :=
  ⟨by decide, lets_through_after_recovery 2 (by decide) (by decide) (by decide)⟩

end Rproxy.Breaker
