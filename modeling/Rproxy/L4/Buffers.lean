import Rproxy.Data.Holders
import Rproxy.L4.OneStream

/-!
# Buffers and data of the copies

A copy that waits for its reader with nothing in flight has given its buffer back and flushed;
`IN_USE` counts the buffers that are held.
-/

namespace Rproxy.Relay
open List

def Poll.copy : Poll → Copy
  | .goes c _ | .pending c | .failed c | .done c | .handover c => c

namespace Copy
variable {c : Copy} {a : Await} {w : Wire}

/-- `amt` and `need_flush` tell what was written and flushed. -/
structure Counts (c : Copy) (w : Wire) : Prop where
  amt : c.amt = w.given.length
  flushed : c.needFlush = false → w.flushed = w.given.length

lemma Counts.congr {c' : Copy} {w' : Wire} (h : c.Counts w)
    (hc : c'.amt = c.amt ∧ c'.needFlush = c.needFlush) (hg : w'.given = w.given)
    (hf : w'.flushed = w.flushed) : c'.Counts w' :=
  ⟨by rw [hc.1, h.amt, hg], fun hn => by rw [hf, hg, h.flushed (hc.2 ▸ hn)]⟩

lemma Counts.releaseIfEmpty (h : c.Counts w) (hall : c.pos = c.data.length) :
    c.releaseIfEmpty.Counts w ∧ c.releaseIfEmpty.buf = false := by
  rw [Copy.releaseIfEmpty, if_pos hall]
  exact ⟨⟨h.amt, h.flushed⟩, rfl⟩

lemma drain_keeps (c : Copy) :
    (c.drain.1.amt = c.amt ∧ c.drain.1.needFlush = c.needFlush) ∧ c.drain.2 ≠ .idleFlush := by
  simp only [drain, written, releaseIfEmpty]
  split_ifs <;> exact ⟨⟨rfl, rfl⟩, by simp⟩

lemma enter_keeps (c : Copy) :
    (c.enter.1.amt = c.amt ∧ c.enter.1.needFlush = c.needFlush) ∧ c.enter.2 ≠ .idleFlush := by
  unfold enter
  split
  · exact ⟨⟨rfl, rfl⟩, nofun⟩
  · exact c.drain_keeps

end Copy

def Poll.Sound : Poll → Wire → Prop
  | .goes c a, w => c.Carries a w ∧ c.Counts w ∧ (a = .idleFlush → c.buf = false)
  | .pending c, w => c.Flows w ∧ c.Counts w
  | _, _ => True

/-- What is promised where `poll_copy` returns `p`, after the outcome `o` of the operation `a`. -/
structure Returns (a : Await) (o : Outcome) (p : Poll) (w : Wire) : Prop where
  stream : w.given ++ p.copy.data.drop p.copy.pos = w.taken
  idle : ∀ c, p = .pending c → a = .fill ∨ a = .idleFlush →
    c.buf = false ∧ (w.flushed = w.given.length ∨ a = .idleFlush ∧ o = .block)
  done : ∀ c, p = .done c → w.ended = true ∧ w.given = w.taken ∧ c.amt = w.given.length ∧
    w.flushed = w.given.length
  handover : ∀ c, p = .handover c → c.data = [] ∧ c.amt = w.given.length

variable {c : Copy} {a : Await} {w w' : Wire} {o : Outcome} {p : Poll}

lemma sound_drain (hc : c.Flows w) (hn : c.Counts w) : (Poll.goes c.drain.1 c.drain.2).Sound w :=
  ⟨Copy.carries_drain hc, hn.congr c.drain_keeps.1 rfl rfl, fun h => absurd h c.drain_keeps.2⟩

lemma returns_goes (h : (Poll.goes c a).Sound w) (a' : Await) : Returns a' o (.goes c a) w :=
  ⟨h.1.stream, nofun, nofun, nofun⟩

lemma returns_pending (h : c.Flows w) (ha : a ≠ .fill ∧ a ≠ .idleFlush) :
    Returns a o (.pending c) w :=
  ⟨h.stream, fun _ _ hidle => absurd hidle (not_or.mpr ha), nofun, nofun⟩

lemma sound_step (h : (Poll.goes c a).Sound w) (hstep : c.step w a o = some (p, w')) :
    p.Sound w' ∧ Returns a o p w' := by
  obtain ⟨hcarries, hcounts, hidle⟩ := h
  have hflows := hcarries.toFlows
  cases Copy.stepped_of_step hstep with
  | filled bs =>
    have hdrain := sound_drain (Copy.flows_fill hflows bs) (hcounts.congr ⟨rfl, rfl⟩ rfl rfl)
    exact ⟨hdrain, returns_goes hdrain _⟩
  | flushes hall =>
    have hnext : (Poll.goes c.releaseIfEmpty .idleFlush).Sound w :=
      ⟨⟨hflows.releaseIfEmpty hall, by simp, nofun⟩, (hcounts.releaseIfEmpty hall).1,
        fun _ => (hcounts.releaseIfEmpty hall).2⟩
    exact ⟨hnext, returns_goes hnext _⟩
  | rests hall hflush =>
    have hreleased := hflows.releaseIfEmpty hall
    obtain ⟨hkept, hbuf⟩ := hcounts.releaseIfEmpty hall
    refine ⟨⟨hreleased, hkept⟩, hreleased.stream, ?_, nofun, nofun⟩
    rintro _ ⟨⟩ -
    exact ⟨hbuf, .inl (hkept.flushed (Bool.eq_false_iff.mpr hflush))⟩
  | drains =>
    have hdrain := sound_drain hflows hcounts
    exact ⟨hdrain, returns_goes hdrain _⟩
  | writeZero | failed => exact ⟨trivial, hflows.stream, nofun, nofun, nofun⟩
  | @wrote n c' hn hc' =>
    subst hc'
    have hlen : ((c.data.drop c.pos).take n).length = n := by
      rw [length_take, length_drop]
      omega
    have hdrain := sound_drain (Copy.flows_wrote hflows hn)
      ⟨by rw [Wire.gives, length_append, hlen, ← hcounts.amt], nofun⟩
    exact ⟨hdrain, returns_goes hdrain _⟩
  | wantsMore =>
    have hnext : (Poll.goes c .topUp).Sound w := ⟨⟨hflows, by simp, nofun⟩, hcounts, nofun⟩
    exact ⟨hnext, returns_goes hnext _⟩
  | toppedUp bs =>
    have hnext := Copy.flows_fill hflows bs
    exact ⟨⟨hnext, hcounts.congr ⟨rfl, rfl⟩ rfl rfl⟩, returns_pending hnext ⟨nofun, nofun⟩⟩
  | blocked ha =>
    refine ⟨⟨hflows, hcounts⟩, hflows.stream, ?_, nofun, nofun⟩
    rintro _ ⟨⟩ hwaits
    obtain rfl := hwaits.resolve_left ha
    exact ⟨hidle rfl, .inr ⟨rfl, rfl⟩⟩
  | idleFlushed =>
    refine ⟨⟨⟨hflows.pos, hflows.stream, hflows.ended⟩, hcounts.amt, fun _ => rfl⟩, hflows.stream,
      ?_, nofun, nofun⟩
    rintro _ ⟨⟩ -
    exact ⟨hidle rfl, .inl rfl⟩
  | endFlushed =>
    refine ⟨trivial, hflows.stream, nofun, ?_, nofun⟩
    rintro _ ⟨⟩
    exact ⟨hflows.ended (hcarries.last rfl), hcarries.given_eq (.inl rfl), hcounts.amt, rfl⟩
  | handFlushed =>
    refine ⟨trivial, hflows.stream, nofun, nofun, ?_⟩
    rintro _ ⟨⟩
    exact ⟨hcarries.empty (.inr rfl), hcounts.amt⟩

/-! ## All copies -/

structure Running where
  state : Poll
  wire : Wire

structure World where
  copies : List Running
  inUse : ℕ

inductive Act where
  | new (limit : ℕ) (handover : Option Handover)
  /-- `poll_copy` is called on the copy at a place. -/
  | poll (i : ℕ)
  | io (i : ℕ) (o : Outcome)
  | drop (i : ℕ)

def counted (n : ℕ) (before after : Copy) : ℕ :=
  if before.buf = after.buf then n else if after.buf then n + 1 else n - 1

def World.put (x : World) (i : ℕ) (before after : Running) : World :=
  ⟨x.copies.set i after, counted x.inUse before.state.copy after.state.copy⟩

def World.step (x : World) : Act → World
  | .new limit handover =>
    { x with copies := x.copies ++ [⟨.pending (.new limit handover), ⟨[], [], false, 0⟩⟩] }
  | .poll i =>
    match x.copies[i]? with
    | some ⟨.pending c, w⟩ => x.put i ⟨.pending c, w⟩ ⟨.goes c.enter.1 c.enter.2, w⟩
    | _ => x
  | .io i o =>
    match x.copies[i]? with
    | some ⟨.goes c a, w⟩ =>
      match c.step w a o with
      | some (p, w') => x.put i ⟨.goes c a, w⟩ ⟨p, w'⟩
      | none => x
    | _ => x
  | .drop i =>
    match x.copies[i]? with
    | some r => ⟨x.copies.eraseIdx i, if r.state.copy.buf then x.inUse - 1 else x.inUse⟩
    | none => x

def Running.holds (r : Running) : Bool := r.state.copy.buf

structure World.Sound (x : World) : Prop where
  inUse : x.inUse = x.copies.countP Running.holds
  copies : ∀ r ∈ x.copies, r.state.Sound r.wire

lemma World.Sound.put {x : World} (h : x.Sound) {i : ℕ} {before after : Running}
    (hi : x.copies[i]? = some before) (hafter : after.state.Sound after.wire) :
    (x.put i before after).Sound where
  inUse := by
    have hset := Holders.countP_set_add Running.holds after hi
    have herase := Holders.countP_eraseIdx_add Running.holds hi
    simp only [World.put, counted, h.inUse]
    simp only [Running.holds] at hset herase ⊢
    cases hb : before.state.copy.buf <;> cases ha : after.state.copy.buf <;>
      simp [hb, ha] at hset herase ⊢ <;> omega
  copies r hr := by
    rcases mem_or_eq_of_mem_set hr with hr | rfl
    · exact h.copies r hr
    · exact hafter

lemma World.Sound.step {x : World} (h : x.Sound) (act : Act) : (x.step act).Sound := by
  cases act with
  | new limit handover =>
    refine ⟨?_, fun r hr => ?_⟩
    · rw [World.step, Holders.countP_concat, h.inUse]
      rfl
    rcases mem_append.mp hr with hr | hr
    · exact h.copies r hr
    rw [mem_singleton.mp hr]
    exact ⟨⟨Nat.le_refl _, rfl, nofun⟩, rfl, fun _ => rfl⟩
  | poll i =>
    simp only [World.step]
    split
    next c w hi =>
      obtain ⟨hflows, hcounts⟩ := h.copies _ (mem_of_getElem? hi)
      exact h.put hi ⟨Copy.carries_enter hflows, hcounts.congr c.enter_keeps.1 rfl rfl,
        fun ha => absurd ha c.enter_keeps.2⟩
    · exact h
  | io i o =>
    simp only [World.step]
    split
    next c a w hi =>
      split
      next p w' hstep => exact h.put hi (sound_step (h.copies _ (mem_of_getElem? hi)) hstep).1
      · exact h
    · exact h
  | drop i =>
    simp only [World.step]
    split
    next r hi =>
      have herase := Holders.countP_eraseIdx_add Running.holds hi
      refine ⟨?_, fun r' hr' => h.copies r' (mem_of_mem_eraseIdx hr')⟩
      rw [h.inUse]
      cases hb : r.state.copy.buf <;> simp [Running.holds, hb] at herase ⊢ <;> omega
    · exact h

end Rproxy.Relay
