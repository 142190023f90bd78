import Rproxy.L4.Splice
import Rproxy.Programs.Runs

/-!
# A direction carries one stream

Bytes on their way are in the buffer of the copy or in the pipe: what was given to the destination,
followed by them, is what was taken from the source (`Copy.Carries`, `Direction.Stands`), and
`count` is what was taken once the running copy has ended.
-/

namespace Rproxy
open List Option Wire
namespace Relay
namespace Copy

/-! ## The copy -/

structure Flows (c : Copy) (w : Wire) : Prop where
  pos : c.pos ≤ c.data.length
  stream : w.given ++ c.data.drop c.pos = w.taken
  ended : c.readDone = true → w.ended = true

structure Carries (c : Copy) (a : Await) (w : Wire) : Prop extends c.Flows w where
  empty : a = .endFlush ∨ a = .handFlush → c.data = []
  last : a = .endFlush → c.readDone = true

variable {c : Copy} {w : Wire}

lemma carries_written (h : c.Flows w) (hall : c.data.length ≤ c.pos) :
    c.written.1.Carries c.written.2 w := by
  have hgiven : w.given = w.taken := by
    have hstream := h.stream
    rwa [drop_eq_nil_of_le hall, append_nil] at hstream
  rw [written]
  split
  next hdone =>
    exact ⟨⟨Nat.le_refl _, by simp [releaseIfEmpty, hgiven], fun _ => h.ended hdone⟩,
      fun _ => rfl, fun _ => hdone⟩
  split
  · exact ⟨⟨Nat.le_refl _, by simp [releaseIfEmpty, hgiven], h.ended⟩, fun _ => rfl, nofun⟩
  · exact ⟨⟨Nat.le_refl _, by simp [hgiven], h.ended⟩, fun _ => rfl, nofun⟩

lemma carries_drain (h : c.Flows w) : c.drain.1.Carries c.drain.2 w := by
  rw [drain]
  split
  · exact ⟨h, by simp, nofun⟩
  next hall => exact carries_written h (Nat.not_lt.mp hall)

lemma carries_enter (h : c.Flows w) : c.enter.1.Carries c.enter.2 w := by
  rw [enter]
  split
  · exact ⟨⟨h.pos, h.stream, h.ended⟩, by simp, nofun⟩
  · exact carries_drain h

lemma flows_fill (h : c.Flows w) (bs : List UInt8) : (c.fill bs).Flows (w.takes bs) where
  pos := by
    have hpos := h.pos
    simp only [fill, length_append]
    omega
  stream := by
    show w.given ++ (c.data ++ bs).drop c.pos = w.taken ++ bs
    rw [drop_append_of_le_length h.pos, ← append_assoc, h.stream]
  ended hdone := by
    have hempty : bs.isEmpty := hdone
    simp [takes, hempty]

lemma flows_wrote (h : c.Flows w) {n : ℕ} (hn : n ≤ c.data.length - c.pos) :
    { c with pos := c.pos + n, amt := c.amt + n, needFlush := true }.Flows
      (w.gives ((c.data.drop c.pos).take n)) where
  pos := by
    have hpos := h.pos
    show c.pos + n ≤ c.data.length
    omega
  stream := by
    show (w.given ++ (c.data.drop c.pos).take n) ++ c.data.drop (c.pos + n) = w.taken
    rw [append_assoc, ← drop_drop, take_append_drop, h.stream]
  ended := h.ended

end Copy

def Poll.Carries : Poll → Wire → Prop
  | .goes c a, w => c.Carries a w
  | .pending c, w => c.Flows w
  | .failed _, w => w.given <+: w.taken
  | .done _, w => w.given = w.taken ∧ w.ended = true
  | .handover _, w => w.given = w.taken

namespace Copy
variable {c : Copy} {w : Wire}

lemma Flows.releaseIfEmpty (h : c.Flows w) (hall : c.pos = c.data.length) :
    c.releaseIfEmpty.Flows w := by
  have hstream := h.stream
  rw [drop_eq_nil_of_le (Nat.le_of_eq hall.symm)] at hstream
  rw [Copy.releaseIfEmpty, if_pos hall]
  exact ⟨Nat.le_refl _, hstream, h.ended⟩

lemma Flows.given_isPrefix (h : c.Flows w) : w.given <+: w.taken := ⟨_, h.stream⟩

lemma Carries.given_eq {a : Await} (h : c.Carries a w) (ha : a = .endFlush ∨ a = .handFlush) :
    w.given = w.taken := by
  have hstream := h.stream
  rwa [h.empty ha, drop_nil, append_nil] at hstream

lemma taken_prefix_takes (w : Wire) (bs : List UInt8) : w.taken <+: (w.takes bs).taken :=
  prefix_append _ _

/-- The rules of `step`. -/
inductive Stepped (c : Copy) (w : Wire) : Await → Outcome → Poll → Wire → Prop
  | filled (bs : List UInt8) :
    Stepped c w .fill (.read bs) (.goes (c.fill bs).drain.1 (c.fill bs).drain.2) (w.takes bs)
  | flushes (hall : c.pos = c.data.length) :
    Stepped c w .fill .block (.goes c.releaseIfEmpty .idleFlush) w
  | rests (hall : c.pos = c.data.length) (hflush : ¬ c.releaseIfEmpty.needFlush) :
    Stepped c w .fill .block (.pending c.releaseIfEmpty) w
  | drains : Stepped c w .fill .block (.goes c.drain.1 c.drain.2) w
  | writeZero : Stepped c w .write (.wrote 0) (.failed c) w
  | wrote {n : ℕ} {c' : Copy} (hn : n ≤ c.data.length - c.pos)
    (hc' : c' = { c with pos := c.pos + n, amt := c.amt + n, needFlush := true }) :
    Stepped c w .write (.wrote n) (.goes c'.drain.1 c'.drain.2)
      (w.gives ((c.data.drop c.pos).take n))
  | wantsMore : Stepped c w .write .block (.goes c .topUp) w
  | toppedUp (bs : List UInt8) : Stepped c w .topUp (.read bs) (.pending (c.fill bs)) (w.takes bs)
  | blocked {a : Await} (ha : a ≠ .fill) : Stepped c w a .block (.pending c) w
  | idleFlushed : Stepped c w .idleFlush .ok (.pending { c with needFlush := false }) w.flush
  | endFlushed : Stepped c w .endFlush .ok (.done c) w.flush
  | handFlushed : Stepped c w .handFlush .ok (.handover { c with needFlush := false }) w.flush
  | failed {a : Await} : Stepped c w a .failed (.failed c) w

variable {a : Await} {o : Outcome} {w' : Wire}

lemma stepped_of_step {p : Poll} (hstep : c.step w a o = some (p, w')) :
    c.Stepped w a o p w' := by
  unfold step at hstep
  split at hstep
  · simp only [ite_none_right_eq_some, Option.some.injEq, Prod.mk.injEq] at hstep
    obtain ⟨-, rfl, rfl⟩ := hstep
    exact .filled _
  · split at hstep
    next hall =>
      dsimp only at hstep
      split at hstep
      · cases hstep
        exact .flushes hall
      rename_i hflush
      cases hstep
      exact .rests hall hflush
    · cases hstep
      exact .drains
  · simp only [ite_none_right_eq_some] at hstep
    obtain ⟨hn, hstep⟩ := hstep
    split at hstep
    next hzero =>
      cases hstep
      rw [hzero]
      exact .writeZero
    · cases hstep
      exact .wrote hn rfl
  · split at hstep
    · cases hstep
      exact .wantsMore
    cases hstep
    exact .blocked nofun
  · simp only [ite_none_right_eq_some, Option.some.injEq, Prod.mk.injEq] at hstep
    obtain ⟨-, rfl, rfl⟩ := hstep
    exact .toppedUp _
  · cases hstep
    exact .blocked nofun
  · cases hstep
    exact .idleFlushed
  · cases hstep
    exact .blocked nofun
  · cases hstep
    exact .endFlushed
  · cases hstep
    exact .blocked nofun
  · cases hstep
    exact .handFlushed
  · cases hstep
    exact .blocked nofun
  · cases hstep
    exact .failed
  · cases hstep

lemma carries_step (h : c.Carries a w) {p : Poll} (hstep : c.step w a o = some (p, w')) :
    p.Carries w' ∧ w.taken <+: w'.taken := by
  have hflows := h.toFlows
  have hsame : w.taken <+: w.taken := prefix_rfl
  cases stepped_of_step hstep with
  | filled bs => exact ⟨carries_drain (flows_fill hflows bs), taken_prefix_takes w bs⟩
  | flushes hall => exact ⟨⟨hflows.releaseIfEmpty hall, by simp, nofun⟩, hsame⟩
  | rests hall _ => exact ⟨hflows.releaseIfEmpty hall, hsame⟩
  | drains => exact ⟨carries_drain hflows, hsame⟩
  | writeZero | failed => exact ⟨hflows.given_isPrefix, hsame⟩
  | wrote hn hc' => exact ⟨carries_drain (hc' ▸ flows_wrote hflows hn), hsame⟩
  | wantsMore => exact ⟨⟨hflows, by simp, nofun⟩, hsame⟩
  | toppedUp bs => exact ⟨flows_fill hflows bs, taken_prefix_takes w bs⟩
  | blocked _ => exact ⟨hflows, hsame⟩
  | idleFlushed => exact ⟨⟨hflows.pos, hflows.stream, hflows.ended⟩, hsame⟩
  | endFlushed => exact ⟨⟨h.given_eq (.inl rfl), hflows.ended (h.last rfl)⟩, hsame⟩
  | handFlushed => exact ⟨h.given_eq (.inr rfl), hsame⟩

lemma fails_of_step {c' : Copy} (hstep : c.step w a o = some (.failed c', w')) :
    o = .failed ∨ o = .wrote 0 := by
  cases stepped_of_step hstep with
  | writeZero => exact .inr rfl
  | failed => exact .inl rfl

end Copy
end Relay

namespace Splice
open Relay

/-! ## A direction -/

namespace Direction

def inCopy (d : Direction) : ℕ :=
  match d.phase with
  | .copying _ _ counted => counted
  | _ => 0

def Stands (d : Direction) : Prop :=
  match d.phase with
  | .copying c a _ => c.Carries a d.wire ∧ d.pipe = [] ∧ d.shut = 0
  | .shutdown => d.wire.given = d.wire.taken ∧ d.wire.ended = true ∧ d.shut = 0
  | .readable _ => d.wire.given = d.wire.taken ∧ d.pipe = [] ∧ d.shut = 0
  | .take => d.wire.given = d.wire.taken ∧ d.pipe = [] ∧ d.shut = 0
  | .spliceIn => d.wire.given = d.wire.taken ∧ d.pipe = [] ∧ d.shut = 0
  | .writable n =>
    d.wire.given ++ d.pipe = d.wire.taken ∧ d.pipe.length = n ∧ 0 < n ∧ d.shut = 0
  | .spliceOut n =>
    d.wire.given ++ d.pipe = d.wire.taken ∧ d.pipe.length = n ∧ 0 < n ∧ d.shut = 0
  | .halfClose => d.wire.given = d.wire.taken ∧ d.wire.ended = true ∧ d.shut = 0
  | .ended true => d.wire.given = d.wire.taken ∧ d.wire.ended = true ∧ d.shut = 1
  | .ended false => d.wire.given <+: d.wire.taken ∧ d.shut = 0

structure Carried (d : Direction) : Prop where
  count : d.count + d.inCopy = d.wire.taken.length
  total : d.total = d.wire.taken.length
  stands : d.Stands

variable {cfg : Settings} {d : Direction}

lemma flows_new (handover : Option Handover) {w : Wire} (hw : w.given = w.taken) :
    (Copy.new bufferSize handover).Flows w :=
  ⟨Nat.le_refl _, by simp [Copy.new, hw], nofun⟩

lemma carried_copy (hcount : d.count = d.wire.taken.length)
    (htotal : d.total = d.wire.taken.length)
    (hgiven : d.wire.given = d.wire.taken) (hpipe : d.pipe = []) (hshut : d.shut = 0) :
    (d.copy cfg).Carried :=
  ⟨hcount, htotal, Copy.carries_enter (flows_new _ hgiven), hpipe, hshut⟩

lemma carried_start (cfg : Settings) (limited : Bool) : (start cfg limited).Carried :=
  carried_copy rfl rfl rfl rfl rfl

lemma carried_polled {w : Wire} {counted : ℕ} {p : Poll} (hp : p.Carries w) (hwire : d.wire = w)
    (hcount : d.count + counted = w.taken.length) (htotal : d.total = w.taken.length)
    (hpipe : d.pipe = []) (hshut : d.shut = 0) : (d.polled counted p).Carried := by
  subst hwire
  cases p with
  | goes c a => exact ⟨hcount, htotal, hp, hpipe, hshut⟩
  | pending c => exact ⟨hcount, htotal, Copy.carries_enter hp, hpipe, hshut⟩
  | failed c => exact ⟨hcount, htotal, hp, hshut⟩
  | done c => exact ⟨hcount, htotal, hp.1, hp.2, hshut⟩
  | handover c => exact ⟨hcount, htotal, hp, hpipe, hshut⟩

lemma carried_io (h : d.Carried) {o : Outcome} {d' : Direction} (hio : d.io cfg o = some d') :
    d'.Carried := by
  obtain ⟨phase, canSplice, limited, count, total, wire, pipe, shut⟩ := d
  obtain ⟨hcount, htotal, hstands⟩ := h
  cases phase with
  | copying c a counted =>
    obtain ⟨hcarries, hpipe, hshut⟩ := hstands
    obtain ⟨⟨p, w⟩, hstep, rfl⟩ := map_eq_some_iff.mp hio
    obtain ⟨hp, hstart⟩ := Copy.carries_step hcarries hstep
    have hle : wire.taken.length ≤ w.taken.length := hstart.length_le
    simp only [inCopy] at hcount htotal
    refine carried_polled hp rfl ?_ ?_ hpipe hshut
    · simp only [counting]
      omega
    simp only [counting]
    omega
  | shutdown =>
    obtain ⟨hgiven, hended, hshut⟩ := hstands
    cases o with
    | ok =>
      cases hio
      exact ⟨hcount, htotal, hgiven, hended, congrArg (· + 1) hshut⟩
    | block =>
      cases hio
      exact ⟨hcount, htotal, hgiven, hended, hshut⟩
    | failed =>
      cases hio
      exact ⟨hcount, htotal, ⟨[], by simpa using hgiven⟩, hshut⟩
    | _ => cases hio
  | readable held =>
    obtain ⟨hgiven, hpipe, hshut⟩ := hstands
    cases o with
    | ok =>
      simp only [io] at hio
      split at hio
      · cases hio
        exact carried_copy hcount htotal hgiven hpipe hshut
      cases hio
      cases held with
      | true | false => exact ⟨hcount, htotal, hgiven, hpipe, hshut⟩
    | block =>
      cases hio
      exact ⟨hcount, htotal, hgiven, hpipe, hshut⟩
    | failed =>
      cases hio
      exact ⟨hcount, htotal, ⟨[], by simpa using hgiven⟩, hshut⟩
    | _ => cases hio
  | take =>
    obtain ⟨hgiven, hpipe, hshut⟩ := hstands
    cases o with
    | ok =>
      cases hio
      exact ⟨hcount, htotal, hgiven, hpipe, hshut⟩
    | refused =>
      cases hio
      exact carried_copy hcount htotal hgiven hpipe hshut
    | _ => cases hio
  | spliceIn =>
    obtain ⟨hgiven, hpipe, hshut⟩ := hstands
    cases o with
    | read bs =>
      simp only [io, ite_none_right_eq_some] at hio
      obtain ⟨-, hio⟩ := hio
      subst hpipe
      split at hio
      next hbs =>
        -- the end of the source
        cases hio
        subst hbs
        refine ⟨?_, ?_, ?_, ?_, hshut⟩
        · simpa [takes, inCopy] using hcount
        · simpa [takes] using htotal
        · simpa [takes] using hgiven
        · simp [takes]
      next hbs =>
        cases hio
        simp only [inCopy, Nat.add_zero] at hcount htotal
        refine ⟨?_, ?_, ?_, rfl, length_pos_of_ne_nil hbs, hshut⟩
        · simp [takes, inCopy, hcount]
        · simp [takes, htotal]
        simp only at hgiven
        simp [takes, hgiven]
    | block =>
      cases hio
      exact ⟨hcount, htotal, hgiven, hpipe, hshut⟩
    | unsupported =>
      cases hio
      exact carried_copy hcount htotal hgiven hpipe hshut
    | failed =>
      cases hio
      exact ⟨hcount, htotal, ⟨[], by simpa using hgiven⟩, hshut⟩
    | _ => cases hio
  | writable n =>
    obtain ⟨hstream, hlen, hpos, hshut⟩ := hstands
    cases o with
    | ok | block =>
      cases hio
      exact ⟨hcount, htotal, hstream, hlen, hpos, hshut⟩
    | failed =>
      cases hio
      exact ⟨hcount, htotal, ⟨pipe, hstream⟩, hshut⟩
    | _ => cases hio
  | spliceOut n =>
    obtain ⟨hstream, hlen, hpos, hshut⟩ := hstands
    cases o with
    | wrote m =>
      simp only [io, ite_none_right_eq_some] at hio
      obtain ⟨hm, hio⟩ := hio
      split at hio
      · cases hio
        exact ⟨hcount, htotal, ⟨pipe, hstream⟩, hshut⟩
      cases hio
      have hrest : (wire.given ++ pipe.take m) ++ pipe.drop m = wire.taken := by
        rw [append_assoc, take_append_drop]
        exact hstream
      have hlen' : (pipe.drop m).length = n - m := by
        rw [length_drop, hlen]
      by_cases hall : n - m = 0
      · simp only [if_pos hall]
        have hnil : pipe.drop m = [] := length_eq_zero_iff.mp (hlen'.trans hall)
        refine ⟨hcount, htotal, ?_, hnil, hshut⟩
        rwa [hnil, append_nil] at hrest
      simp only [if_neg hall]
      exact ⟨hcount, htotal, hrest, hlen', Nat.pos_of_ne_zero hall, hshut⟩
    | block =>
      cases hio
      exact ⟨hcount, htotal, hstream, hlen, hpos, hshut⟩
    | unsupported | failed =>
      cases hio
      exact ⟨hcount, htotal, ⟨pipe, hstream⟩, hshut⟩
    | _ => cases hio
  | halfClose =>
    obtain ⟨hgiven, hended, hshut⟩ := hstands
    cases o with
    | ok =>
      cases hio
      exact ⟨hcount, htotal, hgiven, hended, congrArg (· + 1) hshut⟩
    | failed =>
      cases hio
      exact ⟨hcount, htotal, ⟨[], by simpa using hgiven⟩, hshut⟩
    | _ => cases hio
  | ended ok => cases hio

lemma carried_step (h : d.Carried) (ev : Event) : (d.step cfg ev).Carried := by
  cases ev with
  | limit on => exact ⟨h.count, h.total, h.stands⟩
  | io o =>
    rw [step]
    cases hio : d.io cfg o with
    | none => exact h
    | some d' => exact carried_io h hio

end Direction

def Event.fails : Event → Bool
  | .io .failed => true
  | .io (.wrote 0) => true
  | _ => false

namespace Direction

/-- No splice into the destination is answered with `EINVAL` or `ENOSYS`. -/
def OutSupported (d : Direction) (ev : Event) : Prop :=
  ev = .io .unsupported → ∀ n, d.phase ≠ .spliceOut n

variable {cfg : Settings} {d : Direction}

lemma fails_of_polled {counted : ℕ} {p : Poll}
    (h : (d.polled counted p).phase = .ended false) : ∃ c, p = .failed c := by
  cases p with
  | failed c => exact ⟨c, rfl⟩
  | goes c a | pending c | done c | handover c => cases h

/-- **A direction ends with an error only where a socket fails, or where the splice into the
destination is not supported.** -/
theorem fails_of_io {o : Outcome} {d' : Direction} (hio : d.io cfg o = some d')
    (hended : d'.phase = .ended false) :
    (Event.io o).fails = true ∨ (o = .unsupported ∧ ∃ n, d.phase = .spliceOut n) := by
  obtain ⟨phase, canSplice, limited, count, total, wire, pipe, shut⟩ := d
  cases phase with
  | copying c a counted =>
    obtain ⟨⟨p, w⟩, hstep, rfl⟩ := map_eq_some_iff.mp hio
    obtain ⟨c', rfl⟩ := fails_of_polled hended
    obtain rfl | rfl := Copy.fails_of_step hstep
    · exact .inl rfl
    · exact .inl rfl
  | readable held =>
    cases o with
    | failed => exact .inl rfl
    | ok =>
      simp only [io] at hio
      split at hio
      · cases hio
        cases hended
      cases hio
      cases held <;> cases hended
    | block =>
      cases hio
      cases hended
    | _ => cases hio
  | spliceIn =>
    cases o with
    | failed => exact .inl rfl
    | read bs =>
      simp only [io, ite_none_right_eq_some] at hio
      obtain ⟨-, hio⟩ := hio
      split at hio
      · cases hio
        cases hended
      cases hio
      cases hended
    | block | unsupported =>
      cases hio
      cases hended
    | _ => cases hio
  | spliceOut n =>
    cases o with
    | failed => exact .inl rfl
    | unsupported => exact .inr ⟨rfl, n, rfl⟩
    | wrote m =>
      simp only [io, ite_none_right_eq_some] at hio
      obtain ⟨-, hio⟩ := hio
      split at hio
      next hm =>
        subst hm
        exact .inl rfl
      cases hio
      split at hended <;> cases hended
    | block =>
      cases hio
      cases hended
    | _ => cases hio
  | _ =>
    cases o with
    | failed => exact .inl rfl
    | _ => first | cases hio; done | (cases hio; cases hended)

lemma unfailing_step {ev : Event} (hd : d.phase ≠ .ended false) (hout : d.OutSupported ev)
    (hev : ev.fails = false) : (d.step cfg ev).phase ≠ .ended false := by
  intro hended
  cases ev with
  | limit on => exact hd hended
  | io o =>
    rw [step] at hended
    cases hio : d.io cfg o with
    | none =>
      rw [hio] at hended
      exact hd hended
    | some d' =>
      rw [hio] at hended
      obtain hfails | ⟨rfl, n, hn⟩ := fails_of_io hio hended
      · rw [hev] at hfails
        cases hfails
      · exact hout rfl n hn

/-! ## Every run -/

lemma Carried.given_of_ended (h : d.Carried) (hended : d.phase = .ended true) :
    d.wire.given = d.wire.taken ∧ d.wire.ended ∧ d.shut = 1 := by
  have hstands := h.stands
  rwa [Stands, hended] at hstands

lemma Carried.along (h : d.Carried) :
    d.wire.given <+: d.wire.taken ∧ (d.shut = 0 ∨ d.phase = .ended true) := by
  have hstands := h.stands
  rw [Stands] at hstands
  have hall : d.wire.given = d.wire.taken → d.wire.given <+: d.wire.taken :=
    fun heq => heq ▸ prefix_rfl
  split at hstands
  · exact ⟨hstands.1.given_isPrefix, .inl hstands.2.2⟩
  · exact ⟨hall hstands.1, .inl hstands.2.2⟩
  · exact ⟨hall hstands.1, .inl hstands.2.2⟩
  · exact ⟨hall hstands.1, .inl hstands.2.2⟩
  · exact ⟨hall hstands.1, .inl hstands.2.2⟩
  · exact ⟨⟨_, hstands.1⟩, .inl hstands.2.2.2⟩
  · exact ⟨⟨_, hstands.1⟩, .inl hstands.2.2.2⟩
  · exact ⟨hall hstands.1, .inl hstands.2.2⟩
  next hphase => exact ⟨hall hstands.1, .inr hphase⟩
  · exact ⟨hstands.1, .inl hstands.2⟩

/-- **A direction carries one stream.** What was given to the destination is a prefix of what was
taken from the source, and `count` is the number of bytes taken. If no splice into the destination
is answered with `EINVAL` or `ENOSYS` and no socket fails, the direction ends only at the source's
end, with every byte delivered and one shutdown, the last. -/
theorem one_stream (cfg : Settings) (limited : Bool) (evs : List Event)
    (hout : Along (step cfg) OutSupported (start cfg limited) evs) :
    let d := after (step cfg) (start cfg limited) evs
    d.wire.given <+: d.wire.taken ∧
      d.count + d.inCopy = d.wire.taken.length ∧ d.total = d.wire.taken.length ∧
      (d.shut = 0 ∨ d.phase = .ended true) ∧
      ((∀ ev ∈ evs, ev.fails = false) → ∀ ok, d.phase = .ended ok →
        d.wire.ended = true ∧ d.wire.given = d.wire.taken ∧ d.count = d.wire.taken.length ∧
          d.shut = 1 ∧ ok = true) := by
  intro d
  have hcarried : d.Carried :=
    after_invariant evs (carried_start cfg limited) fun _ ev h => carried_step h ev
  refine ⟨hcarried.along.1, hcarried.count, hcarried.total, hcarried.along.2, ?_⟩
  intro hunfailing ok hended
  have hgood : d.phase ≠ .ended false :=
    (hout.and (Along.of_forall_mem hunfailing _)).invariant (I := fun d => d.phase ≠ .ended false)
      nofun fun _ _ hd hev => unfailing_step hd hev.1 hev.2
  cases ok with
  | false => exact absurd hended hgood
  | true =>
    obtain ⟨hgiven, hend, hshut⟩ := hcarried.given_of_ended hended
    have hcount := hcarried.count
    rw [inCopy, hended] at hcount
    exact ⟨hend, hgiven, hcount, hshut, rfl⟩

def oneByteEach : List Event :=
  [.io (.read [1]), .io (.wrote 1), .io .ok, .io .ok, .io .ok, .io (.read [2]), .io .ok]

def delivered : List Event := oneByteEach ++ [.io (.wrote 1), .io .ok, .io (.read []), .io .ok]

theorem one_stream_of_delivered :
    let d := after (step ⟨0, 0⟩) (start ⟨0, 0⟩ false) delivered
    d.phase = .ended true ∧ d.wire.given = [1, 2] ∧ d.wire.given = d.wire.taken ∧ d.shut = 1 := by
  intro d
  have hout : Along (step ⟨0, 0⟩) OutSupported (start ⟨0, 0⟩ false) delivered :=
    ⟨nofun, nofun, nofun, nofun, nofun, nofun, nofun, nofun, nofun, nofun, nofun, trivial⟩
  have hended : d.phase = .ended true := rfl
  obtain ⟨-, hgiven, -, hshut, -⟩ :=
    (one_stream ⟨0, 0⟩ false delivered hout).2.2.2.2 (by decide) true hended
  exact ⟨hended, rfl, hgiven, hshut⟩

/-- **The bytes in the pipe are lost where the splice into the destination is not supported**: the
direction ends with an error though no socket has failed. -/
theorem unsupported_loses_bytes :
    let evs := oneByteEach ++ [.io .unsupported]
    let d := after (step ⟨0, 0⟩) (start ⟨0, 0⟩ false) evs
    (∀ ev ∈ evs, ev.fails = false) ∧ d.phase = .ended false ∧ d.wire.ended = false ∧
      d.wire.taken = [1, 2] ∧ d.wire.given = [1] ∧ d.shut = 0 :=
  ⟨by decide, rfl, rfl, rfl, rfl, rfl⟩

end Direction
end Splice
end Rproxy
