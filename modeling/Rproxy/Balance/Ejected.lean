import Rproxy.Balance.Outlier
import Rproxy.Data.Holders
import Rproxy.Rule.Plain

/-!
# How many targets are ejected, and for how long

Over every run of a pool, the ejected targets are at most `max_ejected_percent` of its targets, and
a target is ejected only after `consecutive_failures` failures in a row.
-/

namespace Rproxy.Outlier
open List Checks Holders Nat
variable {clock : Clock} {e : Ejecting} {members : List Target} {m : Target} {w : World}
  {i n now t : ℕ}

lemma failed_cases (cfg : L4Outlier) (hm : members[i]? = some m) (clock : Clock) :
    (∃ x : Ejection, x.untilMs = m.ejection.untilMs ∧ x.counts.level = m.ejection.counts.level ∧
        x.counts.lastEnd = m.ejection.counts.lastEnd ∧
        (m.ejection.isEjected (clock 0) ∨
          (m.ejection.recordL4 cfg true).2 ∧
            cfg.ejecting.allows (ejectedAt members fun j => clock (j + 1)) members.length) ∧
        Pool.failed cfg members i clock = (members.set i { m with
          ejection := x.eject cfg.ejecting (clock (members.length + 1))
            (clock (members.length + 2)) }, true)) ∨
      Pool.failed cfg members i clock =
        (members.set i { m with ejection := (m.ejection.recordL4 cfg true).1 }, false) := by
  by_cases hagain : m.ejection.isEjected (clock 0)
  · exact .inl ⟨m.ejection, rfl, rfl, rfl, .inl hagain, by simp only [Pool.failed, hm, hagain,
      if_pos]⟩
  by_cases hallow : (m.ejection.recordL4 cfg true).2 ∧
      cfg.ejecting.allows (ejectedAt members fun j => clock (j + 1)) members.length
  · refine .inl ⟨(m.ejection.recordL4 cfg true).1, rfl, rfl, rfl, .inr hallow, ?_⟩
    simp only [Pool.failed, hm, hagain, Bool.false_eq_true, if_false, if_pos hallow]
  refine .inr ?_
  simp only [Pool.failed, hm, hagain, Bool.false_eq_true, if_false, if_neg hallow]

variable {cfg : L4Outlier}

lemma failed_none (hm : members[i]? = none) (clock : Clock) :
    Pool.failed cfg members i clock = (members, false) := by
  simp only [Pool.failed, hm]

/-! ## The share -/

variable {x : Ejection}

lemma Ejection.isEjected_of_le {u : ℕ} (h : t ≤ u) (hu : x.isEjected u) : x.isEjected t := by
  simp only [isEjected, decide_eq_true_eq] at hu ⊢
  exact ⟨hu.1, lt_of_le_of_lt h hu.2⟩

lemma World.ejected_le_ejectedAt (h : ∀ j < w.members.length, clock j ≤ t) :
    w.ejected t ≤ ejectedAt w.members clock := by
  have hall : w.ejected t = w.members.zipIdx.countP fun p => p.1.ejection.isEjected t := by
    rw [ejected, ← zipIdx_map_fst 0 w.members, countP_map, zipIdx_map_fst]
    rfl
  rw [hall]
  refine countP_mono_left fun p hp hejected => ?_
  exact Ejection.isEjected_of_le (h p.2 (snd_lt_of_mem_zipIdx hp)) hejected

def World.Within (cfg : L4Outlier) (n : ℕ) (w : World) : Prop :=
  w.members.length = n ∧ ∀ t, w.now ≤ t → w.ejected t * 100 ≤ cfg.ejecting.maxPercent * n

lemma World.Within.of_le {w' : World} (h : w.Within cfg n)
    (hlen : w'.members.length = w.members.length) (hnow : w.now ≤ w'.now)
    (hle : ∀ t, w'.ejected t ≤ w.ejected t) : w'.Within cfg n := by
  refine ⟨hlen.trans h.1, fun t ht => ?_⟩
  exact le_trans (mul_le_mul_right _ (hle t)) (h.2 t (hnow.trans ht))

variable {f : Target → Target}

lemma ejected_modify_le {a b : ℕ}
    (hf : ∀ m, (f m).ejection.isEjected t → m.ejection.isEjected t) :
    World.ejected ⟨a, members.modify i f⟩ t ≤ World.ejected ⟨b, members⟩ t := by
  simp only [World.ejected]
  induction members generalizing i with
  | nil => rw [modify_nil]
  | cons m members ih =>
    cases i with
    | zero =>
      rw [modify_zero_cons, countP_cons, countP_cons]
      by_cases hm : (f m).ejection.isEjected t
      · simp only [hm, hf m hm, if_true, le_refl]
      rw [if_neg hm]
      exact Nat.add_le_add_left (Nat.zero_le _) _
    | succ i =>
      rw [modify_succ_cons, countP_cons, countP_cons]
      exact Nat.add_le_add_right ih _

lemma isEjected_recordL4 (x : Ejection) (cfg : L4Outlier) (b : Bool) (t : ℕ) :
    (x.recordL4 cfg b).1.isEjected t = x.isEjected t := by
  cases b <;> rfl

lemma Pool.ejected_succeeded_le (i a b t : ℕ) :
    World.ejected ⟨a, succeeded cfg members i⟩ t ≤ World.ejected ⟨b, members⟩ t :=
  ejected_modify_le fun m h => by rwa [isEjected_recordL4] at h

lemma Pool.ejected_checked_le (i : ℕ) (up : Bool) (a b t : ℕ) :
    World.ejected ⟨a, checked members i up⟩ t ≤ World.ejected ⟨b, members⟩ t := by
  refine ejected_modify_le fun m h => ?_
  split at h
  · cases up with
    | true => simp [Ejection.isEjected, Ejection.clear] at h
    | false => exact h
  · exact h

def World.others (w : World) (i t : ℕ) : ℕ :=
  (w.members.eraseIdx i).countP fun m => m.ejection.isEjected t

lemma World.others_le (w : World) (i : ℕ) {u : ℕ} (h : t ≤ u) : w.others i u ≤ w.others i t :=
  countP_mono_left fun _ _ hejected => Ejection.isEjected_of_le h hejected

lemma World.others_add (hm : w.members[i]? = some m) (t : ℕ) :
    w.others i t + (if m.ejection.isEjected t then 1 else 0) = w.ejected t :=
  countP_eraseIdx_add (fun m : Target => m.ejection.isEjected t) hm

lemma World.ejected_set (hm : w.members[i]? = some m) (m' : Target) (now t : ℕ) :
    World.ejected ⟨now, w.members.set i m'⟩ t =
      w.others i t + (if m'.ejection.isEjected t then 1 else 0) := by
  have hi := lt_of_getElem? hm
  have hset : (w.members.set i m')[i]? = some m' := getElem?_set_self hi
  rw [← World.others_add (w := ⟨now, w.members.set i m'⟩) hset t, others, others, eraseIdx_set_eq]

/-- **A failure keeps the share**: the member was ejected already, or the others were counted when
all of them were what they are now. -/
theorem World.Within.failed (h : w.Within cfg n) (i : ℕ) (hmono : Monotone clock)
    (hnow : w.now ≤ clock 0) :
    (w.failed cfg i clock).Within cfg n := by
  have hend : clock 0 ≤ clock (w.members.length + 2) := hmono (zero_le _)
  cases hm : w.members[i]? with
  | none =>
    refine h.of_le ?_ (hnow.trans hend) fun t => ?_
    · simp only [World.failed, failed_none hm]
    · simp only [World.failed, failed_none hm, World.ejected, le_refl]
  | some m =>
    rcases failed_cases cfg hm clock with ⟨x, -, -, -, hwhy, heq⟩ | heq
    · refine ⟨by simpa only [World.failed, heq, length_set] using h.1, fun t ht => ?_⟩
      replace ht : clock (w.members.length + 2) ≤ t := ht
      have hone : (w.failed cfg i clock).ejected t ≤ w.others i t + 1 := by
        simp only [World.failed, heq]
        rw [World.ejected_set hm]
        split <;> omega
      rcases hwhy with hagain | ⟨-, hallow⟩
      · -- it was one of the ejected at the first reading
        have hfirst : w.others i (clock 0) + 1 = w.ejected (clock 0) := by
          rw [← World.others_add hm, if_pos hagain]
        have hothers := w.others_le i (hend.trans ht)
        exact le_trans (mul_le_mul_right _ (by omega)) (h.2 _ hnow)
      have hcount : w.ejected t ≤ ejectedAt w.members fun j => clock (j + 1) :=
        World.ejected_le_ejectedAt fun j hj => (hmono (by omega)).trans ht
      have hothers : w.others i t ≤ w.ejected t := by
        rw [← World.others_add hm]
        exact le_add_right _ _
      rw [Ejecting.allows, decide_eq_true_eq, h.1] at hallow
      exact le_trans (mul_le_mul_right _ (by omega)) hallow
    refine h.of_le ?_ (hnow.trans hend) fun t => ?_
    · simp only [World.failed, heq, length_set]
    simp only [World.failed, heq]
    rw [World.ejected_set hm, isEjected_recordL4, World.others_add hm]

lemma World.Within.step {a : Act} (h : w.Within cfg n) (hord : w.InOrder a) :
    (w.step cfg a).Within cfg n := by
  have hsucceeded : ∀ i, World.Within cfg n ⟨w.now, Pool.succeeded cfg w.members i⟩ := fun i =>
    h.of_le (length_modify _ _ _) (le_refl _) fun t =>
      Pool.ejected_succeeded_le i _ w.now t
  cases a with
  | pass ms => exact h.of_le rfl (le_add_right _ _) fun t => le_refl _
  | failed i clock => exact h.failed i hord.1 hord.2
  | succeeded i => exact hsucceeded i
  | ended i lived backendFirst clock =>
    simp only [World.step]
    split
    · exact h
    split
    · exact h.failed i hord.1 hord.2
    · exact hsucceeded i
  | checked i up =>
    exact h.of_le (length_modify _ _ _) (le_refl _) fun t =>
      Pool.ejected_checked_le i up _ w.now t

/-! ## The lengths -/

structure Spell where
  /-- Its place among the ejections since the last gap longer than `max_ejection_time`. -/
  level : ℕ
  started : ℕ
  ends : ℕ
  cleared : Option ℕ
deriving DecidableEq

namespace Spell

def back (s : Spell) : ℕ := s.cleared.getD s.ends

def levelAfter (maxTime : ℕ) (last : Option Spell) (now : ℕ) : ℕ :=
  match last with
  | none => 1
  | some s => if now - s.back > maxTime then 1 else s.level + 1

def levelAt (maxTime : ℕ) (again : Bool) (last : Option Spell) (now : ℕ) : ℕ :=
  if again then last.elim 0 Spell.level else levelAfter maxTime last now

def length (e : Ejecting) (level : ℕ) : ℕ := min (e.time * 2 ^ (level - 1)) e.maxTime

end Spell

structure Watched extends World where
  spells : ℕ → Option Spell

namespace Watched

def new (now n : ℕ) : Watched := ⟨.new now n, fun _ => none⟩

def noteFailed (cfg : L4Outlier) (x : Watched) (i : ℕ) (clock : Clock) : ℕ → Option Spell :=
  match x.members[i]?, (Pool.failed cfg x.members i clock).1[i]?,
      (Pool.failed cfg x.members i clock).2 with
  | some m, some m', true =>
    let now := clock (x.members.length + 1)
    let again := m.ejection.isEjected (clock (x.members.length + 2))
    Function.update x.spells i (some
      { level := Spell.levelAt cfg.ejecting.maxTime again (x.spells i) now
        started := now
        ends := m'.ejection.untilMs
        cleared := none })
  | _, _, _ => x.spells

def noteChecked (x : Watched) (i : ℕ) (up : Bool) : ℕ → Option Spell :=
  match x.members[i]? with
  | some m =>
    if up ∧ m.healthy ≠ up ∧ m.ejection.isEjected x.now then
      Function.update x.spells i ((x.spells i).map fun s => { s with cleared := some x.now })
    else x.spells
  | none => x.spells

def note (cfg : L4Outlier) (x : Watched) : Act → ℕ → Option Spell
  | .failed i clock => x.noteFailed cfg i clock
  | .ended i lived backendFirst clock =>
    if cfg.shortLived ≠ 0 ∧ Pool.endedFailed cfg lived backendFirst then x.noteFailed cfg i clock
    else x.spells
  | .checked i up => x.noteChecked i up
  | _ => x.spells

def step (cfg : L4Outlier) (x : Watched) (a : Act) : Watched :=
  ⟨x.toWorld.step cfg a, x.note cfg a⟩

/-- The gap from a member's last ejection is longer than `max_ejection_time`, counted from its
return, only if it is so counted from the end that had been set. -/
def SameGapAt (cfg : L4Outlier) (x : Watched) (i now : ℕ) : Prop :=
  ∀ s, x.spells i = some s → cfg.ejecting.maxTime < now - s.back →
    cfg.ejecting.maxTime < now - s.ends

def SameGap (cfg : L4Outlier) (x : Watched) : Act → Prop
  | .failed i clock => x.SameGapAt cfg i (clock (x.members.length + 1))
  | .ended i lived backendFirst clock =>
    cfg.shortLived ≠ 0 → Pool.endedFailed cfg lived backendFirst →
      x.SameGapAt cfg i (clock (x.members.length + 1))
  | _ => True

end Watched

def Ejecting.Fits (e : Ejecting) : Prop := 0 < e.time ∧ e.maxTime ≤ e.time * maxU32

lemma length_of_level (h : e.Fits) (level : ℕ) :
    min (e.time * factor (min level maxU32 - 1)) e.maxTime = Spell.length e level := by
  rw [Spell.length]
  by_cases hlt : level - 1 < 32
  · have hmin : min level maxU32 = level := min_eq_left (by unfold maxU32; omega)
    rw [hmin, factor, if_pos hlt]
  have hfactor : factor (min level maxU32 - 1) = maxU32 := by
    rw [factor, if_neg]
    unfold maxU32
    omega
  have hpow : maxU32 ≤ 2 ^ (level - 1) :=
    (Nat.sub_le _ _).trans (Nat.pow_le_pow_right (by decide) (by omega))
  rw [hfactor, min_eq_right h.2, min_eq_right (h.2.trans (mul_le_mul_left _ hpow))]

/-! ### What is noted is what the code has -/

structure Tracks (e : Ejecting) (now : ℕ) (x : Ejection) (s : Spell) : Prop where
  level_pos : 0 < s.level
  level : x.counts.level = min s.level maxU32
  lastEnd : x.counts.lastEnd = s.ends
  ends_pos : 0 < s.ends
  exact : s.ends = s.started + Spell.length e s.level
  cleared_le : ∀ c, s.cleared = some c → c ≤ s.ends
  untilMs : (s.cleared = none ∧ x.untilMs = s.ends) ∨
    (x.untilMs = 0 ∧ (s.cleared = none → s.ends ≤ now))

def Tracked (e : Ejecting) (now : ℕ) (x : Ejection) : Option Spell → Prop
  | none => x.untilMs = 0 ∧ x.counts.level = 0 ∧ x.counts.lastEnd = 0
  | some s => Tracks e now x s

variable {o : Option Spell}

lemma Tracked.keep {now' : ℕ} {x' : Ejection} (h : Tracked e now x o)
    (hnow : now ≤ now') (huntil : x'.untilMs = x.untilMs)
    (hlevel : x'.counts.level = x.counts.level) (hend : x'.counts.lastEnd = x.counts.lastEnd) :
    Tracked e now' x' o := by
  cases o with
  | none => exact ⟨huntil.trans h.1, hlevel.trans h.2.1, hend.trans h.2.2⟩
  | some s =>
    refine { h with level := hlevel.trans h.level, lastEnd := hend.trans h.lastEnd, untilMs := ?_ }
    rw [huntil]
    exact h.untilMs.imp_right fun ⟨hzero, hover⟩ => ⟨hzero, fun hc => (hover hc).trans hnow⟩

lemma Tracks.isEjected_iff {s : Spell} (h : Tracks e now x s) (ht : now ≤ t) :
    x.isEjected t ↔ s.cleared = none ∧ t < s.ends := by
  rw [Ejection.isEjected, decide_eq_true_eq]
  rcases h.untilMs with ⟨hnone, huntil⟩ | ⟨hzero, hover⟩
  · simp only [huntil, hnone, true_and]
    omega
  simp only [hzero, ne_eq, not_true_eq_false, false_and, false_iff, not_and, not_lt]
  exact fun hnone => (hover hnone).trans ht

lemma saturatingSucc_min (n : ℕ) : saturatingSucc (min n maxU32) = min (n + 1) maxU32 := by
  unfold saturatingSucc
  omega

lemma Tracked.nextLevel {later : ℕ} (h : Tracked e now x o)
    (hgap : ∀ s, o = some s → e.maxTime < t - s.back → e.maxTime < t - s.ends) :
    0 < Spell.levelAt e.maxTime (x.isEjected later) o t ∧
      x.nextLevel e t later = min (Spell.levelAt e.maxTime (x.isEjected later) o t) maxU32 := by
  cases o with
  | none =>
    have hnot : x.isEjected later = false := by simp [Ejection.isEjected, h.1]
    simp only [Spell.levelAt, Ejection.nextLevel, hnot, Bool.false_eq_true, if_false,
      Spell.levelAfter, h.2.1, ite_self]
    decide
  | some s =>
    by_cases hagain : x.isEjected later
    · simp only [Spell.levelAt, Ejection.nextLevel, hagain, if_true, Option.elim_some]
      exact ⟨h.level_pos, h.level⟩
    -- counted from either end, the gap is on the same side
    have hback : s.back ≤ s.ends := by
      rw [Spell.back]
      cases hc : s.cleared with
      | none => exact le_refl _
      | some c => exact h.cleared_le c hc
    have hiff : (x.counts.lastEnd ≠ 0 ∧ t - x.counts.lastEnd > e.maxTime) ↔
        t - s.back > e.maxTime := by
      rw [h.lastEnd]
      have hpos := h.ends_pos
      constructor
      · omega
      intro hlong
      exact ⟨by omega, hgap s rfl hlong⟩
    simp only [Spell.levelAt, Ejection.nextLevel, hagain, Bool.false_eq_true, if_false,
      Spell.levelAfter, if_congr hiff rfl rfl]
    split
    · decide
    rw [h.level, saturatingSucc_min]
    exact ⟨succ_pos _, rfl⟩

lemma Tracked.eject (hfits : e.Fits) {later : ℕ} (h : Tracked e now x o)
    (hgap : ∀ s, o = some s → e.maxTime < t - s.back → e.maxTime < t - s.ends) :
    Tracked e later (x.eject e t later)
      (some
        { level := Spell.levelAt e.maxTime (x.isEjected later) o t
          started := t
          ends := (x.eject e t later).untilMs
          cleared := none }) := by
  obtain ⟨hpos, hlevel⟩ := h.nextLevel hgap
  have huntil : (x.eject e t later).untilMs =
      t + Spell.length e (Spell.levelAt e.maxTime (x.isEjected later) o t) := by
    rw [← length_of_level hfits, ← hlevel]
    rfl
  have hlength : 0 < Spell.length e (Spell.levelAt e.maxTime (x.isEjected later) o t) :=
    Nat.lt_min.mpr ⟨Nat.mul_pos hfits.1 (Nat.two_pow_pos _), hfits.1.trans_le e.time_le⟩
  exact
    { level_pos := hpos
      level := hlevel
      lastEnd := rfl
      ends_pos := by
        show 0 < (x.eject e t later).untilMs
        omega
      exact := huntil
      cleared_le := nofun
      untilMs := .inl ⟨rfl, rfl⟩ }

lemma Tracked.clear (h : Tracked e now x o) : Tracked e now x.clear
      (if x.isEjected now then o.map fun s => { s with cleared := some now } else o) := by
  cases o with
  | none =>
    rw [Option.map_none, ite_self]
    exact ⟨rfl, h.2.1, h.2.2⟩
  | some s =>
    by_cases hejected : x.isEjected now
    · rw [if_pos hejected]
      have hlt := ((h.isEjected_iff (le_refl _)).mp hejected).2
      exact { h with
        cleared_le := fun c hc => by
          obtain rfl : now = c := Option.some.inj hc
          exact hlt.le
        untilMs := .inr ⟨rfl, nofun⟩ }
    rw [if_neg hejected]
    refine { h with untilMs := .inr ⟨rfl, fun hnone => ?_⟩ }
    by_contra hlt
    exact hejected ((h.isEjected_iff (Nat.le_refl _)).mpr ⟨hnone, Nat.lt_of_not_le hlt⟩)

/-! ### Every run -/

def Watched.Right (e : Ejecting) (x : Watched) : Prop :=
  ∀ i m, x.members[i]? = some m → Tracked e x.now m.ejection (x.spells i)

namespace Watched.Right
variable {cfg : L4Outlier} {x : Watched}

lemma modify (h : x.Right cfg.ejecting) (i : ℕ)
    (hf : ∀ m, (f m).ejection.untilMs = m.ejection.untilMs ∧
      (f m).ejection.counts.level = m.ejection.counts.level ∧
      (f m).ejection.counts.lastEnd = m.ejection.counts.lastEnd) {now : ℕ} (hnow : x.now ≤ now) :
    Watched.Right cfg.ejecting ⟨⟨now, x.members.modify i f⟩, x.spells⟩ := by
  intro j m' hm'
  replace hm' : (x.members.modify i f)[j]? = some m' := hm'
  rw [getElem?_modify] at hm'
  obtain ⟨m, hm, rfl⟩ := Option.map_eq_some_iff.mp hm'
  split
  · exact (h j m hm).keep hnow (hf m).1 (hf m).2.1 (hf m).2.2
  · exact (h j m hm).keep hnow rfl rfl rfl

lemma failed (hfits : cfg.ejecting.Fits) (h : x.Right cfg.ejecting) (hmono : Monotone clock)
    (hnow : x.now ≤ clock 0) (hgap : x.SameGapAt cfg i (clock (x.members.length + 1))) :
    Watched.Right cfg.ejecting ⟨x.toWorld.failed cfg i clock, x.noteFailed cfg i clock⟩ := by
  have hend : x.now ≤ clock (x.members.length + 2) := hnow.trans (hmono (zero_le _))
  intro j m' hm'
  replace hm' : (Pool.failed cfg x.members i clock).1[j]? = some m' := hm'
  cases hm : x.members[i]? with
  | none =>
    rw [failed_none hm] at hm'
    simp only [noteFailed, hm]
    exact (h j m' hm').keep hend rfl rfl rfl
  | some m =>
    have hset : ∀ m'' : Target, (x.members.set i m'')[i]? = some m'' := fun _ =>
      List.getElem?_set_self (lt_of_getElem? hm)
    rcases failed_cases cfg hm clock with ⟨y, huntil, hlevel, hlast, -, heq⟩ | heq
    · simp only [noteFailed, hm, heq, hset] at hm' ⊢
      rcases getElem?_set_cases hm' with ⟨rfl, rfl⟩ | ⟨hij, hm'⟩
      · have hy : Tracked cfg.ejecting x.now y (x.spells j) :=
          (h j m hm).keep (le_refl _) huntil hlevel hlast
        have hagain : m.ejection.isEjected (clock (x.members.length + 2)) =
            y.isEjected (clock (x.members.length + 2)) := by
          simp only [Ejection.isEjected, huntil]
        rw [Function.update_self, hagain]
        exact hy.eject hfits hgap
      rw [Function.update_of_ne hij]
      exact (h j m' hm').keep hend rfl rfl rfl
    simp only [noteFailed, hm, heq, hset] at hm' ⊢
    rcases getElem?_set_cases hm' with ⟨rfl, rfl⟩ | ⟨-, hm'⟩
    · exact (h j m hm).keep hend rfl rfl rfl
    · exact (h j m' hm').keep hend rfl rfl rfl

lemma noteChecked_self (hm : x.members[i]? = some m) (up : Bool) : x.noteChecked i up i =
      if up ∧ m.healthy ≠ up ∧ m.ejection.isEjected x.now then
        (x.spells i).map fun s => { s with cleared := some x.now }
      else x.spells i := by
  simp only [noteChecked, hm]
  split
  · exact Function.update_self _ _ _
  · rfl

lemma noteChecked_ne {j : ℕ} (hij : i ≠ j) (up : Bool) : x.noteChecked i up j = x.spells j := by
  cases hm : x.members[i]? with
  | none => simp only [noteChecked, hm]
  | some m =>
    simp only [noteChecked, hm]
    split
    · exact Function.update_of_ne hij.symm _ _
    · rfl

lemma checked (h : x.Right cfg.ejecting) (i : ℕ) (up : Bool) :
    Watched.Right cfg.ejecting ⟨⟨x.now, Pool.checked x.members i up⟩, x.noteChecked i up⟩ := by
  intro j m' hm'
  replace hm' : (Pool.checked x.members i up)[j]? = some m' := hm'
  show Tracked cfg.ejecting x.now m'.ejection (x.noteChecked i up j)
  rw [Pool.checked, getElem?_modify] at hm'
  obtain ⟨m, hm, rfl⟩ := Option.map_eq_some_iff.mp hm'
  by_cases hij : i = j
  · subst hij
    rw [if_pos rfl, noteChecked_self hm]
    by_cases hchanged : m.healthy ≠ up
    · rw [if_pos hchanged]
      cases up with
      | true =>
        have hiff : (true ∧ m.healthy ≠ true ∧ m.ejection.isEjected x.now) ↔
            m.ejection.isEjected x.now :=
          ⟨fun hall => hall.2.2, fun hejected => ⟨rfl, hchanged, hejected⟩⟩
        rw [if_congr hiff rfl rfl]
        exact (h i m hm).clear
      | false => simpa using h i m hm
    · rw [if_neg hchanged, if_neg fun hall => hchanged hall.2.1]
      exact h i m hm
  · rw [noteChecked_ne hij, if_neg hij]
    exact h j m hm

lemma step (hfits : cfg.ejecting.Fits) (h : x.Right cfg.ejecting) {a : Act}
    (hord : x.InOrder a) (hgap : x.SameGap cfg a) : (x.step cfg a).Right cfg.ejecting := by
  have hsucceeded : ∀ i,
      Watched.Right cfg.ejecting ⟨⟨x.now, Pool.succeeded cfg x.members i⟩, x.spells⟩ := fun i =>
    h.modify i (f := fun m => { m with ejection := (m.ejection.recordL4 cfg false).1 })
      (fun m => ⟨rfl, rfl, rfl⟩) (le_refl _)
  cases a with
  | pass ms =>
    intro i m hm
    exact (h i m hm).keep (le_add_right _ _) rfl rfl rfl
  | failed i clock => exact h.failed hfits hord.1 hord.2 hgap
  | succeeded i => exact hsucceeded i
  | ended i lived backendFirst clock =>
    simp only [Watched.step, World.step, note]
    by_cases hshort : cfg.shortLived = 0
    · simp only [hshort, if_true, ne_eq, not_true_eq_false, false_and, if_false]
      exact h
    by_cases hfailed : Pool.endedFailed cfg lived backendFirst
    · simp only [hshort, if_false, hfailed, if_true, ne_eq, not_false_eq_true, true_and]
      exact h.failed hfits hord.1 hord.2 (hgap hshort hfailed)
    simp only [hshort, if_false, hfailed, Bool.false_eq_true, and_false]
    exact hsucceeded i
  | checked i up => exact h.checked i up

end Watched.Right

/-- Every member that was ejected has its last ejection, of the length of its place, and is ejected
while that lasts. -/
def Watched.Exact (e : Ejecting) (x : Watched) : Prop :=
  ∀ i m, x.members[i]? = some m →
    match x.spells i with
    | none => ∀ t, m.ejection.isEjected t = false
    | some s =>
      s.ends = s.started + min (e.time * 2 ^ (s.level - 1)) e.maxTime ∧
        ∀ t, x.now ≤ t → (m.ejection.isEjected t ↔ s.cleared = none ∧ t < s.ends)

lemma Watched.Right.exact {x : Watched} (h : x.Right e) : x.Exact e := by
  intro i m hm
  have htracked := h i m hm
  cases hs : x.spells i with
  | none =>
    rw [hs] at htracked
    simp [Ejection.isEjected, htracked.1]
  | some s =>
    rw [hs] at htracked
    exact ⟨Tracks.exact htracked, fun t ht => Tracks.isEjected_iff htracked ht⟩

/-! ### The settings that validate -/

lemma parse_of_duration [External] {what : String} {v : Option String} {low high : ℕ}
    {r : Option ℕ} (hlow : 0 < low) (h : L4OutlierSpec.duration what v low high = .ok r) :
    Ejecting.parse v = r ∧ ∀ d, r = some d → low ≤ d ∧ d ≤ high := by
  cases v with
  | none =>
    obtain rfl : none = r := Except.ok.inj h
    exact ⟨rfl, nofun⟩
  | some text =>
    rw [L4OutlierSpec.duration] at h
    split at h
    · -- `0s` is below every least time
      simp only [bind_eq_ok, refuseIf_eq_ok, Except.ok.injEq, not_or] at h
      omega
    simp only [bind_eq_ok, mapError_eq_ok, refuseIf_eq_ok, exists_unit, pure_eq_ok, not_or,
      not_lt] at h
    obtain ⟨d, hd, hrange, rfl⟩ := h
    refine ⟨by simp [Ejecting.parse, hd, Except.toOption], fun d' hd' => ?_⟩
    obtain rfl := Option.some.inj hd'
    exact hrange

lemma fits_of_validate [External] {spec : Option L4OutlierSpec}
    (hvalid : ∀ s, spec = some s → s.validate = .ok ()) : (L4Outlier.new spec).ejecting.Fits := by
  have hsettings : ∃ first max : Option ℕ,
      Ejecting.parse (spec.getD noSettings).ejectionTime = first ∧
      Ejecting.parse (spec.getD noSettings).maxEjectionTime = max ∧
      (∀ d, first = some d → 1000 ≤ d ∧ d ≤ 3600000) ∧
      ∀ d, max = some d → 1000 ≤ d ∧ d ≤ 3600000 := by
    cases spec with
    | none => exact ⟨none, none, rfl, rfl, nofun, nofun⟩
    | some s =>
      have h := hvalid s rfl
      simp only [L4OutlierSpec.validate, L4OutlierSpec.ejection, bind_eq_ok, exists_unit] at h
      obtain ⟨-, -, -, ⟨first, hfirst, max, hmax, -⟩, -⟩ := h
      obtain ⟨hparse, hrange⟩ := parse_of_duration (by decide) hfirst
      obtain ⟨hparse', hrange'⟩ := parse_of_duration (by decide) hmax
      exact ⟨first, max, hparse, hparse', hrange, hrange'⟩
  obtain ⟨first, max, hfirst, hmax, hrange, hrange'⟩ := hsettings
  simp only [L4Outlier.new, Ejecting.Fits, Ejecting.new, hfirst, hmax, Option.or_none]
  have htime : 1000 ≤ first.getD failCooldown ∧ first.getD failCooldown ≤ 3600000 := by
    cases first with
    | none => decide
    | some d => exact hrange d rfl
  have hmaxTime : max.getD (first.getD failCooldown) ≤ 3600000 := by
    cases max with
    | none => exact htime.2
    | some d => exact (hrange' d rfl).2
  refine ⟨by omega, ?_⟩
  calc Nat.max (max.getD (first.getD failCooldown)) (first.getD failCooldown)
      ≤ 3600000 := Nat.max_le.mpr ⟨hmaxTime, htime.2⟩
    _ ≤ 1000 * maxU32 := by decide
    _ ≤ first.getD failCooldown * maxU32 := mul_le_mul_right _ htime.1

/-- **Outlier ejection keeps to its share, and each ejection to its length.** The ejected targets
are never more than `max_ejected_percent`; and if no gap to an ejection that a health check ended
depends on where it is counted from, each lasts as its place in its row gives. -/
theorem ejections_bounded [External] (spec : Option L4OutlierSpec)
    (hvalid : ∀ s, spec = some s → s.validate = .ok ()) (now n : ℕ) (acts : List Act)
    (hord : Along (Watched.step (.new spec)) (fun x a => x.InOrder a) (Watched.new now n) acts) :
    (∀ t, (after (Watched.step (.new spec)) (Watched.new now n) acts).now ≤ t →
      (after (Watched.step (.new spec)) (Watched.new now n) acts).ejected t * 100 ≤
        (L4Outlier.new spec).ejecting.maxPercent * n) ∧
    (Along (Watched.step (.new spec)) (fun x a => x.SameGap (.new spec) a) (Watched.new now n)
        acts →
      (after (Watched.step (.new spec)) (Watched.new now n) acts).Exact
        (L4Outlier.new spec).ejecting) := by
  have hfits := fits_of_validate hvalid
  refine ⟨?_, fun hgap => ?_⟩
  · have hnew : (Watched.new now n).Within (L4Outlier.new spec) n := by
      refine ⟨length_replicate, fun t _ => ?_⟩
      have hzero : (Watched.new now n).ejected t = 0 :=
        countP_eq_zero.mpr fun m hm => by
          rw [eq_of_mem_replicate hm]
          simp [Target.new, Ejection.default, Ejection.isEjected]
      rw [hzero]
      exact Nat.zero_le _
    exact (hord.invariant (I := fun x : Watched => x.Within (L4Outlier.new spec) n) hnew
      fun _ _ h hstep => h.step hstep).2
  have hnew : (Watched.new now n).Right (L4Outlier.new spec).ejecting := by
    intro i m hm
    obtain rfl := eq_of_mem_replicate (mem_of_getElem? hm)
    exact ⟨rfl, rfl, rfl⟩
  exact ((hord.and hgap).invariant (I := fun x : Watched => x.Right (L4Outlier.new spec).ejecting)
    hnew
    fun _ _ h hstep => h.step hfits hstep.1 hstep.2).exact

namespace Cleared
open scoped Plain

def spec : L4OutlierSpec :=
  { noSettings with ejectionTime := some "2s", maxEjectionTime := some "4s" }

def instant (ms : ℕ) : Clock := fun _ => ms

def acts (back gap : ℕ) : List Act :=
  [.failed 0 (instant 1), .checked 0 false, .pass back, .checked 0 true, .pass gap,
   .failed 0 (instant (1 + back + gap))]

lemma spec_valid : spec.validate = .ok () := by decide +kernel

lemma inOrder (back gap : ℕ) :
    Along (Watched.step (.new (some spec))) (fun x a => x.InOrder a) (Watched.new 1 1)
      (acts back gap) := by
  refine ⟨⟨monotone_const, le_refl _⟩, trivial, trivial, trivial, trivial,
    ⟨monotone_const, ?_⟩, trivial⟩
  exact le_refl _

theorem ejections_bounded_of_short_gap :
    (after (Watched.step (.new (some spec))) (Watched.new 1 1) (acts 100 2000)).ejected 2101 * 100 ≤
        (L4Outlier.new (some spec)).ejecting.maxPercent * 1 ∧
      (after (Watched.step (.new (some spec))) (Watched.new 1 1) (acts 100 2000)).Exact
        (L4Outlier.new (some spec)).ejecting := by
  have h := ejections_bounded (some spec) (fun s hs => Option.some.inj hs ▸ spec_valid) 1 1
    (acts 100 2000) (inOrder 100 2000)
  refine ⟨h.1 2101 (Nat.le_refl _), h.2 ⟨nofun, trivial, trivial, trivial, trivial, ?_, trivial⟩⟩
  intro s hs hlong
  obtain rfl : ⟨1, 1, 2001, some 101⟩ = s := by
    refine Option.some.inj (Eq.trans ?_ hs)
    decide +kernel
  revert hlong
  decide +kernel

/-- Failing again 4.9 seconds after its return, the target starts over, but is out for four seconds,
as if there were no gap. -/
theorem length_after_clear :
    Along (Watched.step (.new (some spec))) (fun x a => x.InOrder a) (Watched.new 1 1)
        (acts 99 4900) ∧
      ¬ (after (Watched.step (.new (some spec))) (Watched.new 1 1) (acts 99 4900)).Exact
        (L4Outlier.new (some spec)).ejecting := by
  refine ⟨inOrder 99 4900, fun h => ?_⟩
  have hspell :
      (after (Watched.step (.new (some spec))) (Watched.new 1 1) (acts 99 4900)).spells 0 =
      some ⟨1, 5000, 9000, none⟩ := by decide +kernel
  have hmember : (after (Watched.step (.new (some spec))) (Watched.new 1 1)
      (acts 99 4900)).members[0]? = some ⟨true, ⟨9000, 2, ⟨0, 0, 0, 0, 0, 2, 9000⟩⟩⟩ := by
    decide +kernel
  have htime : (L4Outlier.new (some spec)).ejecting.time = 2000 := by decide +kernel
  have hexact := h 0 _ hmember
  rw [hspell] at hexact
  have hends := hexact.1
  simp only [htime, Nat.sub_self, Nat.pow_zero] at hends
  omega

end Cleared

/-! ## Failures in a row -/

/-- The failures in a row of the target `i`, which were `n`, after one more event. -/
def counted (cfg : L4Outlier) (i n : ℕ) : Act → ℕ
  | .failed j _ => if j = i then n + 1 else n
  | .succeeded j => if j = i then 0 else n
  | .ended j lived backendFirst _ =>
    if cfg.shortLived = 0 then n
    else if j = i then if Pool.endedFailed cfg lived backendFirst then n + 1 else 0
    else n
  | .pass _ | .checked .. => n

def streak (cfg : L4Outlier) (i : ℕ) (acts : List Act) : ℕ := acts.foldl (counted cfg i) 0

def Quiet (n : ℕ) (m : Target) : Prop :=
  m.ejection.untilMs = 0 ∧ m.ejection.counts.failures ≤ n

lemma quiet_modify {j k : ℕ} {f : Target → Target} (h : ∀ m ∈ members[i]?, Quiet n m)
    (hf : j = i → ∀ m ∈ members[i]?, Quiet k (f m)) :
    ∀ m ∈ (members.modify j f)[i]?, Quiet (if j = i then k else n) m := by
  intro m' hm'
  rw [Option.mem_def, getElem?_modify] at hm'
  obtain ⟨m, hm, rfl⟩ := Option.map_eq_some_iff.mp hm'
  split
  next hij => exact hf hij m hm
  · exact h m hm

lemma quiet_failed {j : ℕ} (h : ∀ m ∈ members[i]?, Quiet n m)
    (hn : (if j = i then n + 1 else n) < cfg.consecutiveFailures) (clock : Clock) :
    ∀ m ∈ (Pool.failed cfg members j clock).1[i]?, Quiet (if j = i then n + 1 else n) m := by
  cases hm : members[j]? with
  | none =>
    rw [failed_none hm, ← modify_id j members]
    exact quiet_modify h fun _ m hm => ⟨(h m hm).1, le_succ_of_le (h m hm).2⟩
  | some m =>
    rcases failed_cases cfg hm clock with ⟨x, -, -, -, hwhy, heq⟩ | heq <;>
      rw [heq, set_eq_modify] <;> refine quiet_modify h ?_ <;> rintro rfl - - <;>
      obtain ⟨huntil, hle⟩ := h m hm
    · rw [if_pos rfl] at hn
      rcases hwhy with hagain | ⟨hreached, -⟩
      · simp [Ejection.isEjected, huntil] at hagain
      · have hmin := (of_decide_eq_true hreached).trans (Nat.min_le_left _ _)
        omega
    · exact ⟨huntil, (Nat.min_le_left _ _).trans (succ_le_succ hle)⟩

lemma quiet_step (h : ∀ m ∈ w.members[i]?, Quiet n m) {a : Act}
    (hn : counted cfg i n a < cfg.consecutiveFailures) :
    ∀ m ∈ (w.step cfg a).members[i]?, Quiet (counted cfg i n a) m := by
  cases a with
  | pass ms => exact h
  | failed j clock => exact quiet_failed h hn clock
  | succeeded j => exact quiet_modify h fun _ m hm => ⟨(h m hm).1, le_refl 0⟩
  | ended j lived backendFirst clock =>
    by_cases hshort : cfg.shortLived = 0
    · simpa [World.step, counted, hshort] using h
    by_cases hfailed : Pool.endedFailed cfg lived backendFirst <;>
      simp only [World.step, counted, hshort, hfailed, if_true, if_false,
        Bool.false_eq_true] at hn ⊢
    · exact quiet_failed h hn clock
    · exact quiet_modify h fun _ m hm => ⟨(h m hm).1, le_refl 0⟩
  | checked j up =>
    rw [counted, ← ite_self (c := j = i) n]
    refine quiet_modify h fun _ m hm => ?_
    split_ifs
    · exact ⟨rfl, Nat.zero_le n⟩
    all_goals exact h m hm

/-- **A target is ejected only after `consecutive_failures` failures in a row.** -/
theorem ejected_only_after_failures {acts : List Act}
    (h : ∀ part, part <+: acts → streak cfg i part < cfg.consecutiveFailures)
    (hm : (after (World.step cfg) (World.new now n) acts).members[i]? = some m) (t : ℕ) :
    ¬ m.ejection.isEjected t := by
  have hquiet : ∀ m ∈ (after (World.step cfg) (World.new now n) acts).members[i]?,
      Quiet (streak cfg i acts) m := by
    clear hm
    induction acts using List.reverseRecOn with
    | nil =>
      intro m hm
      cases eq_of_mem_replicate (mem_of_getElem? hm)
      exact ⟨rfl, Nat.le_refl _⟩
    | append_singleton acts a ih =>
      have hlast := h _ prefix_rfl
      rw [streak, foldl_concat] at hlast
      rw [after, streak, foldl_concat, foldl_concat]
      exact quiet_step (ih fun part hpart => h part (hpart.trans (prefix_append ..))) hlast
  simp [Ejection.isEjected, (hquiet m hm).1]

theorem not_ejected_between_successes :
    let cfg : L4Outlier := ⟨2, 0, ⟨1, 1, 100, by decide, by decide⟩⟩
    let acts : List Act := [.failed 0 fun _ => 1, .succeeded 0, .failed 0 fun _ => 2]
    ∃ m, (after (World.step cfg) (World.new 1 1) acts).members[0]? = some m ∧
      m.ejection.counts.failures = 1 ∧ ¬ m.ejection.isEjected 2 := by
  intro cfg acts
  have h : ∀ part ∈ acts.inits, streak cfg 0 part < cfg.consecutiveFailures := by decide
  have hm : (after (World.step cfg) (World.new 1 1) acts).members[0]? =
      some ⟨true, ⟨0, 0, ⟨1, 0, 0, 0, 0, 0, 0⟩⟩⟩ := by decide +kernel
  exact ⟨_, hm, rfl,
    ejected_only_after_failures (fun part hpart => h part ((mem_inits ..).mpr hpart)) hm 2⟩

end Rproxy.Outlier
