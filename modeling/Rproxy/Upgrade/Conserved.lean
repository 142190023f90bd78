import Rproxy.Programs.Runs
import Rproxy.Rule.Plain
import Rproxy.Upgrade.Counters

/-!
# A live upgrade conserves the counters

Each integer counter of a rule has a name (`Counter`) and a value. Sending keeps the values
(`value_of`), what is sent less what was sent before has their difference (`value_since`), and
adding adds them (`value_addTo`).
-/

namespace Rproxy.Handoff
open Function AList List Option Counters Prod Tally

inductive HttpCounter where
  | requests (route : String) (i : Fin 5 ⊕ Fin 11)
  | limited (p : Pair)
  | blocked (p : Pair)
  | cache (p : Pair) (outcome : Fin 4)
  | mirrorDropped (p : Pair)

inductive Counter where
  | total
  | rxBytes
  | txBytes
  | tlsFailures
  | denied
  | dropped
  | limited (reason : Fin 4)
  | targetFull
  | fdBudget
  | bandwidthDropped
  | http (x : HttpCounter)

def HttpStats.value (h : HttpStats) : HttpCounter → ℕ
  | .requests r i => route.value h.routes r i
  | .limited p => number.value h.limited p ()
  | .blocked p => number.value h.blocked p ()
  | .cache p i => outcomes.value h.cache p i
  | .mirrorDropped p => number.value h.mirrorDropped p ()

def HttpCounters.value (c : HttpCounters) : HttpCounter → ℕ
  | .requests r i => route.sent c.routes r i
  | .limited p => number.sent c.limited p ()
  | .blocked p => number.sent c.blocked p ()
  | .cache p i => outcomes.sent c.cache p i
  | .mirrorDropped p => number.sent c.mirrorDropped p ()

def Runtime.value (rt : Runtime) : Counter → ℕ
  | .total => rt.stats.total
  | .rxBytes => rt.stats.rxBytes
  | .txBytes => rt.stats.txBytes
  | .tlsFailures => rt.stats.tlsFailures
  | .denied => rt.stats.denied
  | .dropped => rt.stats.dropped
  | .limited i => rt.stats.limited i
  | .targetFull => rt.stats.targetFull
  | .fdBudget => rt.stats.fdBudget
  | .bandwidthDropped => rt.stats.bandwidthDropped
  | .http x => rt.http.value x

def Counters.value (c : Counters) : Counter → ℕ
  | .total => c.total
  | .rxBytes => c.rxBytes
  | .txBytes => c.txBytes
  | .tlsFailures => c.tlsFailures
  | .denied => c.denied
  | .dropped => c.dropped
  | .limited i => c.limited i
  | .targetFull => c.targetFull
  | .fdBudget => c.fdBudget
  | .bandwidthDropped => c.bandwidthDropped
  | .http x => c.http.elim 0 (·.value x)

/-! ## The counters by route -/

structure HttpCounters.Keyed (c : HttpCounters) : Prop where
  routes : (c.routes.map fst).Nodup
  limited : (c.limited.map fst).Nodup
  blocked : (c.blocked.map fst).Nodup
  cache : (c.cache.map fst).Nodup
  mirrorDropped : (c.mirrorDropped.map fst).Nodup

namespace HttpStats

lemma value_exported (h : HttpStats) (x : HttpCounter) : h.exported.value x = h.value x := by
  cases x with
  | requests r i => exact route.sent_listed h.routes r i
  | limited p => exact number.sent_listed h.limited p ()
  | blocked p => exact number.sent_listed h.blocked p ()
  | cache p i => exact outcomes.sent_listed h.cache p i
  | mirrorDropped p => exact number.sent_listed h.mirrorDropped p ()

lemma keyed_exported (h : HttpStats) : h.exported.Keyed where
  routes := route.nodup_listed h.routes
  limited := number.nodup_listed h.limited
  blocked := number.nodup_listed h.blocked
  cache := outcomes.nodup_listed h.cache
  mirrorDropped := number.nodup_listed h.mirrorDropped

lemma value_add (h : HttpStats) {c : HttpCounters} (hc : c.Keyed) (x : HttpCounter) :
    (h.add c).value x = h.value x + c.value x := by
  cases x with
  | requests r i => exact route.value_add hc.routes h.routes r i
  | limited p => exact number.value_add hc.limited h.limited p ()
  | blocked p => exact number.value_add hc.blocked h.blocked p ()
  | cache p i => exact outcomes.value_add hc.cache h.cache p i
  | mirrorDropped p => exact number.value_add hc.mirrorDropped h.mirrorDropped p ()

end HttpStats

namespace HttpCounters

lemma value_since (c before : HttpCounters) (x : HttpCounter) :
    (c.since before).value x = c.value x - before.value x := by
  cases x with
  | requests r i => exact route.sent_since c.routes before.routes r i
  | limited p => exact number.sent_since c.limited before.limited p ()
  | blocked p => exact number.sent_since c.blocked before.blocked p ()
  | cache p i => exact outcomes.sent_since c.cache before.cache p i
  | mirrorDropped p => exact number.sent_since c.mirrorDropped before.mirrorDropped p ()

lemma Keyed.since {c : HttpCounters} (hc : c.Keyed) (before : HttpCounters) :
    (c.since before).Keyed where
  routes := by
    rw [HttpCounters.since, map_fst_since]
    exact hc.routes
  limited := by
    rw [HttpCounters.since, map_fst_since]
    exact hc.limited
  blocked := by
    rw [HttpCounters.since, map_fst_since]
    exact hc.blocked
  cache := by
    rw [HttpCounters.since, map_fst_since]
    exact hc.cache
  mirrorDropped := by
    rw [HttpCounters.since, map_fst_since]
    exact hc.mirrorDropped

lemma value_of_isEmpty {c : HttpCounters} (hc : c.isEmpty) (x : HttpCounter) :
    c.value x = 0 := by
  simp only [isEmpty, Bool.and_eq_true, List.isEmpty_iff] at hc
  obtain ⟨⟨⟨⟨hroutes, hlimited⟩, hblocked⟩, hcache⟩, hmirror⟩ := hc
  cases x with
  | requests r i => rw [value, hroutes]; rfl
  | limited p => rw [value, hlimited]; rfl
  | blocked p => rw [value, hblocked]; rfl
  | cache p i => rw [value, hcache]; rfl
  | mirrorDropped p => rw [value, hmirror]; rfl

end HttpCounters

/-! ## The counters of a rule -/

namespace Counters

def Keyed (c : Counters) : Prop := ∀ h ∈ c.http, h.Keyed

lemma value_since (c before : Counters) (x : Counter) :
    (c.since before).value x = c.value x - before.value x := by
  cases x with
  | http x =>
    show (c.since before).http.elim 0 (·.value x) = c.http.elim 0 _ - before.http.elim 0 _
    rw [since]
    cases c.http with
    | none => exact (Nat.zero_sub _).symm
    | some now =>
      cases before.http with
      | none => rfl
      | some old => exact now.value_since old x
  | _ => rfl

lemma Keyed.since {c : Counters} (hc : c.Keyed) (before : Counters) : (c.since before).Keyed := by
  intro h hh
  rw [Counters.since] at hh
  cases hnow : c.http with
  | none => simp [hnow] at hh
  | some now =>
    cases hold : before.http with
    | none =>
      simp only [hnow, hold, mem_some_iff] at hh
      exact hh ▸ hc now hnow
    | some old =>
      simp only [hnow, hold, mem_some_iff] at hh
      exact hh ▸ (hc now hnow).since old

lemma value_addTo {c : Counters} (hc : c.Keyed) (rt : Runtime) (x : Counter) :
    (c.addTo rt).value x = rt.value x + c.value x := by
  cases x with
  | http x =>
    show (c.addTo rt).http.value x = rt.http.value x + c.http.elim 0 _
    rw [addTo]
    cases hhttp : c.http with
    | none => rfl
    | some h => exact rt.http.value_add (hc h hhttp) x
  | _ => rfl

variable [External]

lemma value_of (key : Key) (rt : Runtime) (x : Counter) : (of key rt).value x = rt.value x := by
  cases x with
  | http x =>
    show Option.elim (if rt.http.exported.isEmpty then none else _) 0 _ = rt.http.value x
    rw [← rt.http.value_exported]
    split
    · rename_i hempty
      exact (HttpCounters.value_of_isEmpty hempty x).symm
    · rfl
  | _ => rfl

lemma keyed_of (key : Key) (rt : Runtime) : (of key rt).Keyed := by
  intro h hh
  rw [of] at hh
  split at hh
  · cases hh
  rw [← Option.some.inj hh]
  exact rt.http.keyed_exported

omit [External] in
lemma fromStr_asStr (p : Protocol) : Protocol.fromStr p.asStr = .ok p := by
  cases p <;> decide

lemma key_of [LawfulIpText] (key : Key) (rt : Runtime) :
    (of key rt).key = if key.listen.port = 0 then none else some key := by
  have hlisten : (parseListen (showIp key.listen.ip) key.listen.port).toOption =
      if key.listen.port = 0 then none else some key.listen := by
    rw [parseListen, (parseIp_trim_show _).2, Checks.refuseIf]
    split <;> rfl
  show ((Protocol.fromStr key.protocol.asStr).toOption >>= fun _ =>
    (parseListen (showIp key.listen.ip) key.listen.port).toOption >>= _) = _
  rw [fromStr_asStr, hlisten]
  split <;> rfl

end Counters

def HttpStats.zero : HttpStats := ⟨∅, ∅, ∅, ∅, ∅⟩

@[simp] theorem HttpStats.value_zero (x : HttpCounter) : zero.value x = 0 := by
  cases x <;> exact value_empty _ _ _

namespace Runtime

def zero : Runtime := ⟨⟨0, 0, 0, 0, 0, 0, fun _ => 0, 0, 0, 0⟩, HttpStats.zero⟩

lemma value_count (rt : Runtime) (what : Count) (x : Counter) :
    (rt.count what).value x = rt.value x + (zero.count what).value x := by
  have hone (t : Table Pair ℕ) (a p : Pair) :=
    number.value_update_empty (d := fun _ => 1) (fun _ _ => rfl) t a p ()
  cases x with
  | http x =>
    cases what with
    | stats more => exact (congrArg (_ + ·) (HttpStats.value_zero x)).symm
    | record r status within =>
      cases x with
      | requests q i =>
        refine route.value_update_empty (d := route.get (route.zero.record status within))
          ?_ _ _ _ _
        intro c i
        cases i <;> simp [route, RouteCounters.get, RouteCounters.record]
      | _ => rfl
    | limited r m =>
      cases x with
      | limited p => exact hone _ _ p
      | _ => rfl
    | blocked r m =>
      cases x with
      | blocked p => exact hone _ _ p
      | _ => rfl
    | mirrorDropped r m =>
      cases x with
      | mirrorDropped p => exact hone _ _ p
      | _ => rfl
    | cache r m outcome =>
      cases x with
      | cache p i => exact outcomes.value_update_empty (fun _ _ => rfl) _ _ p i
      | _ => rfl
  | _ => cases what <;> simp [count, value, zero, Stats.plus]

end Runtime

/-! ## What is sent of a rule -/

section Process
variable [External]

def valueAt (rts : Runtimes) (k : Key) (x : Counter) : ℕ := (rts.lookup k).elim 0 (·.value x)

/-- All that is added in a live upgrade: the snapshot by `ready`, and what came since by
`follow_counters`. -/
def added (snapshot finals : Runtimes) : List Counters :=
  countersOf snapshot ++ (countersOf finals).map (sinceSnapshot (countersOf snapshot))

@[simp] theorem key_sinceSnapshot (l : List Counters) (c : Counters) :
    (sinceSnapshot l c).key = c.key := by
  rw [sinceSnapshot]
  split <;> rfl

lemma addCounter_eq {f : Counters → Counters} (hf : ∀ c, (f c).key = c.key) (rts : Runtimes)
    (c : Counters) : addCounter f rts c = step rts (.add (f c)) := by
  rw [step, addCounter, addCounter, hf]
  rfl

lemma followCounters_ready (rts snapshot finals : Runtimes) :
    followCounters (ready rts (countersOf snapshot)) (countersOf snapshot) (countersOf finals) =
      after step rts ((added snapshot finals).map .add) := by
  have hadd (f : Counters → Counters) (hf : ∀ c, (f c).key = c.key) (l : List Counters)
      (rts : Runtimes) : addCounters rts l f = after step rts ((l.map f).map .add) := by
    rw [after, List.foldl_map, List.foldl_map]
    exact congrFun (congrFun (congrArg _ (funext₂ (addCounter_eq hf))) rts) l
  rw [followCounters, ready, hadd id (fun _ => rfl), hadd _ (key_sinceSnapshot _), after, after,
    after, added, List.map_append, List.foldl_append, List.map_id]

lemma keyed_of_mem_added {snapshot finals : Runtimes} {c : Counters}
    (hc : c ∈ added snapshot finals) : c.Keyed := by
  have hof {rts : Runtimes} {c : Counters} (hc : c ∈ countersOf rts) : c.Keyed := by
    obtain ⟨e, -, rfl⟩ := mem_map.mp hc
    exact keyed_of e.1 e.2
  rcases mem_append.mp hc with hc | hc
  · exact hof hc
  obtain ⟨last, hlast, rfl⟩ := mem_map.mp hc
  rw [sinceSnapshot]
  split
  · exact (hof hlast).since _
  · exact hof hlast

variable [LawfulIpText] {k : Key}

lemma key_of_eq (hk : k.listen.port ≠ 0) (key : Key) (rt : Runtime) :
    (of key rt).key = some k ↔ key = k := by
  rw [key_of]
  split
  · rename_i hport
    simp only [reduceCtorEq, false_iff]
    rintro rfl
    exact hk hport
  · rw [Option.some.injEq]

lemma sum_countersOf (hk : k.listen.port ≠ 0) (rts : Runtimes) (f : Counters → ℕ) :
    ((countersOf rts).map fun c => if c.key = some k then f c else 0).sum =
      (rts.lookup k).elim 0 fun rt => f (.of k rt) := by
  rw [← Table.sum_pairs_ite, countersOf, List.map_map]
  refine congrArg List.sum (List.map_congr_left fun e _ => ?_)
  simp only [comp_apply, key_of_eq hk]
  split
  · rename_i hkey
    rw [hkey]
  · rfl

lemma find?_countersOf (hk : k.listen.port ≠ 0) (rts : Runtimes) :
    (countersOf rts).find? (fun b => b.key = some k) = (rts.lookup k).map (.of k) := by
  have hkey : ((fun b : Counters => decide (b.key = some k)) ∘ fun e : Key × Runtime =>
      .of e.1 e.2) =
      fun e => decide (e.1 = k) := by
    funext e
    simp only [comp_apply, key_of_eq hk]
  rw [countersOf, List.find?_map, hkey, Table.find?_pairs, Option.map_map]
  rfl

lemma value_sinceSnapshot (hk : k.listen.port ≠ 0) (snapshot : Runtimes) (last : Runtime)
    (x : Counter) :
    (sinceSnapshot (countersOf snapshot) (.of k last)).value x =
      last.value x - valueAt snapshot k x := by
  have hkey : (of k last).key = some k := (key_of_eq hk k last).mpr rfl
  rw [sinceSnapshot, hkey, find?_countersOf hk, valueAt]
  cases snapshot.lookup k with
  | none => exact value_of k last x
  | some old =>
    show (since _ _).value x = _
    rw [value_since, value_of, value_of]
    rfl

/-- **Snapshot and final counters together add the final ones**, if none was lower in the end. -/
theorem sum_added (hk : k.listen.port ≠ 0) {snapshot finals : Runtimes} {last : Runtime}
    (hlast : finals.lookup k = some last) {x : Counter}
    (hgrow : valueAt snapshot k x ≤ last.value x) :
    ((added snapshot finals).map fun c => if c.key = some k then c.value x else 0).sum =
      last.value x := by
  have hsnapshot : ((countersOf snapshot).map fun c => if c.key = some k then c.value x
      else 0).sum =
      valueAt snapshot k x := by
    rw [sum_countersOf hk]
    simp only [value_of]
    rfl
  have hfinals : (((countersOf finals).map (sinceSnapshot (countersOf snapshot))).map fun c =>
      if c.key = some k then c.value x else 0).sum = last.value x - valueAt snapshot k x := by
    rw [List.map_map]
    simp only [comp_def, key_sinceSnapshot]
    rw [sum_countersOf hk finals fun c => (sinceSnapshot (countersOf snapshot) c).value x, hlast]
    exact value_sinceSnapshot hk snapshot last x
  rw [added, map_append, sum_append]
  omega

/-! ## Runs of the new process -/

namespace Step

def added : Step → Option Counters
  | .count _ _ => none
  | .add c => some c

def more (k : Key) (x : Counter) : Step → ℕ
  | .count key what => if key = k then (Runtime.zero.count what).value x else 0
  | .add c => if c.key = some k then c.value x else 0

end Step

omit [LawfulIpText] in
lemma step_raises {rts : Runtimes} {rt : Runtime} (hrt : rts.lookup k = some rt) {s : Step}
    (hs : ∀ c ∈ s.added, c.Keyed) :
    ∃ rt', (step rts s).lookup k = some rt' ∧ ∀ x, rt'.value x = rt.value x + s.more k x := by
  cases s with
  | count key what =>
    by_cases hkey : key = k
    · subst hkey
      refine ⟨rt.count what, ?_, fun x => ?_⟩
      · rw [step, hrt]
        exact lookup_insert _
      · rw [Runtime.value_count, Step.more, if_pos rfl]
    refine ⟨rt, ?_, fun x => by rw [Step.more, if_neg hkey, Nat.add_zero]⟩
    rw [step]
    split
    · rw [lookup_insert_ne (Ne.symm hkey), hrt]
    · exact hrt
  | add c =>
    by_cases hkey : c.key = some k
    · refine ⟨c.addTo rt, ?_, fun x => ?_⟩
      · simp only [step, addCounter, hkey, hrt]
        exact lookup_insert _
      · rw [value_addTo (hs c rfl), Step.more, if_pos hkey]
    refine ⟨rt, ?_, fun x => by rw [Step.more, if_neg hkey, Nat.add_zero]⟩
    rw [step, addCounter]
    split
    · rename_i key heq
      have hne : k ≠ key := fun h => hkey (h ▸ heq)
      split
      · rw [lookup_insert_ne hne, hrt]
      · exact hrt
    · exact hrt

omit [LawfulIpText] in
lemma run_raises {steps : List Step} (hsteps : ∀ s ∈ steps, ∀ c ∈ s.added, c.Keyed)
    {rts : Runtimes} {rt : Runtime} (hrt : rts.lookup k = some rt) (x : Counter) :
    valueAt (after step rts steps) k x = rt.value x + (steps.map (Step.more k x)).sum := by
  induction steps generalizing rts rt with
  | nil =>
    show valueAt rts k x = rt.value x
    rw [valueAt, hrt]
    rfl
  | cons s steps ih =>
    obtain ⟨hs, hsteps⟩ := forall_mem_cons.mp hsteps
    obtain ⟨rt', hrt', hvalue⟩ := step_raises hrt hs
    show valueAt (after step (step rts s) steps) k x = _
    rw [ih hsteps hrt', hvalue, map_cons, sum_cons, Nat.add_assoc]

omit [LawfulIpText] in
lemma sum_more (steps : List Step) (x : Counter) : (steps.map (Step.more k x)).sum =
      ((steps.filter (·.added.isNone)).map (Step.more k x)).sum +
        ((steps.filterMap Step.added).map fun c => if c.key = some k then c.value x
          else 0).sum := by
  induction steps with
  | nil => rfl
  | cons s steps ih =>
    cases s with
    | count key what =>
      simp [Step.added, filterMap_cons, ih, Nat.add_assoc]
    | add c =>
      simp only [Step.added, filterMap_cons, filter_cons, isNone_some,
        map_cons, sum_cons, ih, Step.more, Bool.false_eq_true, if_false]
      omega

/-- **A live upgrade conserves the counters.** The new process counts and adds what the old one
sends, in any order. In the end each counter of a rule is what the new process counted and the old
one's final value, whatever it had when the snapshot was taken; provided that no counter of the old
process was lower in the end. -/
theorem counters_conserved (hk : k.listen.port ≠ 0) {new snapshot finals : Runtimes}
    (hnew : (new.lookup k).isSome) {last : Runtime} (hlast : finals.lookup k = some last)
    (hgrow : ∀ x, valueAt snapshot k x ≤ last.value x) {steps : List Step}
    (hsteps : steps.filterMap Step.added = added snapshot finals) (x : Counter) :
    valueAt (after step new steps) k x =
      valueAt (after step new (steps.filter (·.added.isNone))) k x + last.value x := by
  obtain ⟨rt, hrt⟩ := isSome_iff_exists.mp hnew
  have hkeyed : ∀ s ∈ steps, ∀ c ∈ s.added, c.Keyed := by
    intro s hs c hc
    have hmem : c ∈ added snapshot finals := by
      rw [← hsteps]
      exact mem_filterMap.mpr ⟨s, hs, hc⟩
    exact keyed_of_mem_added hmem
  -- the steps that only count are a run too
  have hcounts : ∀ s ∈ steps.filter (·.added.isNone), ∀ c ∈ s.added, c.Keyed :=
    fun s hs => hkeyed s (mem_filter.mp hs).1
  rw [run_raises hcounts hrt x, run_raises hkeyed hrt x, sum_more, hsteps,
    sum_added hk hlast (hgrow x), Nat.add_assoc]

end Process

namespace Moved
open scoped Plain

def key : Key := { protocol := .tcp, listen := { ip := .v4 0, port := 80 } }

def only (rt : Runtime) : Runtimes := (∅ : Runtimes).insert key rt

def served : Count := .record "a" 200 fun _ => true

def old : Runtime := Runtime.zero.count served

def final : Runtime := old.count (.blocked "b" "m")

def steps : List Step :=
  .count key served :: (added (only old) (only final)).map .add ++ [.count key served]

lemma filterMap_steps : steps.filterMap Step.added = added (only old) (only final) := by
  simp [steps, Step.added, filterMap_map, comp_def, filterMap_cons]

lemma old_le_final (x : Counter) : valueAt (only old) key x ≤ final.value x := by
  have hvalue : valueAt (only old) key x = old.value x := by
    rfl
  rw [final, Runtime.value_count]
  exact Nat.le_add_right _ _

theorem counters_conserved_of_served :
    valueAt (after step (only .zero) steps) key (.http (.requests "a" (.inl 1))) = 2 + 1 ∧
      valueAt (after step (only .zero) steps) key (.http (.blocked ("b", "m"))) = 0 + 1 := by
  have hnew : ((only .zero).lookup key).isSome = true := by
    rw [only, lookup_insert]
    rfl
  have hconserved := counters_conserved (by decide) hnew (lookup_insert _) old_le_final
    filterMap_steps
  have hown : steps.filter (·.added.isNone) = [.count key served, .count key served] := by
    simp [steps, Step.added, List.filter_map, comp_def]
  rw [hconserved, hconserved, hown]
  decide +kernel

end Moved
end Rproxy.Handoff
