import Rproxy.Upgrade.Conserved

/-!
# The counts of an http rule by route

After a change of a rule's `http`, `HttpStats::retain` forgets the counts of routes and middlewares
that it no longer has, in four of the five maps: those of the copies that `mirror` did not send
stay.
-/

namespace Rproxy.Handoff
open List

/-- The names of an `http`: of its routes and middlewares. -/
structure HttpSpec where
  routes : List String
  middlewares : List String

namespace HttpSpec
variable (spec : HttpSpec)

def route (r : String) : Bool := r = noRoute || spec.routes.contains r

def pair (k : Pair) : Bool := spec.route k.1 && spec.middlewares.contains k.2

end HttpSpec

namespace HttpStats

def retain (h : HttpStats) (spec : HttpSpec) : HttpStats where
  routes := h.routes.retain fun r _ => spec.route r
  limited := h.limited.retain fun k _ => spec.pair k
  blocked := h.blocked.retain fun k _ => spec.pair k
  cache := h.cache.retain fun k _ => spec.pair k
  mirrorDropped := h.mirrorDropped

/-- Every key of the five maps names a route and a middleware of `spec`, or no route. -/
structure Within (h : HttpStats) (spec : HttpSpec) : Prop where
  routes : ∀ r ∈ h.routes, spec.route r
  limited : ∀ k ∈ h.limited, spec.pair k
  blocked : ∀ k ∈ h.blocked, spec.pair k
  cache : ∀ k ∈ h.cache, spec.pair k
  mirrorDropped : ∀ k ∈ h.mirrorDropped, spec.pair k

lemma within_retain_iff (h : HttpStats) (spec : HttpSpec) :
    (h.retain spec).Within spec ↔ ∀ k ∈ h.mirrorDropped, spec.pair k := by
  constructor
  · intro hwithin
    exact hwithin.mirrorDropped
  intro hdropped
  refine ⟨?_, ?_, ?_, ?_, hdropped⟩
  all_goals
    intro k hk
    obtain ⟨_, _, hkeep⟩ := Table.of_mem_retain hk
    exact hkeep

end HttpStats

inductive Call where
  | count (what : Count)
  | retain (spec : HttpSpec)

namespace Call

def run (rt : Runtime) : Call → Runtime
  | .count what => rt.count what
  | .retain spec => { rt with http := rt.http.retain spec }

/-- The key that a call of `mirror_dropped` counts under. -/
def dropped : Call → Option Pair
  | .count (.mirrorDropped r m) => some (named r, m)
  | _ => none

lemma mem_mirrorDropped_run (rt : Runtime) (c : Call) (k : Pair) :
    k ∈ (c.run rt).http.mirrorDropped ↔ k ∈ rt.http.mirrorDropped ∨ c.dropped = some k := by
  rcases c with (_ | _ | _ | _ | ⟨r, m⟩ | _) | spec
  case count.mirrorDropped =>
    have hinsert : k ∈ (run rt (.count (.mirrorDropped r m))).http.mirrorDropped ↔
        k = (named r, m) ∨ k ∈ rt.http.mirrorDropped := AList.mem_insert _
    rw [hinsert, or_comm, dropped, Option.some_inj, eq_comm]
  all_goals simp [run, Runtime.count, HttpStats.retain, dropped]

lemma mem_mirrorDropped_after (rt : Runtime) (calls : List Call) (k : Pair) :
    k ∈ (after run rt calls).http.mirrorDropped ↔
      k ∈ rt.http.mirrorDropped ∨ k ∈ calls.filterMap dropped := by
  induction calls generalizing rt with
  | nil => simp [after]
  | cons c calls ih =>
    have hstep : after run rt (c :: calls) = after run (c.run rt) calls := rfl
    rw [hstep, ih, mem_mirrorDropped_run, or_assoc, mem_filterMap, mem_filterMap]
    simp only [mem_cons, exists_eq_or_imp]

end Call

/-- Right after `retain` the counts are bounded by the rule's `http` exactly if every key under
which `mirror_dropped` has counted since the start names a route and a middleware of it. -/
theorem counts_within_iff (calls : List Call) (spec : HttpSpec) :
    (after Call.run .zero (calls ++ [.retain spec])).http.Within spec ↔
      ∀ k ∈ calls.filterMap Call.dropped, spec.pair k := by
  have hlast : (after Call.run .zero (calls ++ [.retain spec])).http =
      (after Call.run .zero calls).http.retain spec := by
    rw [after, foldl_append]
    rfl
  rw [hlast, HttpStats.within_retain_iff]
  refine forall_congr' fun k => ?_
  rw [Call.mem_mirrorDropped_after]
  simp [Runtime.zero, HttpStats.zero, AList.notMem_empty]

/-- A mirror dropped a copy, then its route and middleware were renamed. -/
theorem renamed_mirror_kept : ¬ (after Call.run .zero
        [.count (.mirrorDropped "a" "m"), .retain ⟨["b"], ["n"]⟩]).http.Within ⟨["b"], ["n"]⟩ := by
  intro h
  exact absurd (h.mirrorDropped ("a", "m") (by decide)) (by decide)

end Rproxy.Handoff
