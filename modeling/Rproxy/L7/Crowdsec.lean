import Rproxy.Data.Table
import Rproxy.Rule.Plain

/-!
# The decisions of CrowdSec

A bouncer pulls the new and the deleted decisions, and keeps for each address and range the ids of
those on it. It blocks what is in force by the history of the pulls (`blocked_iff_in_force`): an
added decision whose target no deletion has named since, by its id or without one.
`Target.of_eq_some` says which target a decision is on.
-/

namespace Rproxy.Crowdsec
open List Text

structure Decision where
  id : Option ℤ
  scope : String
  value : String
  kind : String

inductive Target
  | ip (ip : IpAddr)
  | range (c : Cidr)
deriving DecidableEq

def Target.Covers (ip : IpAddr) : Target → Prop
  | .ip a => a = ip
  | .range c => c.contains ip = true

/-- `ban`, and `captcha`, which is treated as one. -/
def Decision.blocks (d : Decision) : Bool :=
  lower d.kind = "ban" || lower d.kind = "captcha"

structure Decisions where
  ips : Table IpAddr (Finset ℤ)
  ranges : Table Cidr (Finset ℤ)

namespace Decisions

def lookup (s : Decisions) : Target → Option (Finset ℤ)
  | .ip ip => s.ips.lookup ip
  | .range c => s.ranges.lookup c

variable (s : Decisions)

/-- `entry(..).or_default()`. -/
def ids (t : Target) : Finset ℤ := (s.lookup t).getD ∅

def setIds (ids : Finset ℤ) : Target → Decisions
  | .ip ip => { s with ips := s.ips.insert ip ids }
  | .range c => { s with ranges := s.ranges.insert c ids }

def drop : Target → Decisions
  | .ip ip => { s with ips := s.ips.erase ip }
  | .range c => { s with ranges := s.ranges.erase c }

/-- The end of `remove`: a target without ids goes. -/
def leave (ids : Finset ℤ) (t : Target) : Decisions :=
  if ids = ∅ then (s.setIds ids t).drop t else s.setIds ids t

variable {s : Decisions} {t u : Target}

lemma lookup_setIds (ids : Finset ℤ) :
    (s.setIds ids u).lookup t = if t = u then some ids else s.lookup t := by
  cases u <;> cases t <;> simp [setIds, lookup, Table.lookup_insert_eq]

lemma lookup_drop : (s.drop u).lookup t = if t = u then none else s.lookup t := by
  cases u <;> cases t <;> simp [drop, lookup, Table.lookup_erase_eq]

lemma lookup_leave (ids : Finset ℤ) : (s.leave ids u).lookup t =
    if t = u then (if ids = ∅ then none else some ids) else s.lookup t := by
  rw [leave]
  by_cases hids : ids = ∅ <;> by_cases ht : t = u <;> simp [hids, ht, lookup_drop, lookup_setIds]

lemma ids_setIds (ids : Finset ℤ) : (s.setIds ids u).ids t = if t = u then ids else s.ids t := by
  rw [Decisions.ids, lookup_setIds]
  split_ifs <;> rfl

lemma ids_leave (ids : Finset ℤ) : (s.leave ids u).ids t = if t = u then ids else s.ids t := by
  rw [Decisions.ids, lookup_leave]
  by_cases hids : ids = ∅
  · split_ifs <;> simp [hids, Decisions.ids]
  · split_ifs <;> rfl

def blocked (s : Decisions) (ip : IpAddr) : Bool :=
  (s.ips.lookup ip.canonical).isSome || s.ranges.keys.any (·.contains ip.canonical)

/-- Every target in the maps has an id. -/
def Tight (s : Decisions) : Prop := ∀ t ids, s.lookup t = some ids → ids ≠ ∅

lemma blocked_iff (h : s.Tight) (ip : IpAddr) :
    s.blocked ip = true ↔ ∃ t i, t.Covers ip.canonical ∧ i ∈ s.ids t := by
  have hkept : ∀ t, (∃ i, i ∈ s.ids t) ↔ (s.lookup t).isSome = true := by
    intro t
    rw [Decisions.ids]
    cases ht : s.lookup t with
    | none => simp
    | some ids => exact iff_of_true (Finset.nonempty_iff_ne_empty.mpr (h t ids ht)) rfl
  have hranges : ∀ c, c ∈ s.ranges.keys ↔ (s.lookup (.range c)).isSome = true := fun c =>
    (AList.lookup_isSome (s := s.ranges)).symm
  simp only [exists_and_left, hkept, blocked, Bool.or_eq_true, any_eq_true, hranges]
  constructor
  · rintro (hip | ⟨c, hc, hcovers⟩)
    · exact ⟨.ip _, rfl, hip⟩
    · exact ⟨.range c, hcovers, hc⟩
  rintro ⟨t, hcovers, ht⟩
  cases t with
  | ip a =>
    cases hcovers
    exact .inl ht
  | range c => exact .inr ⟨c, ht, hcovers⟩

end Decisions

structure Pull where
  deleted : List Decision
  new : List Decision

section
variable [External]

/-- The target of a decision: an address, as `canonical` has it, or a range; none for another scope
or a value that is not read. -/
def Target.of (d : Decision) : Option Target :=
  let value := trim d.value
  if lower d.scope = "ip" then (parseIp value).map fun ip => .ip ip.canonical
  else if lower d.scope = "range" then (Cidr.fromStr value).toOption.map .range
  else none

/-- The decision is on the target, by its scope (in any case) and its value. -/
def Decision.On (d : Decision) : Target → Prop
  | .ip a => lower d.scope = "ip" ∧
    ∃ ip, parseIp (trim d.value) = some ip ∧ ip.canonical = a
  | .range c => lower d.scope = "range" ∧ Cidr.fromStr (trim d.value) = .ok c

lemma Target.of_eq_some {d : Decision} {t : Target} : Target.of d = some t ↔ d.On t := by
  have hscopes : "ip" ≠ "range" := by decide
  unfold Target.of Decision.On
  dsimp only
  split_ifs with hip hrange
  · cases t <;> simp [hip, hscopes]
  · cases t with
    | ip a => simp [hrange, hscopes.symm]
    | range c => cases Cidr.fromStr (trim d.value) <;> simp [hrange, Except.toOption]
  · cases t <;> simp [hip, hrange]

namespace Decisions

def add (s : Decisions) (d : Decision) : Decisions :=
  if d.blocks then
    match Target.of d with
    | some t => s.setIds (insert (d.id.getD 0) (s.ids t)) t
    | none => s
  else s

def remove (s : Decisions) (d : Decision) : Decisions :=
  match Target.of d with
  | none => s
  | some t => s.leave (d.id.elim ∅ (s.ids t).erase) t

/-- What `Bouncer::pull` does with an answer. -/
def pull (startup : Bool) (s : Decisions) (p : Pull) : Decisions :=
  let s := if startup then ⟨∅, ∅⟩ else s
  p.new.foldl add (p.deleted.foldl remove s)

end Decisions

/-! ## The history -/

inductive Change
  | removed (d : Decision)
  | added (d : Decision)

def Pull.changes (p : Pull) : List Change := p.deleted.map .removed ++ p.new.map .added

/-- The change adds a decision on `t` that counts under the id `i`. -/
def Change.Adds (t : Target) (i : ℤ) : Change → Prop
  | .added d => (lower d.kind = "ban" ∨ lower d.kind = "captcha") ∧ d.On t ∧
    d.id.getD 0 = i
  | .removed _ => False

/-- The change deletes the decisions on `t` with the id `i`. -/
def Change.Lifts (t : Target) (i : ℤ) : Change → Prop
  | .removed d => d.On t ∧ (d.id = none ∨ d.id = some i)
  | .added _ => False

/-- A decision on `t` was added under the id `i`, and nothing has deleted it since. -/
def InForce (t : Target) (i : ℤ) (history : List Change) : Prop :=
  ∃ before c since, history = before ++ c :: since ∧ c.Adds t i ∧ ∀ x ∈ since, ¬x.Lifts t i

variable {s : Decisions} {t : Target} {i : ℤ}

lemma inForce_concat {history : List Change} {c : Change} :
    InForce t i (history ++ [c]) ↔ c.Adds t i ∨ InForce t i history ∧ ¬c.Lifts t i := by
  constructor
  · rintro ⟨before, x, since, heq, hx, hsince⟩
    rcases eq_nil_or_concat since with rfl | ⟨since, last, rfl⟩
    · cases append_inj_right' heq rfl
      exact .inl hx
    rw [concat_eq_append, ← cons_append, ← append_assoc] at heq
    obtain ⟨rfl, hlast⟩ := append_inj' heq rfl
    cases hlast
    rw [concat_eq_append, forall_mem_append] at hsince
    exact .inr ⟨⟨before, x, since, rfl, hx, hsince.1⟩, hsince.2 c (mem_singleton_self c)⟩
  rintro (hc | ⟨⟨before, x, since, rfl, hx, hsince⟩, hc⟩)
  · exact ⟨history, c, [], rfl, hc, forall_mem_nil _⟩
  refine ⟨before, x, since ++ [c], by rw [append_assoc, cons_append], hx, ?_⟩
  exact forall_mem_append.mpr ⟨hsince, forall_mem_singleton.mpr hc⟩

namespace Decisions

def step (s : Decisions) : Change → Decisions
  | .removed d => s.remove d
  | .added d => s.add d

lemma mem_ids_add (d : Decision) :
    i ∈ (s.add d).ids t ↔ (Change.added d).Adds t i ∨ i ∈ s.ids t := by
  have hkind : (lower d.kind = "ban" ∨ lower d.kind = "captcha") ↔ d.blocks := by
    simp [Decision.blocks]
  rw [add, Change.Adds, hkind, ← Target.of_eq_some]
  cases hblocks : d.blocks with
  | false => simp
  | true =>
    cases hof : Target.of d with
    | none => simp
    | some u =>
      simp only [if_true, ids_setIds, Option.some.injEq, true_and]
      split_ifs with htu
      · simp [htu, eq_comm (a := i)]
      · simp [Ne.symm htu]

lemma mem_ids_remove (d : Decision) :
    i ∈ (s.remove d).ids t ↔ i ∈ s.ids t ∧ ¬(Change.removed d).Lifts t i := by
  rw [remove, Change.Lifts, ← Target.of_eq_some]
  cases hof : Target.of d with
  | none => simp
  | some u =>
    simp only [ids_leave, Option.some.injEq]
    split_ifs with htu
    · cases d.id with
      | none => simp [htu]
      | some id => simp [htu, and_comm, eq_comm (a := i)]
    · simp [Ne.symm htu]

lemma Tight.step (h : s.Tight) (c : Change) : (s.step c).Tight := by
  intro t ids ht
  cases c with
  | added d =>
    rw [Decisions.step, add] at ht
    split at ht
    · split at ht
      · rw [lookup_setIds] at ht
        split_ifs at ht
        · cases ht
          exact Finset.insert_ne_empty _ _
        · exact h t ids ht
      · exact h t ids ht
    · exact h t ids ht
  | removed d =>
    rw [Decisions.step, remove] at ht
    split at ht
    · exact h t ids ht
    rw [lookup_leave] at ht
    split_ifs at ht with _ hne
    · cases ht
      exact hne
    · exact h t ids ht

/-- What is kept after the changes of `history`, by that history. -/
structure Follows (s : Decisions) (history : List Change) : Prop where
  tight : s.Tight
  ids : ∀ t i, i ∈ s.ids t ↔ InForce t i history

lemma Follows.step {history : List Change} (h : s.Follows history) (c : Change) :
    (s.step c).Follows (history ++ [c]) := by
  refine ⟨h.tight.step c, fun t i => ?_⟩
  rw [inForce_concat, ← h.ids]
  cases c with
  | added d => simpa [Change.Lifts, Decisions.step] using mem_ids_add d
  | removed d => simpa [Change.Adds, Decisions.step] using mem_ids_remove d

lemma Follows.steps {history : List Change} (h : s.Follows history) (changes : List Change) :
    (changes.foldl Decisions.step s).Follows (history ++ changes) := by
  induction changes generalizing s history with
  | nil => rwa [append_nil]
  | cons c changes ih => simpa using ih (h.step c)

lemma pull_eq (p : Pull) : s.pull false p = p.changes.foldl step s := by
  rw [Pull.changes, foldl_append, foldl_map, foldl_map]
  rfl

lemma follows_pulls (s : Decisions) (first : Pull) (rest : List Pull) :
    (rest.foldl (pull false) (s.pull true first)).Follows
      (first.changes ++ rest.flatMap Pull.changes) := by
  have hempty : (⟨∅, ∅⟩ : Decisions).Follows [] := by
    have hnone : ∀ t, (⟨∅, ∅⟩ : Decisions).lookup t = none := fun t => by cases t <;> rfl
    refine ⟨fun t ids ht => by simp [hnone] at ht, fun t i => ?_⟩
    simp [Decisions.ids, hnone, InForce]
  have hfirst : s.pull true first = (⟨∅, ∅⟩ : Decisions).pull false first := rfl
  have hrest : rest.foldl (pull false) (s.pull true first) =
      (rest.flatMap Pull.changes).foldl step (s.pull true first) := by
    rw [foldl_flatMap]
    congr 1
    funext s p
    exact pull_eq p
  rw [hrest, hfirst, pull_eq]
  simpa using (hempty.steps first.changes).steps (rest.flatMap Pull.changes)

end Decisions

/-- **CrowdSec blocks what is in force.** An address is blocked iff a decision in force by the
history of the pulls covers it; every target in the maps has one; and a deletion by id takes nothing
but that id of its target. -/
theorem blocked_iff_in_force (s : Decisions) (first : Pull) (rest : List Pull) :
    let now := rest.foldl (Decisions.pull false) (s.pull true first)
    let history := first.changes ++ rest.flatMap Pull.changes
    (∀ ip, now.blocked ip = true ↔ ∃ t i, t.Covers ip.canonical ∧ InForce t i history) ∧
    (∀ t, (now.lookup t).isSome = true → ∃ i, InForce t i history) ∧
    ∀ d id t i, d.id = some id → InForce t i history → (¬d.On t ∨ i ≠ id) →
      i ∈ (now.remove d).ids t := by
  intro now history
  have h : now.Follows history := Decisions.follows_pulls s first rest
  refine ⟨fun ip => ?_, fun t ht => ?_, fun d id t i hid hforce hother => ?_⟩
  · simp only [Decisions.blocked_iff h.tight, h.ids]
  · obtain ⟨ids, hids⟩ := Option.isSome_iff_exists.mp ht
    obtain ⟨i, hi⟩ := Finset.nonempty_iff_ne_empty.mpr (h.tight t ids hids)
    exact ⟨i, (h.ids t i).mp (by rwa [Decisions.ids, hids])⟩
  rw [Decisions.mem_ids_remove]
  refine ⟨(h.ids t i).mpr hforce, fun hlifts => ?_⟩
  rw [Change.Lifts, hid] at hlifts
  rcases hother with ht | hi
  · exact ht hlifts.1
  rcases hlifts.2 with hnone | hsome
  · cases hnone
  cases hsome
  exact hi rfl

end

open scoped Plain

/-- Of an address and a range, the address is lifted by its id. -/
theorem range_blocked_address_lifted :
    let first : Pull := ⟨[], [⟨some 1, "Ip", "192.0.2.1", "ban"⟩,
      ⟨some 2, "Range", " 198.51.100.0/24", "captcha"⟩]⟩
    let rest : List Pull := [⟨[⟨some 1, "ip", "192.0.2.1", "ban"⟩], []⟩]
    let now := rest.foldl (Decisions.pull false) (Decisions.pull true ⟨∅, ∅⟩ first)
    now.blocked (.v4 0xC0000201) = false ∧ now.blocked (.v4 0xC6336407) = true ∧
      ∃ t i, t.Covers (.v4 0xC6336407) ∧
        InForce t i (first.changes ++ rest.flatMap Pull.changes) := by
  intro first rest now
  refine ⟨by decide +kernel, by decide +kernel, ?_⟩
  exact ((blocked_iff_in_force ⟨∅, ∅⟩ first rest).1 (.v4 0xC6336407)).mp (by decide +kernel)

end Rproxy.Crowdsec
