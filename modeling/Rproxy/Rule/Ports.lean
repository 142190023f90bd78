import Rproxy.Rule.UpdateValid

/-!
# Ports of a range

A rule with a range of ports moves the ports of its backends up with the port it listens on, and
never out of the port space.
-/

namespace Rproxy
open Checks
variable {n : UInt16}

open List

def Room (n p : UInt16) : Prop :=
  p.toNat + n.toNat - 1 ≤ 65535

lemma room_of_validateTargets {ts ts' : List TargetSpec} (h : validateTargets ts n = .ok ts') :
    ∀ p ∈ ts'.map (·.port), Room n p := by
  simp only [validateTargets, bind_eq_ok, exists_unit, refuseIf_eq_ok, pure_eq_ok] at h
  obtain ⟨-, ts', h, -, rfl⟩ := h
  generalize 0 = i at h
  induction ts generalizing i ts' with
  | nil =>
    cases h
    exact fun _ hp => absurd hp not_mem_nil
  | cons t ts ih =>
    simp only [validateTargetsFrom, validateTargetAt, bind_eq_ok, exists_unit, refuseIf_eq_ok,
      pure_eq_ok] at h
    obtain ⟨t', ⟨_, -, -, -, hroom, rfl⟩, rest, hrest, rfl⟩ := h
    intro p hp
    rcases mem_cons.mp hp with rfl | hp
    · exact Nat.not_lt.mp hroom
    · exact ih _ _ hrest p hp

lemma room_of_validateBackends {host : String} {port : UInt16} {ts : List TargetSpec}
    {http : Bool} {b : Backends} (h : validateBackends host port ts http n = .ok b)
    (hroom : ts = [] → Room n port) : Room n b.port ∧ ∀ p ∈ b.targets.map (·.port), Room n p := by
  unfold validateBackends at h
  split at h
  next hnil =>
    simp only [bind_eq_ok, pure_eq_ok] at h
    obtain ⟨_, -, rfl⟩ := h
    exact ⟨hroom hnil, fun _ hp => absurd hp not_mem_nil⟩
  simp only [bind_eq_ok, exists_unit, refuseIf_eq_ok, pure_eq_ok] at h
  obtain ⟨-, -, ts', hts, rfl⟩ := h
  have hroom := room_of_validateTargets hts
  refine ⟨?_, hroom⟩
  -- the first target is shown as the backend
  cases ts' with
  | nil =>
    have := n.toNat_lt
    simp only [head?_nil, Option.map_none, Option.getD_none, Room, UInt16.toNat_zero]
    omega
  | cons t _ => exact hroom _ (mem_map_of_mem mem_cons_self)

section
variable [External]

def RuleSpec.ports (s : RuleSpec) : List UInt16 :=
  s.key.listen.port :: s.remotePort :: s.targets.map (·.port) ++
    s.tls.routes.flatMap fun r => r.remotePort :: r.targets.map (·.port)

/-- The rules that the table can hold: validated, then patched any number of times; where they came
from is noted. -/
inductive RuleSpec.Made : RuleSpec → Prop
  | validated {caps : Caps} {r : RuleRequest} {s : RuleSpec} (h : r.validate caps = .ok s) : Made s
  | updated {caps : Caps} {u : UpdateRequest} {s s' : RuleSpec} (hs : Made s)
      (h : updatedSpec caps s.key s u = .ok s') : Made s'
  | noted {s : RuleSpec} (hs : Made s) (origin : Origin) (ruleset : Option String) :
      Made { s with origin, ruleset }

lemma room_of_validateRange {protocol : Protocol} {tls : TlsSpec} {starttls : Option StartTls}
    (h : validateRange protocol tls starttls n = .ok ()) :
    ∀ p ∈ tls.routes.flatMap fun r => r.remotePort :: r.targets.map (·.port), Room n p := by
  simp only [validateRange, bind_eq_ok, exists_unit, forEach_eq_ok] at h
  obtain ⟨-, -, -, -, -, -, -, -, -, -, -, -, -, -, hroutes, -⟩ := h
  intro p hp
  obtain ⟨r, hr, hp⟩ := mem_flatMap.mp hp
  have hback := hroutes r hr
  simp only [Route.validate, bind_eq_ok, exists_unit] at hback
  obtain ⟨-, -, -, -, -, -, -, hback⟩ := hback
  unfold checkRouteBackends at hback
  split at hback
  next hnil =>
    simp only [bind_eq_ok, exists_unit, refuseIf_eq_ok] at hback
    obtain ⟨-, -, _, -, hroom⟩ := hback
    rw [hnil] at hp
    rw [mem_singleton.mp hp]
    exact Nat.not_lt.mp hroom
  simp only [bind_eq_ok, exists_unit, refuseIf_eq_ok, mapError_eq_ok, not_or, not_not] at hback
  obtain ⟨⟨-, hzero⟩, ts, hts, -⟩ := hback
  rcases mem_cons.mp hp with rfl | hp
  · have := n.toNat_lt
    rw [hzero, Room, UInt16.toNat_zero]
    omega
  rw [← (validateTargets_idem hts).2] at hp
  exact room_of_validateTargets hts p hp

lemma RuleSpec.Made.room {s : RuleSpec} (h : s.Made) : ∀ p ∈ s.ports, Room s.portCount p := by
  induction h with
  | @validated caps r s h =>
    have hvalid := (valid_of_validate h).1
    have hroom : s.targets = [] → Room s.portCount s.request.remotePort := by
      intro hnil
      have hrange := hvalid.range
      have := s.request.remotePort.toNat_lt
      rw [hnil] at hrange
      by_cases hone : s.portCount > 1
      · exact Nat.sub_le_of_le_add (hrange hone).2
      rw [gt_iff_lt, UInt16.lt_iff_toNat_lt, UInt16.toNat_one] at hone
      unfold Room
      omega
    obtain ⟨hremote, htargets⟩ := room_of_validateBackends hvalid.backends hroom
    intro p hp
    simp only [ports, cons_append, mem_cons, mem_append] at hp
    rcases hp with rfl | rfl | hp | hp
    · exact Nat.sub_le_of_le_add hvalid.count.2
    · exact hremote
    · exact htargets p hp
    · exact room_of_validateRange hvalid.tls p hp
  | @updated caps u s s' hs h ih =>
    have hfacts := patchFacts_of_updatedSpec h
    obtain ⟨hremote, htargets⟩ := room_of_validateBackends hfacts.backends fun hnil =>
      Nat.not_lt.mp fun hroom => hfacts.room ⟨hnil, hroom⟩
    intro p hp
    rw [hfacts.count]
    simp only [ports, cons_append, mem_cons, mem_append] at ih hp
    rcases hp with rfl | rfl | hp | hp
    · exact ih _ (.inl (by rw [hfacts.key]))
    · exact hremote
    · exact htargets p hp
    rcases hfacts.tls_cases with ⟨tls, -, heq, -, -, hrange⟩ | ⟨-, heq, -, -⟩
    · exact room_of_validateRange (heq ▸ hrange) p hp
    · exact ih p (.inr (.inr (.inr (heq ▸ hp))))
  | noted hs origin ruleset ih => exact ih

/-- **Port arithmetic never wraps.** For a validated rule, patched in any way, and each offset in
its range, no port that moves up leaves the port space, and the length of the range is computed
without overflow. -/
theorem ports_never_wrap {s : RuleSpec} (h : s.Made) :
    (∀ p ∈ s.ports, ∀ i : UInt16, i < s.portCount →
      p.toNat + i.toNat ≤ 65535 ∧ (p + i).toNat = p.toNat + i.toNat) ∧
    ∀ (caps : Caps) (r : RuleRequest), r.validate caps = .ok s →
      s.portCount.toNat = (r.listenPortEnd.getD r.listenPort).toNat - r.listenPort.toNat + 1 := by
  constructor
  · intro p hp i hi
    have hroom := h.room p hp
    rw [UInt16.lt_iff_toNat_lt] at hi
    have hle : p.toNat + i.toNat ≤ 65535 := by
      unfold Room at hroom
      omega
    exact ⟨hle, by rw [UInt16.toNat_add]; omega⟩
  intro caps r hr
  have hport := (valid_of_validate hr).1.port
  simp only [RuleRequest.validate, checkBuilt, bind_eq_ok, exists_unit, pure_eq_ok] at hr
  obtain ⟨_, hlisten, _, -, _, -, count, hcount, _, -, -, _, -, _, -, _, -, _, -, _, -, -, -, -,
    -, _, -, -, -, -, -, rfl⟩ := hr
  simp only [parseListen, bind_eq_ok, exists_unit, refuseIf_eq_ok, pure_eq_ok] at hlisten
  obtain ⟨_, -, -, rfl⟩ := hlisten
  unfold portCount at hcount
  split at hcount
  next hnone =>
    rw [hnone, ← (pure_eq_ok.mp hcount)]
    simp
  rename_i last hlast
  simp only [bind_eq_ok, refuseIf_eq_ok, exists_unit, pure_eq_ok] at hcount
  obtain ⟨hle, -, -, rfl⟩ := hcount
  have := last.toNat_lt
  -- the port to listen on is not 0, so that not even the whole port space wraps
  have hpos : r.listenPort.toNat ≠ 0 := fun h0 => hport (UInt16.toNat_inj.mp h0)
  rw [UInt16.lt_iff_toNat_lt] at hle
  rw [hlast, Option.getD_some, UInt16.toNat_add, UInt16.toNat_sub, UInt16.toNat_one]
  omega

end

section
open scoped Plain

theorem ports_patched_plain : ∃ s s' : RuleSpec, Plain.ranged.validate Plain.caps = .ok s ∧
      updatedSpec Plain.caps s.key s Plain.rangedUpdate = .ok s' ∧ s'.Made ∧
      ∀ p ∈ s'.ports, ∀ i : UInt16, i < s'.portCount → p.toNat + i.toNat ≤ 65535 := by
  obtain ⟨s, s', hs, -, hu⟩ := exists_of_patched_isOk (r := Plain.ranged) (u := Plain.rangedUpdate)
    (by decide +kernel)
  have hmade : s'.Made := .updated (.validated hs) hu
  exact ⟨s, s', hs, hu, hmade, fun p hp i hi => ((ports_never_wrap hmade).1 p hp i hi).1⟩

end
end Rproxy
