import Rproxy.Rule.Plain

/-!
# Storing a rule and reading it back

A rule of the API is stored as its shape and validated again at the next start; a spec `ReadsBack`
when that gives the same spec.
-/

namespace Rproxy
open Plain

section
variable [External]

/-- The stored shape of `s` is a request, and it validates to `s`, up to where the rule came
from. -/
def ReadsBack (caps : Caps) (s : RuleSpec) : Prop :=
  ∃ r, RuleRequest.ofJson (shape s) = some r ∧
    r.validate caps = .ok { s with origin := .dynamic, ruleset := none }

variable {caps : Caps} {s : RuleSpec}

lemma RuleSpec.valid_origin_iff {origin : Origin} {ruleset : Option String} :
    RuleSpec.Valid caps { s with origin, ruleset } ↔ s.Valid caps :=
  ⟨fun h => ⟨h.port, h.extra, h.udpIdle, h.count, h.range, h.backends, h.healthCheck,
      h.connectTimeout, h.idleTimeout, h.halfCloseTimeout, h.allowFrom, h.proxyProtocol, h.tls,
      h.misdirected, h.starttls, h.http, h.v04, h.features, h.sourceIp, h.families, h.v04Features⟩,
    fun h => ⟨h.port, h.extra, h.udpIdle, h.count, h.range, h.backends, h.healthCheck,
      h.connectTimeout, h.idleTimeout, h.halfCloseTimeout, h.allowFrom, h.proxyProtocol, h.tls,
      h.misdirected, h.starttls, h.http, h.v04, h.features, h.sourceIp, h.families, h.v04Features⟩⟩

variable [LawfulIpText]

lemma readsBack_iff :
    ReadsBack caps s ↔ s.Valid caps ∧ (s.targets ≠ [] ∨ s.balance = .default) := by
  constructor
  · rintro ⟨r, hr, hs⟩
    rw [ofJson_shape] at hr
    cases hr
    obtain ⟨hvalid, -, -, hbalance, -⟩ := valid_of_validate hs
    refine ⟨RuleSpec.valid_origin_iff.mp hvalid, ?_⟩
    -- the balance of what was read is the one of the spec
    by_cases hnil : s.targets = []
    · right
      rw [hbalance, RuleSpec.request, if_neg (not_not_intro hnil)]
    · exact .inl hnil
  rintro ⟨hvalid, hbalance⟩
  refine ⟨s.request, ofJson_shape s, ?_⟩
  have hshown : s.request.balance = s.balance := by
    rw [RuleSpec.request]
    rcases hbalance with hne | hdefault
    · rw [if_pos hne]
    · simp [hdefault]
  rw [validate_request hvalid, hshown]

/-- **A validated rule reads back from its stored shape exactly when it has targets or the default
balance.** -/
theorem readsBack_shape_iff {r : RuleRequest} (h : r.validate caps = .ok s) :
    ReadsBack caps s ↔ (r.targets ≠ [] ∨ r.balance = .roundRobin) := by
  obtain ⟨hvalid, -, -, hbalance, hnil⟩ := valid_of_validate h
  rw [readsBack_iff, hbalance, ne_eq, hnil]
  exact and_iff_right hvalid

end

section
open scoped Plain

theorem readsBack_shape_plain :
    ∃ s, Plain.ranged.validate caps = .ok s ∧ ReadsBack caps s := by
  obtain ⟨s, hs⟩ := Checks.exists_ok_of_isOk (x := Plain.ranged.validate caps)
    (by decide +kernel)
  exact ⟨s, hs, (readsBack_shape_iff hs).mpr (.inl (List.cons_ne_nil _ _))⟩

/-- A rule to one backend with `balance: least_conn` is accepted and stored, and is read back as a
rule with `round_robin`. -/
theorem balance_not_readsBack :
    ∃ s, { request .tcp 8080 with balance := .leastConn }.validate caps = .ok s ∧
      ¬ ReadsBack caps s := by
  obtain ⟨s, hs⟩ := Checks.exists_ok_of_isOk
    (x := { request .tcp 8080 with balance := .leastConn }.validate caps) (by decide)
  obtain ⟨-, -, -, hbalance, hnil⟩ := valid_of_validate hs
  refine ⟨s, hs, fun h => ?_⟩
  rcases (readsBack_iff.mp h).2 with hne | hdefault
  · exact hne (hnil.mpr rfl)
  rw [hbalance] at hdefault
  cases hdefault

end
end Rproxy
