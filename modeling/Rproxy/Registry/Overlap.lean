import Rproxy.Rule.Request

/-!
# Rules that clash

Two rules clash when they share a protocol, a port and an address, or a wildcard of one covers an
address of the other (`overlaps`).
-/

namespace Rproxy

open RuleSpec

/-- `covers` of `net::listen::clash`: a wildcard takes the addresses of its family, and a `::` that
is not IPv6-only every address. -/
def covers (wild : IpAddr) (wildV6only : Bool) (other : IpAddr) : Bool :=
  match wild with
  | .v4 _ => wild.isUnspecified && other.isIpv4
  | .v6 _ => wild.isUnspecified && (!wildV6only || other.isIpv6)

def clash (a : IpAddr) (aV6only : Bool) (b : IpAddr) (bV6only : Bool) : Bool :=
  a == b || covers a aV6only b || covers b bV6only a

lemma clash_comm (a : IpAddr) (av : Bool) (b : IpAddr) (bv : Bool) :
    clash a av b bv = clash b bv a av := by
  unfold clash
  rw [Bool.beq_comm, Bool.or_assoc, Bool.or_comm (covers a av b), ← Bool.or_assoc]

lemma clash_self (a : IpAddr) (av bv : Bool) : clash a av a bv := by
  simp [clash]

section
variable [External]
namespace RuleSpec

def firstPort (s : RuleSpec) : Nat :=
  s.key.listen.port.toNat

def lastPort (s : RuleSpec) : Nat :=
  s.key.listen.port.toNat + s.portCount.toNat - 1

end RuleSpec

def overlaps (a b : RuleSpec) : Bool :=
  a.key.protocol == b.key.protocol && decide (a.firstPort ≤ b.lastPort) &&
    decide (b.firstPort ≤ a.lastPort) &&
    a.listenIps.any fun x => b.listenIps.any fun y => clash x a.v6only y b.v6only

lemma overlaps_comm (a b : RuleSpec) : overlaps a b = overlaps b a := by
  unfold overlaps
  have hips : (a.listenIps.any fun x => b.listenIps.any fun y => clash x a.v6only y b.v6only)
      = b.listenIps.any fun y => a.listenIps.any fun x => clash y b.v6only x a.v6only := by
    rw [Bool.eq_iff_iff]
    simp only [List.any_eq_true]
    constructor
    · rintro ⟨x, hx, y, hy, hclash⟩
      exact ⟨y, hy, x, hx, by rw [clash_comm]; exact hclash⟩
    rintro ⟨y, hy, x, hx, hclash⟩
    exact ⟨x, hx, y, hy, by rw [clash_comm]; exact hclash⟩
  rw [hips, Bool.beq_comm, Bool.and_right_comm (b.key.protocol == a.key.protocol)]

lemma overlaps_of_key_eq {a b : RuleSpec} (hkey : a.key = b.key) (ha : a.portCount ≠ 0)
    (hb : b.portCount ≠ 0) : overlaps a b := by
  have hpos : ∀ {n : UInt16}, n ≠ 0 → 0 < n.toNat := by
    intro n hn
    rcases Nat.eq_zero_or_pos n.toNat with h | h
    · exact absurd (UInt16.toNat_inj.mp h) hn
    · exact h
  have ha' := hpos ha
  have hb' := hpos hb
  simp only [overlaps, firstPort, lastPort, hkey, Bool.and_eq_true,
    beq_self_eq_true, true_and, decide_eq_true_eq, List.any_eq_true]
  refine ⟨⟨by omega, by omega⟩, b.key.listen.ip, ?_, b.key.listen.ip, ?_, clash_self _ _ _⟩
  · simp [listenIps, hkey]
  · simp [listenIps]

def overlapMessage (spec other : RuleSpec) : String :=
  let wild (s : RuleSpec) : Bool := s.listenIps.any IpAddr.isUnspecified
  s!"{spec.key.text} overlaps with {other.key.text}" ++
    (match other.ruleset with
      | some set => s!" (rule set {set})"
      | none => "") ++
    (if spec.key.listen.ip ≠ other.key.listen.ip ∧ (wild spec ∨ wild other) then
      ": a rule on 0.0.0.0 / :: takes the port on every address; give both rules specific " ++
      "addresses (listen_freebind for addresses not on the host yet)"
    else "")

def isDualStackWildcard (key : Key) : Bool :=
  key.listen.ip.isIpv6 && key.listen.ip.isUnspecified

def inPlace (old new : RuleSpec) : Bool :=
  old.key == new.key && old.portCount == new.portCount && old.sourceIp == new.sourceIp &&
    old.listenFreebind == new.listenFreebind && old.http.isSome == new.http.isSome &&
    !(isDualStackWildcard old.key && old.v6only != new.v6only)

/-- What `Registry::cfg`, `global.acme` and the limits of the process say. -/
structure Settings where
  caps : Caps
  reserved : List SocketAddr
  http01Listen : List SocketAddr
  maxRules : Nat
  maxListeners : Nat
  maxRulesets : Nat

def reservedClash (cfg : Settings) (spec : RuleSpec) : Option SocketAddr :=
  if spec.key.protocol ≠ .tcp then none
  else (cfg.reserved ++ cfg.http01Listen).find? fun r =>
    decide (spec.firstPort ≤ r.port.toNat) && decide (r.port.toNat ≤ spec.lastPort) &&
      spec.listenIps.any fun ip => clash ip spec.v6only r.ip false

def reservedError (spec : RuleSpec) (api : SocketAddr) : ApiError :=
  .reserved s!"{spec.key.text} would take rproxy's control API ({api.text})"

namespace Quota

def sockets (spec : RuleSpec) : Nat :=
  spec.listenIps.length * max spec.portCount.toNat 1 *
    if spec.http.any External.http3 then 2 else 1

def checkProcess (cfg : Settings) (rules addedRules sockets addedSockets : Nat) :
    Except ApiError Unit :=
  if addedRules > 0 ∧ rules > cfg.maxRules then
    .error (.limit s!"the process may have at most {cfg.maxRules} rules (RPROXY_MAX_RULES)")
  else if addedSockets > 0 ∧ sockets > cfg.maxListeners then
    .error (.limit (s!"the rules may open at most {cfg.maxListeners} listening sockets together " ++
      "(RPROXY_MAX_LISTENERS; one per address and port, two with http3); this change would make " ++
      s!"{sockets}"))
  else .ok ()

def checkRulesets (cfg : Settings) (sets : Nat) : Except ApiError Unit :=
  if sets > cfg.maxRulesets then
    .error (.limit
      s!"the process may have at most {cfg.maxRulesets} rule sets (RPROXY_MAX_RULESETS)")
  else .ok ()

def checkFreebind (listenFreebind allowed : Bool) : Except ApiError Unit :=
  if listenFreebind && !allowed then
    .error (.forbidden ("listen_freebind needs a token with the admin scope or allow_freebind: " ++
      "true (a rule set's PUT also by a token with allow_rulesets)"))
  else .ok ()

def checkToken (what : String) (have_ added : Nat) (max? : Option Nat) : Except ApiError Unit :=
  match max? with
  | some m =>
    if added > 0 ∧ have_ > m then
      .error (.limit s!"this token may have at most {m} {what} (max_{what} of the token file)")
    else .ok ()
  | none => .ok ()

end Quota
end
end Rproxy
