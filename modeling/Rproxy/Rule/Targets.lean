import Rproxy.Rule.Basic

/-!
# Durations, backends and health checks

The host and port that a rule forwards to, or several `targets` with a `balance` and a TCP
`health_check`.
-/

namespace Rproxy
open Checks

/-! ## Durations -/

open Text

def maxU64 : Nat := 2 ^ 64 - 1

def maxDuration : Nat := 365 * 24 * 3600 * 1000

def unitMillis (n : Nat) (unit : String) : Option (Option Nat) :=
  if unit = "ms" then some (some n)
  else if unit = "s" then some (some (n * 1000))
  else if unit = "m" then some (if n * 60 ≤ maxU64 then some (n * 60 * 1000) else none)
  else if unit = "h" then some (if n * 3600 ≤ maxU64 then some (n * 3600 * 1000) else none)
  else none

def parseDuration [External] (s : String) : Except String Nat := do
  let notADuration := s!"{debugStr s} is not a duration (e.g. 10s, 500ms, 1m)"
  let parts := splitDigits s
  let n ← okOr notADuration (parseUnsigned maxU64 parts.1)
  let d ← okOr notADuration (unitMillis n parts.2)
  let tooLong := s!"{debugStr s} is longer than 365 days (8760h)"
  let d ← okOr tooLong d
  refuseIf (maxDuration < d) tooLong
  return d

def showDuration (ms : Nat) : String :=
  if ms % 1000 = 0 then (ms / 1000).repr ++ "s" else ms.repr ++ "ms"

lemma parseDuration_repr_append [External] {n d : Nat} {unit : String}
    (hunit : ∀ c, unit.toList.head? = some c → c.isDigit = false)
    (hd : unitMillis n unit = some (some d)) (hn : n ≤ maxU64) (hmax : d ≤ maxDuration) :
    parseDuration (n.repr ++ unit) = .ok d := by
  have hsplit : splitDigits (n.repr ++ unit) = (n.repr, unit) :=
    splitDigits_append (fun _ hc => isDigit_of_mem_repr hc) hunit
  simp only [parseDuration, hsplit, parseUnsigned_repr hn, hd, bind_eq_ok, okOr_eq_ok,
    refuseIf_eq_ok, exists_unit, pure_eq_ok, Option.some.injEq, exists_eq_left', Nat.not_lt,
    and_true]
  exact hmax

lemma parseDuration_showDuration [External] {ms : Nat} (h : ms ≤ maxDuration) :
    parseDuration (showDuration ms) = .ok ms := by
  have hu64 : maxDuration ≤ maxU64 := by decide
  unfold showDuration
  split
  next hdiv =>
    apply parseDuration_repr_append
    · simp
    · simp only [unitMillis, String.reduceEq, if_false, if_true]
      rw [Nat.div_mul_cancel (Nat.dvd_of_mod_eq_zero hdiv)]
    · exact (Nat.div_le_self _ _).trans (h.trans hu64)
    · exact h
  · apply parseDuration_repr_append
    · simp
    · simp only [unitMillis, if_true]
    · exact h.trans hu64
    · exact h

lemma trim_showDuration (ms : Nat) : trim (showDuration ms) = showDuration ms := by
  apply trim_eq_self
  intro c hc
  have hunit : c = 'm' ∨ c = 's' → isWhitespace c = false := by
    rintro (rfl | rfl) <;> decide
  unfold showDuration at hc
  split at hc
  all_goals
    simp only [String.toList_append, List.mem_append] at hc
    rcases hc with hc | hc
    · exact isWhitespace_of_isDigit (isDigit_of_mem_repr hc)
    apply hunit
    revert hc
    simp +contextual

/-! ## Backends -/

inductive Balance where
  | roundRobin
  | leastConn
  | failover
deriving DecidableEq

namespace Balance

def default : Balance := roundRobin

def asStr : Balance → String
  | roundRobin => "round_robin"
  | leastConn => "least_conn"
  | failover => "failover"

def codec : Codec Balance :=
  .enum asStr [roundRobin, leastConn, failover] fun a => by cases a <;> decide

end Balance

structure TargetSpec where
  addr : String
  port : UInt16
  weight : Option UInt32
  backup : Bool
  maxConnections : Option UInt32
deriving DecidableEq

def TargetSpec.codec : Codec TargetSpec :=
  .record true
    (.and (.required "addr" .str addr) <| .and (.required "port" .u16 port) <|
      .and (.optional "weight" .u32 weight) <| .and (.default "backup" .bool false backup) <|
      .optional "max_connections" .u32 maxConnections)
    fun (addr, port, weight, backup, maxConnections) =>
      { addr, port, weight, backup, maxConnections }

def maxTargets : Nat := 64

def validateRemote (host : String) (port : UInt16) : Except ApiError String := do
  let host := trimBrackets (trim host)
  refuseIf (host = "" ∨ byteLen host > 253 ∨ host.toList.any isWhitespace ∨
      '/' ∈ host.toList)
    (.invalid s!"invalid remote_addr: {host}")
  refuseIf (port = 0) (.invalid "remote_port must be 1-65535")
  return host

lemma validateRemote_idem {host host' : String} {port : UInt16}
    (h : validateRemote host port = .ok host') : validateRemote host' port = .ok host' := by
  simp only [validateRemote, bind_eq_ok, exists_unit, refuseIf_eq_ok, pure_eq_ok] at h
  obtain ⟨hhost, hport, rfl⟩ := h
  have hspace : ∀ c ∈ (trimBrackets (trim host)).toList, isWhitespace c = false := by
    simp only [not_or, Bool.not_eq_true, List.any_eq_false] at hhost
    exact hhost.2.2.1
  have htrim : trimBrackets (trim (trimBrackets (trim host)))
      = trimBrackets (trim host) := by
    rw [trim_eq_self hspace, trimBrackets_idem]
  simp only [validateRemote, bind_eq_ok, exists_unit, refuseIf_eq_ok, pure_eq_ok, htrim]
  exact ⟨hhost, hport, trivial⟩

def validateTargetAt (i : Nat) (t : TargetSpec) (portCount : UInt16) :
    Except ApiError TargetSpec := do
  let addr ← (validateRemote t.addr t.port).mapError fun e =>
    .invalid s!"targets[{i}]: {e.message}"
  refuseIf (t.weight = some 0) (.invalid s!"targets[{i}]: weight must be at least 1")
  refuseIf (t.maxConnections = some 0)
    (.invalid s!"targets[{i}]: max_connections must be at least 1")
  refuseIf (t.port.toNat + portCount.toNat - 1 > 65535)
    (.invalid s!"targets[{i}]: port + range length exceeds 65535")
  return { t with addr }

def validateTargetsFrom (portCount : UInt16) (i : Nat) :
    List TargetSpec → Except ApiError (List TargetSpec)
  | [] => .ok []
  | t :: ts => do
    let t ← validateTargetAt i t portCount
    let ts ← validateTargetsFrom portCount (i + 1) ts
    return t :: ts

def validateTargets (targets : List TargetSpec) (portCount : UInt16) :
    Except ApiError (List TargetSpec) := do
  refuseIf (targets.length > maxTargets) (.invalid s!"a rule may have at most {maxTargets} targets")
  let targets ← validateTargetsFrom portCount 0 targets
  refuseIf (targets ≠ [] ∧ targets.all (·.backup))
    (.invalid "at least one target must not be a backup")
  return targets

lemma validateTargetAt_idem {i : Nat} {t t' : TargetSpec} {n : UInt16}
    (h : validateTargetAt i t n = .ok t') :
    validateTargetAt i t' n = .ok t' ∧ t'.port = t.port := by
  simp only [validateTargetAt, bind_eq_ok, exists_unit, mapError_eq_ok, refuseIf_eq_ok,
    pure_eq_ok] at h ⊢
  obtain ⟨addr, haddr, hweight, hmax, hport, rfl⟩ := h
  exact ⟨⟨addr, validateRemote_idem haddr, hweight, hmax, hport, rfl⟩, rfl⟩

lemma validateTargetsFrom_idem {n : UInt16} {ts : List TargetSpec} :
    ∀ {i : Nat} {ts' : List TargetSpec}, validateTargetsFrom n i ts = .ok ts' →
      validateTargetsFrom n i ts' = .ok ts' ∧ ts'.map (·.port) = ts.map (·.port) := by
  induction ts with
  | nil =>
    intro i ts' h
    simp only [validateTargetsFrom, Except.ok.injEq] at h
    subst h
    exact ⟨rfl, rfl⟩
  | cons t ts ih =>
    intro i ts' h
    simp only [validateTargetsFrom, bind_eq_ok, pure_eq_ok] at h
    obtain ⟨t', ht, rest, hrest, rfl⟩ := h
    obtain ⟨ht', hport⟩ := validateTargetAt_idem ht
    obtain ⟨hrest', hports⟩ := ih hrest
    simp only [validateTargetsFrom, bind_eq_ok, pure_eq_ok, List.map_cons, hport, hports]
    exact ⟨⟨t', ht', rest, hrest', rfl⟩, trivial⟩

lemma validateTargets_idem {ts ts' : List TargetSpec} {n : UInt16}
    (h : validateTargets ts n = .ok ts') :
    validateTargets ts' n = .ok ts' ∧ ts'.map (·.port) = ts.map (·.port) := by
  simp only [validateTargets, bind_eq_ok, exists_unit, refuseIf_eq_ok, pure_eq_ok] at h ⊢
  obtain ⟨hlen, ts₁, hts, hbackup, rfl⟩ := h
  obtain ⟨hidem, hports⟩ := validateTargetsFrom_idem hts
  have hlen' : ts₁.length = ts.length := by
    simpa using congrArg List.length hports
  exact ⟨⟨by rwa [hlen'], ts₁, hidem, hbackup, rfl⟩, hports⟩

structure HealthCheckSpec where
  interval : Option String
  timeout : Option String
  port : Option UInt16
deriving DecidableEq

namespace HealthCheckSpec

def codec : Codec HealthCheckSpec :=
  .record true
    (.and (.optional "interval" .str interval) <| .and (.optional "timeout" .str timeout) <|
      .optional "port" .u16 port)
    fun (interval, timeout, port) => { interval, timeout, port }

def validate [External] (h : HealthCheckSpec) (protocol : Protocol) : Except ApiError Unit := do
  onSome h.interval fun v => do
    let _ ← (parseDuration v).mapError fun e => ApiError.invalid s!"health_check.interval: {e}"
  onSome h.timeout fun v => do
    let _ ← (parseDuration v).mapError fun e => ApiError.invalid s!"health_check.timeout: {e}"
  refuseIf (h.port = some 0) (.invalid "health_check.port must be 1-65535")
  refuseIf (protocol = .udp ∧ h.port = none)
    (.invalid "health_check on a udp rule needs port (a TCP port on the targets to connect to)")

end HealthCheckSpec
end Rproxy
