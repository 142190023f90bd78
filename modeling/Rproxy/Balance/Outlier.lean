import Rproxy.Programs.Runs
import Rproxy.Rule.Limits

/-!
# Outlier ejection of the targets of an L4 rule

A target whose connections keep failing is ejected for a while: `Ejection` holds until when, and how
often in a row.
-/

namespace Rproxy.Outlier

structure Ejecting where
  time : ℕ
  maxTime : ℕ
  maxPercent : ℕ
  time_le : time ≤ maxTime
  percent_le : maxPercent ≤ 100

namespace Ejecting

def parse [External] (v : Option String) : Option ℕ := v.bind fun s => (parseDuration s).toOption

def new [External] (time max : Option String) (percent : Option UInt8) (defaultTime : ℕ)
    (defaultMax : Option ℕ) (defaultPercent : UInt8) : Ejecting where
  time := (parse time).getD defaultTime
  maxTime := Nat.max (((parse max).or defaultMax).getD ((parse time).getD defaultTime))
    ((parse time).getD defaultTime)
  maxPercent := min (percent.getD defaultPercent).toNat 100
  time_le := Nat.le_max_right _ _
  percent_le := Nat.min_le_right _ _

def allows (e : Ejecting) (ejected total : ℕ) : Bool := (ejected + 1) * 100 ≤ e.maxPercent * total

end Ejecting

def failCooldown : ℕ := 10000

structure L4Outlier where
  consecutiveFailures : ℕ
  shortLived : ℕ
  ejecting : Ejecting

def noSettings : L4OutlierSpec where
  consecutiveFailures := none
  shortLived := none
  ejectionTime := none
  maxEjectionTime := none
  maxEjectedPercent := none

def L4Outlier.new [External] (spec : Option L4OutlierSpec) : L4Outlier :=
  let spec := spec.getD noSettings
  { consecutiveFailures := max (spec.consecutiveFailures.getD 1).toNat 1
    shortLived := (Ejecting.parse spec.shortLived).getD 0
    ejecting := .new spec.ejectionTime spec.maxEjectionTime spec.maxEjectedPercent failCooldown none
      100 }

/-! ## The state of one target -/

def maxU32 : ℕ := 2 ^ 32 - 1

def saturatingSucc (n : ℕ) : ℕ := min (n + 1) maxU32

def factor (k : ℕ) : ℕ := if k < 32 then 2 ^ k else maxU32

structure Counts where
  failures : ℕ
  serverErrors : ℕ
  gateway : ℕ
  /-- `failure_percent`: the current window. -/
  requests : ℕ
  failed : ℕ
  level : ℕ
  lastEnd : ℕ
deriving DecidableEq

structure Ejection where
  untilMs : ℕ
  ejections : ℕ
  counts : Counts
deriving DecidableEq

namespace Ejection

def default : Ejection := ⟨0, 0, ⟨0, 0, 0, 0, 0, 0, 0⟩⟩

variable (x : Ejection)

def isEjected (now : ℕ) : Bool := x.untilMs ≠ 0 ∧ now < x.untilMs

def clear : Ejection :=
  { x with
    untilMs := 0
    counts := { x.counts with failures := 0, serverErrors := 0, gateway := 0 } }

def recordL4 (cfg : L4Outlier) (failed : Bool) : Ejection × Bool :=
  if failed then
    let failures := saturatingSucc x.counts.failures
    ({ x with counts := { x.counts with failures } }, cfg.consecutiveFailures ≤ failures)
  else ({ x with counts := { x.counts with failures := 0 } }, false)

/-- The level that `eject` takes for an ejection at `now`, which is a new one unless the target is
still ejected at the later reading. -/
def nextLevel (e : Ejecting) (now later : ℕ) : ℕ :=
  if x.isEjected later then x.counts.level
  else saturatingSucc
    (if x.counts.lastEnd ≠ 0 ∧ now - x.counts.lastEnd > e.maxTime then 0 else x.counts.level)

def eject (e : Ejecting) (now later : ℕ) : Ejection :=
  let level := x.nextLevel e now later
  let length := min (e.time * factor (level - 1)) e.maxTime
  { untilMs := now + length
    ejections := if x.isEjected later then x.ejections else x.ejections + 1
    counts :=
      { failures := 0, serverErrors := 0, gateway := 0, requests := 0, failed := 0,
        level, lastEnd := now + length } }

end Ejection

/-! ## The targets of a pool -/

structure Target where
  healthy : Bool
  ejection : Ejection
deriving DecidableEq

def Target.new : Target := ⟨true, .default⟩

abbrev Clock := ℕ → ℕ

def ejectedAt (members : List Target) (clock : Clock) : ℕ :=
  members.zipIdx.countP fun p => p.1.ejection.isEjected (clock p.2)

namespace Pool

def failed (cfg : L4Outlier) (members : List Target) (i : ℕ) (clock : Clock) :
    List Target × Bool :=
  match members[i]? with
  | none => (members, false)
  | some m =>
    let ejecting (x : Ejection) : List Target :=
      members.set i
        { m with
          ejection := x.eject cfg.ejecting (clock (members.length + 1))
            (clock (members.length + 2)) }
    if m.ejection.isEjected (clock 0) then (ejecting m.ejection, true)
    else
      let (x, reached) := m.ejection.recordL4 cfg true
      if reached ∧
        cfg.ejecting.allows (ejectedAt members fun j => clock (j + 1)) members.length then
        (ejecting x, true)
      else (members.set i { m with ejection := x }, false)

def succeeded (cfg : L4Outlier) (members : List Target) (i : ℕ) : List Target :=
  members.modify i fun m => { m with ejection := (m.ejection.recordL4 cfg false).1 }

def checked (members : List Target) (i : ℕ) (up : Bool) : List Target :=
  members.modify i fun m =>
    if m.healthy ≠ up then
      { healthy := up, ejection := if up then m.ejection.clear else m.ejection }
    else m

def endedFailed (cfg : L4Outlier) (lived : ℕ) (backendFirst : Bool) : Bool :=
  backendFirst ∧ lived < cfg.shortLived

end Pool

/-! ## Runs -/

inductive Act where
  | pass (ms : ℕ)
  | failed (i : ℕ) (clock : Clock)
  | succeeded (i : ℕ)
  | ended (i : ℕ) (lived : ℕ) (backendFirst : Bool) (clock : Clock)
  | checked (i : ℕ) (up : Bool)

structure World where
  now : ℕ
  members : List Target

namespace World

def new (now n : ℕ) : World := ⟨now, List.replicate n .new⟩

def failed (cfg : L4Outlier) (w : World) (i : ℕ) (clock : Clock) : World :=
  ⟨clock (w.members.length + 2), (Pool.failed cfg w.members i clock).1⟩

def step (cfg : L4Outlier) (w : World) : Act → World
  | .pass ms => { w with now := w.now + ms }
  | .failed i clock => w.failed cfg i clock
  | .succeeded i => { w with members := Pool.succeeded cfg w.members i }
  | .ended i lived backendFirst clock =>
    if cfg.shortLived = 0 then w
    else if Pool.endedFailed cfg lived backendFirst then w.failed cfg i clock
    else { w with members := Pool.succeeded cfg w.members i }
  | .checked i up => { w with members := Pool.checked w.members i up }

def InOrder (w : World) : Act → Prop
  | .failed _ clock | .ended _ _ _ clock => Monotone clock ∧ w.now ≤ clock 0
  | _ => True

def ejected (w : World) (t : ℕ) : ℕ := w.members.countP fun m => m.ejection.isEjected t

end World
end Rproxy.Outlier
