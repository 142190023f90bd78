import Rproxy.L4.Relay

/-!
# A direction of a spliced relay

A direction starts with the user-space copy.
-/

namespace Rproxy.Splice
open Relay

structure Settings where
  after : ℕ
  fullReads : ℕ

def spliceLen : ℕ := 2 ^ 20

inductive Phase where
  /-- The user-space copy, with the bytes `Counted` has counted. -/
  | copying (copy : Copy) (await : Await) (counted : ℕ)
  /-- `w.shutdown()` after the copy has ended. -/
  | shutdown
  /-- `src.readable()`, with or without an empty pipe. -/
  | readable (pipe : Bool)
  | take
  | spliceIn
  /-- `dst.writable()`, with so many bytes in the pipe. -/
  | writable (pending : ℕ)
  | spliceOut (pending : ℕ)
  | halfClose
  | ended (ok : Bool)

structure Direction where
  phase : Phase
  canSplice : Bool
  limited : Bool
  count : ℕ
  total : ℕ
  wire : Wire
  pipe : List UInt8
  shut : ℕ

inductive Event where
  | io (o : Outcome)
  | limit (on : Bool)

namespace Direction
variable (cfg : Settings) (d : Direction)

def copy : Direction :=
  let handover :=
    if d.canSplice && !d.limited then some ⟨cfg.fullReads, cfg.after⟩ else none
  let (c, a) := (Copy.new bufferSize handover).enter
  { d with phase := .copying c a 0 }

def start (limited : Bool) : Direction :=
  copy cfg
    { phase := .ended true
      canSplice := true
      limited
      count := 0
      total := 0
      wire := ⟨[], [], false, 0⟩
      pipe := []
      shut := 0 }

def endCopy (counted : ℕ) (phase : Phase) : Direction :=
  { d with phase, count := d.count + counted }

def polled (counted : ℕ) : Poll → Direction
  | .goes c a => { d with phase := .copying c a counted }
  | .pending c =>
    let (c, a) := c.enter
    { d with phase := .copying c a counted }
  | .failed _ => d.endCopy counted (.ended false)
  | .done _ => d.endCopy counted .shutdown
  | .handover _ => d.endCopy counted (.readable false)

def counting (w : Wire) : ℕ := w.taken.length - d.wire.taken.length

def io (o : Outcome) : Option Direction :=
  match d.phase, o with
  | .copying c a counted, o =>
    (c.step d.wire a o).map fun (p, w) =>
      polled { d with wire := w, total := d.total + d.counting w } (counted + d.counting w) p
  | .shutdown, .ok => some { d with phase := .ended true, shut := d.shut + 1 }
  | .shutdown, .block => some d
  | .readable pipe, .ok =>
    -- the pipe is empty here: what is left is read by the shaped copy
    if d.limited then some (d.copy cfg)
    else some { d with phase := if pipe then .spliceIn else .take }
  | .readable _, .block => some d
  | .take, .ok => some { d with phase := .spliceIn }
  | .take, .refused => some ({ d with canSplice := false }.copy cfg)
  | .spliceIn, .read bs =>
    if bs.length ≤ spliceLen then
      if bs = [] then some { d with phase := .halfClose, wire := d.wire.takes bs }
      else
        some { d with
          phase := .writable bs.length
          pipe := d.pipe ++ bs
          count := d.count + bs.length
          total := d.total + bs.length
          wire := d.wire.takes bs }
    else none
  | .spliceIn, .block => some { d with phase := .readable false }
  | .spliceIn, .unsupported => some ({ d with canSplice := false }.copy cfg)
  | .writable n, .ok => some { d with phase := .spliceOut n }
  | .writable _, .block => some d
  | .spliceOut n, .wrote m =>
    if m ≤ n then
      -- `WriteZero`
      if m = 0 then some { d with phase := .ended false }
      else
        some { d with
          phase := if n - m = 0 then .readable true else .writable (n - m)
          pipe := d.pipe.drop m
          wire := d.wire.gives (d.pipe.take m) }
    else none
  | .spliceOut n, .block => some { d with phase := .writable n }
  | .spliceOut _, .unsupported => some { d with phase := .ended false }
  | .halfClose, .ok => some { d with phase := .ended true, shut := d.shut + 1 }
  | .take, .failed => none
  | .ended _, _ => none
  | _, .failed => some { d with phase := .ended false }
  | _, _ => none

def step : Event → Direction
  | .io o => (d.io cfg o).getD d
  | .limit on => { d with limited := on }

end Direction
end Rproxy.Splice
