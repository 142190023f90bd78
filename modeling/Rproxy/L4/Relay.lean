import Mathlib

/-!
# The user-space copy of a relay

`Copy` is one direction: what was read into a borrowed buffer and not yet written. `poll_copy`
reads, writes and flushes until it has to wait, the reader ends, or it hands over.
-/

namespace Rproxy

structure Wire where
  taken : List UInt8
  given : List UInt8
  ended : Bool
  flushed : ℕ

namespace Wire

def takes (w : Wire) (bs : List UInt8) : Wire :=
  { w with taken := w.taken ++ bs, ended := w.ended || bs.isEmpty }

def gives (w : Wire) (bs : List UInt8) : Wire := { w with given := w.given ++ bs }

def flush (w : Wire) : Wire := { w with flushed := w.given.length }

end Wire

inductive Outcome where
  | read (bs : List UInt8)
  | wrote (n : ℕ)
  | block
  | ok
  | refused
  | unsupported
  | failed

namespace Relay

def bufferSize : ℕ := 32 * 1024

structure Handover where
  fullReads : ℕ
  after : ℕ

structure Copy where
  buf : Bool
  data : List UInt8
  pos : ℕ
  readDone : Bool
  needFlush : Bool
  amt : ℕ
  limit : ℕ
  handover : Option Handover
  fullStreak : ℕ

inductive Await where
  /-- `poll_fill` at the top of the loop. -/
  | fill
  | write
  /-- `poll_fill` while the writer is full. -/
  | topUp
  | idleFlush
  | endFlush
  | handFlush
deriving DecidableEq

inductive Poll where
  | goes (c : Copy) (a : Await)
  | pending (c : Copy)
  | failed (c : Copy)
  | done (c : Copy)
  | handover (c : Copy)

namespace Copy

def new (limit : ℕ) (handover : Option Handover) : Copy where
  buf := false
  data := []
  pos := 0
  readDone := false
  needFlush := false
  amt := 0
  limit := max 1 (min limit bufferSize)
  handover
  fullStreak := 0

variable (c : Copy)

def releaseIfEmpty : Copy :=
  if c.pos = c.data.length then { c with pos := 0, data := [], buf := false } else c

def fill (bs : List UInt8) : Copy :=
  { c with
    readDone := bs.isEmpty
    fullStreak :=
      if bs.isEmpty then c.fullStreak
      else if c.data.length + bs.length = c.limit then min (c.fullStreak + 1) (2 ^ 32 - 1)
      else 0
    data := c.data ++ bs }

def wantsMore : Bool := !c.readDone && c.data.length < c.limit

def handsOver : Bool :=
  c.handover.any fun h => h.fullReads ≤ c.fullStreak && h.after ≤ c.amt

def written : Copy × Await :=
  let c := { c with pos := 0, data := [] }
  if c.readDone then (c.releaseIfEmpty, .endFlush)
  else if c.handsOver then (c.releaseIfEmpty, .handFlush)
  else ({ c with buf := true }, .fill)

def drain : Copy × Await :=
  if c.pos < c.data.length then (c, .write) else c.written

def enter : Copy × Await :=
  if c.wantsMore then ({ c with buf := true }, .fill) else c.drain

def step (w : Wire) : Await → Outcome → Option (Poll × Wire)
  | .fill, .read bs =>
    if c.data.length + bs.length ≤ c.limit then
      let (c, a) := (c.fill bs).drain
      some (.goes c a, w.takes bs)
    else none
  | .fill, .block =>
    if c.pos = c.data.length then
      let c := c.releaseIfEmpty
      if c.needFlush then some (.goes c .idleFlush, w) else some (.pending c, w)
    else
      let (c, a) := c.drain
      some (.goes c a, w)
  | .write, .wrote n =>
    if n ≤ c.data.length - c.pos then
      -- `WriteZero`
      if n = 0 then some (.failed c, w)
      else
        let bs := (c.data.drop c.pos).take n
        let (c, a) := { c with pos := c.pos + n, amt := c.amt + n, needFlush := true }.drain
        some (.goes c a, w.gives bs)
    else none
  | .write, .block => if c.wantsMore then some (.goes c .topUp, w) else some (.pending c, w)
  | .topUp, .read bs =>
    if c.data.length + bs.length ≤ c.limit then some (.pending (c.fill bs), w.takes bs) else none
  | .topUp, .block => some (.pending c, w)
  | .idleFlush, .ok => some (.pending { c with needFlush := false }, w.flush)
  | .idleFlush, .block => some (.pending c, w)
  | .endFlush, .ok => some (.done c, w.flush)
  | .endFlush, .block => some (.pending c, w)
  | .handFlush, .ok => some (.handover { c with needFlush := false }, w.flush)
  | .handFlush, .block => some (.pending c, w)
  | _, .failed => some (.failed c, w)
  | _, _ => none

end Copy
end Relay
end Rproxy
