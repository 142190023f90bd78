import Rproxy.Limits.Limiter

/-!
# UDP sessions that wait for their first reply

A session that has not seen a reply yet may be pushed out for a new one when a cap is reached.
-/

namespace Rproxy.Udp
open Limits (sourceKey)

open Function

def sourcePrefixV4 : UInt8 := 24

def sourcePrefixV6 : UInt8 := 48

def prefixOf (client : IpAddr) : IpAddr := sourceKey client sourcePrefixV4 sourcePrefixV6

def unrepliedPerPrefix (cap : ℕ) : ℕ := max (cap / 16) 64

abbrev Queue := Option ℕ

/-- `Waiting`, with the rule and the prefix it came with and whether it is in the process's
queue. -/
structure Waiting where
  rule : ℕ
  source : IpAddr
  descriptor : Bool
  done : Bool
  evicted : Bool
  liveRule : ℕ
  liveAll : ℕ
deriving DecidableEq

def Waiting.live (s : Waiting) : Queue → ℕ
  | some _ => s.liveRule
  | none => s.liveAll

structure PrefixQueue where
  live : ℕ
  order : List ℕ

structure UnrepliedTable where
  order : List ℕ
  byPrefix : Table IpAddr PrefixQueue
  heaviest : Option (IpAddr × ℕ)

def UnrepliedTable.new : UnrepliedTable := ⟨[], ∅, none⟩

def UnrepliedTable.retain (t : UnrepliedTable) (counts : ℕ → ℕ) : UnrepliedTable :=
  let empty := (t.byPrefix.pairs.filter fun e => counts e.2.live = 0).map Prod.fst
  { t with byPrefix := t.byPrefix.eraseAll empty }

structure World where
  sessions : List Waiting
  counts : ℕ → ℕ
  next : ℕ
  tables : Queue → UnrepliedTable

def World.new : World := ⟨[], fun _ => 0, 0, fun _ => .new⟩

namespace World
variable (w : World) (id : ℕ) (q : Queue) (source : IpAddr)

def setTable (t : UnrepliedTable) : World :=
  { w with tables := update w.tables q t }

def isDone : Bool := (w.sessions[id]?).all Waiting.done

def finish : World × Bool :=
  match w.sessions[id]? with
  | some s =>
    if s.done then (w, false)
    else
      let counts := update w.counts s.liveRule (w.counts s.liveRule - 1)
      ({ w with
        sessions := w.sessions.set id { s with done := true }
        counts := update counts s.liveAll (counts s.liveAll - 1) }, true)
  | none => (w, false)

def evict : World × Bool :=
  match w.finish id with
  | (w, false) => (w, false)
  | (w, true) =>
    ({ w with sessions := w.sessions.modify id fun s => { s with evicted := true } }, true)

def nowAndThen (n : ℕ) : Bool := 64 ≤ n && 2 ^ Nat.log2 n = n

def entry : World × PrefixQueue :=
  let t := w.tables q
  match t.byPrefix.lookup source with
  | some pq => (w, pq)
  | none =>
    let pq := ⟨w.next, []⟩
    ({ w with counts := update w.counts w.next 0, next := w.next + 1 }.setTable q
      { t with byPrefix := t.byPrefix.insert source pq }, pq)

def live (w : World) (q : Queue) (source : IpAddr) : World × ℕ :=
  let t := w.tables q
  let w :=
    if (t.byPrefix.lookup source).isNone ∧ nowAndThen t.byPrefix.keys.length then
      w.setTable q (t.retain w.counts)
    else w
  let r := w.entry q source
  (r.1, r.2.live)

def pushBack (order : List ℕ) (id : ℕ) : List ℕ :=
  (if nowAndThen order.length then order.filter fun i => !w.isDone i else order) ++ [id]

def push (live id : ℕ) : World :=
  let t := w.tables q
  let held := w.counts live
  let t := { t with
    heaviest := if t.heaviest.all fun h => h.1 = source || w.counts h.2 < held then
      some (source, live) else t.heaviest
    order := w.pushBack t.order id }
  let r := (w.setTable q t).entry q source
  let t := r.1.tables q
  r.1.setTable q { t with
    byPrefix := t.byPrefix.insert source
      { r.2 with order := w.pushBack (r.2.order.dropWhile w.isDone) id } }

def oldest : World × Option ℕ :=
  let t := w.tables q
  let order := t.order.dropWhile w.isDone
  (w.setTable q { t with order }, order.head?)

def evictFrom (w : World) : List ℕ → World × List ℕ × Bool
  | [] => (w, [], false)
  | id :: rest =>
    match w.evict id with
    | (w, true) => (w, rest, true)
    | (w, false) => evictFrom w rest

def evictIn : World × Bool :=
  match (w.tables q).byPrefix.lookup source with
  | none => (w, false)
  | some pq =>
    let r := w.evictFrom pq.order
    let t := r.1.tables q
    (r.1.setTable q { t with byPrefix := t.byPrefix.insert source { pq with order := r.2.1 } },
      r.2.2)

def evictNext (q : Queue) : ℕ → World → World × Bool
  | 0, w => (w, false)
  | n + 1, w =>
    match w.oldest q with
    | (w, none) => (w, false)
    | (w, some id) =>
      match w.evict id with
      | (w, true) => (w, true)
      | (w, false) => evictNext q n w

def evictAt (oldest : ℕ) : World × Bool :=
  let t := w.tables q
  let own := (t.byPrefix.lookup source).elim 0 fun pq => w.counts pq.live
  let heaviest := t.heaviest.elim source Prod.fst
  let most := t.heaviest.elim 0 fun h => w.counts h.2
  let first := (w.sessions[oldest]?).elim 0 fun s => w.counts (s.live q)
  let r :=
    if 0 < own ∧ most ≤ own ∧ first ≤ own then w.evictIn q source
    else if first < most then w.evictIn q heaviest
    else (w, false)
  if r.2 then r
  else
    match r.1.evict oldest with
    | (w, true) => (w, true)
    | (w, false) => evictNext q (w.tables q).order.length w

def evictFor (client : IpAddr) : World × Bool :=
  match w.oldest q with
  | (w, none) => (w, false)
  | (w, some oldest) => w.evictAt q (prefixOf client) oldest

def ownCount : World × ℕ :=
  ({ w with counts := update w.counts w.next 0, next := w.next + 1 }, w.next)

def add (s : Waiting) : World :=
  let counts := update w.counts s.liveRule (w.counts s.liveRule + 1)
  { w with
    counts := update counts s.liveAll (counts s.liveAll + 1)
    sessions := w.sessions ++ [s] }

def track (cap : ℕ) (w : World) (rule : ℕ) (client : IpAddr) (descriptor : Bool) : World :=
  let source := prefixOf client
  let (w, liveRule) := w.live (some rule) source
  let (w, liveAll) := if descriptor then w.live none source else w.ownCount
  let w :=
    if unrepliedPerPrefix cap ≤ w.counts liveRule then (w.evictIn (some rule) source).1 else w
  let id := w.sessions.length
  let w := w.add ⟨rule, source, descriptor, false, false, liveRule, liveAll⟩
  let w := w.push (some rule) source liveRule id
  if descriptor then w.push none source liveAll id else w

end World

/-- A new session, a reply or the end of a session (`Mark::replied`, a dropped `Mark`), room made
for a new one, and a look whether there is one to evict (`Unreplied::any`). -/
inductive Act where
  | track (rule : ℕ) (client : IpAddr) (descriptor : Bool)
  | finish (id : ℕ)
  | evictFor (queue : Queue) (client : IpAddr)
  | any (queue : Queue)

def World.step (cap : ℕ) (w : World) : Act → World
  | .track rule client descriptor => w.track cap rule client descriptor
  | .finish id => (w.finish id).1
  | .evictFor q client => (w.evictFor q client).1
  | .any q => (w.oldest q).1

end Rproxy.Udp
