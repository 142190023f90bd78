import Rproxy.Limits.Sources

/-!
# The limits of a rule at run time

A `Limiter` counts the connections of a rule and of each source, each of which holds a `Permit`.
-/

namespace Rproxy.Limits

open Function

def defaultPrefixV4 : UInt8 := 32

def defaultPrefixV6 : UInt8 := 64

def defaultMaxSources : UInt64 := 65536

def sourceKey (ip : IpAddr) (v4 v6 : UInt8) : IpAddr :=
  match ip.canonical with
  | .v4 bits => (IpAddr.v4 bits).mask (min v4 32)
  | .v6 bits => (IpAddr.v6 bits).mask (min v6 128)

/-! ## Sources -/

/-- The table of a limiter, with the connections of each source (`SourceState::active`). -/
structure SourceTable extends Sources.SourceTable ℕ where
  prefixV4 : UInt8
  prefixV6 : UInt8
  maxSources : UInt64

namespace SourceTable

def new (spec : PerSourceLimits) (hash : IpAddr → ℕ) : SourceTable :=
  let most := max (spec.maxSources.getD defaultMaxSources) 1
  { toSourceTable := .new most.toNat hash
    prefixV4 := spec.prefixV4.getD defaultPrefixV4
    prefixV6 := spec.prefixV6.getD defaultPrefixV6
    maxSources := most }

variable (t : SourceTable)

def sameShape (spec : PerSourceLimits) : Bool :=
  t.prefixV4 = spec.prefixV4.getD defaultPrefixV4 &&
    t.prefixV6 = spec.prefixV6.getD defaultPrefixV6 &&
    t.maxSources = max (spec.maxSources.getD defaultMaxSources) 1

def key (ip : IpAddr) : IpAddr := sourceKey ip t.prefixV4 t.prefixV6

def setShard (i : ℕ) (s : Sources.Shard ℕ) : SourceTable :=
  { t with shards := update t.shards i s }

/-- `try_with`, up to the use of the source's value; whether there is room for the source. -/
def entry (t : SourceTable) (key : IpAddr) : SourceTable × Bool :=
  let r := (t.shards (t.shard key)).tryWith t.perShard ⟨key, 0, fun active => 0 < active, id⟩
  (t.setShard (t.shard key) r.1, r.2)

def put (key : IpAddr) (active : ℕ) : SourceTable :=
  let s := t.shards (t.shard key)
  t.setShard (t.shard key) { s with map := s.map.insert key active }

def giveBack (key : IpAddr) : SourceTable :=
  match t.lookup key with
  | some active => t.put key (active - 1)
  | none => t

end SourceTable

/-! ## Limiters and permits -/

structure SourceLimits where
  maxConnections : Option UInt64
  newConnections : Option RateSpec
  packets : Option RateSpec
  table : ℕ

structure Limiter where
  maxConnections : Option UInt64
  perSource : Option SourceLimits
  counts : ℕ

structure Place where
  table : ℕ
  key : IpAddr
  found : ℕ

inductive Stage where
  | checking
  | held
  | refused
  | leaving
deriving DecidableEq

/-- `Permit`, with the limiter it is of, the client and the count that `admit` found. -/
structure Permit where
  limiter : Limiter
  client : IpAddr
  before : ℕ
  source : Option Place
  stage : Stage

structure World where
  limiters : List Limiter
  current : Option Limiter
  active : ℕ → ℕ
  nextCount : ℕ
  tables : ℕ → SourceTable
  nextTable : ℕ
  permits : List Permit

def World.new : World where
  limiters := []
  current := none
  active _ := 0
  nextCount := 0
  tables _ := .new ⟨none, none, none, none, none, none⟩ fun _ => 0
  nextTable := 0
  permits := []

variable (w : World)

def World.tableFor (spec : PerSourceLimits) : Option ℕ :=
  ((w.current.bind Limiter.perSource).map SourceLimits.table).filter fun t =>
    (w.tables t).sameShape spec

def SourceLimits.of (spec : PerSourceLimits) (table : ℕ) : SourceLimits :=
  ⟨spec.maxConnections, spec.newConnections, spec.packets, table⟩

def World.withTable (spec : PerSourceLimits) (hash : IpAddr → ℕ) : World :=
  if (w.tableFor spec).isSome then w
  else { w with tables := update w.tables w.nextTable (.new spec hash)
                nextTable := w.nextTable + 1 }

def World.withCount : World :=
  if w.current.isSome then w
  else { w with active := update w.active w.nextCount 0, nextCount := w.nextCount + 1 }

def World.limiterFor (spec : LimitsSpec) : Limiter :=
  ⟨spec.maxConnections, spec.perSource.map fun p => .of p ((w.tableFor p).getD w.nextTable),
    (w.current.map Limiter.counts).getD w.nextCount⟩

def World.setLimiter (spec : LimitsSpec) (hash : IpAddr → ℕ) : World :=
  let w' := (spec.perSource.elim w fun p => w.withTable p hash).withCount
  { w' with limiters := w.limiters ++ [w.limiterFor spec], current := some (w.limiterFor spec) }

inductive Act where
  | set (spec : Option LimitsSpec) (hash : IpAddr → ℕ)
  /-- `Limiter::admit`: the connection is counted. -/
  | enter (limiter : ℕ) (client : IpAddr)
  /-- `Limiter::admit`: the checks; whether the bucket of `new_connections` has a token. -/
  | settle (permit : ℕ) (token : Bool)
  | drop (permit : ℕ)
  | leave (permit : ℕ)
  /-- `Limiter::packet`, which may forget sources too. -/
  | packet (limiter : ℕ) (client : IpAddr)

def World.setTable (i : ℕ) (t : SourceTable) : World :=
  { w with tables := update w.tables i t }

def World.setPermit (k : ℕ) (p : Permit) : World := { w with permits := w.permits.set k p }

def World.check (k : ℕ) (p : Permit) (token : Bool) : World :=
  if p.limiter.maxConnections.any fun most => most.toNat ≤ p.before then
    w.setPermit k { p with stage := .refused }
  else
    match p.limiter.perSource with
    | none => w.setPermit k { p with stage := .held }
    | some limits =>
      let key := (w.tables limits.table).key p.client
      match (w.tables limits.table).entry key with
      | (t, false) => (w.setTable limits.table t).setPermit k { p with stage := .refused }
      | (t, true) =>
        let found := (t.lookup key).getD 0
        if limits.maxConnections.any fun most => most.toNat ≤ found then
          (w.setTable limits.table t).setPermit k { p with stage := .refused }
        else if limits.newConnections.isSome ∧ token = false then
          (w.setTable limits.table t).setPermit k { p with stage := .refused }
        else
          (w.setTable limits.table (t.put key (found + 1))).setPermit k
            { p with stage := .held, source := some ⟨limits.table, key, found⟩ }

def World.step : Act → World
  | .set none _ => { w with current := none }
  | .set (some spec) hash => w.setLimiter spec hash
  | .enter i client =>
    match w.limiters[i]? with
    | some l =>
      { w with
        active := update w.active l.counts (w.active l.counts + 1)
        permits := w.permits ++ [⟨l, client, w.active l.counts, none, .checking⟩] }
    | none => w
  | .settle k token =>
    match w.permits[k]? with
    | some p =>
      match p.stage with
      | .checking => w.check k p token
      | _ => w
    | none => w
  | .drop k =>
    match w.permits[k]? with
    | some p =>
      if p.stage = .held ∨ p.stage = .refused then
        let w := { w with
          active := update w.active p.limiter.counts (w.active p.limiter.counts - 1) }
        if p.source.isSome then w.setPermit k { p with stage := .leaving }
        else { w with permits := w.permits.eraseIdx k }
      else w
    | none => w
  | .leave k =>
    match w.permits[k]? with
    | some p =>
      match p.stage, p.source with
      | .leaving, some place =>
        { w.setTable place.table ((w.tables place.table).giveBack place.key) with
          permits := w.permits.eraseIdx k }
      | _, _ => w
    | none => w
  | .packet i client =>
    match (w.limiters[i]?).bind Limiter.perSource with
    | some limits =>
      if limits.packets.isSome then
        let t := w.tables limits.table
        w.setTable limits.table (t.entry (t.key client)).1
      else w
    | none => w

end Rproxy.Limits
