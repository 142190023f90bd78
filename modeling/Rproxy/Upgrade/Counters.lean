import Rproxy.Data.Tally
import Rproxy.Rule.Request

/-!
# The counters of a live upgrade

The old process sends the counters of its rules twice: a snapshot, and after the drain the final
ones, of which the new process adds what came since the snapshot.
-/

namespace Rproxy.Handoff

/-! ## The counters of a rule -/

structure Stats where
  total : ℕ
  rxBytes : ℕ
  txBytes : ℕ
  tlsFailures : ℕ
  denied : ℕ
  dropped : ℕ
  limited : Fin 4 → ℕ
  bandwidthDropped : ℕ
  targetFull : ℕ
  fdBudget : ℕ

structure RouteCounters where
  byClass : Fin 5 → ℕ
  buckets : Fin 11 → ℕ

/-- `RouteCountersData`, without the route that is its key. -/
structure RouteCountersData where
  byClass : Fin 5 → ℕ
  buckets : List ℕ

abbrev Pair := String × String

structure HttpStats where
  routes : Table String RouteCounters
  limited : Table Pair ℕ
  blocked : Table Pair ℕ
  cache : Table Pair (Fin 4 → ℕ)
  mirrorDropped : Table Pair ℕ

structure HttpCounters where
  routes : List (String × RouteCountersData)
  limited : List (Pair × ℕ)
  blocked : List (Pair × ℕ)
  cache : List (Pair × (Fin 4 → ℕ))
  mirrorDropped : List (Pair × ℕ)

structure Runtime where
  stats : Stats
  http : HttpStats

/-! ## The kinds of counts by key -/

def number : Tally ℕ ℕ Unit where
  zero := 0
  get n _ := n
  read n _ := n
  plus := (· + ·)
  out n := n
  minus n old := n - old.getD 0
  get_zero _ := rfl
  get_plus _ _ _ := rfl
  read_out _ _ := rfl
  read_minus n old _ := by cases old <;> rfl

def outcomes : Tally (Fin 4 → ℕ) (Fin 4 → ℕ) (Fin 4) where
  zero _ := 0
  get n := n
  read n := n
  plus n m i := n i + m i
  out n := n
  minus n old i := n i - (old.getD fun _ => 0) i
  get_zero _ := rfl
  get_plus _ _ _ := rfl
  read_out _ _ := rfl
  read_minus n old i := by cases old <;> rfl

namespace RouteCounters
variable (c : RouteCounters)

def get : Fin 5 ⊕ Fin 11 → ℕ
  | .inl i => c.byClass i
  | .inr i => c.buckets i

def out : RouteCountersData := ⟨c.byClass, List.ofFn c.buckets⟩

def plus (d : RouteCountersData) : RouteCounters where
  byClass i := c.byClass i + d.byClass i
  buckets i := c.buckets i + d.buckets.getD i 0

end RouteCounters

namespace RouteCountersData

def read (d : RouteCountersData) : Fin 5 ⊕ Fin 11 → ℕ
  | .inl i => d.byClass i
  | .inr i => d.buckets.getD i 0

def minus (d : RouteCountersData) : Option RouteCountersData → RouteCountersData
  | some b =>
    { byClass := fun i => d.byClass i - b.byClass i
      buckets := d.buckets.mapIdx fun i n => n - b.buckets.getD i 0 }
  | none => d

end RouteCountersData

def route : Tally RouteCounters RouteCountersData (Fin 5 ⊕ Fin 11) where
  zero := ⟨fun _ => 0, fun _ => 0⟩
  get := RouteCounters.get
  read := RouteCountersData.read
  plus := RouteCounters.plus
  out := RouteCounters.out
  minus := RouteCountersData.minus
  get_zero i := by cases i <;> rfl
  get_plus c d i := by cases i <;> rfl
  read_out c i := by
    cases i with
    | inl i => rfl
    | inr i =>
      show (List.ofFn c.buckets).getD i 0 = c.buckets i
      rw [List.getD_eq_getElem?_getD, List.getElem?_ofFn, dif_pos i.isLt]
      rfl
  read_minus d o i := by
    cases o with
    | none => rfl
    | some b =>
      cases i with
      | inl i => rfl
      | inr i =>
        simp only [RouteCountersData.read, RouteCountersData.minus, List.getD_eq_getElem?_getD,
          List.getElem?_mapIdx, Option.elim_some]
        cases d.buckets[i.val]? with
        | none => simp
        | some n => rfl

/-! ## Sending and adding -/

namespace HttpCounters

def isEmpty (c : HttpCounters) : Bool :=
  c.routes.isEmpty && c.limited.isEmpty && c.blocked.isEmpty && c.cache.isEmpty &&
    c.mirrorDropped.isEmpty

def since (c before : HttpCounters) : HttpCounters where
  routes := route.since c.routes before.routes
  limited := number.since c.limited before.limited
  blocked := number.since c.blocked before.blocked
  cache := outcomes.since c.cache before.cache
  mirrorDropped := number.since c.mirrorDropped before.mirrorDropped

end HttpCounters

namespace HttpStats

def exported (h : HttpStats) : HttpCounters where
  routes := route.listed h.routes
  limited := number.listed h.limited
  blocked := number.listed h.blocked
  cache := outcomes.listed h.cache
  mirrorDropped := number.listed h.mirrorDropped

def add (h : HttpStats) (c : HttpCounters) : HttpStats where
  routes := route.add h.routes c.routes
  limited := number.add h.limited c.limited
  blocked := number.add h.blocked c.blocked
  mirrorDropped := number.add h.mirrorDropped c.mirrorDropped
  cache := outcomes.add h.cache c.cache

end HttpStats

structure Counters where
  protocol : String
  listenAddr : String
  listenPort : UInt16
  total : ℕ
  rxBytes : ℕ
  txBytes : ℕ
  tlsFailures : ℕ
  denied : ℕ
  dropped : ℕ
  limited : Fin 4 → ℕ
  targetFull : ℕ
  fdBudget : ℕ
  bandwidthDropped : ℕ
  http : Option HttpCounters

namespace Counters

def of [External] (key : Key) (rt : Runtime) : Counters where
  protocol := key.protocol.asStr
  listenAddr := showIp key.listen.ip
  listenPort := key.listen.port
  total := rt.stats.total
  rxBytes := rt.stats.rxBytes
  txBytes := rt.stats.txBytes
  tlsFailures := rt.stats.tlsFailures
  denied := rt.stats.denied
  dropped := rt.stats.dropped
  limited := rt.stats.limited
  targetFull := rt.stats.targetFull
  fdBudget := rt.stats.fdBudget
  bandwidthDropped := rt.stats.bandwidthDropped
  http := if rt.http.exported.isEmpty then none else some rt.http.exported

def key [External] (c : Counters) : Option Key := do
  let protocol ← (Protocol.fromStr c.protocol).toOption
  let listen ← (parseListen c.listenAddr c.listenPort).toOption
  return { protocol, listen }

def since (c before : Counters) : Counters :=
  { c with
    total := c.total - before.total
    rxBytes := c.rxBytes - before.rxBytes
    txBytes := c.txBytes - before.txBytes
    tlsFailures := c.tlsFailures - before.tlsFailures
    denied := c.denied - before.denied
    dropped := c.dropped - before.dropped
    limited := fun i => c.limited i - before.limited i
    targetFull := c.targetFull - before.targetFull
    fdBudget := c.fdBudget - before.fdBudget
    bandwidthDropped := c.bandwidthDropped - before.bandwidthDropped
    http :=
      match c.http, before.http with
      | some now, some old => some (now.since old)
      | now, _ => now }

def addTo (c : Counters) (rt : Runtime) : Runtime where
  stats :=
    { total := rt.stats.total + c.total
      rxBytes := rt.stats.rxBytes + c.rxBytes
      txBytes := rt.stats.txBytes + c.txBytes
      tlsFailures := rt.stats.tlsFailures + c.tlsFailures
      denied := rt.stats.denied + c.denied
      dropped := rt.stats.dropped + c.dropped
      limited := fun i => rt.stats.limited i + c.limited i
      targetFull := rt.stats.targetFull + c.targetFull
      fdBudget := rt.stats.fdBudget + c.fdBudget
      bandwidthDropped := rt.stats.bandwidthDropped + c.bandwidthDropped }
  http :=
    match c.http with
    | some h => rt.http.add h
    | none => rt.http

end Counters

/-! ## The rules of a process -/

section Process
variable [External]

abbrev Runtimes := Table Key Runtime

variable (rts : Runtimes)

def countersOf : List Counters := rts.pairs.map fun e => .of e.1 e.2

def addCounter (f : Counters → Counters) (rts : Runtimes) (c : Counters) : Runtimes :=
  match c.key with
  | some key =>
    match rts.lookup key with
    | some rt => rts.insert key ((f c).addTo rt)
    | none => rts
  | none => rts

def addCounters (counters : List Counters) (f : Counters → Counters) : Runtimes :=
  counters.foldl (addCounter f) rts

def sinceSnapshot (snapshot : List Counters) (c : Counters) : Counters :=
  match snapshot.find? fun b => b.key = c.key with
  | some b => c.since b
  | none => c

def ready (snapshot : List Counters) : Runtimes := addCounters rts snapshot id

def followCounters (snapshot finals : List Counters) : Runtimes :=
  addCounters rts finals (sinceSnapshot snapshot)

end Process

/-! ## Counting -/

def noRoute : String := "(none)"

def named (route : String) : String := if route = "" then noRoute else route

def RouteCounters.record (c : RouteCounters) (status : ℕ) (within : Fin 11 → Bool) :
    RouteCounters where
  byClass i := c.byClass i + if i.val = max 1 (min (status / 100) 5) - 1 then 1 else 0
  buckets i := c.buckets i + if within i then 1 else 0

inductive Count where
  | stats (more : Stats)
  | record (route : String) (status : ℕ) (within : Fin 11 → Bool)
  | limited (route middleware : String)
  | blocked (route middleware : String)
  | mirrorDropped (route middleware : String)
  | cache (route middleware : String) (outcome : Fin 4)

def Stats.plus (s more : Stats) : Stats where
  total := s.total + more.total
  rxBytes := s.rxBytes + more.rxBytes
  txBytes := s.txBytes + more.txBytes
  tlsFailures := s.tlsFailures + more.tlsFailures
  denied := s.denied + more.denied
  dropped := s.dropped + more.dropped
  limited := fun i => s.limited i + more.limited i
  bandwidthDropped := s.bandwidthDropped + more.bandwidthDropped
  targetFull := s.targetFull + more.targetFull
  fdBudget := s.fdBudget + more.fdBudget

namespace Runtime

def count (rt : Runtime) : Count → Runtime
  | .stats more => { rt with stats := rt.stats.plus more }
  | .record r status within =>
    { rt with http.routes := route.update rt.http.routes (named r) (·.record status within) }
  | .limited r m => { rt with http.limited := number.update rt.http.limited (named r, m) (· + 1) }
  | .blocked r m => { rt with http.blocked := number.update rt.http.blocked (named r, m) (· + 1) }
  | .mirrorDropped r m =>
    { rt with http.mirrorDropped := number.update rt.http.mirrorDropped (named r, m) (· + 1) }
  | .cache r m outcome =>
    { rt with
      http.cache := outcomes.update rt.http.cache (named r, m)
        fun n i => n i + if i = outcome then 1 else 0 }

end Runtime

inductive Step where
  | count (key : Key) (what : Count)
  | add (counters : Counters)

variable [External]

def step (rts : Runtimes) : Step → Runtimes
  | .count key what =>
    match rts.lookup key with
    | some rt => rts.insert key (rt.count what)
    | none => rts
  | .add c => addCounter id rts c

end Rproxy.Handoff
