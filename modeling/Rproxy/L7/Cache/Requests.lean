import Rproxy.L7.Cache.Store
import Rproxy.Programs.Threads

/-!
# Requests at the caches

Requests run concurrently.
-/

namespace Rproxy.Cache

inductive Outcome where
  | hit
  | miss
  | stale
  | bypass
deriving DecidableEq

inductive Done where
  | pending
  | fresh (e : Entry)
  | stale (e : Entry)
  | error (e : Entry)
  | uncacheable
  | abandoned

inductive Mark where
  | nothing
  | strike (varies : Varies)
  | reset
  | failed

inductive Stop where
  | tooBig
  | noRoom
  | other

/-- `Flight`, with the cache and the key it is for (which its `Lead` has in the source). -/
structure Flight where
  cache : Nat
  key : Key
  done : Done

structure State where
  stores : List Store
  next : Nat → Nat
  flights : List Flight
  budget : Budget
  now : Nat
  made : List (Nat × Entry × Request)

structure Env where
  elapsed : Nat
  locked : Nat → Bool
  limit : Option Nat
  /-- The backend's answer; `none` when the request is dropped. -/
  response : Option Response
  /-- The body of the answer, or why it was given back; `none` when the request is dropped. -/
  body : Option (Except Stop (List UInt8))

inductive Looked where
  | answer (e : Entry) (outcome : Outcome) (time : Nat)
  | alone
  | wait (flight : Nat)
  | lead (flight : Nat)

inductive Way where
  | store
  | flight
  | response
  | own
deriving DecidableEq

inductive Op where
  | look (cache : Nat) (key : Key) (r : Request) (last : Bool)
  | wait (flight : Nat)
  | backend
  | collect (cache : Nat)
  | stale (cache : Nat) (key : Key) (request : HeaderMap)
  | failed (cache : Nat) (key : Key)
  | entry (cache : Nat) (key : Key) (r : Request) (resp : Response) (body : List UInt8)
  | finish (cache : Nat) (key : Key) (flight : Nat) (entry : Option Entry) (mark : Mark)
  | send (flight : Nat) (done : Done)
  | answer (e : Entry) (outcome : Outcome) (time : Nat) (way : Way)

abbrev Ret : Op → Type
  | .look _ _ _ _ => Looked
  | .wait _ => Option Done × Nat
  | .backend => Option Response
  | .collect _ => Option (Except Stop (List UInt8))
  | .stale _ _ _ => Option (Entry × Nat)
  | .failed _ _ => Unit
  | .entry _ _ _ _ _ => Entry
  | .finish _ _ _ _ _ => Unit
  | .send _ _ => Unit
  | .answer _ _ _ _ => Unit

/-! ## The sections -/

variable (cfg : Settings) (l : Ledger) (s : State) (c : Nat)

def State.onLedger (f : Ledger → Ledger) : State :=
  match s.stores[c]? with
  | none => s
  | some store =>
    let l := f ⟨store, s.budget, s.stores⟩
    { s with stores := l.others.set c l.store, budget := l.budget }

def State.store : Store :=
  s.stores[c]?.getD .empty

def answerNow (slot : Slot) (request : HeaderMap) (now : Nat) : Option (Entry × Outcome) :=
  match slot.entry with
  | none => none
  | some e =>
    if e.fits request = false then none
    else if now < e.freshUntil then some (e, .hit)
    else
      -- the backend failed lately: the old answer at once, for `ttl` and while one tries again
      match slot.failed with
      | none => none
      | some failed =>
        if now < e.staleUntil ∧ (now < failed + cfg.ttl ∨ slot.flight ≠ none) then some (e, .stale)
        else none

def look (key : Key) (r : Request) (last : Bool) : State × Looked :=
  let store := s.store c
  let slot := (store.map.lookup key).getD {}
  match answerNow cfg slot r.headers s.now with
  | some (e, outcome) => (s, .answer e outcome s.now)
  | none =>
    if (store.passes.lookup key).any fun p => p.on s.now r.headers then (s, .alone)
    else if r.method = .head ∨ last = true then (s, .alone)
    else
      match slot.flight with
      | some f => (s, .wait f)
      | none =>
        let f := s.flights.length
        let lead := s.onLedger c fun l =>
          { l with store := { l.store with
            map := l.store.map.insert key { slot with flight := some f } } }
        ({ lead with flights := lead.flights ++ [⟨c, key, .pending⟩] }, .lead f)

def land (key : Key) (flight : Nat) (failed : Bool) (now : Nat) : Ledger :=
  match l.store.map.lookup key with
  | none => l
  | some slot =>
    let slot := if slot.flight = some flight then { slot with flight := none } else slot
    let slot :=
      if failed then { slot with failed := some now }
      else if slot.entry.any fun e => e.freshUntil > now then { slot with failed := none }
      else slot
    let map :=
      if slot.flight.isNone && slot.entry.isNone then l.store.map.erase key
      else l.store.map.insert key slot
    { l with store := { l.store with map } }

def leave (key : Key) (mark : Mark) (now : Nat) (locked : Nat → Bool) : Ledger :=
  match mark with
  | .strike varies => l.strike key varies now cfg.ttl cfg.maxEntries locked
  | .reset => l.unpass key
  | .nothing => l
  | .failed => l

def putEntry (key : Key) (entry : Option Entry) (now : Nat) (locked : Nat → Bool) : Ledger :=
  match entry with
  | some e => (l.insert cfg key e now locked).unpass key
  | none => l

def Mark.isFailed : Mark → Bool
  | failed => true
  | nothing => false
  | strike _ => false
  | reset => false

def finish (key : Key) (flight : Nat) (entry : Option Entry) (mark : Mark) (now : Nat)
    (locked : Nat → Bool) : Ledger :=
  let l := putEntry cfg l key entry now locked
  let l := leave cfg l key mark now locked
  land l key flight mark.isFailed now

def staleEntry (key : Key) (request : HeaderMap) : Option (Entry × Nat) :=
  if cfg.stale = 0 then none
  else
    match (s.store c).entryAt key with
    | none => none
    | some e => if s.now < e.staleUntil ∧ e.fits request = true then some (e, s.now) else none

def markFailed (key : Key) (now : Nat) : Ledger :=
  match l.store.map.lookup key with
  | none => l
  | some slot =>
    { l with store := { l.store with
        map := l.store.map.insert key { slot with failed := some now } } }

def State.tell (flight : Nat) (done : Done) : State :=
  { s with flights := s.flights.modify flight fun f => { f with done } }

def collected : Option (Except Stop (List UInt8)) → Option (Except Stop (List UInt8))
  | some (.ok body) => some (if body.length ≤ cfg.maxBody then .ok body else .error .tooBig)
  | answer => answer

def State.advance (e : Env) : State :=
  { s with
    now := s.now + e.elapsed
    budget := { s.budget with limit := e.limit.getD s.budget.limit } }

def sectionAt (cfg : Nat → Settings) (e : Env) (s : State) : (o : Op) → State × Ret o
  | .look c key r last => look (cfg c) s c key r last
  | .wait f =>
    match s.flights[f]? with
    | some ⟨_, _, .pending⟩ => (s, none, s.now)
    | some flight => (s, some flight.done, s.now)
    | none => (s, none, s.now)
  | .backend => (s, e.response)
  | .collect c => (s, collected (cfg c) e.body)
  | .stale c key request => (s, staleEntry (cfg c) s c key request)
  | .failed c key => (s.onLedger c fun l => markFailed l key s.now, ())
  | .entry c key r resp body =>
    let entry := makeEntry (cfg c) s.now (s.next c) key resp body r.headers
    ({ s with
      next := Function.update s.next c (s.next c + 1)
      made := s.made ++ [(c, entry, r)] }, entry)
  | .finish c key f entry mark =>
    -- the lock of the store itself is held
    (s.onLedger c fun l => finish (cfg c) l key f entry mark s.now fun i => i = c || e.locked i, ())
  | .send f done => (s.tell f done, ())
  | .answer _ _ _ _ => (s, ())

def machine (cfg : Nat → Settings) : Machine Op Ret Env State where
  exec o e s := sectionAt cfg e (s.advance e) o

/-! ## The programs -/

def act (o : Op) : Prog Op Ret (Ret o) := Prog.perform o

def finishLead (key : Key) (f : Nat) (done : Done) (entry : Option Entry) (mark : Mark) :
    Prog Op Ret Unit := do
  act (.finish c key f entry mark)
  act (.send f done)

def keep (key : Key) (r : Request) (f : Nat) (resp : Response) : Prog Op Ret Unit := do
  let strike := Mark.strike (variesOf resp.headers r.headers)
  match ← act (.collect c) with
  | none => finishLead c key f .abandoned none .nothing
  | some (.ok body) =>
    let e ← act (.entry c key r resp body)
    if e.size ≤ cfg.maxMemory then finishLead c key f (.fresh e) (some e) .nothing
    else finishLead c key f .uncacheable none (.strike (variesOf e.headers r.headers))
    act (.answer e .miss e.stored .own)
  | some (.error .tooBig) => finishLead c key f .uncacheable none strike
  | some (.error .other) => finishLead c key f .uncacheable none .reset
  | some (.error .noRoom) => finishLead c key f .uncacheable none .nothing

def shareError (key : Key) (r : Request) (f : Nat) (resp : Response) : Prog Op Ret Unit := do
  if shareable resp.headers = false then finishLead c key f .uncacheable none .nothing
  else
    match ← act (.collect c) with
    | none => finishLead c key f .abandoned none .nothing
    | some (.ok body) =>
      let e ← act (.entry c key r resp body)
      finishLead c key f (.error e) none .nothing
      act (.answer e .miss e.stored .own)
    | some (.error _) => finishLead c key f .uncacheable none .nothing

def response (cfg : Settings) (c : Nat) (key : Key) (r : Request) (lead : Option Nat)
    (resp : Response) : Prog Op Ret Unit := do
  if resp.isServerError then
    match ← act (.stale c key r.headers) with
    | some (e, time) =>
      match lead with
      | some f => finishLead c key f (.stale e) none .failed
      | none => act (.failed c key)
      act (.answer e .stale time .response)
    | none =>
      match lead with
      | some f => shareError c key r f resp
      | none => pure ()
  else
    match lead with
    | none => pure ()
    | some f =>
      match verdict cfg resp with
      | .keep => keep cfg c key r f resp
      | .strike => finishLead c key f .uncacheable none (.strike (variesOf resp.headers r.headers))
      | .reset => finishLead c key f .uncacheable none .reset

def goOn (key : Key) (r : Request) (lead : Option Nat) : Prog Op Ret Unit := do
  match ← act .backend with
  | some resp => response cfg c key r lead resp
  | none =>
    match lead with
    | some f => finishLead c key f .abandoned none .nothing
    | none => pure ()

def round (key : Key) (r : Request) (last : Bool) (again : Prog Op Ret Unit) :
    Prog Op Ret Unit := do
  let alone := goOn cfg c key r none
  match ← act (.look c key r last) with
  | .answer e outcome time => act (.answer e outcome time .store)
  | .alone => alone
  | .lead f => goOn cfg c key r (some f)
  | .wait f =>
    match ← act (.wait f) with
    | (some (.fresh e), time) =>
      if e.fits r.headers then act (.answer e .hit time .flight) else alone
    | (some (.stale e), time) =>
      if e.fits r.headers then act (.answer e .stale time .flight) else alone
    | (some (.error e), time) =>
      if e.fits r.headers then act (.answer e .miss time .flight) else alone
    | (some .abandoned, _) => again
    | _ => alone

def retries : Nat := 3

def rounds (cfg : Settings) (c : Nat) (key : Key) (r : Request) : Nat → Prog Op Ret Unit
  | 0 => round cfg c key r true (goOn cfg c key r none)
  | n + 1 => round cfg c key r false (rounds cfg c key r n)

structure Call where
  cache : Nat
  request : Request

def program (cfg : Nat → Settings) (call : Call) : Prog Op Ret Unit :=
  let cfg := cfg call.cache
  if eligible cfg call.request then
    rounds cfg call.cache (key cfg call.request) call.request retries
  else do
    let _ ← act .backend
    pure ()

def system (cfg : Nat → Settings) : System Op Ret Env State Call where
  toMachine := machine cfg
  program := program cfg
  begins call s := if call.cache < s.stores.length then some s else none

def State.initial (caches limit : Nat) : State where
  stores := List.replicate caches .empty
  next _ := 0
  flights := []
  budget := ⟨limit, 0⟩
  now := 0
  made := []

end Rproxy.Cache
