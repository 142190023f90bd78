import Rproxy.Dpdk.Engine
import Rproxy.Programs.Threads

/-!
# Calls of the DPDK path

Lcores process frames side by side while one of them sweeps the slots once a second.
-/

namespace Rproxy.Dpdk

inductive Op where
  /-- What the rule answers: `Rule::phase`, `admit`, `open` and `start`. -/
  | phase
  | admits
  | target
  | starts
  | answer (p : Place) (u : Udp4) (now : ℕ)
  | find (key : FwdKey)
  | forward (p : Place) (key : FwdKey) (u : Udp4) (port now : ℕ) (found : Bool)
  | forget (key : FwdKey) (p : Place)
  | staleLen
  | takeStale
  | clearRow (r : StaleRow)
  | lockShard (key : FwdKey)
  | unlockShard (shard : ℕ)
  | popWaiting (li : ℕ) (net : UInt32)
  | endWaiting (p : Place) (id shard : ℕ)
  | pushStale (r : StaleRow)
  | heldDown (li : ℕ)
  | prefixDown (li : ℕ) (net : UInt32)
  | unlockSlot (p : Place)
  | rules
  | cursor (li : ℕ)
  | probe (p : Place) (shard : ℕ)
  | install (p : Place) (s : Session)
  | heldUp (li : ℕ)
  | prefixUp (li : ℕ) (net : UInt32) (n id : ℕ)
  | sweepSlot (p : Place) (now : ℕ)
  | learn (port : ℕ) (a : Arp)
  | register (ip : Ipv4) (port count : UInt16) (rule : ℕ)
  | unregister (ip : Ipv4) (port count : UInt16) (rule : ℕ)

abbrev Ret : Op → Type
  | .phase => Phase
  | .admits => Bool
  | .target => Option SocketAddrV4
  | .starts => Bool
  | .answer _ _ _ => Option Verdict
  | .find _ => Option Place
  | .forward _ _ _ _ _ _ => Option Verdict
  | .staleLen => ℕ
  | .takeStale => List StaleRow
  | .lockShard _ => Option Place
  | .popWaiting _ _ => Engine.Room
  | .endWaiting _ _ _ => Option Session
  | .rules => Rules
  | .cursor _ => ℕ
  | .probe _ _ => Engine.Probe
  | .install _ _ => ℕ
  | .sweepSlot _ _ => Engine.Swept
  | .register _ _ _ _ => Bool
  | _ => Unit

variable (p : Place) (s : Session) (cfg : Config)

def exec (env : Env) (e : Engine) : (o : Op) → Engine × Ret o
  | .phase => (e, env.phase)
  | .admits => (e, env.admits)
  | .target => (e, env.target)
  | .starts => (e, env.starts)
  | .answer p u now => e.answer env p u now
  | .find key => (e, e.fwd.lookup key)
  | .forward p key u port now found => e.forward env p key u port now found
  | .forget key p => (e.forget key p, ())
  | .staleLen => (e, e.stale.length)
  | .takeStale => ({ e with stale := [] }, e.stale)
  | .clearRow r => (e.clearRow r, ())
  | .lockShard key => ({ e with shards := shardOf key :: e.shards }, e.fwd.lookup key)
  | .unlockShard shard => ({ e with shards := e.shards.erase shard }, ())
  | .popWaiting li net => e.popWaiting cfg li net
  | .endWaiting p id shard => e.endWaiting p id shard
  | .pushStale r => ({ e with stale := e.stale ++ [r] }, ())
  | .heldDown li => (e.heldDown li, ())
  | .prefixDown li net => (e.prefixDown li net, ())
  | .unlockSlot p => ({ e with locked := e.locked.erase p }, ())
  | .rules => (e, e.rules)
  | .cursor li =>
    (e.onLocal li fun l => { l with cursor := l.cursor + 1 }, (e.locals[li]?).elim 0 Local.cursor)
  | .probe p shard => e.probe env p shard
  | .install p s => e.install p s
  | .heldUp li => (e.heldUp li, ())
  | .prefixUp li net n id => (e.prefixUp cfg li net n id, ())
  | .sweepSlot p now => e.sweepSlot cfg env p now
  | .learn port a => (e.learn cfg port a, ())
  | .register ip port count rule => e.register cfg ip port count rule
  | .unregister ip port count rule => (e.unregister ip port count rule, ())

local instance lawfulBEqPlace : LawfulBEq Place := inferInstance

def Op.ready (e : Engine) : Op → Bool
  | .answer p _ _ => p ∉ e.locked
  | .find key => shardOf key ∉ e.shards
  | .forward p _ _ _ _ _ => p ∉ e.locked
  | .forget key _ => shardOf key ∉ e.shards
  | .clearRow r =>
    shardOf r.key ∉ e.shards && (e.fwd.lookup r.key ≠ some r.place || r.place ∉ e.locked)
  | .lockShard key => shardOf key ∉ e.shards
  | .endWaiting p _ _ => p ∉ e.locked
  | .sweepSlot p _ => p ∉ e.locked
  | _ => true

/-! ## The programs -/

def act (o : Op) : Prog Op Ret (Ret o) := Prog.perform o

def clearStale : Prog Op Ret Unit := do
  let stale ← act .takeStale
  Prog.forEach (fun r => act (.clearRow r)) stale

def countDown : Prog Op Ret Unit := do
  act (.heldDown p.1)
  act (.prefixDown p.1 (prefixOf s.key.client.ip))

/-- `Engine::end` with a shard held, once the session left its slot: a row of another shard is left
for later. -/
def endHeld (shard : ℕ) : Prog Op Ret Unit := do
  if shard = shardOf s.key then countDown p s
  else
    act (.pushStale ⟨s.key, p, s.id⟩)
    countDown p s

def endFree : Prog Op Ret Unit := do
  act (.forget s.key p)
  countDown p s

/-- `Engine::prefix_room`, with the rounds its loop may take: the slot given up, if one was, or
`none` for the error. -/
def prefixRoom (li : ℕ) (net : UInt32) (shard : ℕ) : ℕ → Prog Op Ret (Option (Option ℕ))
  | 0 => pure none
  | rounds + 1 => do
    match ← act (.popWaiting li net) with
    | .room => pure (some none)
    | .full => pure none
    | .waiting n id =>
      match ← act (.endWaiting (li, n) id shard) with
      | some s =>
        endHeld (li, n) s shard
        act (.unlockSlot (li, n))
        pure (some (some n))
      | none => prefixRoom li net shard rounds

def probes (freed : Option ℕ) (cursor : ℕ) : List ℕ :=
  freed.toList ++ (List.range natTries).map fun i => (cursor * 7919 + i) % 2 ^ 64 % cfg.slots

def beginSession : Prog Op Ret (Option Place) := do
  if ← act .starts then
    let id ← act (.install p s)
    act (.heldUp p.1)
    act (.prefixUp p.1 (prefixOf s.key.client.ip) p.2 id)
    act (.unlockSlot p)
    pure (some p)
  else
    act (.unlockSlot p)
    pure none

def onProbe (retry : Prog Op Ret (Option Place)) : Engine.Probe → Prog Op Ret (Option Place)
  | .busy => retry
  | .taken => retry
  | .free none => beginSession p s
  | .free (some ended) => do
    endHeld p ended (shardOf s.key)
    beginSession p s

def takeSlot (cfg : Config) (rules : Rules) (li : ℕ) (s : Session) :
    List ℕ → Prog Op Ret (Option Place)
  | [] => pure none
  | n :: rest => do
    let address := (cfg.locals[li]?).map fun l =>
      ({ ip := l.1, port := UInt16.ofNat (cfg.natLo + n) } : SocketAddrV4)
    if (address.bind rules.lookup).isSome then takeSlot cfg rules li s rest
    else
      let found ← act (.probe (li, n) (shardOf s.key))
      onProbe (li, n) s (takeSlot cfg rules li s rest) found

def openHeld (port li rule offset : ℕ) (u : Udp4) (now rounds : ℕ) :
    Prog Op Ret (Option Place) := do
  let key : FwdKey := ⟨u.dst, u.src⟩
  match ← act .target with
  | none => pure none
  | some target =>
    match cfg.route target.ip ((cfg.locals[li]?).elim 0 Prod.snd) with
    | none => pure none
    | some (egress, hop) =>
      let source := cfg.sourceFor li egress
      match ← prefixRoom source (prefixOf u.src.ip) (shardOf key) rounds with
      | none => pure none
      | some freed =>
        let rules ← act .rules
        let cursor ← act (.cursor source)
        takeSlot cfg rules source
          { key, rule, offset, target, egress, hop, hopMac := none, arpSent := none,
            clientMac := u.srcMac, clientPort := port, last := now, id := 0, answered := false,
            again := false, established := false }
          (probes cfg freed cursor)

def openLocked (port li rule offset : ℕ) (u : Udp4) (now rounds : ℕ) :
    Prog Op Ret (Option Place) := do
  let key : FwdKey := ⟨u.dst, u.src⟩
  match ← act (.lockShard key) with
  | some p =>
    act (.unlockShard (shardOf key))
    pure (some p)
  | none =>
    let opened ← openHeld cfg port li rule offset u now rounds
    act (.unlockShard (shardOf key))
    pure opened

def openSession (port li rule offset : ℕ) (u : Udp4) (now rounds : ℕ) :
    Prog Op Ret (Option Place) := do
  let stale ← act .staleLen
  if stale > 0 then
    clearStale
    openLocked cfg port li rule offset u now rounds
  else openLocked cfg port li rule offset u now rounds

def deliver (u : Udp4) (port now : ℕ) (found : Bool) : Prog Op Ret Verdict := do
  let key : FwdKey := ⟨u.dst, u.src⟩
  match ← act (.forward p key u port now found) with
  | some verdict => pure verdict
  | none =>
    act (.forget key p)
    pure .drop

def clientDatagram (port li rule offset : ℕ) (u : Udp4) (now rounds : ℕ) : Prog Op Ret Verdict := do
  if (← act .phase) = .closed then pure .drop
  else if (← act .admits) = false then pure .drop
  else
    match ← act (.find ⟨u.dst, u.src⟩) with
    | some p => deliver p u port now true
    | none =>
      if (← act .phase) ≠ .accepting then pure .drop
      else
        match ← openSession cfg port li rule offset u now rounds with
        | some p => deliver p u port now false
        | none => pure .drop

def fromBackend (li : ℕ) (u : Udp4) (now : ℕ) : Prog Op Ret (Option Verdict) :=
  if cfg.natLo ≤ u.dst.port.toNat ∧ u.dst.port.toNat ≤ cfg.natHi then
    act (.answer (li, u.dst.port.toNat - cfg.natLo) u now)
  else pure none

def udp (rules : Rules) (port : ℕ) (u : Udp4) (now rounds : ℕ) : Prog Op Ret Verdict := do
  match cfg.localOf u.dst.ip with
  | none => pure .drop
  | some li =>
    match ← fromBackend cfg li u now with
    | some verdict => pure verdict
    | none =>
      match rules.lookup u.dst with
      | some (rule, offset) => clientDatagram cfg port li rule offset u now rounds
      | none => pure .drop

def process (rules : Rules) (port : ℕ) (f : List UInt8) (now rounds : ℕ) : Prog Op Ret Verdict := do
  match parse f with
  | some (.udp u) => udp cfg rules port u now rounds
  | some (.arp a) =>
    act (.learn port a)
    if a.op = 1 ∧ ((cfg.ports[port]?).any fun p => p.addrs.any fun l => l.1 = a.targetIp) then
      pure (.send port)
    else pure .drop
  | some (.echo _ dst _) =>
    if (cfg.ports[port]?).any fun p => p.addrs.any fun l => l.1 = dst then pure (.send port)
    else pure .drop
  | _ => pure .drop

def sweepOne (now : ℕ) : Prog Op Ret ℕ := do
  match ← act (.sweepSlot p now) with
  | .empty => pure 0
  | .ended s =>
    endFree p s
    pure 0
  | .stays => pure 1

def places : List Place :=
  (List.range cfg.locals.length).flatMap fun li => (List.range cfg.slots).map fun n => (li, n)

def sweep (now : ℕ) : Prog Op Ret ℕ := do
  clearStale
  let counts ← Prog.mapEach (fun p => sweepOne p now) (places cfg)
  pure counts.sum

/-- The calls; a frame comes with the lcore's copy of the rules and the rounds of `prefix_room`'s
loop. -/
inductive Call where
  | process (rules : Rules) (port : ℕ) (f : List UInt8) (now rounds : ℕ)
  | sweep (now : ℕ)
  | register (ip : Ipv4) (port count : UInt16) (rule : ℕ)
  | unregister (ip : Ipv4) (port count : UInt16) (rule : ℕ)

def program : Call → Prog Op Ret Unit
  | .process rules port f now rounds => do
    let _ ← process cfg rules port f now rounds
    pure ()
  | .sweep now => do
    let _ ← sweep cfg now
    pure ()
  | .register ip port count rule => do
    let _ ← act (.register ip port count rule)
    pure ()
  | .unregister ip port count rule => act (.unregister ip port count rule)

def system : System Op Ret Env Engine Call where
  exec o env e := exec cfg env e o
  program := program cfg
  begins _ e := some e

end Rproxy.Dpdk
