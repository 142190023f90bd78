import Rproxy.Data.Table
import Rproxy.Dpdk.Packet

/-!
# Sessions of the DPDK path

`engine.rs` forwards UDP datagrams between clients and backends.
-/

namespace Rproxy.Dpdk

/-! ## Ports and addresses -/

def natTries : ℕ := 256

def shardCount : ℕ := 64

def arpRetry : ℕ := 1000000000

def unrepliedTimeout : ℕ := 5000000000

def natPrefixShare : ℕ := 16

def natPrefixMin : ℕ := 64

inductive Phase where
  | accepting
  | draining
  | closed
deriving DecidableEq

structure PortCfg where
  mac : Mac
  addrs : List (Ipv4 × UInt8)
  gateway : Option Ipv4

def u32 (ip : Ipv4) : UInt32 := UInt32.ofNat (Bytes.ofBe ip.1)

def onLink (addr net : Ipv4) (length : UInt8) : Bool :=
  let mask : UInt32 := if length = 0 then 0
    else 0xffffffff <<< UInt32.ofNat (32 - min length.toNat 32)
  u32 addr &&& mask = u32 net &&& mask

def shareOf (slots least : ℕ) : ℕ := min (max (slots / natPrefixShare) least) slots

def prefixOf (ip : Ipv4) : UInt32 := u32 ip &&& ((0xffffffff : UInt32) <<< 8)

inductive Verdict where
  | drop
  | send (port : ℕ)
deriving DecidableEq

structure FwdKey where
  listen : SocketAddrV4
  client : SocketAddrV4
deriving DecidableEq

/-- `shard_of`; the factor stands first, so that the product of an unknown key is not computed. -/
def shardOf (k : FwdKey) : ℕ :=
  let a := UInt64.ofNat (Bytes.ofBe k.client.ip.1)
  let b := UInt64.ofNat (Bytes.ofBe k.listen.ip.1)
  let h := (a <<< 16 ||| k.client.port.toUInt64) ^^^ (b <<< 20) ^^^ k.listen.port.toUInt64
  ((0x9E3779B97F4A7C15 * h) >>> 58).toNat % shardCount

structure Config where
  ports : List PortCfg
  natLo : ℕ
  natHi : ℕ
  prefixMin : ℕ
  lo_le_hi : natLo ≤ natHi
  min_pos : 1 ≤ prefixMin

namespace Config

def withNatPorts (ports : List PortCfg) (lo hi : UInt16) : Config where
  ports := ports
  natLo := max lo.toNat 1
  natHi := max hi.toNat (max lo.toNat 1)
  prefixMin := natPrefixMin
  lo_le_hi := le_max_right _ _
  min_pos := by decide

variable (cfg : Config)

def slots : ℕ := cfg.natHi - cfg.natLo + 1

def share : ℕ := shareOf cfg.slots cfg.prefixMin

def locals : List (Ipv4 × ℕ) :=
  cfg.ports.zipIdx.flatMap fun p => p.1.addrs.map fun a => (a.1, p.2)

def localOf (ip : Ipv4) : Option ℕ := cfg.locals.findIdx? fun l => l.1 = ip

def link (dst : Ipv4) (i : ℕ) : Bool :=
  (cfg.ports[i]?).any fun p => p.addrs.any fun a => onLink dst a.1 a.2

def route (dst : Ipv4) (prefer : ℕ) : Option (ℕ × Ipv4) :=
  if cfg.link dst prefer then some (prefer, dst)
  else
    match (List.range cfg.ports.length).find? (cfg.link dst) with
    | some i => some (i, dst)
    | none =>
      match (cfg.ports[prefer]?).bind PortCfg.gateway with
      | some gateway => some (prefer, gateway)
      | none => cfg.ports.zipIdx.findSome? fun p => p.1.gateway.map fun gateway => (p.2, gateway)

def sourceFor (li egress : ℕ) : ℕ :=
  if (cfg.locals[li]?).any fun l => l.2 = egress then li
  else ((((cfg.ports[egress]?).bind fun p => p.addrs.head?).bind fun a => cfg.localOf a.1)).getD li

end Config

/-! ## The state -/

structure Session where
  key : FwdKey
  rule : ℕ
  offset : ℕ
  target : SocketAddrV4
  egress : ℕ
  hop : Ipv4
  hopMac : Option Mac
  arpSent : Option ℕ
  clientMac : Mac
  clientPort : ℕ
  last : ℕ
  id : ℕ
  answered : Bool
  again : Bool
  established : Bool
deriving DecidableEq

abbrev Place := ℕ × ℕ

structure PrefixPorts where
  held : ℕ
  waiting : List (ℕ × ℕ)
deriving DecidableEq

structure Local where
  slots : List (Option Session)
  cursor : ℕ
  held : ℕ
  prefixes : Table UInt32 PrefixPorts

structure StaleRow where
  key : FwdKey
  place : Place
  id : ℕ
deriving DecidableEq

abbrev Rules := Table SocketAddrV4 (ℕ × ℕ)

/-- `Engine`. The shards are one table here, as each key belongs to one of them. -/
structure Engine where
  locals : List Local
  rules : Rules
  fwd : Table FwdKey Place
  stale : List StaleRow
  nextId : ℕ
  neighbors : Table Ipv4 Mac
  arpPending : Table Ipv4 ℕ
  shards : List ℕ
  locked : List Place
  underflow : Bool

def Engine.initial (cfg : Config) : Engine where
  locals := List.replicate cfg.locals.length ⟨List.replicate cfg.slots none, 0, 0, ∅⟩
  rules := ∅
  fwd := ∅
  stale := []
  nextId := 0
  neighbors := ∅
  arpPending := ∅
  shards := []
  locked := []
  underflow := false

structure Env where
  phase : Phase
  admits : Bool
  target : Option SocketAddrV4
  starts : Bool
  up : Bool
  down : Bool
  evicted : Bool
  idle : ℕ
  retarget : Option SocketAddrV4
  /-- Another lcore is in the slot that `try_lock` tries. -/
  contended : Bool

namespace Session
variable (s : Session)

def settle : Session :=
  if !s.established && s.answered && s.again then { s with established := true } else s

def evicted (s : Session) (env : Env) : Bool := !s.established && env.evicted

def ends (env : Env) (now : ℕ) : Bool :=
  env.phase = .closed || s.evicted env ||
    (if s.established then env.idle else min env.idle unrepliedTimeout) ≤ now - s.last

def onAnswer (now : ℕ) : Session :=
  if s.established then { s with last := now } else { s with answered := true }.settle

def onDatagram (u : Udp4) (port now : ℕ) (found : Bool) : Session :=
  let s := { s with last := now }
  let s := if s.established then s else { s with again := s.again || found }.settle
  { s with clientMac := u.srcMac, clientPort := port }

def onSweep (cfg : Config) (env : Env) (neighbors : Table Ipv4 Mac) : Session :=
  let s :=
    match env.retarget.bind fun next => (cfg.route next.ip s.egress).map fun r => (next, r) with
    | some (next, egress, hop) => { s with target := next, egress, hop, hopMac := none }
    | none => s
  { s with hopMac := (neighbors.lookup s.hop).or s.hopMac }

end Session

namespace Engine

/-! ## What the sections do -/

variable (cfg : Config) (e : Engine) (p : Place) (s : Session)

def slot : Option Session :=
  ((e.locals[p.1]?).bind fun l => l.slots[p.2]?).join

def HasSlot : Prop := ∃ l, e.locals[p.1]? = some l ∧ p.2 < l.slots.length

instance (e : Engine) (p : Place) : Decidable (e.HasSlot p) :=
  decidable_of_iff ((e.locals[p.1]?).any fun l => p.2 < l.slots.length) (by
    simp [HasSlot, Option.any_eq_true])

def onLocal (li : ℕ) (f : Local → Local) : Engine :=
  { e with locals := e.locals.modify li f }

def setSlot (s : Option Session) : Engine :=
  e.onLocal p.1 fun l => { l with slots := l.slots.set p.2 s }

def answer (env : Env) (p : Place) (u : Udp4) (now : ℕ) : Engine × Option Verdict :=
  match e.slot p with
  | none => (e, none)
  | some s =>
    if s.target ≠ u.src then (e, none)
    else if env.phase = .closed || s.evicted env || !env.down then (e, some .drop)
    else (e.setSlot p (some (s.onAnswer now)), some (.send s.clientPort))

def ask (hop : Ipv4) (now : ℕ) : Engine :=
  if (e.arpPending.lookup hop).any fun t => now - t < arpRetry then e
  else { e with arpPending := e.arpPending.insert hop now }

def passOn (now : ℕ) : Engine × Verdict :=
  match s.hopMac.or (e.neighbors.lookup s.hop) with
  | some m => (e.setSlot p (some { s with hopMac := some m }), .send s.egress)
  | none =>
    if s.arpSent.all fun t => arpRetry ≤ now - t then
      ((e.ask s.hop now).setSlot p (some { s with arpSent := some now }), .drop)
    else (e.setSlot p (some s), .drop)

def forward (env : Env) (p : Place) (key : FwdKey) (u : Udp4) (port now : ℕ) (found : Bool) :
    Engine × Option Verdict :=
  match e.slot p with
  | none => (e, none)
  | some s =>
    if s.key ≠ key then (e, none)
    else if s.evicted env || !env.up then (e, some .drop)
    else
      let (e, verdict) := e.passOn p (s.onDatagram u port now found) now
      (e, some verdict)

def forget (key : FwdKey) (p : Place) : Engine :=
  if e.fwd.lookup key = some p then { e with fwd := e.fwd.erase key } else e

/-- A row of `clear_stale`; a row that the slot's new session of the same client holds is kept. -/
def clearRow (r : StaleRow) : Engine :=
  if (e.slot r.place).any fun s => s.key = r.key && s.id ≠ r.id then e else e.forget r.key r.place

/-- The session leaves its slot, in `end` with the shard `shard` held: its row goes at once if it is
in that shard. -/
def takeOut (shard : ℕ) : Engine :=
  let e := e.setSlot p none
  if shard = shardOf s.key then e.forget s.key p else e

inductive Room where
  | room
  | full
  | waiting (n id : ℕ)

def popWaiting (li : ℕ) (net : UInt32) : Engine × Room :=
  match (e.locals[li]?).bind fun l => (l.prefixes.lookup net).map fun ports => (l, ports) with
  | none => (e, .room)
  | some (l, ports) =>
    if ports.held < cfg.share ∨ l.held < cfg.slots / 2 then (e, .room)
    else
      match ports.waiting with
      | [] => (e, .full)
      | w :: rest =>
        (e.onLocal li fun l =>
          { l with prefixes := l.prefixes.insert net { ports with waiting := rest } },
          .waiting w.1 w.2)

def endWaiting (id shard : ℕ) : Engine × Option Session :=
  match e.slot p with
  | some s =>
    if s.id = id ∧ s.established = false then
      ({ e.takeOut p s shard with locked := p :: e.locked }, some s)
    else (e, none)
  | none => (e, none)

inductive Probe where
  | busy
  | taken
  | free (ended : Option Session)

def probe (env : Env) (p : Place) (shard : ℕ) : Engine × Probe :=
  if env.contended ∨ p ∈ e.locked ∨ ¬ e.HasSlot p then (e, .busy)
  else
    match e.slot p with
    | none => ({ e with locked := p :: e.locked }, .free none)
    | some s =>
      if s.evicted env then ({ e.takeOut p s shard with locked := p :: e.locked }, .free (some s))
      else (e, .taken)

def install : Engine × ℕ :=
  ({ e.setSlot p (some { s with id := e.nextId }) with
    nextId := e.nextId + 1
    fwd := e.fwd.insert s.key p }, e.nextId)

def lower (n : ℕ) : Engine := { e with underflow := e.underflow || n = 0 }

def heldDown (li : ℕ) : Engine :=
  match e.locals[li]? with
  | none => e
  | some l => (e.lower l.held).onLocal li fun l => { l with held := l.held - 1 }

def heldUp (li : ℕ) : Engine :=
  e.onLocal li fun l => { l with held := l.held + 1 }

def prefixDown (li : ℕ) (net : UInt32) : Engine :=
  match (e.locals[li]?).bind fun l => l.prefixes.lookup net with
  | none => e
  | some ports =>
    let held := ports.held - 1
    (e.lower ports.held).onLocal li fun l => { l with
      prefixes :=
        if held = 0 then l.prefixes.erase net
        else l.prefixes.insert net ⟨held, ports.waiting.drop (ports.waiting.length - 2 * held)⟩ }

def prefixUp (li : ℕ) (net : UInt32) (n id : ℕ) : Engine :=
  e.onLocal li fun l =>
    let ports := (l.prefixes.lookup net).getD ⟨0, []⟩
    let held := ports.held + 1
    let waiting := ports.waiting.drop (ports.waiting.length + 1 - min cfg.share (2 * held))
    { l with prefixes := l.prefixes.insert net ⟨held, waiting ++ [(n, id)]⟩ }

inductive Swept where
  | empty
  | ended (s : Session)
  | stays

def sweepSlot (env : Env) (p : Place) (now : ℕ) : Engine × Swept :=
  match e.slot p with
  | none => (e, .empty)
  | some s =>
    if s.ends env now then (e.setSlot p none, .ended s)
    else (e.setSlot p (some (s.onSweep cfg env e.neighbors)), .stays)

def register (ip : Ipv4) (port count : UInt16) (rule : ℕ) : Engine × Bool :=
  if cfg.localOf ip = none then (e, false)
  else
    let next := (List.range count.toNat).foldl (fun (next : Option Rules) offset => do
      let next ← next
      if 65535 < port.toNat + offset then none
      else
        let place : SocketAddrV4 := ⟨ip, port + UInt16.ofNat offset⟩
        if (next.lookup place).isSome then none else some (next.insert place (rule, offset)))
      (some e.rules)
    match next with
    | some next => ({ e with rules := next }, true)
    | none => (e, false)

def unregister (ip : Ipv4) (port count : UInt16) (rule : ℕ) : Engine :=
  { e with rules := (List.range count.toNat).foldl (fun next offset =>
      let place : SocketAddrV4 := ⟨ip, UInt16.ofNat (min (port.toNat + offset) 65535)⟩
      if (next.lookup place).any fun r => r.1 = rule then next.erase place else next) e.rules }

def learn (port : ℕ) (a : Arp) : Engine :=
  if u32 a.senderIp ≠ 0 ∧ cfg.link a.senderIp port then
    { e with neighbors := e.neighbors.insert a.senderIp a.senderMac }
  else e

end Engine
end Rproxy.Dpdk
