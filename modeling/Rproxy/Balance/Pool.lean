import Rproxy.Programs.Runs
import Rproxy.Rule.Targets

/-!
# Pools of targets and the connections on them

A rule's targets at run time are the members of a pool; each connection holds a lease on a member.
-/

namespace Rproxy

def TargetSpec.remote [External] (t : TargetSpec) : String :=
  match parseIp t.addr with
  | some (.v6 ip) => SocketAddr.text ⟨.v6 ip, t.port⟩
  | _ => s!"{t.addr}:{t.port.toNat}"

namespace Balancing

structure Member where
  spec : TargetSpec
  active : ℕ
deriving DecidableEq

def Member.max (m : Member) : ℕ := m.spec.maxConnections.elim 0 UInt32.toNat

structure Pool where
  members : List Member
  retired : List (String × ℕ)
deriving DecidableEq

/-- `install_pool` on its way: the members so far, and the counts of the pool before that they
took. -/
structure Building where
  members : List Member
  taken : List ℕ

structure World where
  counts : ℕ → ℕ
  next : ℕ
  pool : Pool
  building : Option Building
  handles : List Member
  /-- Calls of `Lease::take`, each with the value it last saw. -/
  trying : List (Member × ℕ)
  leases : List Member

def World.new : World where
  counts _ := 0
  next := 0
  pool := ⟨[], []⟩
  building := none
  handles := []
  trying := []
  leases := []

def World.outside (w : World) : List Member := w.handles ++ w.trying.map Prod.fst ++ w.leases

def World.held (w : World) : List Member :=
  w.pool.members ++ w.building.elim [] Building.members ++ w.outside

def World.alive (w : World) (c : ℕ) : Bool := w.held.any fun m => m.active = c

section
variable [External]

def counterFor (alive : ℕ → Bool) (p : Pool) (t : TargetSpec) (taken : List ℕ) : Option (ℕ × ℕ) :=
  let n := p.members.length
  match p.members.zipIdx.find? fun x => !taken.contains x.2 && x.1.spec.remote = t.remote with
  | some (m, i) => some (i, m.active)
  | none =>
    (p.retired.zipIdx.find? fun x =>
      !taken.contains (n + x.2) && x.1.1 = t.remote && alive x.1.2).map fun x => (n + x.2, x.1.2)

def retiring (alive : ℕ → Bool) (before : Pool) (taken : List ℕ) : List (String × ℕ) :=
  let n := before.members.length
  (before.members.zipIdx.filter fun x => !taken.contains x.2).map
      (fun x => (x.1.spec.remote, x.1.active)) ++
    (before.retired.zipIdx.filter fun x => !taken.contains (n + x.2) && alive x.1.2).map Prod.fst

/-- What happens. A handle, a call of `Lease::take` and a lease are known by their places. -/
inductive Act where
  /-- `install_pool` begins, over the pool in place. -/
  | install
  /-- `counter_for` and `Member::new` for its next target. -/
  | target (t : TargetSpec)
  /-- `retiring`, and the new pool takes the place of the one before. -/
  | replace
  | hold (member : ℕ)
  | holdLeased (lease : ℕ)
  | forget (handle : ℕ)
  /-- `Lease::take` of a handle, to its first look at the count. -/
  | take (handle : ℕ)
  /-- A round of the loop of `Lease::take`; `compare_exchange_weak` may fail for no reason. -/
  | attempt (call : ℕ) (spurious : Bool)
  | release (lease : ℕ)
  | moveTo (lease handle : ℕ)

def World.grant (w : World) (m : Member) : World :=
  { w with
    counts := Function.update w.counts m.active (w.counts m.active + 1)
    leases := w.leases ++ [m] }

def World.addTarget (w : World) (b : Building) (t : TargetSpec) : World :=
  match counterFor w.alive w.pool t b.taken with
  | some (i, c) =>
    { w with building := some ⟨b.members ++ [⟨t, c⟩], b.taken ++ [i]⟩ }
  | none =>
    { w with
      counts := Function.update w.counts w.next 0
      next := w.next + 1
      building := some ⟨b.members ++ [⟨t, w.next⟩], b.taken⟩ }

def World.step (w : World) : Act → World
  | .install => { w with building := some ⟨[], []⟩ }
  | .target t =>
    match w.building with
    | some b => w.addTarget b t
    | none => w
  | .replace =>
    match w.building with
    | some b =>
      { w with pool := ⟨b.members, retiring w.alive w.pool b.taken⟩, building := none }
    | none => w
  | .hold i =>
    match w.pool.members[i]? with
    | some m => { w with handles := w.handles ++ [m] }
    | none => w
  | .holdLeased k =>
    match w.leases[k]? with
    | some m => { w with handles := w.handles ++ [m] }
    | none => w
  | .forget h => { w with handles := w.handles.eraseIdx h }
  | .take h =>
    match w.handles[h]? with
    | some m =>
      let w := { w with handles := w.handles.eraseIdx h }
      if m.max = 0 then w.grant m
      else { w with trying := w.trying ++ [(m, w.counts m.active)] }
    | none => w
  | .attempt k spurious =>
    match w.trying[k]? with
    | some (m, n) =>
      if m.max ≤ n then { w with trying := w.trying.eraseIdx k }
      else if w.counts m.active = n ∧ spurious = false then
        { w with trying := w.trying.eraseIdx k }.grant m
      else { w with trying := w.trying.set k (m, w.counts m.active) }
    | none => w
  | .release k =>
    match w.leases[k]? with
    | some m =>
      { w with
        counts := Function.update w.counts m.active (w.counts m.active - 1)
        leases := w.leases.eraseIdx k }
    | none => w
  | .moveTo k h =>
    match w.leases[k]?, w.handles[h]? with
    | some m, some dest =>
      { w with
        leases := if dest.active = m.active then w.leases.set k dest else w.leases
        handles := w.handles.eraseIdx h }
    | _, _ => w

end
end Balancing
end Rproxy
