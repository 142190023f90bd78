import Rproxy.Data.BitSet
import Rproxy.Data.Turns
import Rproxy.Rule.Targets

/-!
# The targets to try for a connection

`Pool::order` lists the targets for a new connection, best first: the one that `balance` chooses,
the others that are up, the backups that are up, what is down, and the full ones.
-/

namespace Rproxy

def TargetSpec.weightOr1 (t : TargetSpec) : ℕ := max (t.weight.getD 1).toNat 1

namespace Balancing
open Turns BitSet

structure Seen where
  spec : TargetSpec
  active : ℕ
  up : Bool
deriving DecidableEq

namespace Seen

def max (m : Seen) : ℕ := m.spec.maxConnections.elim 0 UInt32.toNat

def isFull (m : Seen) : Bool := m.max ≠ 0 ∧ m.max ≤ m.active

end Seen

structure Roster where
  balance : Balance
  members : List Seen
  next : UInt64
deriving DecidableEq

namespace Roster

/-! ## What is read of a target -/

variable (r : Roster) (i : ℕ)

def capped : Bool := r.members.any fun m => m.max ≠ 0

def weight : ℕ := r.members[i]?.elim 1 fun m => m.spec.weightOr1

def active (r : Roster) (i : ℕ) : ℕ := r.members[i]?.elim 0 Seen.active

def isUp : Bool := r.members[i]?.any Seen.up

def isFull (r : Roster) (i : ℕ) : Bool := r.members[i]?.any Seen.isFull

def isBackup : Bool := r.members[i]?.any fun m => m.spec.backup

def allFull : Bool :=
  if ¬ r.capped then false
  else
    let up := r.members.any fun m => m.up
    let opened := r.members.any fun m => !m.isFull
    let upOpen := r.members.any fun m => m.up && !m.isFull
    !upOpen && (up || !opened)

def heavier (a b : ℕ) : Bool := r.active b * r.weight a < r.active a * r.weight b

def choose (eligible : List ℕ) : Option ℕ × UInt64 :=
  if eligible = [] then (none, r.next)
  else
    match r.balance with
    | .failover => (eligible.head?, r.next)
    | .roundRobin =>
      let total := (eligible.map r.weight).sum
      ((turn r.weight eligible (r.next.toNat % total)).or eligible.head?, r.next + 1)
    | .leastConn =>
      -- ties go round, so idle targets share new connections evenly
      let start := r.next.toNat % eligible.length
      (minBy r.heavier (eligible.drop start ++ eligible.take start), r.next + 1)

def position (eligible : List ℕ) (first : ℕ) : ℕ := (eligible.findIdx? (· = first)).getD 0

def room : Bool := !r.capped || !r.isFull i

def orderSlow : List ℕ × UInt64 :=
  let all := List.range r.members.length
  let up := all.filter fun i => r.isUp i && r.room i
  let alive := all.any r.isUp
  let opened := fun i => r.room i && (up ≠ [] || !alive)
  let primary := up.filter fun i => !r.isBackup i
  let backup := up.filter r.isBackup
  let eligible := if primary = [] then backup else primary
  let (chosen, next) := r.choose eligible
  let order :=
    match chosen with
    | none => []
    | some first =>
      let place := position eligible first
      first :: (eligible.drop (place + 1) ++ eligible.take place)
  let order := (primary ++ backup ++ all).foldl
    (fun order i => if i ∉ order ∧ opened i then order ++ [i] else order) order
  let order := all.foldl
    (fun order i => if i ∉ order ∧ ¬ r.room i then order ++ [i] else order) order
  (order, next)

/-! ## With bits -/

structure Sets where
  opened : BitVec 64
  up : BitVec 64
  alive : BitVec 64
  backup : BitVec 64

def Sets.look (capped : Bool) (s : Sets) (m : Seen × ℕ) : Sets :=
  let s :=
    if ¬ capped ∨ ¬ m.1.isFull then
      let s := { s with opened := s.opened ||| bit m.2 }
      if m.1.up then { s with up := s.up ||| bit m.2 } else s
    else if m.1.up then { s with alive := s.alive ||| bit m.2 }
    else s
  if m.1.spec.backup then { s with backup := s.backup ||| bit m.2 } else s

def sets : Sets := r.members.zipIdx.foldl (.look r.capped) ⟨0, 0, 0, 0⟩

structure Placed where
  placed : BitVec 64
  out : List ℕ

def Placed.push (p : Placed) (i : ℕ) : Placed :=
  if p.placed &&& bit i = 0 then ⟨p.placed ||| bit i, p.out ++ [i]⟩ else p

def Placed.start (eligible : List ℕ) : Option ℕ → Placed
  | none => ⟨0, []⟩
  | some first =>
    let place := position eligible first
    (eligible.drop place ++ eligible.take place).foldl push ⟨0, []⟩

def order : List ℕ × UInt64 :=
  let n := r.members.length
  if n > 64 then r.orderSlow
  else
    let s := r.sets
    -- every target that is up is full: not the down ones either
    let (down, opened) : BitVec 64 × BitVec 64 :=
      if s.up = 0 ∧ s.alive ≠ 0 then (s.opened, 0) else (0, s.opened)
    let primary := s.up &&& ~~~ s.backup
    let backups := s.up &&& s.backup
    let eligible := bits (if primary ≠ 0 then primary else backups)
    let (chosen, next) := r.choose eligible
    let placed := Placed.start eligible chosen
    let all : BitVec 64 := if n = 64 then .allOnes 64 else bit n - 1
    let full := all &&& ~~~ (opened ||| down)
    let placed := (bits primary ++ bits backups ++ bits opened).foldl .push placed
    -- the full ones last: a place may have come free
    ((bits full).foldl .push placed |>.out, next)

end Roster
end Balancing
end Rproxy
