import Rproxy.Data.Turns
import Rproxy.Rule.Targets

/-!
# The server for a request

`Service::pick` gives the server that a request goes to: the one its sticky cookie names if that may
take it, otherwise the one that `balance` picks.
-/

namespace Rproxy.Upstream
open Turns

structure Server where
  id : String
  weight : ℕ
  max : ℕ
  inflight : ℕ
  up : Bool
  ejected : Bool
  /-- `Server::parse` takes the greater of the weight and 1. -/
  weight_pos : 0 < weight

namespace Server

def isUp (s : Server) : Bool := s.up && !s.ejected

def isFull (s : Server) : Bool := s.max ≠ 0 ∧ s.max ≤ s.inflight

def isOpen (s : Server) : Bool := s.isUp && !s.isFull

end Server

structure Service where
  balance : Balance
  servers : List Server
  /-- `Service::compile` refuses a service without servers. -/
  servers_ne : servers ≠ []

namespace Service
variable (s : Service)

def totalWeight : ℕ := (s.servers.map Server.weight).sum

def capped : Bool := s.servers.any fun v => v.max ≠ 0

def usable (v : Server) : Bool := if s.capped then v.isOpen else v.isUp

def weight (s : Service) (i : ℕ) : ℕ := s.servers[i]?.elim 0 Server.weight

def inflight (s : Service) (i : ℕ) : ℕ := s.servers[i]?.elim 0 Server.inflight

def usableAt (i : ℕ) : Bool := s.servers[i]?.any s.usable

def turnOf (n : ℕ) : Option ℕ := turn s.weight (List.range s.servers.length) n

def draws (s : Service) : ℕ → UInt64 → Option ℕ × UInt64
  | 0, next => (none, next)
  | k + 1, next =>
    match s.turnOf (next.toNat % s.totalWeight) with
    | some i => if s.usableAt i then (some i, next + 1) else s.draws k (next + 1)
    | none => s.draws k (next + 1)

def draw (next : UInt64) : Option ℕ × UInt64 :=
  match s.draws (s.servers.length * 4) next with
  | (some i, next) => (some i, next)
  | (none, next) => (s.servers.findIdx? s.usable, next)

def heavier (a b : ℕ) : Bool := s.inflight b * s.weight a < s.inflight a * s.weight b

def stuck (sticky : Option String) : Option ℕ :=
  sticky.bind fun id => s.servers.findIdx? fun v => v.id = id ∧ s.usable v

def pick (sticky : Option String) (next : UInt64) : Option ℕ × UInt64 :=
  match s.stuck sticky with
  | some i => (some i, next)
  | none =>
    match s.balance with
    | .failover => (s.servers.findIdx? s.usable, next)
    | .leastConn =>
      let up := (List.range s.servers.length).filter s.usableAt
      if up = [] then (none, next)
      else
        -- ties go round, so idle servers share requests evenly
        let start := next.toNat % up.length
        (minBy s.heavier (up.drop start ++ up.take start), next + 1)
    | .roundRobin =>
      let (drawn, next) := s.draw next
      -- every server that is up by its health checks is ejected: still try one rather than refuse
      (drawn.or (s.servers.findIdx? fun v => v.up && !(s.capped && v.isFull)), next)

end Service
end Rproxy.Upstream
