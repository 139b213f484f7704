import Transact.Error.Basic

/-! Pools of connections with a limit. A connection that is handed back is handed out again, the
one that has waited longest first. -/
namespace Transact

structure Pool where
  size : Int := 5
  /-- How many there may be beyond the size. -/
  overflow : Int := 10
  /-- For how many seconds a connection is waited for. -/
  timeout : Nat := 30
  out : List Nat := []
  idle : List Nat := []
  made : Nat := 0

namespace Pool

/-- A pool of size zero has no limit, nor has one with a negative overflow. -/
def isExhausted (p : Pool) : Bool := p.size != 0 && 0 ≤ p.overflow && p.size + p.overflow ≤ p.out.length

/-- Only so many connections wait as the size says; a pool of size zero keeps them all. -/
def hasRoom (p : Pool) : Bool := p.size == 0 || p.idle.length < p.size

def handOut (p : Pool) : Nat × Pool :=
  match p.idle with
  | connection :: rest => (connection, { p with out := connection :: p.out, idle := rest })
  | [] => (p.made, { p with out := p.made :: p.out, made := p.made + 1 })

def acquire (p : Pool) : Except Error (Nat × Pool) :=
  if p.isExhausted then .error (.poolExhausted p.size p.overflow p.timeout) else .ok p.handOut

/-- A connection of another pool is none of its business. One that is too many is closed. -/
def release (connection : Nat) (p : Pool) : Pool :=
  if p.out.contains connection then
    { p with
      out := p.out.filter (· != connection)
      idle := if p.hasRoom then p.idle ++ [connection] else p.idle }
  else p

def renewed (p : Pool) : Pool := { p with out := [], idle := [] }

end Pool
end Transact
