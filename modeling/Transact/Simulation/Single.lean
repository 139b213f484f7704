import Transact.Simulation.Basic

/-! A single adapted connection, whose points answer at once as planned. -/
namespace Transact.Simulation

structure Single where
  connection : Connection := { adapted := true }
  plans : Plans := {}
  /-- The points reached, latest first. -/
  journal : List String := []

namespace Single

inductive Step where
  | call (call : Call Query)
  | fail (point : String) (plan : Plan)

/-- What a call answered, the points it reached, and the connection after it. -/
structure Entry where
  call : Call Query
  outcome : Except Error Unit
  journal : List String
  connection : Connection

def answer (p : Point) (s : Single) : Except Error Unit × Single :=
  let point := World.connectionLabel 0 ++ "." ++ p.name
  let (outcome, plans) := s.plans.take point
  (outcome, { s with plans, journal := point :: s.journal })

def call (s : Single) (call : Call Query) : Entry × Single :=
  let (connection, outcome, s) := s.connection.perform answer call { s with journal := [] }
  ({ call, outcome, journal := s.journal.reverse, connection }, { s with connection })

def play (s : Single) : List Step → List Entry
  | [] => []
  | .call c :: rest =>
    let (entry, s) := s.call c
    entry :: s.play rest
  | .fail point plan :: rest => { s with plans := s.plans.add point plan }.play rest

end Single
end Transact.Simulation
