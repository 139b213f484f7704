/-! First-come locks. A release wakes the first in the queue, who takes the lock when its turn
to run comes; until then nobody else gets past it. -/
namespace Transact

inductive Ticket where
  | waiting
  | woken
  | cancelled
deriving DecidableEq, Repr

structure Lock where
  holder : Option Nat := none
  /-- In order of arrival. -/
  queue : List (Nat × Ticket) := []
deriving DecidableEq, Repr

namespace Lock

/-- Nobody holds the lock or still waits for it. -/
def isFree (l : Lock) : Bool := l.holder.isNone && l.queue.all fun w => w.2 == .cancelled

def request (job : Nat) (l : Lock) : Bool × Lock :=
  if l.isFree then (true, { l with holder := some job })
  else (false, { l with queue := l.queue ++ [(job, .waiting)] })

/-- Wakes the first in the queue, unless it is on its way already. -/
def wakeFirst (l : Lock) : Option Nat × Lock :=
  match l.queue with
  | (job, .waiting) :: rest => (some job, { l with queue := (job, .woken) :: rest })
  | _ => (none, l)

def release (l : Lock) : Option Nat × Lock := wakeFirst { l with holder := none }

def isWoken (job : Nat) (l : Lock) : Bool := l.queue.contains (job, .woken)

def drop (job : Nat) (l : Lock) : Lock := { l with queue := l.queue.filter fun w => w.1 != job }

/-- What a woken waiter does when it runs. -/
def take (job : Nat) (l : Lock) : Lock := { l.drop job with holder := some job }

/-- The waiter gives up, but has not run yet. -/
def abandon (job : Nat) (l : Lock) : Lock :=
  { l with queue := l.queue.map fun w => if w = (job, .waiting) then (job, .cancelled) else w }

/-- A waiter that gave up runs: the next one is woken in its place if the lock is not held. -/
def leave (job : Nat) (l : Lock) : Option Nat × Lock :=
  let l := l.drop job
  if l.holder.isNone then l.wakeFirst else (none, l)

end Lock
end Transact
