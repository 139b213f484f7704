import Transact.Error.Basic

/-! What a database knows of one connection: how far a change has come, what has been prepared, and
the failure that has not been made good. -/
namespace Transact.Database

structure Link where
  /-- A change has been asked for, whether it came to one or not. -/
  hasBegun : Bool := false
  /-- Something has been read since. -/
  isReading : Bool := false
  /-- The texts of the statements that have been prepared. -/
  prepared : List String := []
  /-- The latest failure, while nothing has succeeded since. -/
  failure : Option Error := none

namespace Link

/-- To prepare a text for the first time is a success. -/
def prepare (text : String) (l : Link) : Link :=
  if l.prepared.contains text then l else { l with prepared := text :: l.prepared, failure := none }

/-- The first change begins a transaction, which is a success. -/
def begin (l : Link) : Link := if l.hasBegun then l else { l with hasBegun := true, failure := none }

/-- Where the very first value cannot be bound, the latest failure is told again. -/
def bind (values : List (Except Error Unit)) (l : Link) : Except Error Unit × Link :=
  match values with
  | [] => (.ok (), l)
  | .error e :: _ => (.error (l.failure.getD e), l)
  | .ok () :: rest => (rest.forM id, { l with failure := none })

/-- A connection that has asked for no change does not hold what it reads. -/
def read (l : Link) : Link := { l with isReading := l.isReading || l.hasBegun }

def note {α : Type} (outcome : Except Error α) (l : Link) : Link :=
  { l with failure := match outcome with | .ok _ => none | .error e => some e }

/-- What has been prepared outlives a transaction. -/
def finish (l : Link) : Link := { prepared := l.prepared }

end Link
end Transact.Database
