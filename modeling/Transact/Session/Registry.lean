import Transact.Log.Record

/-! Observers of a transaction's end, in order of registration, and the round of hook calls. -/
namespace Transact

inductive Hook where
  | onCommit
  | onRollback
deriving DecidableEq, Repr

namespace Hook

def name : Hook → String
  | onCommit => "on_commit"
  | onRollback => "on_rollback"

def ofName? : String → Option Hook
  | "on_commit" => some onCommit
  | "on_rollback" => some onRollback
  | _ => none

@[simp] theorem ofName?_name (h : Hook) : ofName? h.name = some h := by cases h <;> rfl

end Hook

structure Observer where
  key : Nat
  name : String
  className : String
deriving DecidableEq, Repr

/-- Something offered for registration; an observer if both hooks can be called. -/
structure Component where
  typeName : String
  observer : Option Observer
deriving DecidableEq, Repr

/-- One that is registered twice is called twice. -/
structure Registry where
  observers : List Observer := []
deriving DecidableEq, Repr

namespace Registry

def size (r : Registry) : Nat := r.observers.length

def register (c : Component) (r : Registry) : Except Error Registry :=
  match c.observer with
  | some o => .ok ⟨r.observers ++ [o]⟩
  | none => .error (.notAnObserver c.typeName)

end Registry

/-- A round of hooks: `current` has been called and has not answered yet. -/
structure Round where
  hook : Hook
  current : Observer
  waiting : List Observer
  failures : Notification

namespace Round

inductive Next where
  | call (round : Round)
  | ended (failures : Option Notification)
  | aborted (error : Error)

def next (hook : Hook) (failures : Notification) : List Observer → Next
  | [] => .ended (if failures.isEmpty then none else some failures)
  | o :: rest => .call ⟨hook, o, rest, failures⟩

/-- The observers are those registered now; later ones are not called. -/
def start (hook : Hook) (r : Registry) : Next := next hook [] r.observers

def warning (r : Round) (e : Error) : Log.Record where
  logger := "postgres_uow.uow.observers"
  level := 30
  template := "Observer hook failed: %s.%s"
  args := [.text r.current.className, .text r.hook.name]
  error := some e
  extra := [("observer", .text r.current.className), ("hook", .text r.hook.name)]

def failure (r : Round) (e : Error) : HookFailure :=
  .mk r.current.name r.current.className r.hook.name e

/-- A failing hook is noted and the round goes on; what is no ordinary error ends it. -/
def settle (r : Round) : Except Error Unit → List Log.Record × Next
  | .ok () => ([], next r.hook r.failures r.waiting)
  | .error e =>
    if e.isOrdinary then ([r.warning e], next r.hook (r.failures ++ [r.failure e]) r.waiting)
    else ([], .aborted e)

end Round
end Transact
