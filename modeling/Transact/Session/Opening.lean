import Transact.Session.Basic

/-! Beginning a session: acquire a connection, begin on it, and hand it back if that fails. -/
namespace Transact

inductive Opening where
  | acquiring
  | beginning
  | releasing (cause : Error)
  | discarding (cause : Error)

namespace Opening

inductive Next where
  /-- Goes on with a call to the connection. -/
  | call (stage : Opening) (call : Call Empty)
  | opened
  | failed (error : Error)

def logger : String := "postgres_uow.uow.sqlalchemy_uow"

def report (level : Int) (template : String) (e : Error) : Log.Record where
  logger := logger
  level := level
  template := template
  error := some e

/-- A failure that is no ordinary error is passed on as it is, whatever was under way. -/
def settle (outcome : Except Error Unit) : Opening → List Log.Record × Next
  | acquiring =>
    match outcome with
    | .ok () => ([], .call beginning .begin)
    | .error e =>
      if e.isAcquire || !e.isOrdinary then ([], .failed e)
      else ([report 40 "Could not acquire a connection" e], .failed (.acquireFailed e))
  | beginning =>
    match outcome with
    | .ok () => ([], .opened)
    | .error e =>
      if e.isOrdinary then ([report 40 "Could not begin a transaction" e], .call (releasing e) .release)
      else ([], .failed e)
  | releasing cause =>
    match outcome with
    | .ok () => ([], .failed (.beginFailed cause))
    | .error e =>
      if e.isOrdinary then
        ([report 30 "Releasing connection after failed begin failed; discarding" e],
          .call (discarding cause) .discard)
      else ([], .failed e)
  | discarding cause =>
    match outcome with
    | .ok () => ([], .failed (.beginFailed cause))
    | .error e =>
      if e.isOrdinary then
        ([report 40 "Discarding connection after failed begin failed" e], .failed (.beginFailed cause))
      else ([], .failed e)

/-- An opening as a whole: the calls to the connection, the records, and how it ended. -/
structure Attempt where
  calls : List (Call Empty)
  records : List Log.Record
  outcome : Except Error Unit

def follow (answer : Call Empty → Except Error Unit) : Nat → Opening → Except Error Unit → Attempt
  | 0, _, outcome => ⟨[], [], outcome⟩
  | fuel + 1, stage, outcome =>
    match stage.settle outcome with
    | (records, .opened) => ⟨[], records, .ok ()⟩
    | (records, .failed e) => ⟨[], records, .error e⟩
    | (records, .call stage call) =>
      let rest := follow answer fuel stage (answer call)
      ⟨call :: rest.calls, records ++ rest.records, rest.outcome⟩

/-- Opens a session on what a source gives, when all calls answer at once; there are four at
most. -/
def attempt (acquired : Except Error Unit) (answer : Call Empty → Except Error Unit) : Attempt :=
  follow answer 4 acquiring acquired

def began (id : String) : Log.Record where
  logger := logger
  level := 10
  template := "Session %s began"
  args := [.text id]
  extra := [(Log.Record.sessionKey, .text id)]

end Opening
end Transact
