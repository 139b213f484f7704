import Transact.Database.Binding
import Transact.Database.Content
import Transact.Database.Link
import Transact.Session.Basic
import Transact.Sql.Result

/-! A database with one writer at a time. Until it ends, a connection that has written sees a
content of its own; all others see what was committed last. A connection that reads on its way to a
change holds what it has read, and no writer commits while another connection does so. -/
namespace Transact

structure Database where
  schema : List Table
  /-- References between tables are checked, when a transaction commits. -/
  checksReferences : Bool := false
  committed : Content := fun _ => []
  /-- The connection that has written, and what it sees. -/
  writer : Option (Nat × Content) := none
  links : List (Nat × Database.Link) := []

namespace Database

def operational (message : String) : Error :=
  .rejected .operational "sqlite3.OperationalError" message none none

def locked : Error := operational "database is locked"

def dangling : Error := integrity "FOREIGN KEY constraint failed"

def view (d : Database) (connection : Nat) : Content :=
  match d.writer with
  | some (w, content) => if w = connection then content else d.committed
  | none => d.committed

/-- Only one connection writes; it goes on writing until it ends. -/
def canWrite (d : Database) (connection : Nat) : Bool :=
  match d.writer with
  | some (w, _) => w == connection
  | none => true

def link (d : Database) (connection : Nat) : Link := (d.links.lookup connection).getD {}

def setLink (d : Database) (connection : Nat) (l : Link) : Database :=
  { d with links := (connection, l) :: d.links.filter (·.1 != connection) }

def isHeld (d : Database) (connection : Nat) : Bool :=
  d.links.any fun (other, l) => other != connection && l.isReading

def finish (d : Database) (connection : Nat) : Database :=
  { d.setLink connection (d.link connection).finish with writer := d.writer.filter (·.1 != connection) }

/-- A connection that has reached for a change is the writer, whether the change is made or not. -/
def write (d : Database) (connection : Nat) (change : Content → Except Error (Nat × Content)) :
    Except Error Sql.Result × Database :=
  if d.canWrite connection then
    match change (d.view connection) with
    | .ok (count, content) => (.ok { rowCount := .int count }, { d with writer := some (connection, content) })
    | .error e => (.error e, { d with writer := some (connection, d.view connection) })
  else (.error locked, d)

def syntaxError (sql : String) : Error :=
  operational ("near \"" ++ String.ofList (sql.toList.takeWhile (· != ' ')) ++ "\": syntax error")

def perform (d : Database) (connection : Nat) : Sql.Statement → Except Error Sql.Result × Database
  | .insert t values => d.write connection fun content => do return (1, ← insert t values content)
  | .delete t c => d.write connection fun content => .ok (delete t c content)
  | .select t selection =>
    (.ok { rows := (selected t selection (d.view connection)).map .ofEntity }, reading d connection)
  | .count t condition =>
    let n := (filtered t condition (d.view connection t.name)).length
    (.ok { rows := [⟨["count_1"], [.int n]⟩] }, reading d connection)
  | .verbatim sql =>
    (if sql = "SELECT 1" then .ok { rows := [⟨["1"], [.int 1]⟩] } else .error (syntaxError sql), d)
where
  reading (d : Database) (connection : Nat) : Database := d.setLink connection (d.link connection).read

/-- A value of the wrong kind stops a statement before it reaches the database, one that cannot be
bound when a transaction has begun. -/
def execute (d : Database) (connection : Nat) (s : Sql.Statement) : Except Error Sql.Result × Database :=
  match checkStatement s with
  | .error e => (.error e, d)
  | .ok () =>
    let l := (d.link connection).prepare (preparedText s)
    let (bound, l) := (if s.isChange then l.begin else l).bind (bindings s)
    let d := d.setLink connection l
    match bound with
    | .error e => (.error e, d)
    | .ok () =>
      let (outcome, d) := d.perform connection s
      (outcome, d.setLink connection ((d.link connection).note outcome))

/-- Every reference of a row leads to a row of the table referred to. -/
def rowRefers (d : Database) (content : Content) (t : Table) (row : Entity) : Bool :=
  t.columns.all fun c =>
    match c.refersTo with
    | none => true
    | some name =>
      d.schema.any fun other => other.name == name &&
        match other.keyColumn? with
        | some key => (content name).any fun r => cell r key.name == cell row c.name
        | none => false

def refers (d : Database) (content : Content) : Bool :=
  d.schema.all fun t => (content t.name).all (d.rowRefers content t)

/-- The references of a writer are checked first. -/
def commit (d : Database) (connection : Nat) : Except Error Sql.Result × Database :=
  match d.writer with
  | some (w, content) =>
    if w = connection then
      if d.checksReferences && !d.refers content then (.error dangling, d)
      else if d.isHeld connection then (.error locked, d)
      else (.ok {}, { d.finish connection with committed := content })
    else (.ok {}, d.finish connection)
  | none => (.ok {}, d.finish connection)

/-- A connection that is handed back loses what it has not committed. -/
def call (connection : Nat) (call : Call Sql.Statement) (d : Database) : Except Error Sql.Result × Database :=
  match call with
  | .begin => (.ok {}, d)
  | .execute s => d.execute connection s
  | .commit => d.commit connection
  | .rollback | .release | .discard => (.ok {}, d.finish connection)

end Database
end Transact
