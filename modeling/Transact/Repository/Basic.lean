import Transact.Session.Registry
import Transact.Sql.Result

/-! Repositories: the entities of one table, read and written through a session. What a
repository has written is staged until the outcome of the transaction is known. -/
namespace Transact

inductive Mapping where
  | fields (names : List String)
  | whole
  | absent
deriving DecidableEq, Repr

namespace Mapping

/-- From a row to an entity. The fields of an entity make a row as well. -/
def convert : Mapping → Sql.Row → Except Error Entity
  | fields names, row => row.pick names
  | whole, row => row.toEntity
  | absent, _ => .error .notMapped

end Mapping

/-- How an entity is made: its class, and the fields that cannot be left out. Without an identifier
it is given a fresh one. -/
structure Maker where
  className : String
  required : List String
deriving Repr

namespace Maker

def callee (m : Maker) : String := m.className ++ ".__init__"

/-- The first field that is none of the entity's is refused before a missing one. -/
def checkField (m : Maker) (field : String) : Except Error Unit :=
  if field = "self" then .error (.repeatedArgument m.callee field)
  else if field = "id" || m.required.contains field then .ok ()
  else .error (.unexpectedArgument m.callee field)

def make (m : Maker) (fresh : Uuid) (given : Entity) : Except Error Entity := do
  given.forM fun (field, _) => m.checkField field
  match m.required.filter fun field => (given.lookup field).isNone with
  | [] => return if (given.lookup "id").isSome then given else given ++ [("id", .uuid fresh)]
  | missing => throw (.missingArguments m.callee missing)

end Maker

structure Repository where
  className : String
  table : Table
  mapping : Mapping
  /-- Without one, entities are what they are given as. -/
  maker : Option Maker := none
  /-- Written in the transaction that is still open. -/
  staged : List Entity := []
  committedEntities : List Entity := []
  committed : Bool := false
  rolledBack : Bool := false
deriving Repr

inductive Operation where
  | add (entity : Entity)
  | get (key : Value)
  | exists (key : Value)
  | list (limit offset : Value)
  | count
  | delete (key : Value)
  /-- The first entity with that value in a column. -/
  | find (column : String) (value : Value)
  /-- All entities with that value in a column, ordered by another. -/
  | findAll (column : String) (value : Value) (order : String)

inductive Repository.Reply where
  | added
  | entity (found : Option Entity)
  | entities (all : List Entity)
  | truth (b : Bool)
  | size (n : Int)

namespace Repository

def key (r : Repository) : Except Error String :=
  match r.table.keyColumn? with
  | some c => .ok c.name
  | none => .error (.keyNotSingle r.className r.table.name)

def bound : Value → Except Error (Option Int)
  | .null => .ok none
  | v => (v.toInt.map some).mapError .notAnInteger

/-- An operation, with the entity that is made of the fields given. -/
def made (r : Repository) (fresh : Uuid) : Operation → Except Error Operation
  | .add given =>
    match r.maker with
    | some m => (m.make fresh given).map .add
    | none => .ok (.add given)
  | operation => .ok operation

/-- A column's value is given under the column's name, which must not be taken. -/
def checkNames (values : Entity) : Except Error Unit :=
  if (values.lookup "self").isSome then .error (.repeatedArgument "ValuesBase.values" "self") else .ok ()

def statement (r : Repository) : Operation → Except Error Sql.Statement
  | .add entity => do
    let values ← r.mapping.convert (.ofEntity entity)
    checkNames values
    return .insert r.table values
  | .get key => return .select r.table { condition := some ⟨← r.key, key⟩ }
  | .exists key => return .count r.table (some ⟨← r.key, key⟩)
  | .list limit offset => do
    let order : Sql.Order := { column := ← r.key, spelled := true }
    return .select r.table { order := some order, limit := ← bound limit, offset := ← bound offset }
  | .count => .ok (.count r.table none)
  | .delete key => return .delete r.table ⟨← r.key, key⟩
  | .find column value => .ok (.select r.table { condition := some ⟨column, value⟩ })
  | .findAll column value order =>
    .ok (.select r.table { condition := some ⟨column, value⟩, order := some { column := order } })

def reply (r : Repository) (result : Sql.Result) : Operation → Except Error Reply
  | .add _ => .ok .added
  | .get _ | .find _ _ => return .entity (← result.rows.head?.mapM r.mapping.convert)
  | .exists _ => return .truth (← result.scalar).holds
  | .list _ _ | .findAll _ _ _ => return .entities (← result.rows.mapM r.mapping.convert)
  | .count => do return .size (← (← (← result.one).cellAt 0).toInt.mapError .notAnInteger)
  | .delete _ => .ok (.truth result.rowCount.holds)

/-- Errors of the store are told with the table's name; all others pass as they are. -/
def told (r : Repository) (e : Error) : Error := if e.isStore then .queryFailed r.table.name e else e

/-- What an operation answers, from what its statement answered. -/
def answer (r : Repository) (operation : Operation) : Except Error Sql.Result → Except Error Reply
  | .ok result => r.reply result operation
  | .error e => .error (r.told e)

/-- An entity is staged when the store has taken it. -/
def settle (r : Repository) (operation : Operation) : Except Error Sql.Result → Repository
  | .ok _ =>
    match operation with
    | .add entity => { r with staged := r.staged ++ [entity] }
    | _ => r
  | .error _ => r

def notify (r : Repository) : Hook → Repository
  | .onCommit => { r with committedEntities := r.committedEntities ++ r.staged, staged := [], committed := true }
  | .onRollback => { r with staged := [], rolledBack := true }

end Repository
end Transact
