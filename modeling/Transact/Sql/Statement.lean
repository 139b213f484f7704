import Transact.Schema.Table
import Transact.Value.Basic

/-! Statements on one table. -/
namespace Transact

abbrev Entity := List (String × Value)

namespace Sql

/-- A column equals a value; null is found by being null. -/
structure Condition where
  column : String
  value : Value
deriving Repr

/-- Ascending either way; the direction may be spelled out. -/
structure Order where
  column : String
  spelled : Bool := false
deriving DecidableEq, Repr

structure Selection where
  condition : Option Condition := none
  order : Option Order := none
  limit : Option Int := none
  offset : Option Int := none
deriving Repr

inductive Statement where
  | insert (table : Table) (values : Entity)
  | select (table : Table) (selection : Selection)
  | count (table : Table) (condition : Option Condition)
  | delete (table : Table) (condition : Condition)
  | verbatim (sql : String)
deriving Repr

def Statement.isChange : Statement → Bool
  | .insert _ _ | .delete _ _ => true
  | .select _ _ | .count _ _ | .verbatim _ => false

/-- What is inserted that the table has no column for. -/
def Statement.unknownColumns : Statement → List String
  | .insert t values => (values.map (·.1)).filter fun name => !t.columnNames.contains name
  | _ => []

end Sql
end Transact
