/-! Tables and their columns. -/
namespace Transact

inductive ColumnKind where
  | integer
  | text
  | uuid
deriving DecidableEq, Repr

structure Column where
  name : String
  kind : ColumnKind := .integer
  primaryKey : Bool := false
  /-- The column that this one refers to, as `table.column` or `schema.table.column`. -/
  target : Option String := none
  unique : Bool := false
  index : Bool := false
deriving DecidableEq, Repr

def Column.refersTo (c : Column) : Option String :=
  c.target.bind fun target =>
    match target.splitOn "." with
    | [table, _] | [_, table, _] => some table
    | _ => none

structure Table where
  name : String
  columns : List Column
  checks : List (Option String) := []
  /-- Column lists that are unique together. -/
  uniques : List (List String) := []
deriving DecidableEq, Repr

namespace Table

def columnNames (t : Table) : List String := t.columns.map (·.name)

/-- A column that is not declared is one of integers. -/
def kindOf (t : Table) (column : String) : ColumnKind :=
  ((t.columns.find? (·.name == column)).map (·.kind)).getD .integer

def isBare (t : Table) : Bool := t.columns.isEmpty && t.checks.isEmpty && t.uniques.isEmpty

/-- The primary key, where it is one column. -/
def keyColumn? (t : Table) : Option Column :=
  match t.columns.filter (·.primaryKey) with
  | [c] => some c
  | _ => none

end Table
end Transact
