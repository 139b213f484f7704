import Transact.Database.Cell
import Transact.Error.Basic

/-! The content of a database: rows, what is read of them, and what becomes of them when one is
inserted or some are deleted. -/
namespace Transact

/-- The rows of each table, in order of insertion. -/
abbrev Content := String → List Entity

namespace Database

def integrity (message : String) : Error :=
  .rejected .integrity "sqlite3.IntegrityError" message none none

def missing (t : Table) (c : Column) : Error := integrity ("NOT NULL constraint failed: " ++ t.name ++ "." ++ c.name)

def taken (t : Table) (c : Column) : Error := integrity ("UNIQUE constraint failed: " ++ t.name ++ "." ++ c.name)

/-! Reading -/

/-- Nothing equals null; a condition on null asks for cells without a value. -/
def holds (t : Table) (c : Sql.Condition) (row : Entity) : Bool :=
  match c.value with
  | .null => cell row c.column == .null
  | v => matched (t.kindOf c.column) (cell row c.column) v

def filtered (t : Table) (condition : Option Sql.Condition) (rows : List Entity) : List Entity :=
  match condition with
  | some c => rows.filter (holds t c)
  | none => rows

/-- Rows that are equal in the column keep their order. -/
def ordered (order : Option Sql.Order) (rows : List Entity) : List Entity :=
  match order with
  | some o => rows.mergeSort fun a b => atMost (cell a o.column) (cell b o.column)
  | none => rows

/-- A negative limit is none, a negative offset is zero. -/
def paged (limit offset : Option Int) (rows : List Entity) : List Entity :=
  let rows := rows.drop (offset.getD 0).toNat
  match limit with
  | some l => if l < 0 then rows else rows.take l.toNat
  | none => rows

def selected (t : Table) (s : Sql.Selection) (content : Content) : List Entity :=
  paged s.limit s.offset (ordered s.order (filtered t s.condition (content t.name)))

/-! Writing -/

def set (content : Content) (name : String) (rows : List Entity) : Content :=
  fun other => if other = name then rows else content other

def keptRow (t : Table) (values : Entity) : Entity :=
  t.columns.map fun c => (c.name, kept c.kind (cell values c.name))

def checkComplete (t : Table) (row : Entity) : Except Error Unit :=
  t.columns.forM fun c => if cell row c.name == .null then .error (missing t c) else .ok ()

/-- Columns that are unique of their own first, then the key. -/
def uniqueColumns (t : Table) : List Column := t.columns.filter (·.unique) ++ t.columns.filter (·.primaryKey)

def checkUnique (t : Table) (row : Entity) (rows : List Entity) : Except Error Unit :=
  (uniqueColumns t).forM fun c =>
    if rows.any fun other => cell other c.name == cell row c.name then .error (taken t c) else .ok ()

def insert (t : Table) (values : Entity) (content : Content) : Except Error Content := do
  let row := keptRow t values
  checkComplete t row
  checkUnique t row (content t.name)
  return set content t.name (content t.name ++ [row])

def delete (t : Table) (c : Sql.Condition) (content : Content) : Nat × Content :=
  let rest := (content t.name).filter fun row => !holds t c row
  ((content t.name).length - rest.length, set content t.name rest)

end Database
end Transact
