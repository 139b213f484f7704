import Transact.Schema.Table

/-! The names that constraints and indexes of tables are given. -/
namespace Transact

inductive ConstraintKind where
  | check
  | foreignKey
  | primaryKey
  | unique
  | index
deriving DecidableEq, Repr

def ConstraintKind.name : ConstraintKind → String
  | check => "CheckConstraint"
  | foreignKey => "ForeignKeyConstraint"
  | primaryKey => "PrimaryKeyConstraint"
  | unique => "UniqueConstraint"
  | index => "Index"

inductive NamingError where
  | unnamedCheck
  | tableTaken (table : String)
  | blankColumn
  | columnTaken (table column : String)
  | unknownColumn (table column : String)
  /-- A target has no table, or too many parts. -/
  | shortTarget
  | longTarget
deriving DecidableEq, Repr

def NamingError.message : NamingError → String
  | .unnamedCheck => "Naming convention including %(constraint_name)s token requires that constraint is explicitly named."
  | .tableTaken table =>
    "Table '" ++ table ++ "' is already defined for this MetaData instance.  Specify 'extend_existing=True' "
      ++ "to redefine options and columns on an existing Table object."
  | .blankColumn =>
    "Column must be constructed with a non-blank name or assign a non-blank .name before adding to a Table."
  | .columnTaken table column =>
    "A column with name '" ++ column ++ "' is already present in table '" ++ table ++ "'."
  | .unknownColumn table column =>
    "Can't create UniqueConstraint on table '" ++ table ++ "': no column named '" ++ column ++ "' is present."
  | .shortTarget => "not enough values to unpack (expected 2, got 1)"
  | .longTarget => "too many values to unpack (expected 2)"

namespace Table

def primaryKeyName (t : Table) : String := "pk_" ++ t.name
def checkName (t : Table) (check : String) : String := "ck_" ++ t.name ++ "_" ++ check
def uniqueName (t : Table) (column : String) : String := "uq_" ++ t.name ++ "_" ++ column
def indexName (t : Table) (column : String) : String := "ix_" ++ t.name ++ "_" ++ column

def foreignKeyName (t : Table) (column referred : String) : String :=
  "fk_" ++ t.name ++ "_" ++ column ++ "_" ++ referred

/-- A column has a name of its own, and what it refers to is in a table. -/
def checkColumn (t : Table) (earlier : List String) (c : Column) : Except NamingError Unit :=
  if c.name.isEmpty then .error .blankColumn
  else if earlier.contains c.name then .error (.columnTaken t.name c.name)
  else match c.target, c.refersTo with
    | some target, none => .error (if (target.splitOn ".").length < 2 then .shortTarget else .longTarget)
    | _, _ => .ok ()

def checkColumns (t : Table) : Except NamingError Unit :=
  t.columns.zipIdx.forM fun (c, place) => t.checkColumn (t.columnNames.take place) c

def checkUniques (t : Table) : Except NamingError Unit :=
  t.uniques.flatten.forM fun column =>
    if t.columnNames.contains column then .ok () else .error (.unknownColumn t.name column)

def checkNames (t : Table) : Except NamingError (List String) :=
  t.checks.mapM fun
    | some name => .ok (t.checkName name)
    | none => .error .unnamedCheck

/-- Columns first, then checks, then what is unique together. -/
def check (t : Table) : Except NamingError Unit := do
  t.checkColumns
  let _ ← t.checkNames
  t.checkUniques

def foreignKeyNames (t : Table) : List String :=
  t.columns.filterMap fun c => c.refersTo.map (t.foreignKeyName c.name)

/-- A unique column that is indexed has a unique index and no constraint of its own. -/
def uniqueNames (t : Table) : List String :=
  ((t.columns.filter fun c => c.unique && !c.index).map fun c => t.uniqueName c.name)
    ++ t.uniques.map fun columns => t.uniqueName (columns.headD "")

def indexNames (t : Table) : List String := (t.columns.filter (·.index)).map fun c => t.indexName c.name

def sorted (names : List String) : List String := names.mergeSort fun a b => !decide (b < a)

/-- Every name of the table: kinds in alphabetical order, indexes last, names ascending. -/
def constraintNames (t : Table) : Except NamingError (List (ConstraintKind × String)) := do
  let checks ← t.checkNames
  let tag (kind : ConstraintKind) (names : List String) := (sorted names).map (kind, ·)
  return tag .check checks ++ tag .foreignKey t.foreignKeyNames ++ [(.primaryKey, t.primaryKeyName)]
    ++ tag .unique t.uniqueNames ++ tag .index t.indexNames

end Table

namespace Schema

/-- A table that is declared a second time must not say anything new. -/
def declare (known : List Table) (t : Table) : Except NamingError (List Table) :=
  if known.any (·.name == t.name) then
    if t.isBare then .ok known else .error (.tableTaken t.name)
  else do
    t.check
    return known ++ [t]

def declareAll (tables : List Table) : Except NamingError (List Table) := tables.foldlM declare []

end Schema
end Transact
