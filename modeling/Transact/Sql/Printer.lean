import Transact.Sql.Identifier
import Transact.Sql.Statement

/-! The text of statements, and the parameters that go with it. -/
namespace Transact.Sql

def comma (parts : List String) : String := ", ".intercalate parts

def columnOf (t : Table) (column : String) : String := identifier t.name ++ "." ++ identifier column

namespace Condition

/-- Truth values are written out, all else is a parameter. -/
def text (t : Table) (labels : List String) (c : Condition) : String :=
  columnOf t c.column ++
    match c.value with
    | .null => " IS NULL"
    | .bool true => " = true"
    | .bool false => " = false"
    | _ => " = :" ++ comparedName labels c.column

def params (labels : List String) (c : Condition) : Entity :=
  match c.value with
  | .null | .bool _ => []
  | v => [(comparedName labels c.column, v)]

end Condition

def fromText (t : Table) (labels : List String) (condition : Option Condition) : String :=
  "\nFROM " ++ identifier t.name ++
    match condition with
    | some c => " \nWHERE " ++ c.text t labels
    | none => ""

namespace Selection

def orderText (t : Table) (s : Selection) : String :=
  match s.order with
  | some o => " ORDER BY " ++ columnOf t o.column ++ if o.spelled then " ASC" else ""
  | none => ""

/-- An offset alone needs a limit beside it that does not limit. -/
def pageText (s : Selection) : String :=
  match s.limit, s.offset with
  | none, none => ""
  | some _, none => "\n LIMIT :param_1"
  | some _, some _ => "\n LIMIT :param_1 OFFSET :param_2"
  | none, some _ => "\n LIMIT -1 OFFSET :param_1"

def pageParams (s : Selection) : Entity :=
  match s.limit, s.offset with
  | none, none => []
  | some l, none => [("param_1", .int l)]
  | some l, some o => [("param_1", .int l), ("param_2", .int o)]
  | none, some o => [("param_1", .int o)]

end Selection

namespace Statement

def labels : Statement → List String
  | count _ _ => ["count"]
  | _ => []

/-- The values to insert, in the order of the table's columns. -/
def ordered (t : Table) (values : Entity) : Entity :=
  t.columnNames.filterMap fun name => (values.lookup name).map (name, ·)

def text (s : Statement) : String :=
  match s with
  | insert t values =>
    let names := (ordered t values).map (·.1)
    "INSERT INTO " ++ identifier t.name ++ " (" ++ comma (names.map identifier) ++ ") VALUES ("
      ++ comma ((parameterNames names).map (":" ++ ·)) ++ ")"
  | select t selection =>
    "SELECT " ++ comma (t.columnNames.map (columnOf t)) ++ " " ++ fromText t s.labels selection.condition
      ++ selection.orderText t ++ selection.pageText
  | count t condition => "SELECT count(*) AS count_1 " ++ fromText t s.labels condition
  | delete t c => "DELETE FROM " ++ identifier t.name ++ " WHERE " ++ c.text t s.labels
  | verbatim sql => sql

def params (s : Statement) : Entity :=
  match s with
  | insert t values =>
    let fields := ordered t values
    (parameterNames (fields.map (·.1))).zip (fields.map (·.2))
  | select _ selection => (selection.condition.map (Condition.params s.labels)).getD [] ++ selection.pageParams
  | count _ condition => (condition.map (Condition.params s.labels)).getD []
  | delete _ c => c.params s.labels
  | verbatim _ => []

end Statement
end Transact.Sql
