import Transact.Database.Cell
import Transact.Error.Basic
import Transact.Sql.Printer

/-! Values on their way into a statement: which of them a column takes, and which can be bound. -/
namespace Transact.Database

/-- A column of identifiers takes nothing else. -/
def checkKept (kind : ColumnKind) (v : Value) : Except Error Unit :=
  match kind, v with
  | .uuid, .null | .uuid, .uuid _ | .uuid, .float _ | .uuid, .bytes _ => .ok ()
  | .uuid, v => .error (.notAUuid v.typeName)
  | _, _ => .ok ()

/-- A text is taken for an identifier where the column holds identifiers, and so is what no column
could hold; both fail to be one. A number merely differs from all of them. -/
def checkCompared (kind : ColumnKind) (v : Value) : Except Error Unit :=
  match kind, v with
  | .uuid, .text _ | .uuid, .phase _ | .uuid, .list _ | .uuid, .object _ => .error (.notAUuid v.typeName)
  | _, _ => .ok ()

/-- Binds a value at a position, whatever the column. -/
def bind (position : Nat) : Value → Except Error Unit
  | .int n => if fits n then .ok () else .error .integerTooLarge
  | .null | .bool _ | .float _ | .text _ | .bytes _ | .phase _ => .ok ()
  | v => .error (.unsupported position v.typeName)

/-- Binds a value that a column is to keep; identifiers are bound as text. -/
def bindKept (position : Nat) (kind : ColumnKind) (v : Value) : Except Error Unit :=
  match kind, v with
  | .uuid, .uuid _ => .ok ()
  | .uuid, .float _ | .uuid, .bytes _ => .error (.unsupported position "builtin_function_or_method")
  | _, v => bind position v

def bindCompared (v : Value) : Except Error Unit :=
  match v with
  | .uuid _ => .ok ()
  | v => bind 1 v

def checkStatement : Sql.Statement → Except Error Unit
  | .insert t values => t.columns.forM fun c => checkKept c.kind (cell values c.name)
  | .select t s => s.condition.forM (checkCondition t)
  | .count t condition => condition.forM (checkCondition t)
  | .delete t c => checkCondition t c
  | .verbatim _ => .ok ()
where
  checkCondition (t : Table) (c : Sql.Condition) : Except Error Unit := checkCompared (t.kindOf c.column) c.value

/-- A page has both bounds, whichever is given. -/
def isPaged (s : Sql.Selection) : Bool := s.limit.isSome || s.offset.isSome

/-- The values in order, each with what comes of binding it. -/
def bindings : Sql.Statement → List (Except Error Unit)
  | .insert t values => (t.columns.zipIdx 1).map fun (c, i) => bindKept i c.kind (cell values c.name)
  | .select _ s =>
    let page := if isPaged s then [s.limit.getD (-1), s.offset.getD 0] else []
    conditions s.condition ++ page.map fun n => bind 1 (.int n)
  | .count _ condition => conditions condition
  | .delete _ c => conditions (some c)
  | .verbatim _ => []
where
  /-- Null and truth values are no values of a statement, but part of its text. -/
  conditions (condition : Option Sql.Condition) : List (Except Error Unit) :=
    match condition with
    | none | some ⟨_, .null⟩ | some ⟨_, .bool _⟩ => []
    | some c => [bindCompared c.value]

/-- The text under which a statement is prepared, the same for all pages. -/
def preparedText : Sql.Statement → String
  | .select t s =>
    (Sql.Statement.select t (if isPaged s then { s with limit := some 0, offset := some 0 } else s)).text
  | s => s.text

end Transact.Database
