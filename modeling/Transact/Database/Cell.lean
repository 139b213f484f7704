import Transact.Database.Numeral
import Transact.Decimal.Significant
import Transact.Schema.Table
import Transact.Sql.Statement

/-! The cells of a table: how a column keeps a value, when a cell matches one, and how cells are
ordered. -/
namespace Transact.Database

def cell (row : Entity) (column : String) : Value := (row.lookup column).getD .null

/-- What is bound for a value: a number for a truth value, its name for a phase, null for what is
not a number. -/
def bound : Value → Value
  | .bool b => .int (if b then 1 else 0)
  | .phase p => .text p.name
  | .float x => if x.isNaN then .null else .float x
  | v => v

/-- A column of text keeps numbers as text, floats with fifteen digits; one of integers keeps a
text that is a number as that number. -/
def kept (kind : ColumnKind) (v : Value) : Value :=
  match kind, bound v with
  | .text, .int n => .text (toString n)
  | .text, .float x => .text (x.rounded 15)
  | .integer, .float x => integral x
  | .integer, .text s => ((Numeral.read? s).map (·.value)).getD (.text s)
  | _, v => v

/-- A cell is compared with what its column would keep, an identifier in a column of text with its
digits. Nothing equals null. -/
def matched (kind : ColumnKind) (cell v : Value) : Bool :=
  match kind, v with
  | .text, .uuid u => cell == .text u.hexText
  | _, v =>
    match kept kind v with
    | .null => false
    | v => cell == v

/-- Null, numbers, texts and bytes, in this order. -/
def rank : Value → Nat
  | .null => 0
  | .bytes _ => 3
  | .text _ | .uuid _ => 2
  | _ => 1

/-- Identifiers by their digits, texts by code points. -/
def atMost : Value → Value → Bool
  | .uuid a, .uuid b => a.code ≤ b.code
  | .text a, .text b => !decide (b < a)
  | .bytes a, .bytes b => !decide (b < a)
  | .int a, .int b => a ≤ b
  | a, b => rank a ≤ rank b

end Transact.Database
