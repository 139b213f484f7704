import Transact.Error.Basic
import Transact.Sql.Statement

/-! What a store answers to a statement: rows in order, and how many of them a change concerned. -/
namespace Transact.Sql

/-- Cells in order, and the names of the places. There may be more of the one than of the other. -/
structure Row where
  keys : List String
  cells : List Value
deriving Repr

namespace Row

def ofEntity (e : Entity) : Row := ⟨e.map (·.1), e.map (·.2)⟩

def cellAt (row : Row) (place : Nat) : Except Error Value :=
  match row.cells[place]? with
  | some v => .ok v
  | none => .error .noCell

/-- Of places with the same name the last counts. -/
def place? (row : Row) (key : String) : Option Nat := (row.keys.zipIdx.reverse.lookup key)

def cell (row : Row) (key : String) : Except Error Value :=
  match row.place? key with
  | some place => row.cellAt place
  | none => .error (.missingColumn key)

def pick (row : Row) (names : List String) : Except Error Entity :=
  names.mapM fun name => return (name, ← row.cell name)

/-- Each name once, with its cell. -/
def toEntity (row : Row) : Except Error Entity := row.pick row.keys.eraseDups

end Row

/-- What was found, or the count of what was changed. A store may put anything for the count. -/
structure Result where
  rows : List Row := []
  rowCount : Value := .int 0
deriving Repr

namespace Result

/-- The first cell of the first row, if there is a row. -/
def scalar (r : Result) : Except Error Value :=
  match r.rows with
  | row :: _ => row.cellAt 0
  | [] => .ok .null

def one (r : Result) : Except Error Row :=
  match r.rows with
  | [] => .error .noRow
  | [row] => .ok row
  | _ => .error .manyRows

end Result
end Transact.Sql
