import Transact.Value.Basic
import Transact.Decimal.Notation

/-! Values as text: the plain form, and the literal form in which text is quoted. -/
namespace Transact.Value

def boolText (b : Bool) : String := if b then "True" else "False"

mutual
def literal : Value → String
  | null => "None"
  | bool b => boolText b
  | int n => toString n
  | float x => x.text
  | text s => Text.quoted s
  | bytes b => Text.quotedBytes b
  | uuid u => "UUID('" ++ u.text ++ "')"
  | phase p => "<TransactionState." ++ p.constantName ++ ": '" ++ p.name ++ "'>"
  | list vs => "[" ++ literals vs ++ "]"
  | object fields => "\x7b" ++ fieldLiterals fields ++ "\x7d"

def literals : List Value → String
  | [] => ""
  | [v] => literal v
  | v :: vs => literal v ++ ", " ++ literals vs

def fieldLiterals : List (String × Value) → String
  | [] => ""
  | [(k, v)] => Text.quoted k ++ ": " ++ literal v
  | (k, v) :: fields => Text.quoted k ++ ": " ++ literal v ++ ", " ++ fieldLiterals fields
end

/-- The plain form shows text as it is. -/
def plain : Value → String
  | text s => s
  | uuid u => u.text
  | phase p => "TransactionState." ++ p.constantName
  | v => literal v

def tupleLiteral : List Value → String
  | [v] => "(" ++ literal v ++ ",)"
  | vs => "(" ++ literals vs ++ ")"

end Transact.Value
