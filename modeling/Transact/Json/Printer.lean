import Transact.Text.Points
import Transact.Value.Text

/-! Values as JSON text of printable ASCII: everything else is escaped by its UTF-16 units.
What JSON has no form for is written as its plain text. -/
namespace Transact.Json

def unitEscape (n : Nat) : List Char := '\\' :: 'u' :: Text.hex 4 n

def escapePoint (n : Nat) : List Char :=
  if n = 0x22 ∨ n = 0x5C then ['\\', Char.ofNat n]
  else if 0x20 ≤ n ∧ n < 0x7F then [Char.ofNat n]
  else if n = 0x0A then ['\\', 'n']
  else if n = 0x0D then ['\\', 'r']
  else if n = 0x09 then ['\\', 't']
  else if n = 0x08 then ['\\', 'b']
  else if n = 0x0C then ['\\', 'f']
  else if n < 0x10000 then unitEscape n
  else unitEscape (0xD800 + (n - 0x10000) / 0x400) ++ unitEscape (0xDC00 + (n - 0x10000) % 0x400)

/-- A surrogate is written like any other unit. -/
def quotedPoints (ps : Text.Points) : List Char := '"' :: ps.flatMap escapePoint ++ ['"']

def string (s : String) : List Char := quotedPoints (Text.points s)

def number (x : Double) : List Char :=
  if x.isNaN then "NaN".toList
  else if x.isFinite then x.text.toList
  else (Double.signText x.negative ++ "Infinity").toList

mutual
def print : Value → List Char
  | .null => "null".toList
  | .bool b => if b then "true".toList else "false".toList
  | .int n => (toString n).toList
  | .float x => number x
  | .text s => string s
  | .bytes b => string (Text.quotedBytes b)
  | .uuid u => string u.text
  | .phase p => string p.name
  | .list vs => '[' :: printList vs ++ [']']
  | .object fields => '{' :: printFields fields ++ ['}']

def printList : List Value → List Char
  | [] => []
  | [v] => print v
  | v :: vs => print v ++ ',' :: ' ' :: printList vs

def printFields : List (String × Value) → List Char
  | [] => []
  | [(k, v)] => string k ++ ':' :: ' ' :: print v
  | (k, v) :: fields => string k ++ ':' :: ' ' :: print v ++ ',' :: ' ' :: printFields fields
end

def render (v : Value) : String := String.ofList (print v)

end Transact.Json
