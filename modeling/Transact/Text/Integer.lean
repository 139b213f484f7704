import Transact.Text.Blank
import Transact.Text.Digit
import Transact.Text.Quoted

/-! Integers as people type them: white space around, one sign, decimal digits of any script with
single underscores between them, at most 4300 digits. -/
namespace Transact.Text.Integer

def maxDigits : Nat := 4300

inductive Error where
  | malformed (literal : String)
  | tooLong (digits : Nat)
deriving DecidableEq, Repr

/-- At most 200 characters of a literal form are shown. -/
def shown (literal : String) : String := String.ofList (literal.toList.take 200)

def Error.message : Error → String
  | .malformed literal => "invalid literal for int() with base 10: " ++ shown literal
  | .tooLong digits =>
    "Exceeds the limit (" ++ toString maxDigits ++ " digits) for integer string conversion: value has "
      ++ toString digits ++ " digits; use sys.set_int_max_str_digits() to increase the limit"

def digits? : List Char → Option (List Nat)
  | [] => none
  | [c] => (digit? c).map ([·])
  | c :: '_' :: rest => do return (← digit? c) :: (← digits? rest)
  | c :: rest => do return (← digit? c) :: (← digits? rest)

def value (digits : List Nat) : Nat := digits.foldl (fun n d => 10 * n + d) 0

def unsign : List Char → Bool × List Char
  | '-' :: rest => (true, rest)
  | '+' :: rest => (false, rest)
  | rest => (false, rest)

def signed (negative : Bool) (n : Nat) : Int := if negative then -(n : Int) else n

def isNumeralChar (c : Char) : Bool := (digit? c).isSome || c == '_'

/-- A numeral that is too long is refused before what follows it is looked at. What is no numeral is
told by its literal form. -/
def readAs (literal : String) (cs : List Char) : Except Error Int :=
  let (negative, rest) := unsign (cs.dropWhile isSpace)
  match digits? (rest.takeWhile isNumeralChar) with
  | none => .error (.malformed literal)
  | some ds =>
    if maxDigits < ds.length then .error (.tooLong ds.length)
    else if (rest.dropWhile isNumeralChar).all isSpace then .ok (signed negative (value ds))
    else .error (.malformed literal)

def read (text : String) : Except Error Int := readAs (quoted text) text.toList

/-- Bytes beyond ASCII are no part of a numeral. -/
def readBytes (bytes : List UInt8) : Except Error Int :=
  readAs (quotedBytes bytes) (bytes.map fun b => if b < 0x80 then Char.ofNat b.toNat else '\uFFFD')

end Transact.Text.Integer
