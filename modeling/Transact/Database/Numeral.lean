import Transact.Text.Blank
import Transact.Text.Integer
import Transact.Value.Basic

/-! Numbers in text, as a column of integers finds them: blanks around, a sign, digits on one side
of the point at least, an exponent. All of it is ASCII. -/
namespace Transact.Database

/-- The integers of 64 bits. -/
def fits (n : Int) : Bool := -(Nat.pow 2 63 : Int) ≤ n && n < Nat.pow 2 63

/-- A float without a fraction is kept as an integer, if its magnitude is below 2^63. -/
def integral (x : Double) : Value :=
  match x.truncate? with
  | some n => if x.isIntegral && n.natAbs < Nat.pow 2 63 then .int n else .float x
  | none => .float x

/-- `digits * 10 ^ exp` -/
structure Numeral where
  negative : Bool
  digits : Nat
  exp : Int
  /-- Neither a point nor an exponent is written. -/
  isWhole : Bool
deriving DecidableEq, Repr

namespace Numeral

open Text.Integer (unsign signed)

def isBlank (c : Char) : Bool := c == ' ' || ('\t' ≤ c && c ≤ '\r')

def number (cs : List Char) : Nat := Text.Integer.value (cs.filterMap Text.digit?)

def exponent? : List Char → Option Int
  | [] => some 0
  | c :: rest =>
    let (negative, ds) := unsign rest
    if (c == 'e' || c == 'E') && !ds.isEmpty && ds.all Char.isDigit then some (signed negative (number ds))
    else none

def places : List Char → List Char × List Char
  | '.' :: rest => rest.span Char.isDigit
  | rest => ([], rest)

def read? (text : String) : Option Numeral :=
  let (negative, cs) := unsign (Text.trim isBlank text.toList)
  let (whole, behind) := cs.span Char.isDigit
  let (places, rest) := places behind
  if whole.isEmpty && places.isEmpty then none
  else (exponent? rest).map fun exp =>
    { negative, digits := number (whole ++ places), exp := exp - places.length, isWhole := behind.isEmpty }

def value (n : Numeral) : Value :=
  let whole := signed n.negative n.digits
  if n.isWhole && fits whole then .int whole else integral (.ofDecimal n.negative n.digits n.exp)

end Numeral
end Transact.Database
