import Transact.Text.Integer

/-! Decimals as people type them: white space around, one sign, digits of any script with single
underscores between them, a point, an exponent; or a word for what is no number. -/
namespace Transact.Decimal

open Text.Integer

def afterDigits? (cs : List Char) : Option (List Char) :=
  (digits? (cs.takeWhile isNumeralChar)).map fun _ => cs.dropWhile isNumeralChar

def isExponent : List Char → Bool
  | [] => true
  | c :: rest => (c == 'e' || c == 'E') && afterDigits? (unsign rest).2 == some []

/-- There are digits on one side of the point at least. -/
def isUnsigned (cs : List Char) : Bool :=
  match afterDigits? cs, cs with
  | some ('.' :: rest), _ => isExponent ((afterDigits? rest).getD rest)
  | some rest, _ => isExponent rest
  | none, '.' :: rest => (afterDigits? rest).any isExponent
  | none, _ => false

def isWord (cs : List Char) : Bool :=
  ["inf", "infinity", "nan"].any fun word => word.toList == cs.map Char.toLower

def isNumeral (text : String) : Bool :=
  let (_, rest) := unsign (Text.trim Text.isSpace text.toList)
  isWord rest || isUnsigned rest

end Transact.Decimal
