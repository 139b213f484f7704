import Transact.Value.Basic
import Transact.Text.Percent

/-! Reading JSON text. Integers and numbers with a point or an exponent stay apart. -/
namespace Transact.Json

def isSpace (c : Char) : Bool := c == ' ' || c == '\n' || c == '\r' || c == '\t'

def skip (cs : List Char) : List Char := cs.dropWhile isSpace

/-- The unit of four hexadecimal digits, and the rest. -/
def unit? : List Char → Option (Nat × List Char)
  | a :: b :: c :: d :: rest => do
    let a ← Text.Percent.hexValue? a
    let b ← Text.Percent.hexValue? b
    let c ← Text.Percent.hexValue? c
    let d ← Text.Percent.hexValue? d
    some (((a * 16 + b) * 16 + c) * 16 + d, rest)
  | _ => none

def lowSurrogate? : List Char → Option (Nat × List Char)
  | '\\' :: 'u' :: rest => do
    let (n, rest) ← unit? rest
    if 0xDC00 ≤ n ∧ n < 0xE000 then some (n - 0xDC00, rest) else none
  | _ => none

/-- The character of an escape after `\u`; half a pair becomes U+FFFD. -/
def escaped? (cs : List Char) : Option (Char × List Char) := do
  let (n, rest) ← unit? cs
  if 0xD800 ≤ n ∧ n < 0xDC00 then
    match lowSurrogate? rest with
    | some (low, rest) => some (Char.ofNat (0x10000 + 0x400 * (n - 0xD800) + low), rest)
    | none => some ('\ufffd', rest)
  else if 0xDC00 ≤ n ∧ n < 0xE000 then some ('\ufffd', rest)
  else some (Char.ofNat n, rest)

def simpleEscape? : Char → Option Char
  | '"' => some '"'
  | '\\' => some '\\'
  | '/' => some '/'
  | 'n' => some '\n'
  | 'r' => some '\r'
  | 't' => some '\t'
  | 'b' => some '\x08'
  | 'f' => some '\x0c'
  | _ => none

def parseString : Nat → List Char → Option (List Char × List Char)
  | 0, _ => none
  | _, [] => none
  | _ + 1, '"' :: rest => some ([], rest)
  | fuel + 1, '\\' :: 'u' :: rest => do
    let (c, rest) ← escaped? rest
    let (cs, rest) ← parseString fuel rest
    some (c :: cs, rest)
  | fuel + 1, '\\' :: e :: rest => do
    let c ← simpleEscape? e
    let (cs, rest) ← parseString fuel rest
    some (c :: cs, rest)
  | fuel + 1, c :: rest => do
    if c == '\\' || c.toNat < 0x20 then none else
    let (cs, rest) ← parseString fuel rest
    some (c :: cs, rest)

def digitsValue (cs : List Char) : Nat := cs.foldl (fun n c => 10 * n + (c.toNat - 0x30)) 0

def spanDigits (cs : List Char) : List Char × List Char := cs.span Char.isDigit

def fraction : List Char → List Char × List Char
  | '.' :: rest => if (spanDigits rest).1.isEmpty then ([], '.' :: rest) else spanDigits rest
  | cs => ([], cs)

def exponentSign : List Char → Bool × List Char
  | '-' :: rest => (true, rest)
  | '+' :: rest => (false, rest)
  | cs => (false, cs)

def exponent? : List Char → Option Int × List Char
  | c :: rest =>
    if c == 'e' || c == 'E' then
      let (negative, digits) := exponentSign rest
      let (ds, after) := spanDigits digits
      if ds.isEmpty then (none, c :: rest)
      else (some (if negative then -(digitsValue ds : Int) else digitsValue ds), after)
    else (none, c :: rest)
  | [] => (none, [])

def parseMagnitude (negative : Bool) (cs : List Char) : Option (Value × List Char) :=
  let (whole, afterWhole) := spanDigits cs
  if whole.isEmpty then none else
    let (places, afterPlaces) := fraction afterWhole
    match exponent? afterPlaces with
    | (none, rest) =>
      if places.isEmpty then
        let n := digitsValue whole
        some (.int (if negative then -(n : Int) else n), rest)
      else some (.float (.ofDecimal negative (digitsValue (whole ++ places)) (-(places.length : Int))), rest)
    | (some e, rest) =>
      some (.float (.ofDecimal negative (digitsValue (whole ++ places)) (e - places.length)), rest)

def word? (word cs : List Char) : Option (List Char) :=
  if word.isPrefixOf cs then some (cs.drop word.length) else none

def parseNumber : List Char → Option (Value × List Char)
  | '-' :: 'I' :: rest => (word? "nfinity".toList rest).map (.float ⟨true, Double.infinityRank⟩, ·)
  | '-' :: rest => parseMagnitude true rest
  | cs => parseMagnitude false cs

mutual
def parseValue : Nat → List Char → Option (Value × List Char)
  | 0, _ => none
  | fuel + 1, cs =>
    match skip cs with
    | 'n' :: rest => (word? "ull".toList rest).map (.null, ·)
    | 't' :: rest => (word? "rue".toList rest).map (.bool true, ·)
    | 'f' :: rest => (word? "alse".toList rest).map (.bool false, ·)
    | 'N' :: rest => (word? "aN".toList rest).map (.float .nan, ·)
    | 'I' :: rest => (word? "nfinity".toList rest).map (.float .infinity, ·)
    | '"' :: rest => (parseString (rest.length + 1) rest).map fun (s, rest) => (.text (String.ofList s), rest)
    | '[' :: rest =>
      match skip rest with
      | ']' :: rest => some (.list [], rest)
      | rest => (parseItems fuel rest).map fun (vs, rest) => (.list vs, rest)
    | '{' :: rest =>
      match skip rest with
      | '}' :: rest => some (.object [], rest)
      | rest => (parseFields fuel rest).map fun (fields, rest) => (.object fields, rest)
    | cs => parseNumber cs

def parseItems : Nat → List Char → Option (List Value × List Char)
  | 0, _ => none
  | fuel + 1, cs => do
    let (v, rest) ← parseValue fuel cs
    match skip rest with
    | ',' :: rest =>
      let (vs, rest) ← parseItems fuel rest
      some (v :: vs, rest)
    | ']' :: rest => some ([v], rest)
    | _ => none

def parseFields : Nat → List Char → Option (List (String × Value) × List Char)
  | 0, _ => none
  | fuel + 1, cs => do
    match skip cs with
    | '"' :: rest =>
      let (key, rest) ← parseString (rest.length + 1) rest
      match skip rest with
      | ':' :: rest =>
        let (v, rest) ← parseValue fuel rest
        match skip rest with
        | ',' :: rest =>
          let (fields, rest) ← parseFields fuel rest
          some ((String.ofList key, v) :: fields, rest)
        | '}' :: rest => some ([(String.ofList key, v)], rest)
        | _ => none
      | _ => none
    | _ => none
end

/-- Every nesting costs a character, so the length bounds the depth. -/
def parse (text : String) : Option Value := do
  let cs := text.toList
  let (v, rest) ← parseValue (2 * cs.length + 2) cs
  if (skip rest).isEmpty then some v else none

end Transact.Json
