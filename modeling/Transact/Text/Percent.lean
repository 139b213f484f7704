import Transact.Text.Quoted
import Transact.Text.Utf8

/-! Percent-encoding of UTF-8. A percent sign that no two hexadecimal digits follow stands for
itself. -/
namespace Transact.Text.Percent

def hexValue? (c : Char) : Option Nat :=
  if '0' ≤ c ∧ c ≤ '9' then some (c.toNat - 0x30)
  else if 'a' ≤ c ∧ c ≤ 'f' then some (c.toNat - 0x57)
  else if 'A' ≤ c ∧ c ≤ 'F' then some (c.toNat - 0x37)
  else none

def upperHexDigit (n : Nat) : Char := Char.ofNat (if n < 10 then 0x30 + n else 0x37 + n)

def escapeByte (b : UInt8) : List Char :=
  ['%', upperHexDigit (b.toNat / 16), upperHexDigit (b.toNat % 16)]

def isUnreserved (c : Char) : Bool :=
  c.isAlphanum || c == '_' || c == '.' || c == '-' || c == '~'

/-- Unreserved characters and those of `safe` stay as they are. -/
def encodeChar (safe : Char → Bool) (c : Char) : List Char :=
  if isUnreserved c || safe c then [c] else (String.utf8EncodeChar c).flatMap escapeByte

def encode (safe : Char → Bool) (cs : List Char) : List Char := cs.flatMap (encodeChar safe)

def bytes : List Char → List UInt8
  | [] => []
  | [c] => String.utf8EncodeChar c
  | [c, d] => String.utf8EncodeChar c ++ String.utf8EncodeChar d
  | c :: d :: e :: rest =>
    match c == '%', hexValue? d, hexValue? e with
    | true, some high, some low => UInt8.ofNat (16 * high + low) :: bytes rest
    | _, _, _ => String.utf8EncodeChar c ++ bytes (d :: e :: rest)

def decode (cs : List Char) : List Char := Utf8.decode (bytes cs)

/-- In a query a space is written as a plus sign. -/
def encodePlus (cs : List Char) : List Char :=
  (encode (· == ' ') cs).map fun c => if c == ' ' then '+' else c

def decodePlus (cs : List Char) : List Char :=
  decode (cs.map fun c => if c == '+' then ' ' else c)

end Transact.Text.Percent
