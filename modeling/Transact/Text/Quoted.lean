import Transact.Text.Printable

/-! Quoted text: single quotes, or double ones around a text that holds single quotes only;
what cannot be shown is escaped by its code. -/
namespace Transact.Text

def hexDigit (n : Nat) : Char := Char.ofNat (if n < 10 then 0x30 + n else 0x57 + n)

/-- The lowest `width` hexadecimal digits of `n`. -/
def hex : Nat → Nat → List Char
  | 0, _ => []
  | width + 1, n => hex width (n / 16) ++ [hexDigit (n % 16)]

@[simp] theorem length_hex (width n : Nat) : (hex width n).length = width := by
  induction width generalizing n with
  | zero => rfl
  | succ width ih => simp [hex, ih]

def quoteFor (cs : List Char) : Char :=
  if cs.contains '\'' && !cs.contains '"' then '"' else '\''

def escapeChar (quote c : Char) : List Char :=
  if c == quote || c == '\\' then ['\\', c]
  else if c == '\n' then ['\\', 'n']
  else if c == '\r' then ['\\', 'r']
  else if c == '\t' then ['\\', 't']
  else if isPrintable c then [c]
  else if c.toNat < 0x100 then '\\' :: 'x' :: hex 2 c.toNat
  else if c.toNat < 0x10000 then '\\' :: 'u' :: hex 4 c.toNat
  else '\\' :: 'U' :: hex 8 c.toNat

def quotedList (cs : List Char) : List Char :=
  let quote := quoteFor cs
  quote :: cs.flatMap (escapeChar quote) ++ [quote]

def quoted (text : String) : String := String.ofList (quotedList text.toList)

/-- Bytes are quoted like text that has the plain characters of ASCII only. -/
def quotedBytes (bytes : List UInt8) : String :=
  let cs := bytes.map fun b => Char.ofNat b.toNat
  let quote := quoteFor cs
  let escape (c : Char) : List Char :=
    if 0x7F ≤ c.toNat then '\\' :: 'x' :: hex 2 c.toNat else escapeChar quote c
  String.ofList ('b' :: quote :: cs.flatMap escape ++ [quote])

end Transact.Text
