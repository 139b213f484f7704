/-! UTF-8, read leniently: each longest start of a character that breaks off, and each byte
that can start none, becomes U+FFFD. -/
namespace Transact.Text.Utf8

def encode (cs : List Char) : List UInt8 := cs.flatMap String.utf8EncodeChar

def replacement : Char := '\ufffd'

/-- A character of which `need` bytes are missing; the next one lies from `low` to `high`. -/
structure Pending where
  need : Nat
  code : Nat
  low : Nat := 0x80
  high : Nat := 0xBF

/-- The characters finished by a byte that comes between two characters, and the one begun. -/
def first (b : Nat) : List Char × Option Pending :=
  if b < 0x80 then ([Char.ofNat b], none)
  else if b < 0xC2 then ([replacement], none)
  else if b < 0xE0 then ([], some { need := 1, code := b - 0xC0 })
  else if b = 0xE0 then ([], some { need := 2, code := 0, low := 0xA0 })
  else if b = 0xED then ([], some { need := 2, code := 0xD, high := 0x9F })
  else if b < 0xF0 then ([], some { need := 2, code := b - 0xE0 })
  else if b = 0xF0 then ([], some { need := 3, code := 0, low := 0x90 })
  else if b < 0xF4 then ([], some { need := 3, code := b - 0xF0 })
  else if b = 0xF4 then ([], some { need := 3, code := 4, high := 0x8F })
  else ([replacement], none)

def Pending.push (p : Pending) (b : Nat) : List Char × Option Pending :=
  let code := 64 * p.code + (b - 0x80)
  if p.need ≤ 1 then ([Char.ofNat code], none) else ([], some { need := p.need - 1, code })

def step : Option Pending → Nat → List Char × Option Pending
  | none, b => first b
  | some p, b =>
    if p.low ≤ b ∧ b ≤ p.high then p.push b else (replacement :: (first b).1, (first b).2)

def decodeFrom : Option Pending → List UInt8 → List Char
  | none, [] => []
  | some _, [] => [replacement]
  | p, b :: rest => (step p b.toNat).1 ++ decodeFrom (step p b.toNat).2 rest

def decode (bytes : List UInt8) : List Char := decodeFrom none bytes

@[simp] theorem decode_nil : decode [] = [] := rfl

end Transact.Text.Utf8
