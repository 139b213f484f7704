import Transact.Text.Quoted

/-! Identifiers of 128 bits, written as 32 hexadecimal digits. -/
namespace Transact

structure Uuid where
  code : Nat
deriving DecidableEq, Repr, Inhabited

namespace Uuid

def hexText (u : Uuid) : String := String.ofList (Text.hex 32 u.code)

/-- Groups of 8, 4, 4, 4 and 12 digits. -/
def text (u : Uuid) : String :=
  let cs := Text.hex 32 u.code
  let part (start size : Nat) := (cs.drop start).take size
  String.ofList (part 0 8 ++ '-' :: part 8 4 ++ '-' :: part 12 4 ++ '-' :: part 16 4 ++ '-' :: part 20 12)

def hexValue? (c : Char) : Option Nat :=
  if '0' ≤ c ∧ c ≤ '9' then some (c.toNat - 0x30)
  else if 'a' ≤ c ∧ c ≤ 'f' then some (c.toNat - 0x57)
  else if 'A' ≤ c ∧ c ≤ 'F' then some (c.toNat - 0x37)
  else none

/-- Reads 32 digits, with hyphens anywhere. -/
def ofText? (text : String) : Option Uuid := do
  let digits ← (text.toList.filter (· != '-')).mapM hexValue?
  if digits.length = 32 then some ⟨digits.foldl (fun n d => 16 * n + d) 0⟩ else none

/-- Identifiers to give away, numbered up from an arbitrary one of the random kind. -/
def numbered (n : Nat) : Uuid := ⟨0x5bd1e0973c6f4a82b0d4000000000000 + n⟩

end Uuid
end Transact
