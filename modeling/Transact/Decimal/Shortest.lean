import Transact.Decimal.Double

/-! The fewest decimal digits that read back to the same number, and of those the nearest. -/
namespace Transact

/-- `digits * 10 ^ exp` -/
structure Decimal where
  digits : Nat
  exp : Int
deriving DecidableEq, Repr

namespace Decimal

/-- `a * 10 ^ i` against `n * 2 ^ j`. -/
def compareBinary (a : Nat) (i : Int) (n : Nat) (j : Int) : Ordering :=
  compare (a * Nat.pow 10 i.toNat * Nat.pow 2 (-j).toNat) (n * Nat.pow 2 j.toNat * Nat.pow 10 (-i).toNat)

/-- The gap below a power of two is half the gap above it. -/
def isNarrowBelow (rank : Nat) : Bool := 2 * Double.binade ≤ rank && rank % Double.binade == 0

/-- Whether `d` lies between the midpoints around the number of this rank; the midpoints
themselves go to the even significand. -/
def readsBack (rank : Nat) (d : Decimal) : Bool :=
  let m := Double.significand rank
  let q := Double.exponent rank - 2
  let low := if isNarrowBelow rank then 4 * m - 1 else 4 * m - 2
  let below := compareBinary d.digits d.exp low q
  let above := compareBinary d.digits d.exp (4 * m + 2) q
  let ends := m % 2 == 0
  (below == .gt || (ends && below == .eq)) && (above == .lt || (ends && above == .eq))

/-- The least `k` with the number below `10 ^ k`. -/
def magnitude (rank : Nat) : Int :=
  let m := Double.significand rank
  let q := Double.exponent rank
  let guess : Int := ((m.log2 : Int) + q) * 30103 / 100000 - 1
  let up := (List.range 4).find? fun (i : Nat) => compareBinary 1 (guess + i) m q == .gt
  guess + (up.getD 4 : Nat)

/-- The number's two neighbours on the grid `10 ^ exp`, if they read back, the nearer first. -/
def onGrid (rank : Nat) (exp : Int) : Option Decimal :=
  let m := Double.significand rank
  let q := Double.exponent rank
  let low := m * Nat.pow 2 q.toNat * Nat.pow 10 (-exp).toNat /
    (Nat.pow 2 (-q).toNat * Nat.pow 10 exp.toNat)
  let a : Decimal := ⟨low, exp⟩
  let b : Decimal := ⟨low + 1, exp⟩
  match readsBack rank a, readsBack rank b with
  | false, false => none
  | true, false => some a
  | false, true => some b
  | true, true =>
    match compareBinary (2 * low + 1) exp (2 * m) q with
    | .gt => some a
    | .lt => some b
    | .eq => some (if low % 2 = 0 then a else b)

def exact (rank : Nat) : Decimal :=
  let m := Double.significand rank
  let q := Double.exponent rank
  ⟨m * Nat.pow 2 q.toNat * Nat.pow 5 (-q).toNat, min q 0⟩

/-- Trailing zeros move into the exponent. -/
def strip : Nat → Decimal → Decimal
  | 0, d => d
  | fuel + 1, d =>
    if d.digits ≠ 0 ∧ d.digits % 10 = 0 then strip fuel ⟨d.digits / 10, d.exp + 1⟩ else d

def shortest (rank : Nat) : Decimal :=
  let k := magnitude rank
  let found := (List.range 17).findSome? fun (i : Nat) => onGrid rank (k - 1 - i)
  strip 400 (found.getD (exact rank))

end Decimal
end Transact
