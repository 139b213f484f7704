/-! Double-precision numbers by rank: the non-negative ones in ascending order are 0, 1, 2, …,
so a number is a sign and a rank. -/
namespace Transact

structure Double where
  negative : Bool
  rank : Nat
deriving DecidableEq, Repr, Inhabited

namespace Double

/-- How many numbers there are between one power of two and the next. -/
def binade : Nat := Nat.pow 2 52

def infinityRank : Nat := 0x7FF * binade

def infinity : Double := ⟨false, infinityRank⟩

def nan : Double := ⟨false, infinityRank + 1⟩

def isFinite (x : Double) : Bool := x.rank < infinityRank

def isNaN (x : Double) : Bool := infinityRank < x.rank

/-- A finite magnitude is `m * 2 ^ q`. -/
def significand (rank : Nat) : Nat := if rank < binade then rank else binade + rank % binade

def exponent (rank : Nat) : Int := if rank < binade then -1074 else (rank / binade : Nat) - 1075

/-- `num / den` to the nearest integer, a half to the even one. -/
def roundQuotient (num den : Nat) : Nat :=
  let q := num / den
  let r := num % den
  if 2 * r < den then q else if den < 2 * r then q + 1 else q + q % 2

/-- The exponent at which `num / den` has 53 bits before the point, or the least there is. -/
def scale (num den : Nat) : Int :=
  let l : Int := (num.log2 : Int) - den.log2
  let reached : Bool := den * Nat.pow 2 l.toNat ≤ num * Nat.pow 2 (-l).toNat
  max (-1074) ((if reached then l else l - 1) - 52)

/-- The rank nearest to `num / den`. The last step carries over into the next binade by itself. -/
def rankOfRatio (num den : Nat) : Nat :=
  if num = 0 then 0 else
    let e := scale num den
    let m := roundQuotient (num * Nat.pow 2 (-e).toNat) (den * Nat.pow 2 e.toNat)
    min infinityRank ((e + 1074).toNat * binade + m)

def decimalWidth (n : Nat) : Nat := (Nat.toDigits 10 n).length

/-- The rank nearest to `digits * 10 ^ exp`; far outside the range no power is computed. -/
def rankOfDecimal (digits : Nat) (exp : Int) : Nat :=
  let top := exp + decimalWidth digits
  if digits = 0 ∨ top < -400 then 0
  else if 400 < top then infinityRank
  else rankOfRatio (digits * Nat.pow 10 exp.toNat) (Nat.pow 10 (-exp).toNat)

def ofDecimal (negative : Bool) (digits : Nat) (exp : Int) : Double :=
  ⟨negative, rankOfDecimal digits exp⟩

def isZero (x : Double) : Bool := x.rank == 0

/-- The integer part, towards zero. -/
def truncate? (x : Double) : Option Int :=
  if x.isFinite then
    let q := exponent x.rank
    let n := significand x.rank * Nat.pow 2 q.toNat / Nat.pow 2 (-q).toNat
    some (if x.negative then -(n : Int) else n)
  else none

def isIntegral (x : Double) : Bool :=
  let q := exponent x.rank
  x.isFinite && significand x.rank * Nat.pow 2 q.toNat % Nat.pow 2 (-q).toNat == 0

end Double
end Transact
