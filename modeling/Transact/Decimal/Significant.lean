import Transact.Decimal.Notation

/-! A fixed number of significant digits: the exact value rounded, a half to the even digit or
away from zero. -/
namespace Transact.Double

/-- The first `count + 1` digits of a non-zero magnitude, and the exponent of the first; `round`
says what becomes of the rest. -/
def leadingDigitsBy (round : Nat → Nat → Nat) (count : Nat) (rank : Nat) : Nat × Int :=
  let q := exponent rank
  let lead := Decimal.magnitude rank - 1
  let grid := lead - count
  let n := round (significand rank * Nat.pow 2 q.toNat * Nat.pow 10 (-grid).toNat)
    (Nat.pow 2 (-q).toNat * Nat.pow 10 grid.toNat)
  if n = Nat.pow 10 (count + 1) then (Nat.pow 10 count, lead + 1) else (n, lead)

def leadingDigits (count : Nat) (rank : Nat) : Nat × Int := leadingDigitsBy roundQuotient count rank

/-- `num / den` to the nearest integer, a half up. -/
def roundHalfUp (num den : Nat) : Nat := (2 * num + den) / (2 * den)

def exponentText (mark : String) (e : Int) : String :=
  mark ++ (if e < 0 then "-" else "+") ++ padLeft 2 (toString e.natAbs)

/-- One digit before the point and `places` behind it. -/
def exponential (point : Bool) (mark : String) (places : Nat) (x : Double) : String :=
  if x.isFinite then
    let (n, lead) := if x.isZero then (0, 0) else leadingDigits places x.rank
    signText x.negative ++ pointed point places (toString n) ++ exponentText mark lead
  else text x

def trimZeros (text : String) : String :=
  if text.toList.contains '.' then
    String.ofList ((text.toList.reverse.dropWhile (· == '0')).dropWhile (· == '.')).reverse
  else text

/-- At most `digits` significant digits, in whichever of the two forms is short; if `full`,
exactly so many, and the point. -/
def general (full : Bool) (mark : String) (digits : Nat) (x : Double) : String :=
  if x.isFinite then
    let p := max digits 1
    let (n, lead) := if x.isZero then (0, 0) else leadingDigits (p - 1) x.rank
    let trim := if full then id else trimZeros
    if -4 ≤ lead ∧ lead < p then trim (fixed full (p - 1 - lead).toNat x)
    else signText x.negative ++ trim (pointed full (p - 1) (toString n)) ++ exponentText mark lead
  else text x

/-- At least one digit stands behind the point. -/
def trimPlaces (text : String) : String :=
  let kept := trimZeros text
  if kept.toList.contains '.' then kept else kept ++ ".0"

/-- At most `digits` significant digits, a half away from zero, and a point in either form. Zero has
no sign. -/
def rounded (digits : Nat) (x : Double) : String :=
  if x.isZero then "0.0"
  else if x.isFinite then
    let p := max digits 1
    let (n, lead) := leadingDigitsBy roundHalfUp (p - 1) x.rank
    let isShort := -4 ≤ lead ∧ lead < p
    let places := if isShort then (p - 1 - lead).toNat else p - 1
    signText x.negative ++ trimPlaces (pointed true places (toString n))
      ++ (if isShort then "" else exponentText "e" lead)
  else signText x.negative ++ "Inf"

end Transact.Double
