import Transact.Decimal.Shortest

/-! Numbers as text. The natural form has the fewest digits that read back: positional from
10^-4 up to below 10^16 with at least one place, else with a signed exponent of two digits. -/
namespace Transact.Double

def signText (negative : Bool) : String := if negative then "-" else ""

def zeros (n : Nat) : String := String.ofList (List.replicate n '0')

def padLeft (width : Nat) (text : String) : String := zeros (width - text.length) ++ text

def positional (digits : String) (exp : Int) : String :=
  if 0 ≤ exp then digits ++ zeros exp.toNat ++ ".0"
  else
    let places := (-exp).toNat
    let all := (padLeft (places + 1) digits).toList
    String.ofList (all.take (all.length - places)) ++ "." ++ String.ofList (all.drop (all.length - places))

def scientific (digits : String) (lead : Int) : String :=
  let mantissa := match digits.toList with
    | [] => ""
    | [d] => String.singleton d
    | d :: rest => String.ofList (d :: '.' :: rest)
  mantissa ++ "e" ++ (if lead < 0 then "-" else "+") ++ padLeft 2 (toString lead.natAbs)

def magnitudeText (rank : Nat) : String :=
  if rank = 0 then "0.0" else
    let d := Decimal.shortest rank
    let digits := toString d.digits
    let lead := d.exp + digits.length - 1
    if -4 ≤ lead ∧ lead < 16 then positional digits d.exp else scientific digits lead

def text (x : Double) : String :=
  if x.isNaN then "nan"
  else if x.isFinite then signText x.negative ++ magnitudeText x.rank
  else signText x.negative ++ "inf"

/-- The last `places` digits stand behind the point, which is left out with nothing behind it,
unless `point` asks for it. -/
def pointed (point : Bool) (places : Nat) (digits : String) : String :=
  let all := (padLeft (places + 1) digits).toList
  let (whole, rest) := all.splitAt (all.length - places)
  String.ofList (if rest.isEmpty && !point then whole else whole ++ '.' :: rest)

/-- A fixed number of places: the exact value rounded, a half to the even digit. -/
def fixed (point : Bool) (places : Nat) (x : Double) : String :=
  if x.isFinite then
    let q := exponent x.rank
    let n := roundQuotient (significand x.rank * Nat.pow 2 q.toNat * Nat.pow 10 places) (Nat.pow 2 (-q).toNat)
    signText x.negative ++ pointed point places (toString n)
  else text x

end Transact.Double
