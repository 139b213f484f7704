/-! Character properties as closed ranges of code points, ascending and apart. -/
namespace Transact.Text

abbrev Ranges := List (Nat × Nat)

def Ranges.has (ranges : Ranges) (code : Nat) : Bool :=
  ranges.any fun r => r.1 ≤ code && code ≤ r.2

def Ranges.apart : Ranges → Bool
  | [] => true
  | [r] => r.1 ≤ r.2
  | r :: s :: rest => r.1 ≤ r.2 && r.2 + 1 < s.1 && Ranges.apart (s :: rest)

theorem Ranges.has_append (a b : Ranges) (code : Nat) :
    Ranges.has (a ++ b) code = (Ranges.has a code || Ranges.has b code) := by
  simp [Ranges.has, List.any_append]

end Transact.Text
