/-! Text as code points. Unlike characters, these may be surrogates that stand alone. -/
namespace Transact.Text

abbrev Points := List Nat

def points (text : String) : Points := text.toList.map Char.toNat

/-- The text of code points; there is no character for a surrogate. -/
def ofPoints (ps : Points) : String := String.ofList (ps.map Char.ofNat)

@[simp] theorem ofPoints_points (text : String) : ofPoints (points text) = text := by
  have h : (Char.ofNat ∘ Char.toNat) = id := funext Char.ofNat_toNat
  simp [ofPoints, points, h]

end Transact.Text
