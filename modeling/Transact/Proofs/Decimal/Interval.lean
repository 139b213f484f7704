import Transact.Decimal.Shortest
import Mathlib.Algebra.Order.Field.Power
import Mathlib.Algebra.Order.Ring.Rat
import Mathlib.Tactic.Linarith
import Mathlib.Tactic.NormNum
import Mathlib.Tactic.Positivity
import Mathlib.Tactic.Ring

/-! The decimals that read back to a number: those between the midpoints around it. -/
namespace Transact

theorem zpow_mul_toNat {b : ℚ} (hb : b ≠ 0) (e : ℤ) : b ^ e * b ^ (-e).toNat = b ^ e.toNat := by
  rw [← zpow_natCast, ← zpow_natCast, ← zpow_add₀ hb]
  congr 1
  omega

namespace Double

/-- The number of a rank. -/
def value (rank : Nat) : ℚ := significand rank * (2 : ℚ) ^ exponent rank

theorem significand_pos {rank : Nat} (h : 0 < rank) : 0 < significand rank := by
  have hbinade : 0 < binade := by decide
  rw [significand]
  split <;> omega

theorem significand_lt (rank : Nat) : significand rank < 2 * binade := by
  have hmod := Nat.mod_lt rank (show 0 < binade by decide)
  rw [significand]
  split <;> omega

theorem le_exponent (rank : Nat) : -1074 ≤ exponent rank := by
  rw [exponent]
  split
  · exact le_refl _
  · rename_i h
    have hquotient := (Nat.one_le_div_iff (show 0 < binade by decide)).mpr (Nat.not_lt.mp h)
    omega

theorem exponent_le {rank : Nat} (h : rank < infinityRank) : exponent rank ≤ 971 := by
  rw [exponent]
  split
  · decide
  · have hquotient := Nat.div_lt_of_lt_mul (show rank < binade * 0x7FF by rwa [Nat.mul_comm])
    omega

end Double

namespace Decimal

open Double

/-- The number that is written. -/
def value (d : Decimal) : ℚ := d.digits * (10 : ℚ) ^ d.exp

theorem compareBinary_eq (a : Nat) (i : Int) (n : Nat) (j : Int) :
    compareBinary a i n j = compare ((a : ℚ) * (10 : ℚ) ^ i) ((n : ℚ) * (2 : ℚ) ^ j) := by
  have hleft : ((a * Nat.pow 10 i.toNat * Nat.pow 2 (-j).toNat : ℕ) : ℚ) =
      a * 10 ^ i * (10 ^ (-i).toNat * 2 ^ (-j).toNat) := by
    have hten := zpow_mul_toNat (b := 10) (by norm_num) i
    simp only [Nat.pow_eq]
    push_cast
    rw [← hten]
    ring
  have hright : ((n * Nat.pow 2 j.toNat * Nat.pow 10 (-i).toNat : ℕ) : ℚ) =
      n * 2 ^ j * (10 ^ (-i).toNat * 2 ^ (-j).toNat) := by
    have htwo := zpow_mul_toNat (b := 2) (by norm_num) j
    simp only [Nat.pow_eq]
    push_cast
    rw [← htwo]
    ring
  have hpos : (0 : ℚ) < 10 ^ (-i).toNat * 2 ^ (-j).toNat := by positivity
  rw [compareBinary]
  generalize a * Nat.pow 10 i.toNat * Nat.pow 2 (-j).toNat = left at hleft
  generalize n * Nat.pow 2 j.toNat * Nat.pow 10 (-i).toNat = right at hright
  rcases lt_trichotomy left right with h | h | h
  · have hless : (left : ℚ) < right := Nat.cast_lt.mpr h
    rw [hleft, hright, mul_lt_mul_iff_left₀ hpos] at hless
    rw [compare_lt_iff_lt.mpr h, compare_lt_iff_lt.mpr hless]
  · have hsame : (left : ℚ) = right := congrArg Nat.cast h
    rw [hleft, hright, mul_left_inj' hpos.ne'] at hsame
    rw [compare_eq_iff_eq.mpr h, compare_eq_iff_eq.mpr hsame]
  · have hless : (right : ℚ) < left := Nat.cast_lt.mpr h
    rw [hleft, hright, mul_lt_mul_iff_left₀ hpos] at hless
    rw [compare_gt_iff_gt.mpr h, compare_gt_iff_gt.mpr hless]

/-- The midpoints, in quarters of the last place. -/
def low (rank : Nat) : Nat := if isNarrowBelow rank then 4 * significand rank - 1 else 4 * significand rank - 2

def high (rank : Nat) : Nat := 4 * significand rank + 2

def quarter (rank : Nat) : ℚ := (2 : ℚ) ^ (exponent rank - 2)

theorem quarter_pos (rank : Nat) : 0 < quarter rank := by
  rw [quarter]
  positivity

/-- Between the midpoints; on one only if the significand is even. -/
structure Near (rank : Nat) (x : ℚ) : Prop where
  below : low rank * quarter rank ≤ x
  above : x ≤ high rank * quarter rank
  even : x = low rank * quarter rank ∨ x = high rank * quarter rank → significand rank % 2 = 0

theorem readsBack_iff (rank : Nat) (d : Decimal) : readsBack rank d = true ↔ Near rank d.value := by
  have hdef : readsBack rank d =
      ((compareBinary d.digits d.exp (low rank) (exponent rank - 2) == .gt ||
          (significand rank % 2 == 0 && compareBinary d.digits d.exp (low rank) (exponent rank - 2) == .eq)) &&
        (compareBinary d.digits d.exp (high rank) (exponent rank - 2) == .lt ||
          (significand rank % 2 == 0 && compareBinary d.digits d.exp (high rank) (exponent rank - 2) == .eq))) := rfl
  rw [hdef, compareBinary_eq, compareBinary_eq]
  simp only [Bool.and_eq_true, Bool.or_eq_true, beq_iff_eq, compare_gt_iff_gt, compare_lt_iff_lt, compare_eq_iff_eq]
  change (low rank * quarter rank < d.value ∨ _ ∧ d.value = low rank * quarter rank) ∧
    (d.value < high rank * quarter rank ∨ _ ∧ d.value = high rank * quarter rank) ↔ _
  constructor
  · rintro ⟨hlow, hhigh⟩
    refine ⟨hlow.elim le_of_lt fun h => h.2.ge, hhigh.elim le_of_lt fun h => h.2.le, ?_⟩
    rintro (h | h)
    · exact hlow.elim (fun hlt => absurd h hlt.ne') And.left
    · exact hhigh.elim (fun hlt => absurd h hlt.ne) And.left
  · rintro ⟨hlow, hhigh, heven⟩
    refine ⟨hlow.lt_or_eq.imp_right fun h => ⟨heven (.inl h.symm), h.symm⟩,
      hhigh.lt_or_eq.imp_right fun h => ⟨heven (.inr h), h⟩⟩

end Decimal
end Transact
