import Transact.Proofs.Decimal.Interval
import Mathlib.Tactic.FieldSimp

/-! The decimal that is written for a number lies between the midpoints around it, whether it was found on a
grid or is the number itself. -/
namespace Transact.Decimal

open Double (significand exponent significand_pos)

variable {rank : Nat} {d : Decimal}

theorem value_strip (fuel : Nat) (d : Decimal) : (strip fuel d).value = d.value := by
  induction fuel generalizing d with
  | zero => rfl
  | succ fuel ih =>
    rw [strip]
    split
    · rename_i h
      obtain ⟨k, hk⟩ := Nat.dvd_of_mod_eq_zero h.2
      rw [ih, value, value, hk, Nat.mul_div_cancel_left k (by decide), zpow_add_one₀ (by norm_num)]
      push_cast
      ring
    · rfl

theorem value_exact (rank : Nat) : (exact rank).value = Double.value rank := by
  rw [exact, value, Double.value]
  dsimp only
  generalize exponent rank = q
  have htwo := zpow_mul_toNat (b := 2) (by norm_num) q
  have hfraction : (10 : ℚ) ^ min q 0 = ((2 : ℚ) ^ (-q).toNat)⁻¹ * ((5 : ℚ) ^ (-q).toNat)⁻¹ := by
    rw [show min q 0 = -((-q).toNat : ℤ) by omega, zpow_neg, zpow_natCast, ← mul_inv, ← mul_pow]
    norm_num
  rw [hfraction]
  simp only [Nat.pow_eq]
  push_cast
  rw [← htwo]
  field_simp

theorem near_value (h : 0 < rank) : Near rank (Double.value rank) := by
  have ht := quarter_pos rank
  have hm := significand_pos h
  have hvalue : Double.value rank = (4 * significand rank : ℕ) * quarter rank := by
    rw [Double.value, quarter, zpow_sub₀ (by norm_num)]
    push_cast
    ring
  have hlow : (low rank : ℚ) * quarter rank < Double.value rank := by
    rw [hvalue]
    refine mul_lt_mul_of_pos_right (Nat.cast_lt.mpr ?_) ht
    rw [low]
    split <;> omega
  have hhigh : Double.value rank < high rank * quarter rank := by
    rw [hvalue]
    refine mul_lt_mul_of_pos_right (Nat.cast_lt.mpr ?_) ht
    rw [high]
    omega
  exact ⟨hlow.le, hhigh.le, fun h => h.elim (fun h => absurd h hlow.ne') fun h => absurd h hhigh.ne⟩

theorem near_onGrid {exp : Int} (h : onGrid rank exp = some d) : Near rank d.value := by
  rw [← readsBack_iff]
  rw [onGrid] at h
  split at h
  · cases h
  · cases h
    assumption
  · cases h
    assumption
  · split at h
    · cases h
      assumption
    · cases h
      assumption
    · cases h
      split <;> assumption

theorem near_shortest (h : 0 < rank) : Near rank (shortest rank).value := by
  rw [shortest, value_strip]
  cases hfound : (List.range 17).findSome? fun (i : Nat) => onGrid rank (magnitude rank - 1 - i) with
  | none =>
    rw [Option.getD_none, value_exact]
    exact near_value h
  | some d =>
    obtain ⟨i, -, hgrid⟩ := List.exists_of_findSome?_eq_some hfound
    exact near_onGrid hgrid

end Transact.Decimal
