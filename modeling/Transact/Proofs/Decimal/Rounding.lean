import Transact.Proofs.Decimal.Interval
import Transact.Proofs.Text.Integer
import Mathlib.Tactic.FieldSimp

/-! Reading a decimal near a number gives this number. -/
namespace Transact.Double

open Decimal (Near low high quarter isNarrowBelow)

variable {num den m rank : Nat} {x : ℚ}

/-! ### The nearest integer -/

theorem roundQuotient_eq (hden : 0 < den) (hlow : 2 * m * den ≤ 2 * num + den) (hhigh : 2 * num ≤ (2 * m + 1) * den)
    (heven : 2 * m * den = 2 * num + den ∨ 2 * num = (2 * m + 1) * den → m % 2 = 0) : roundQuotient num den = m := by
  rw [roundQuotient]
  have hsplit := Nat.div_add_mod num den
  have hmod := Nat.mod_lt num hden
  generalize num / den = q at *
  generalize num % den = r at *
  have hupper : m < q + 2 := by
    by_contra h
    have hmul := Nat.mul_le_mul_right den (Nat.not_lt.mp h)
    have hexpand : (q + 2) * den = den * q + 2 * den := by ring
    have hassoc : 2 * m * den = 2 * (m * den) := by ring
    omega
  have hlower : q ≤ m := by
    by_contra h
    have hmul := Nat.mul_le_mul_right den (show m + 1 ≤ q by omega)
    have hexpand : (m + 1) * den = m * den + den := by ring
    have hassoc : (2 * m + 1) * den = 2 * (m * den) + den := by ring
    have hcomm : q * den = den * q := Nat.mul_comm q den
    omega
  rw [show 2 * m * den = 2 * (m * den) by ring] at hlow heven
  rw [show (2 * m + 1) * den = 2 * (m * den) + den by ring] at hhigh heven
  obtain rfl | rfl : m = q ∨ m = q + 1 := by omega
  · have hcomm : m * den = den * m := Nat.mul_comm m den
    split
    · rfl
    · have hm := heven (.inr (by omega))
      rw [if_neg (by omega)]
      omega
  · have hexpand : (q + 1) * den = den * q + den := by ring
    rw [if_neg (by omega)]
    split
    · rfl
    · have hm := heven (.inl (by omega))
      omega

/-- The quotient of two integers that are scaled to the same power of two. -/
theorem scaled_div (hden : 0 < den) (e : ℤ) :
    ((num * Nat.pow 2 (-e).toNat : ℕ) : ℚ) / ((den * Nat.pow 2 e.toNat : ℕ) : ℚ) = num / den / 2 ^ e := by
  have htwo := zpow_mul_toNat (b := 2) (by norm_num) e
  have hpos : (0 : ℚ) < den := Nat.cast_pos.mpr hden
  simp only [Nat.pow_eq]
  push_cast
  rw [← htwo]
  field_simp

theorem roundQuotient_of_rat (hden : 0 < den) (hlow : (m : ℚ) - 1 / 2 ≤ num / den) (hhigh : (num : ℚ) / den ≤ m + 1 / 2)
    (heven : (num : ℚ) / den = m - 1 / 2 ∨ (num : ℚ) / den = m + 1 / 2 → m % 2 = 0) : roundQuotient num den = m := by
  have hpos : (0 : ℚ) < den := Nat.cast_pos.mpr hden
  rw [le_div_iff₀ hpos] at hlow
  rw [div_le_iff₀ hpos] at hhigh
  rw [div_eq_iff hpos.ne', div_eq_iff hpos.ne'] at heven
  refine roundQuotient_eq hden ?_ ?_ fun h => heven (h.imp (fun h => ?_) fun h => ?_)
  · have hcast : ((2 * m * den : ℕ) : ℚ) ≤ ((2 * num + den : ℕ) : ℚ) := by
      push_cast
      linarith
    exact_mod_cast hcast
  · have hcast : ((2 * num : ℕ) : ℚ) ≤ (((2 * m + 1) * den : ℕ) : ℚ) := by
      push_cast
      linarith
    exact_mod_cast hcast
  · have hcast := congrArg (Nat.cast : ℕ → ℚ) h
    push_cast at hcast
    linarith
  · have hcast := congrArg (Nat.cast : ℕ → ℚ) h
    push_cast at hcast
    linarith

/-! ### The binary exponent -/

/-- A number that has 53 bits before the point at this exponent, or fewer at the least exponent. -/
structure HasScale (x : ℚ) (e : ℤ) : Prop where
  least : -1074 ≤ e
  above : x < 2 ^ (e + 53)
  below : e = -1074 ∨ 2 ^ (e + 52) ≤ x

theorem HasScale.unique {e f : ℤ} (he : HasScale x e) (hf : HasScale x f) : e = f := by
  have hnot {e f : ℤ} (he : HasScale x e) (hf : HasScale x f) : ¬ e < f := by
    intro hlt
    rcases hf.below with h | h
    · have hleast := he.least
      omega
    · have hpow : (2 : ℚ) ^ (e + 53) ≤ 2 ^ (f + 52) := zpow_le_zpow_right₀ (by norm_num) (by omega)
      exact absurd (he.above.trans_le hpow) (not_lt.mpr h)
  exact le_antisymm (not_lt.mp (hnot hf he)) (not_lt.mp (hnot he hf))

theorem log2_bounds {n : Nat} (hn : n ≠ 0) : (2 : ℚ) ^ n.log2 ≤ n ∧ (n : ℚ) < 2 ^ (n.log2 + 1) := by
  constructor
  · exact_mod_cast Nat.log2_self_le hn
  · exact_mod_cast Nat.lt_log2_self

theorem two_zpow_mul {l : ℤ} {n k : Nat} (h : l + n = k) : (2 : ℚ) ^ l * 2 ^ n = 2 ^ k := by
  rw [← zpow_natCast, ← zpow_natCast, ← zpow_add₀ (by norm_num), h]

theorem hasScale_scale (hnum : num ≠ 0) (hden : den ≠ 0) : HasScale ((num : ℚ) / den) (scale num den) := by
  obtain ⟨hnumLow, hnumHigh⟩ := log2_bounds hnum
  obtain ⟨hdenLow, hdenHigh⟩ := log2_bounds hden
  have hpos : (0 : ℚ) < den := Nat.cast_pos.mpr (Nat.pos_of_ne_zero hden)
  rw [scale]
  generalize hl : (num.log2 : ℤ) - den.log2 = l
  have habove : (num : ℚ) / den < 2 ^ (l + 1) := by
    rw [div_lt_iff₀ hpos]
    calc (num : ℚ) < 2 ^ (num.log2 + 1) := hnumHigh
      _ = 2 ^ (l + 1) * 2 ^ den.log2 := (two_zpow_mul (by push_cast; omega)).symm
      _ ≤ 2 ^ (l + 1) * den := by gcongr
  have hbelow : (2 : ℚ) ^ (l - 1) ≤ num / den := by
    rw [le_div_iff₀ hpos]
    calc (2 : ℚ) ^ (l - 1) * den ≤ 2 ^ (l - 1) * 2 ^ (den.log2 + 1) := by gcongr
      _ = 2 ^ num.log2 := two_zpow_mul (by push_cast; omega)
      _ ≤ num := hnumLow
  have hreached : den * Nat.pow 2 l.toNat ≤ num * Nat.pow 2 (-l).toNat ↔ (2 : ℚ) ^ l ≤ num / den := by
    have htwo := zpow_mul_toNat (b := 2) (by norm_num) l
    have hscale : (0 : ℚ) < 2 ^ (-l).toNat := by positivity
    rw [le_div_iff₀ hpos, ← Nat.cast_le (α := ℚ)]
    simp only [Nat.pow_eq]
    push_cast
    rw [← htwo, ← mul_assoc, mul_le_mul_iff_left₀ hscale, mul_comm]
  have hfound : ∃ f : ℤ, (if decide (den * Nat.pow 2 l.toNat ≤ num * Nat.pow 2 (-l).toNat) then l else l - 1) = f ∧
      (2 : ℚ) ^ f ≤ num / den ∧ (num : ℚ) / den < 2 ^ (f + 1) := by
    by_cases h : (2 : ℚ) ^ l ≤ num / den
    · exact ⟨l, if_pos (decide_eq_true (hreached.mpr h)), h, habove⟩
    · refine ⟨l - 1, if_neg fun hr => h (hreached.mp (of_decide_eq_true hr)), hbelow, ?_⟩
      rw [sub_add_cancel]
      exact not_le.mp h
  obtain ⟨f, hf, hfBelow, hfAbove⟩ := hfound
  rw [hf]
  refine ⟨le_max_left _ _, hfAbove.trans_le ?_, ?_⟩
  · exact zpow_le_zpow_right₀ (by norm_num) (by omega)
  · rcases max_choice (-1074) (f - 52) with h | h
    · exact .inl h
    · refine .inr ?_
      rw [h, sub_add_cancel]
      exact hfBelow

/-! ### The nearest number -/

theorem rankOfRatio_of_scale {e : ℤ} (hnum : num ≠ 0) (hden : den ≠ 0) (hscale : HasScale ((num : ℚ) / den) e)
    (hlow : (m : ℚ) - 1 / 2 ≤ num / den / 2 ^ e) (hhigh : (num : ℚ) / den / 2 ^ e ≤ m + 1 / 2)
    (heven : (num : ℚ) / den / 2 ^ e = m - 1 / 2 ∨ (num : ℚ) / den / 2 ^ e = m + 1 / 2 → m % 2 = 0)
    (hrank : (e + 1074).toNat * binade + m = rank) (hfinite : rank < infinityRank) : rankOfRatio num den = rank := by
  have hpos := Nat.pos_of_ne_zero hden
  have hround : roundQuotient (num * Nat.pow 2 (-e).toNat) (den * Nat.pow 2 e.toNat) = m := by
    rw [← scaled_div hpos] at hlow hhigh heven
    exact roundQuotient_of_rat (Nat.mul_pos hpos (Nat.pow_pos (by decide))) hlow hhigh heven
  rw [rankOfRatio, if_neg hnum]
  dsimp only
  rw [(hasScale_scale hnum hden).unique hscale, hround, hrank]
  exact Nat.min_eq_right hfinite.le

theorem rank_eq (rank : Nat) : (exponent rank + 1074).toNat * binade + significand rank = rank := by
  have hsplit := Nat.div_add_mod' rank binade
  rw [exponent, significand]
  split
  · simp
  · rename_i h
    obtain ⟨k, hk⟩ := Nat.exists_eq_succ_of_ne_zero
      (Nat.one_le_iff_ne_zero.mp ((Nat.one_le_div_iff (show 0 < binade by decide)).mpr (Nat.not_lt.mp h)))
    rw [hk] at hsplit ⊢
    rw [show (((k.succ : ℕ) : ℤ) - 1075 + 1074).toNat = k by omega, Nat.succ_mul] at *
    omega

theorem quarter_shift (rank k : Nat) : (2 : ℚ) ^ (exponent rank - 2 + k) = 2 ^ k * quarter rank := by
  rw [quarter, zpow_add₀ (by norm_num), zpow_natCast, mul_comm]

theorem low_bounds (h : 0 < rank) : 4 * significand rank ≤ low rank + 2 ∧ low rank + 1 ≤ 4 * significand rank := by
  have hpos := significand_pos h
  rw [low]
  split <;> omega

theorem two_zpow_exponent (rank : Nat) {e : ℤ} (k : Nat) (he : exponent rank - 2 + k = e) :
    (2 : ℚ) ^ e = 2 ^ k * quarter rank := by
  rw [← he, quarter_shift]

theorem high_eq (rank : Nat) : (high rank : ℚ) = 4 * significand rank + 2 := by
  rw [high]
  push_cast
  ring

theorem le_low (h : 0 < rank) : (4 : ℚ) * significand rank ≤ low rank + 2 := by
  exact_mod_cast (low_bounds h).1

/-- Below a power of two the numbers lie twice as close: what is nearest to the power there is found at the
exponent below, as the full 2 ^ 53 of its places. -/
theorem narrow_of_lt (hrank : 0 < rank) (h : Near rank x) (hexponent : exponent rank ≠ -1074)
    (hx : x < 2 ^ (exponent rank + 52)) : significand rank = binade ∧ low rank = 4 * binade - 1 := by
  have ht := Decimal.quarter_pos rank
  rw [two_zpow_exponent rank 54 (by push_cast; ring)] at hx
  have hlow : low rank < 4 * binade := by
    have hcast : (low rank : ℚ) < 2 ^ 54 := lt_of_mul_lt_mul_right (h.below.trans_lt hx) ht.le
    exact_mod_cast hcast
  have hbound := (low_bounds hrank).1
  have hnormal : ¬ rank < binade := fun hlt => hexponent (if_pos hlt)
  have hsignificand : significand rank = binade + rank % binade := if_neg hnormal
  have hmod : rank % binade = 0 := by omega
  have hquotient : exponent rank = (rank / binade : Nat) - 1075 := if_neg hnormal
  have hsplit := Nat.div_add_mod' rank binade
  have hnarrow : isNarrowBelow rank = true := by
    rw [isNarrowBelow, Bool.and_eq_true, decide_eq_true_eq, beq_iff_eq]
    refine ⟨?_, hmod⟩
    have hone := (Nat.one_le_div_iff (show 0 < binade by decide)).mpr (Nat.not_lt.mp hnormal)
    exact (Nat.le_div_iff_mul_le (by decide)).mp (show 2 ≤ rank / binade by omega)
  have hm : significand rank = binade := by omega
  exact ⟨hm, by rw [low, hnarrow, if_pos rfl, hm]⟩

theorem lt_of_near_exponent (h : Near rank x) : x < (2 : ℚ) ^ (exponent rank + 53) := by
  have hsignificand : (significand rank : ℚ) + 1 ≤ 2 ^ 53 := by exact_mod_cast significand_lt rank
  calc x ≤ high rank * quarter rank := h.above
    _ < 2 ^ 55 * quarter rank := mul_lt_mul_of_pos_right (by rw [high_eq]; linarith) (Decimal.quarter_pos rank)
    _ = 2 ^ (exponent rank + 53) := (two_zpow_exponent rank 55 (by push_cast; ring)).symm

/-- Most numbers are found at the scale of the number they are nearest to. -/
theorem rankOfRatio_of_level (hrank : 0 < rank) (hfinite : rank < infinityRank) (hnum : num ≠ 0) (hden : den ≠ 0)
    (h : Near rank ((num : ℚ) / den)) (hscale : HasScale ((num : ℚ) / den) (exponent rank)) :
    rankOfRatio num den = rank := by
  have ht := Decimal.quarter_pos rank
  have hbelow := h.below
  have habove := h.above
  have hlow := le_low hrank
  rw [high_eq] at habove
  have hwhole : (2 : ℚ) ^ exponent rank = 2 ^ 2 * quarter rank :=
    two_zpow_exponent rank 2 (by push_cast; ring)
  have hfull : (0 : ℚ) < 2 ^ 2 * quarter rank := by positivity
  refine rankOfRatio_of_scale (m := significand rank) hnum hden hscale ?_ ?_ ?_ (rank_eq rank) hfinite
  · rw [hwhole, le_div_iff₀ hfull]
    nlinarith
  · rw [hwhole, div_le_iff₀ hfull]
    linarith
  · rw [hwhole, div_eq_iff hfull.ne', div_eq_iff hfull.ne']
    rintro (heq | heq)
    · refine h.even (.inl (le_antisymm ?_ hbelow))
      nlinarith
    · refine h.even (.inr ?_)
      rw [heq, high_eq]
      ring

/-- Just below a power of two a number is found at the scale below. -/
theorem rankOfRatio_of_narrow (hrank : 0 < rank) (hfinite : rank < infinityRank) (hnum : num ≠ 0) (hden : den ≠ 0)
    (h : Near rank ((num : ℚ) / den)) (hexponent : exponent rank ≠ -1074)
    (hx : (num : ℚ) / den < 2 ^ (exponent rank + 52)) : rankOfRatio num den = rank := by
  have ht := Decimal.quarter_pos rank
  have hbelow := h.below
  obtain ⟨hm, hlowest⟩ := narrow_of_lt hrank h hexponent hx
  have hhalf : (2 : ℚ) ^ (exponent rank - 1) = 2 ^ 1 * quarter rank :=
    two_zpow_exponent rank 1 (by push_cast; ring)
  have hfull : (0 : ℚ) < 2 ^ 1 * quarter rank := by positivity
  have hlowest : (low rank : ℚ) = 2 ^ 54 - 1 := by
    rw [hlowest]
    norm_num [binade]
  have hleast := le_exponent rank
  have hscaled : HasScale ((num : ℚ) / den) (exponent rank - 1) := by
    refine ⟨by omega, ?_, .inr ?_⟩
    · rwa [show exponent rank - 1 + 53 = exponent rank + 52 by ring]
    · rw [two_zpow_exponent rank 53 (by push_cast; ring)]
      refine le_trans (mul_le_mul_of_nonneg_right ?_ ht.le) hbelow
      rw [hlowest]
      norm_num
  rw [hlowest] at hbelow
  rw [two_zpow_exponent rank 54 (by push_cast; ring)] at hx
  refine rankOfRatio_of_scale (m := 2 * binade) hnum hden hscaled ?_ ?_ (fun _ => by decide) ?_ hfinite
  · rw [hhalf, le_div_iff₀ hfull]
    norm_num [binade]
    linarith
  · rw [hhalf, div_le_iff₀ hfull]
    norm_num [binade]
    linarith
  · have hrankEq := rank_eq rank
    rw [hm, show (exponent rank + 1074).toNat = (exponent rank - 1 + 1074).toNat + 1 by omega, Nat.add_mul] at hrankEq
    omega

theorem rankOfRatio_of_near (hrank : 0 < rank) (hfinite : rank < infinityRank) (hnum : num ≠ 0) (hden : den ≠ 0)
    (h : Near rank ((num : ℚ) / den)) : rankOfRatio num den = rank := by
  by_cases hscale : exponent rank = -1074 ∨ (2 : ℚ) ^ (exponent rank + 52) ≤ num / den
  case pos =>
    exact rankOfRatio_of_level hrank hfinite hnum hden h ⟨le_exponent rank, lt_of_near_exponent h, hscale⟩
  case neg =>
    rw [not_or, not_le] at hscale
    exact rankOfRatio_of_narrow hrank hfinite hnum hden h hscale.1 hscale.2

/-! ### Decimals -/

theorem le_of_near (hrank : 0 < rank) (h : Near rank x) : (2 : ℚ) ^ (-1075 : ℤ) ≤ x := by
  have ht := Decimal.quarter_pos rank
  have hlow : (2 : ℚ) ≤ low rank := by
    have hbound := (low_bounds hrank).1
    have hpos := significand_pos hrank
    exact_mod_cast (show 2 ≤ low rank by omega)
  calc (2 : ℚ) ^ (-1075 : ℤ) ≤ 2 ^ (exponent rank - 1) :=
        zpow_le_zpow_right₀ (by norm_num) (by have := le_exponent rank; omega)
    _ = 2 ^ 1 * quarter rank := two_zpow_exponent rank 1 (by push_cast; ring)
    _ ≤ low rank * quarter rank := mul_le_mul_of_nonneg_right (by linarith) ht.le
    _ ≤ x := h.below

theorem lt_of_near (hfinite : rank < infinityRank) (h : Near rank x) : x < (2 : ℚ) ^ (1024 : ℤ) :=
  (lt_of_near_exponent h).trans_le
    (zpow_le_zpow_right₀ (by norm_num) (by have := exponent_le hfinite; omega))

theorem decimal_bounds {digits : Nat} (h : digits ≠ 0) (exp : ℤ) :
    (10 : ℚ) ^ (exp + decimalWidth digits - 1) ≤ digits * 10 ^ exp ∧
      digits * (10 : ℚ) ^ exp < 10 ^ (exp + decimalWidth digits) := by
  have hwidth : 0 < decimalWidth digits := Nat.length_toDigits_pos
  have hpos : (0 : ℚ) < 10 ^ exp := by positivity
  constructor
  · have hlow : Nat.pow 10 (decimalWidth digits - 1) ≤ digits := by
      by_cases hone : decimalWidth digits = 1
      · rw [hone]
        exact Nat.pos_of_ne_zero h
      · by_contra hless
        have hshort := (Text.Integer.decimalWidth_le_iff (by omega)).mpr (Nat.not_le.mp hless)
        omega
    rw [show exp + (decimalWidth digits : ℤ) - 1 = ((decimalWidth digits - 1 : ℕ) : ℤ) + exp by omega,
      zpow_add₀ (by norm_num), zpow_natCast]
    gcongr
    exact_mod_cast hlow
  · have hhigh : digits < Nat.pow 10 (decimalWidth digits) := (Text.Integer.decimalWidth_le_iff hwidth).mp le_rfl
    rw [add_comm exp, zpow_add₀ (by norm_num), zpow_natCast]
    gcongr
    exact_mod_cast hhigh

/-- Powers compared by blocks of factors. -/
theorem two_lt_ten {a b k : Nat} (h : (2 : ℚ) ^ a < 10 ^ b) (hk : k ≠ 0) :
    (2 : ℚ) ^ ((a * k : ℕ) : ℤ) < 10 ^ ((b * k : ℕ) : ℤ) := by
  rw [zpow_natCast, zpow_natCast, pow_mul, pow_mul]
  exact pow_lt_pow_left₀ h (by positivity) hk

/-- A decimal that lies between the midpoints around a number is read as this number. -/
theorem rankOfDecimal_of_near (hrank : 0 < rank) (hfinite : rank < infinityRank) {digits : Nat} {exp : ℤ}
    (h : Near rank (Decimal.value ⟨digits, exp⟩)) : rankOfDecimal digits exp = rank := by
  have hleast := le_of_near hrank h
  have hmost := lt_of_near hfinite h
  rw [Decimal.value] at hleast hmost h
  dsimp only at hleast hmost h
  have hdigits : digits ≠ 0 := by
    rintro rfl
    have hpos : (0 : ℚ) < 2 ^ (-1075 : ℤ) := by positivity
    rw [Nat.cast_zero, zero_mul] at hleast
    exact absurd hpos (not_lt.mpr hleast)
  obtain ⟨hlow, hhigh⟩ := decimal_bounds hdigits exp
  have hsmall : ¬ exp + decimalWidth digits < -400 := by
    intro htop
    have hpow : (10 : ℚ) ^ (exp + decimalWidth digits) ≤ 10 ^ (-400 : ℤ) :=
      zpow_le_zpow_right₀ (by norm_num) (by omega)
    have hblocks : (2 : ℚ) ^ (1075 : ℤ) < 10 ^ (400 : ℤ) :=
      two_lt_ten (k := 25) (a := 43) (b := 16) (by norm_num) (by decide)
    have htiny : (10 : ℚ) ^ (-400 : ℤ) < 2 ^ (-1075 : ℤ) := by
      rw [zpow_neg, zpow_neg]
      exact inv_strictAnti₀ (by positivity) hblocks
    exact absurd (hleast.trans_lt (hhigh.trans_le hpow)) (not_lt.mpr htiny.le)
  have hlarge : ¬ 400 < exp + decimalWidth digits := by
    intro htop
    have hpow : (10 : ℚ) ^ (400 : ℤ) ≤ 10 ^ (exp + decimalWidth digits - 1) :=
      zpow_le_zpow_right₀ (by norm_num) (by omega)
    have hhuge : (2 : ℚ) ^ (1024 : ℤ) < 10 ^ (400 : ℤ) :=
      two_lt_ten (k := 16) (a := 64) (b := 25) (by norm_num) (by decide)
    exact absurd ((hpow.trans hlow).trans_lt hmost) (not_lt.mpr hhuge.le)
  have hten : 0 < Nat.pow 10 (-exp).toNat := Nat.pow_pos (by decide)
  have hratio : ((digits * Nat.pow 10 exp.toNat : ℕ) : ℚ) / ((Nat.pow 10 (-exp).toNat : ℕ) : ℚ) = digits * 10 ^ exp := by
    have hsplit := zpow_mul_toNat (b := 10) (by norm_num) exp
    rw [div_eq_iff (Nat.cast_ne_zero.mpr hten.ne')]
    simp only [Nat.pow_eq]
    push_cast
    rw [← hsplit]
    ring
  rw [rankOfDecimal, if_neg (by simp [hdigits, hsmall]), if_neg hlarge]
  refine rankOfRatio_of_near hrank hfinite ?_ hten.ne' (hratio ▸ h)
  exact (Nat.mul_pos (Nat.pos_of_ne_zero hdigits) (Nat.pow_pos (by decide))).ne'

end Transact.Double
