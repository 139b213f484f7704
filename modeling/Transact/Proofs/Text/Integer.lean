import Transact.Text.Integer
import Transact.Decimal.Double
import Mathlib.Data.List.Induction
import Mathlib.Data.List.TakeDrop
import Mathlib.Data.List.TakeWhile

/-! Decimal digits and the numbers they stand for: no number is read that has more digits than a numeral may have. -/
namespace Transact.Text

variable {c : Char} {cs : List Char}

theorem span_append {a b : List Char} {p : Char → Bool} (ha : ∀ d ∈ a, p d = true) (hb : ∀ d ∈ b.head?, p d = false) :
    (a ++ b).span p = (a, b) := by
  rw [List.span_eq_takeWhile_dropWhile, List.takeWhile_append_of_pos ha, List.dropWhile_append_of_pos ha]
  cases b with
  | nil => simp
  | cons d b => simp [hb d rfl]

theorem isDigit_iff : c.isDigit = true ↔ 0x30 ≤ c.toNat ∧ c.toNat < 0x3A := by
  rw [Char.isDigit, Bool.and_eq_true, decide_eq_true_eq, decide_eq_true_eq, ge_iff_le, UInt32.le_iff_toNat_le,
    UInt32.le_iff_toNat_le]
  exact and_congr_right fun _ => Nat.lt_succ_iff.symm

theorem digit?_of_isDigit (h : c.isDigit = true) : digit? c = some (c.toNat - 0x30) := by
  have hbounds := isDigit_iff.mp h
  simp [digit?, digitZeros, hbounds]

namespace Integer

theorem digits?_of_isDigit (hne : cs ≠ []) (h : ∀ c ∈ cs, c.isDigit = true) :
    digits? cs = some (cs.map fun c => c.toNat - 0x30) := by
  induction cs with
  | nil => exact absurd rfl hne
  | cons c rest ih =>
    have hc := digit?_of_isDigit (h c List.mem_cons_self)
    match rest with
    | [] => simp [digits?, hc]
    | d :: rest =>
      have hd := h d (List.mem_cons_of_mem c List.mem_cons_self)
      have hlow : d ≠ '_' := by
        intro heq
        rw [heq] at hd
        cases hd
      rw [digits?, hc, ih (List.cons_ne_nil d rest) fun e he => h e (List.mem_cons_of_mem c he)]
      · rfl
      · intro heq
        cases heq
      · intro rest' heq
        exact hlow (List.cons.inj heq).1

theorem value_eq_ofDigitChars (cs : List Char) :
    value (cs.map fun c => c.toNat - 0x30) = Nat.ofDigitChars 10 cs 0 := by
  rw [value, List.foldl_map, Nat.ofDigitChars_eq_foldl]
  rfl

theorem digits?_lt {ds : List Nat} (h : digits? cs = some ds) : ∀ d ∈ ds, d < 10 := by
  fun_induction digits? cs generalizing ds with
  | case1 => cases h
  | case2 c =>
    obtain ⟨d, hd, rfl⟩ := Option.map_eq_some_iff.mp h
    simpa using digit?_lt hd
  | case3 c rest ih | case4 c rest _ _ ih =>
    obtain ⟨d, hd, h⟩ := Option.bind_eq_some_iff.mp h
    obtain ⟨ds', hds, h⟩ := Option.bind_eq_some_iff.mp h
    cases h
    exact List.forall_mem_cons.mpr ⟨digit?_lt hd, ih hds⟩

theorem value_lt {ds : List Nat} (h : ∀ d ∈ ds, d < 10) : value ds < Nat.pow 10 ds.length := by
  induction ds using List.reverseRecOn with
  | nil => decide
  | append_singleton ds d ih =>
    have hrest := ih fun e he => h e (List.mem_append_left _ he)
    have hd := h d (by simp)
    rw [value, List.foldl_append, List.foldl_cons, List.foldl_nil, List.length_append]
    change 10 * value ds + d < Nat.pow 10 ds.length * 10
    omega

theorem decimalWidth_le_iff {n k : Nat} (hk : 0 < k) : Double.decimalWidth n ≤ k ↔ n < Nat.pow 10 k :=
  Nat.length_toDigits_le_iff (by decide) hk

theorem decimalWidth_value_le {ds : List Nat} {k : Nat} (hk : 0 < k) (hlength : ds.length ≤ k)
    (h : ∀ d ∈ ds, d < 10) : Double.decimalWidth (value ds) ≤ k := by
  rw [decimalWidth_le_iff hk]
  exact (value_lt h).trans_le (Nat.pow_le_pow_right (by decide) hlength)

theorem toList_toString_ofNat (n : Nat) : (toString (n : Int)).toList = Nat.toDigits 10 n := by
  rw [Int.toString_eq_repr, Int.repr_eq_if, if_pos (Int.natCast_nonneg n), Int.toNat_natCast,
    Nat.repr_eq_ofList_toDigits, String.toList_ofList]

theorem toList_toString_neg (n : Nat) : (toString (-(n + 1 : Nat) : Int)).toList = '-' :: Nat.toDigits 10 (n + 1) := by
  rw [Int.toString_eq_repr, Int.repr_eq_if, if_neg (by omega), Int.neg_neg, Int.toNat_natCast,
    Nat.repr_eq_ofList_toDigits, String.toList_append, String.toList_ofList]
  simp

/-- The digits of a number, and a minus sign. -/
theorem mem_toString {n : Int} (h : c ∈ (toString n).toList) : c = '-' ∨ c.isDigit = true := by
  cases n with
  | ofNat n =>
    rw [show (toString (Int.ofNat n)).toList = _ from toList_toString_ofNat n] at h
    exact .inr (Nat.isDigit_of_mem_toDigits (by decide) (by decide) h)
  | negSucc n =>
    rw [show (toString (Int.negSucc n)).toList = _ from toList_toString_neg n] at h
    rcases List.mem_cons.mp h with h | h
    · exact .inl h
    · exact .inr (Nat.isDigit_of_mem_toDigits (by decide) (by decide) h)

/-- No number that is read has more digits than a numeral may have. -/
theorem width_of_read {text : String} {n : Int} (h : read text = .ok n) : Double.decimalWidth n.natAbs ≤ maxDigits := by
  rw [read, readAs] at h
  dsimp only at h
  split at h
  · cases h
  · rename_i ds hds
    split at h
    · cases h
    · rename_i hlength
      split at h
      · have habs : n.natAbs = value ds := by
          rw [← Except.ok.inj h, signed]
          split <;> simp
        rw [habs]
        exact decimalWidth_value_le (by decide) (Nat.le_of_not_lt hlength) (digits?_lt hds)
      · cases h

end Integer
end Transact.Text
