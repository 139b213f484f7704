import Transact.Proofs.Decimal.Rounding
import Transact.Proofs.Decimal.Shortest
import Transact.Proofs.Json.Quoted
import Transact.Decimal.Notation

/-! A number is read back from its text, where nothing follows that could belong to it. -/
namespace Transact.Json

open Text (span_append isDigit_iff)

variable {ds whole places rest tail : List Char} {negative : Bool}

/-! ### Digits -/

theorem digitsValue_eq (cs : List Char) : digitsValue cs = Nat.ofDigitChars 10 cs 0 := by
  rw [digitsValue, Nat.ofDigitChars_eq_foldl]
  rfl

theorem digitsValue_append (a b : List Char) :
    digitsValue (a ++ b) = Nat.pow 10 b.length * digitsValue a + digitsValue b := by
  rw [digitsValue_eq, digitsValue_eq, digitsValue_eq, Nat.ofDigitChars_append, Nat.ofDigitChars_eq_ofDigitChars_zero]
  rfl

theorem digitsValue_zeros (n : Nat) : digitsValue (List.replicate n '0') = 0 := by
  rw [digitsValue_eq, Nat.ofDigitChars_replicate_zero, Nat.mul_zero]

theorem toList_toString (n : Nat) : (toString n).toList = Nat.toDigits 10 n := by
  rw [Nat.toString_eq_repr, Nat.repr_eq_ofList_toDigits, String.toList_ofList]

theorem digitsValue_toString (n : Nat) : digitsValue (toString n).toList = n := by
  rw [toList_toString, digitsValue_eq, Nat.ofDigitChars_ten_toDigits]

theorem isDigit_toString {n : Nat} : ∀ c ∈ (toString n).toList, c.isDigit = true := by
  rw [toList_toString]
  exact fun c hc => Nat.isDigit_of_mem_toDigits (by decide) (by decide) hc

theorem toString_ne_nil (n : Nat) : (toString n).toList ≠ [] := by
  rw [toList_toString]
  exact Nat.toDigits_ne_nil

/-- What may follow a value: a comma, the end of a list or an object, or nothing. -/
def Stops (cs : List Char) : Prop := ∀ d ∈ cs.head?, d = ',' ∨ d = ']' ∨ d = '}'

theorem Stops.isDigit (h : Stops rest) : ∀ d ∈ rest.head?, d.isDigit = false := by
  intro d hd
  rcases h d hd with rfl | rfl | rfl <;> rfl

/-! ### Numerals -/

theorem spanDigits_append (hds : ∀ c ∈ ds, c.isDigit = true) (hrest : ∀ d ∈ rest.head?, d.isDigit = false) :
    spanDigits (ds ++ rest) = (ds, rest) := span_append hds hrest

theorem fraction_none (h : ∀ d ∈ rest.head?, d ≠ '.') : fraction rest = ([], rest) := by
  unfold fraction
  split
  · exact absurd rfl (h '.' rfl)
  · rfl

theorem fraction_some (hne : places ≠ []) (hplaces : ∀ c ∈ places, c.isDigit = true)
    (hrest : ∀ d ∈ rest.head?, d.isDigit = false) : fraction ('.' :: (places ++ rest)) = (places, rest) := by
  rw [fraction, spanDigits_append hplaces hrest, if_neg (by simpa using hne)]

theorem exponent?_none (h : Stops rest) : exponent? rest = (none, rest) := by
  unfold exponent?
  split
  · rename_i d rest
    rcases h d rfl with rfl | rfl | rfl <;> rfl
  · rfl

theorem exponent?_some (hne : ds ≠ []) (hds : ∀ c ∈ ds, c.isDigit = true) (hrest : Stops rest) (below : Bool) :
    exponent? ('e' :: (if below then '-' else '+') :: (ds ++ rest)) =
      (some (if below then -(digitsValue ds : Int) else digitsValue ds), rest) := by
  have hspan := spanDigits_append hds hrest.isDigit
  cases below <;> simp [exponent?, exponentSign, hspan, hne]

theorem parseMagnitude_int (hne : whole ≠ []) (hwhole : ∀ c ∈ whole, c.isDigit = true) (hrest : Stops rest) :
    parseMagnitude negative (whole ++ rest) =
      some (.int (if negative then -(digitsValue whole : Int) else digitsValue whole), rest) := by
  have hpoint : ∀ d ∈ rest.head?, d ≠ '.' := by
    intro d hd heq
    rcases hrest d hd with h | h | h <;> simp [h] at heq
  rw [parseMagnitude, spanDigits_append hwhole hrest.isDigit]
  dsimp only
  rw [if_neg (by simpa using hne), fraction_none hpoint]
  dsimp only
  rw [exponent?_none hrest]
  rfl

theorem parseMagnitude_point (hwholeNe : whole ≠ []) (hwhole : ∀ c ∈ whole, c.isDigit = true) (hplacesNe : places ≠ [])
    (hplaces : ∀ c ∈ places, c.isDigit = true) (hrest : Stops rest) :
    parseMagnitude negative (whole ++ '.' :: (places ++ rest)) =
      some (.float (.ofDecimal negative (digitsValue (whole ++ places)) (-(places.length : Int))), rest) := by
  rw [parseMagnitude, spanDigits_append hwhole (by simp)]
  dsimp only
  rw [if_neg (by simpa using hwholeNe), fraction_some hplacesNe hplaces hrest.isDigit]
  dsimp only
  rw [exponent?_none hrest]
  dsimp only
  rw [if_neg (by simpa using hplacesNe)]

/-- The places of a mantissa, with the point before them if there are any. -/
def pointText (places : List Char) : List Char := if places.isEmpty then [] else '.' :: places

theorem fraction_pointText (hplaces : ∀ c ∈ places, c.isDigit = true) :
    fraction (pointText places ++ 'e' :: rest) = (places, 'e' :: rest) := by
  rw [pointText]
  split
  · rename_i h
    rw [List.isEmpty_iff.mp h]
    exact fraction_none (by simp)
  · rename_i h
    exact fraction_some (by simpa using h) hplaces (by simp)

theorem parseMagnitude_exponent (hwholeNe : whole ≠ []) (hwhole : ∀ c ∈ whole, c.isDigit = true)
    (hplaces : ∀ c ∈ places, c.isDigit = true) (hne : ds ≠ []) (hds : ∀ c ∈ ds, c.isDigit = true) (hrest : Stops rest)
    (below : Bool) : parseMagnitude negative
      (whole ++ (pointText places ++ 'e' :: (if below then '-' else '+') :: (ds ++ rest))) =
      some (.float (.ofDecimal negative (digitsValue (whole ++ places))
        ((if below then -(digitsValue ds : Int) else digitsValue ds) - places.length)), rest) := by
  have hhead : ∀ d ∈ (pointText places ++ 'e' :: (if below then '-' else '+') :: (ds ++ rest)).head?,
      d.isDigit = false := by
    rw [pointText]
    split <;> simp
  rw [parseMagnitude, spanDigits_append hwhole hhead]
  dsimp only
  rw [if_neg (by simpa using hwholeNe), fraction_pointText hplaces]
  dsimp only
  rw [exponent?_some hne hds hrest]

/-! ### The two forms of a magnitude -/

theorem toList_padLeft (width : Nat) (text : String) :
    (Double.padLeft width text).toList = List.replicate (width - text.length) '0' ++ text.toList := by
  rw [Double.padLeft, Double.zeros, String.toList_append, String.toList_ofList]

theorem digitsValue_padLeft (width n : Nat) : digitsValue (Double.padLeft width (toString n)).toList = n := by
  rw [toList_padLeft, digitsValue_append, digitsValue_zeros, Nat.mul_zero, Nat.zero_add, digitsValue_toString]

theorem isDigit_padLeft (width n : Nat) : ∀ c ∈ (Double.padLeft width (toString n)).toList, c.isDigit = true := by
  rw [toList_padLeft]
  intro c hc
  rcases List.mem_append.mp hc with hc | hc
  · rw [List.eq_of_mem_replicate hc]
    rfl
  · exact isDigit_toString c hc

theorem read_whole (negative : Bool) (digits : Nat) {exp : Int} (hexp : 0 ≤ exp) (hrest : Stops rest) :
    ∃ n e, parseMagnitude negative ((Double.positional (toString digits) exp).toList ++ rest) =
        some (.float (.ofDecimal negative n e), rest) ∧
      Decimal.value ⟨n, e⟩ = Decimal.value ⟨digits, exp⟩ := by
  obtain ⟨k, rfl⟩ := Int.eq_ofNat_of_zero_le hexp
  have hwhole : ∀ c ∈ (toString digits).toList ++ List.replicate k '0', c.isDigit = true := by
    intro c hc
    rcases List.mem_append.mp hc with hc | hc
    · exact isDigit_toString c hc
    · rw [List.eq_of_mem_replicate hc]
      rfl
  have hne : (toString digits).toList ++ List.replicate k '0' ≠ [] :=
    List.append_ne_nil_of_left_ne_nil (toString_ne_nil digits) _
  have htext : (toString digits ++ Double.zeros (Int.toNat k) ++ ".0").toList ++ rest =
      ((toString digits).toList ++ List.replicate k '0') ++ '.' :: (['0'] ++ rest) := by
    simp [Double.zeros, String.toList_append]
  have hdigits : digitsValue ((toString digits).toList ++ List.replicate k '0' ++ ['0']) =
      10 * (Nat.pow 10 k * digits) := by
    rw [digitsValue_append, digitsValue_append, digitsValue_zeros, digitsValue_toString, List.length_replicate]
    rfl
  rw [Double.positional, if_pos hexp, htext, parseMagnitude_point hne hwhole (by simp) (by simp) hrest, hdigits]
  refine ⟨_, _, rfl, ?_⟩
  simp only [Decimal.value, Nat.pow_eq, List.length_singleton, zpow_neg, zpow_natCast]
  push_cast
  ring

theorem read_parts (negative : Bool) (digits : Nat) {exp : Int} (hexp : ¬ 0 ≤ exp) (hrest : Stops rest) :
    ∃ n e, parseMagnitude negative ((Double.positional (toString digits) exp).toList ++ rest) =
        some (.float (.ofDecimal negative n e), rest) ∧
      Decimal.value ⟨n, e⟩ = Decimal.value ⟨digits, exp⟩ := by
  have hlength := congrArg List.length (toList_padLeft ((-exp).toNat + 1) (toString digits))
  have hvalue := digitsValue_padLeft ((-exp).toNat + 1) digits
  have hdigit := isDigit_padLeft ((-exp).toNat + 1) digits
  rw [List.length_append, List.length_replicate, String.length_toList (s := toString digits)] at hlength
  rw [Double.positional, if_neg hexp]
  dsimp only
  generalize (Double.padLeft ((-exp).toNat + 1) (toString digits)).toList = all at *
  have hwhole : all.take (all.length - (-exp).toNat) ≠ [] := by
    rw [← List.length_pos_iff, List.length_take]
    omega
  have hcount : (all.drop (all.length - (-exp).toNat)).length = (-exp).toNat := by
    rw [List.length_drop]
    omega
  have hplaces : all.drop (all.length - (-exp).toNat) ≠ [] := by
    rw [← List.length_pos_iff]
    omega
  have htext : (String.ofList (all.take (all.length - (-exp).toNat)) ++ "." ++
      String.ofList (all.drop (all.length - (-exp).toNat))).toList ++ rest =
      all.take (all.length - (-exp).toNat) ++ '.' :: (all.drop (all.length - (-exp).toNat) ++ rest) := by
    simp [String.toList_append]
  rw [htext, parseMagnitude_point hwhole (fun c hc => hdigit c (List.mem_of_mem_take hc)) hplaces
    (fun c hc => hdigit c (List.mem_of_mem_drop hc)) hrest, List.take_append_drop, hvalue, hcount]
  refine ⟨_, _, rfl, ?_⟩
  rw [show -((-exp).toNat : ℤ) = exp by omega]

theorem read_positional (negative : Bool) (digits : Nat) (exp : Int) (hrest : Stops rest) :
    ∃ n e, parseMagnitude negative ((Double.positional (toString digits) exp).toList ++ rest) =
        some (.float (.ofDecimal negative n e), rest) ∧
      Decimal.value ⟨n, e⟩ = Decimal.value ⟨digits, exp⟩ := by
  by_cases hexp : 0 ≤ exp
  · exact read_whole negative digits hexp hrest
  · exact read_parts negative digits hexp hrest

theorem read_scientific (negative : Bool) (digits : Nat) (lead : Int) (hrest : Stops rest) :
    ∃ n e, parseMagnitude negative ((Double.scientific (toString digits) lead).toList ++ rest) =
        some (.float (.ofDecimal negative n e), rest) ∧
      Decimal.value ⟨n, e⟩ = Decimal.value ⟨digits, lead + 1 - (toString digits).length⟩ := by
  have hdigit := isDigit_toString (n := digits)
  have hvalue := digitsValue_toString digits
  have hlength := String.length_toList (s := toString digits)
  obtain ⟨d, places, hdigits⟩ := List.exists_cons_of_ne_nil (toString_ne_nil digits)
  have htext : (Double.scientific (toString digits) lead).toList ++ rest =
      [d] ++ (pointText places ++ 'e' :: (if decide (lead < 0) then '-' else '+') ::
        ((Double.padLeft 2 (toString lead.natAbs)).toList ++ rest)) := by
    rw [Double.scientific, hdigits]
    cases places with
    | nil => by_cases h : lead < 0 <;> simp [h, String.toList_append, pointText]
    | cons e places => by_cases h : lead < 0 <;> simp [h, String.toList_append, pointText]
  have hpad : (Double.padLeft 2 (toString lead.natAbs)).toList ≠ [] := by
    rw [toList_padLeft]
    exact List.append_ne_nil_of_right_ne_nil _ (toString_ne_nil _)
  rw [hdigits] at hdigit hvalue hlength
  rw [htext, parseMagnitude_exponent (by simp) (by simpa using hdigit d List.mem_cons_self)
    (fun c hc => hdigit c (List.mem_cons_of_mem d hc)) hpad (isDigit_padLeft _ _) hrest, digitsValue_padLeft,
    List.singleton_append, hvalue]
  refine ⟨_, _, rfl, ?_⟩
  rw [← hlength, List.length_cons]
  refine congrArg (fun e => Decimal.value ⟨digits, e⟩) ?_
  by_cases h : lead < 0
  · simp only [h, decide_true, ↓reduceIte]
    omega
  · simp only [h, decide_false, Bool.false_eq_true, ↓reduceIte]
    omega

/-- The text of a finite number reads back to this number. -/
theorem parseMagnitude_magnitudeText {rank : Nat} (hfinite : rank < Double.infinityRank) (hrest : Stops rest) :
    parseMagnitude negative ((Double.magnitudeText rank).toList ++ rest) = some (.float ⟨negative, rank⟩, rest) := by
  rw [Double.magnitudeText]
  split
  · rename_i hzero
    have htext : "0.0".toList ++ rest = ['0'] ++ '.' :: (['0'] ++ rest) := rfl
    rw [htext, parseMagnitude_point (by simp) (by simp) (by simp) (by simp) hrest, hzero]
    rfl
  · rename_i hpos
    have hnear := Decimal.near_shortest (Nat.pos_of_ne_zero hpos)
    have hread {n : Nat} {e : Int} (h : Decimal.value ⟨n, e⟩ = (Decimal.shortest rank).value) :
        Double.ofDecimal negative n e = ⟨negative, rank⟩ := by
      rw [Double.ofDecimal, Double.rankOfDecimal_of_near (Nat.pos_of_ne_zero hpos) hfinite (h ▸ hnear)]
    dsimp only
    split
    · obtain ⟨n, e, hparse, hvalue⟩ := read_positional negative (Decimal.shortest rank).digits
        (Decimal.shortest rank).exp hrest
      rw [hparse, hread hvalue]
    · obtain ⟨n, e, hparse, hvalue⟩ := read_scientific negative (Decimal.shortest rank).digits
        ((Decimal.shortest rank).exp + (toString (Decimal.shortest rank).digits).length - 1) hrest
      rw [show (Decimal.shortest rank).exp + ((toString (Decimal.shortest rank).digits).length : Int) - 1 + 1 -
        (toString (Decimal.shortest rank).digits).length = (Decimal.shortest rank).exp by omega] at hvalue
      rw [hparse, hread hvalue]

/-! ### What is written -/

theorem isPlain_digit {c : Char} (h : c.isDigit = true) : IsPlain c := by
  have hbounds := isDigit_iff.mp h
  exact ⟨by omega, by omega⟩

theorem isPlain_positional (digits : Nat) (exp : Int) :
    ∀ c ∈ (Double.positional (toString digits) exp).toList, IsPlain c := by
  have hdigits : ∀ c ∈ (toString digits).toList, IsPlain c := fun c hc => isPlain_digit (isDigit_toString c hc)
  have hall : ∀ c ∈ (Double.padLeft ((-exp).toNat + 1) (toString digits)).toList, IsPlain c :=
    fun c hc => isPlain_digit (isDigit_padLeft _ _ c hc)
  rw [Double.positional]
  split
  · simp only [String.toList_append, Double.zeros, String.toList_ofList, List.forall_mem_append]
    refine ⟨⟨hdigits, fun c hc => ?_⟩, isPlain_of_all rfl⟩
    rw [List.eq_of_mem_replicate hc]
    decide
  · simp only [String.toList_append, String.toList_ofList, List.forall_mem_append]
    exact ⟨⟨fun c hc => hall c (List.mem_of_mem_take hc), isPlain_of_all rfl⟩,
      fun c hc => hall c (List.mem_of_mem_drop hc)⟩

theorem isPlain_scientific (digits : Nat) (lead : Int) :
    ∀ c ∈ (Double.scientific (toString digits) lead).toList, IsPlain c := by
  have hdigits : ∀ c ∈ (toString digits).toList, IsPlain c := fun c hc => isPlain_digit (isDigit_toString c hc)
  have hpad : ∀ c ∈ (Double.padLeft 2 (toString lead.natAbs)).toList, IsPlain c :=
    fun c hc => isPlain_digit (isDigit_padLeft _ _ c hc)
  rw [Double.scientific]
  simp only [String.toList_append, List.forall_mem_append]
  refine ⟨⟨⟨?_, isPlain_of_all rfl⟩, by split <;> exact isPlain_of_all rfl⟩, hpad⟩
  split
  · exact isPlain_of_all rfl
  · rename_i d hd
    rw [hd] at hdigits
    simpa using hdigits
  · rename_i d rest _ hd
    rw [hd] at hdigits
    rw [String.toList_ofList]
    obtain ⟨hd, hrest⟩ := List.forall_mem_cons.mp hdigits
    exact List.forall_mem_cons.mpr ⟨hd, List.forall_mem_cons.mpr ⟨by decide, hrest⟩⟩

theorem isPlain_magnitudeText (rank : Nat) : ∀ c ∈ (Double.magnitudeText rank).toList, IsPlain c := by
  rw [Double.magnitudeText]
  split
  · exact isPlain_of_all rfl
  · dsimp only
    split
    · exact isPlain_positional _ _
    · exact isPlain_scientific _ _

end Transact.Json
