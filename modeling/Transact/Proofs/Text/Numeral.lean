import Transact.Proofs.Text.Blank
import Transact.Proofs.Text.Integer

/-! Which texts are numerals, and of which numbers: the digits of a number's decimal text, from any script, behind any
number of zeros and with single underscores between them. The reader takes these, with a sign, and no others. -/
namespace Transact.Text

variable {c : Char} {cs text : List Char} {p : Char → Bool}

/-! ### Digits -/

theorem exists_zero_of_digit? {d : Nat} (h : digit? c = some d) : ∃ z ∈ digitZeros, c.toNat = z + d ∧ d < 10 := by
  have hlt := digit?_lt h
  simp only [digit?, Option.map_eq_some_iff] at h
  obtain ⟨z, hz, rfl⟩ := h
  have hin := List.find?_some hz
  simp only [Bool.and_eq_true, decide_eq_true_eq] at hin
  exact ⟨z, List.mem_of_find?_eq_some hz, by omega, hlt⟩

theorem isBlank_of_digit? {d : Nat} (h : digit? c = some d) : isBlank c = false := by
  have hapart : ∀ z ∈ digitZeros, ∀ d < 10, (separatorRanges ++ spaceRanges).has (z + d) = false := by decide +kernel
  obtain ⟨z, hz, hcode, hd⟩ := exists_zero_of_digit? h
  rw [isBlank, hcode]
  exact hapart z hz d hd

namespace Integer

variable {ds : List Nat} {n : Nat}

/-- Digits of any script with single underscores between them, and their values. -/
inductive Spells : List Char → List Nat → Prop where
  | last {c : Char} {d : Nat} (hc : digit? c = some d) : Spells [c] [d]
  | next {c : Char} {d : Nat} {cs : List Char} {ds : List Nat} (hc : digit? c = some d) (rest : Spells cs ds) :
      Spells (c :: cs) (d :: ds)
  | apart {c : Char} {d : Nat} {cs : List Char} {ds : List Nat} (hc : digit? c = some d) (rest : Spells cs ds) :
      Spells (c :: '_' :: cs) (d :: ds)

namespace Spells

theorem first (h : Spells cs ds) : ∃ c rest d, cs = c :: rest ∧ digit? c = some d := by
  cases h with
  | last hc | next hc | apart hc => exact ⟨_, _, _, rfl, hc⟩

theorem last_digit (h : Spells cs ds) : ∀ c ∈ cs.getLast?, ∃ d, digit? c = some d := by
  induction h with
  | last hc =>
    rintro c hlast
    obtain rfl := Option.some.inj hlast
    exact ⟨_, hc⟩
  | next hc rest ih | apart hc rest ih =>
    obtain ⟨c', rest', d', rfl, -⟩ := rest.first
    simpa [List.getLast?_cons_cons] using ih

theorem isNumeralChar (h : Spells cs ds) : ∀ c ∈ cs, isNumeralChar c = true := by
  have hdigit {c : Char} {d : Nat} (hc : digit? c = some d) : Integer.isNumeralChar c = true := by
    simp [Integer.isNumeralChar, hc]
  induction h with
  | last hc => exact List.forall_mem_singleton.mpr (hdigit hc)
  | next hc rest ih => exact List.forall_mem_cons.mpr ⟨hdigit hc, ih⟩
  | apart hc rest ih =>
    exact List.forall_mem_cons.mpr ⟨hdigit hc, List.forall_mem_cons.mpr ⟨by decide, ih⟩⟩

theorem ne_nil (h : Spells cs ds) : ds ≠ [] := by
  cases h <;> simp

theorem digits? (h : Spells cs ds) : digits? cs = some ds := by
  induction h with
  | last hc => simp [Integer.digits?, hc]
  | next hc rest ih =>
    obtain ⟨c', rest', d', rfl, hc'⟩ := rest.first
    have hlow : c' ≠ '_' := by
      rintro rfl
      cases (show Text.digit? '_' = none by decide +kernel).symm.trans hc'
    rw [Integer.digits?, hc, ih]
    · rfl
    · simp
    · rintro tail heq
      exact hlow (List.cons.inj heq).1
  | apart hc rest ih =>
    rw [Integer.digits?, hc, ih]
    rfl

end Spells

theorem digits?_eq_some_iff : digits? cs = some ds ↔ Spells cs ds := by
  refine ⟨fun h => ?_, Spells.digits?⟩
  fun_induction digits? cs generalizing ds with
  | case1 => cases h
  | case2 c =>
    obtain ⟨d, hd, rfl⟩ := Option.map_eq_some_iff.mp h
    exact .last hd
  | case3 c rest ih =>
    obtain ⟨d, hd, h⟩ := Option.bind_eq_some_iff.mp h
    obtain ⟨ds', hds, h⟩ := Option.bind_eq_some_iff.mp h
    cases h
    exact .apart hd (ih hds)
  | case4 c rest _ _ ih =>
    obtain ⟨d, hd, h⟩ := Option.bind_eq_some_iff.mp h
    obtain ⟨ds', hds, h⟩ := Option.bind_eq_some_iff.mp h
    cases h
    exact .next hd (ih hds)

/-! ### Decimal texts -/

/-- The digits of a number's decimal text. -/
def decimal (n : Nat) : List Nat := (toString n).toList.map fun c => c.toNat - 0x30

theorem decimal_eq (n : Nat) : decimal n = (Nat.toDigits 10 n).map fun c => c.toNat - 0x30 := by
  rw [decimal, Nat.toString_eq_repr, Nat.repr_eq_ofList_toDigits, String.toList_ofList]

theorem length_decimal (n : Nat) : (decimal n).length = Double.decimalWidth n := by
  rw [decimal_eq, List.length_map, Double.decimalWidth]

theorem value_decimal (n : Nat) : value (decimal n) = n := by
  rw [decimal_eq, value_eq_ofDigitChars, Nat.ofDigitChars_ten_toDigits]

theorem value_zeros (zeros : Nat) (ds : List Nat) : value (List.replicate zeros 0 ++ ds) = value ds := by
  induction zeros with
  | zero => rfl
  | succ zeros ih => exact ih

theorem value_concat (ds : List Nat) (d : Nat) : value (ds ++ [d]) = 10 * value ds + d := by
  rw [value, List.foldl_append]
  rfl

theorem decimal_digit {d : Nat} (h : d < 10) : decimal d = [d] := by
  revert d
  decide

theorem decimal_concat {d : Nat} (hn : 0 < n) (hd : d < 10) : decimal (10 * n + d) = decimal n ++ [d] := by
  rw [decimal_eq, ← Nat.toDigits_append_toDigits (by decide) hn hd, List.map_append, ← decimal_eq, ← decimal_eq,
    decimal_digit hd]

/-- Digits are those of the decimal text of their value, behind zeros. -/
theorem exists_zeros (hne : ds ≠ []) (h : ∀ d ∈ ds, d < 10) :
    ∃ zeros, ds = List.replicate zeros 0 ++ decimal (value ds) := by
  induction ds using List.reverseRecOn with
  | nil => exact absurd rfl hne
  | append_singleton ds d ih =>
    have hd : d < 10 := h d (by simp)
    by_cases hds : ds = []
    · subst hds
      have hvalue : value ([] ++ [d]) = d := Nat.zero_add d
      exact ⟨0, by rw [hvalue, decimal_digit hd]; rfl⟩
    · obtain ⟨zeros, hzeros⟩ := ih hds fun e he => h e (List.mem_append_left _ he)
      rw [value_concat]
      by_cases hzero : value ds = 0
      · rw [hzero, decimal_digit (by decide)] at hzeros
        refine ⟨zeros + 1, ?_⟩
        rw [hzero, Nat.mul_zero, Nat.zero_add, decimal_digit hd, List.replicate_succ', ← hzeros]
      · refine ⟨zeros, ?_⟩
        rw [decimal_concat (Nat.pos_of_ne_zero hzero) hd, ← List.append_assoc, ← hzeros]

/-- The decimal text of a number in any digits, behind any number of zeros, with single underscores between digits,
and with no more digits than a numeral may have. -/
def Numeral (n : Nat) (cs : List Char) : Prop :=
  ∃ zeros, Spells cs (List.replicate zeros 0 ++ decimal n) ∧ zeros + (decimal n).length ≤ maxDigits

theorem numeral_iff : Numeral n cs ↔ ∃ ds, Spells cs ds ∧ ds.length ≤ maxDigits ∧ value ds = n := by
  constructor
  · rintro ⟨zeros, hspells, hlength⟩
    exact ⟨_, hspells, by simpa using hlength, by rw [value_zeros, value_decimal]⟩
  · rintro ⟨ds, hspells, hlength, rfl⟩
    obtain ⟨zeros, hzeros⟩ := exists_zeros hspells.ne_nil (digits?_lt hspells.digits?)
    refine ⟨zeros, hzeros ▸ hspells, ?_⟩
    rw [hzeros] at hlength
    simpa using hlength

/-! ### Signs -/

/-- What stands in front of a number's numeral: a plus sign, or nothing, where it is not negative. -/
inductive Sign : Int → List Char → Prop where
  | none {n : Int} (h : 0 ≤ n) : Sign n []
  | plus {n : Int} (h : 0 ≤ n) : Sign n ['+']
  | minus {n : Int} (h : n < 0) : Sign n ['-']

/-- The text is written for the number. -/
def Written (n : Int) (cs : List Char) : Prop := ∃ sign body, cs = sign ++ body ∧ Sign n sign ∧ Numeral n.natAbs body

/-- Zero with a minus sign: no number is written so. -/
def MinusZero (cs : List Char) : Prop := ∃ body, cs = '-' :: body ∧ Numeral 0 body

theorem Numeral.ne_nil (h : Numeral n cs) : cs ≠ [] := by
  obtain ⟨zeros, hspells, -⟩ := h
  obtain ⟨c, rest, d, rfl, -⟩ := hspells.first
  exact List.cons_ne_nil c rest

theorem isTrimmed_signed {sign : List Char} (hsign : ∀ c ∈ sign, isBlank c = false) (h : Numeral n cs) :
    IsTrimmed isBlank (sign ++ cs) := by
  obtain ⟨zeros, hspells, -⟩ := h
  obtain ⟨c, rest, d, rfl, hc⟩ := hspells.first
  constructor
  · intro e he
    cases sign with
    | nil =>
      obtain rfl := Option.some.inj he
      exact isBlank_of_digit? hc
    | cons s sign =>
      obtain rfl := Option.some.inj he
      exact hsign s List.mem_cons_self
  · intro e he
    rw [List.getLast?_append_of_ne_nil _ (List.cons_ne_nil c rest)] at he
    obtain ⟨d, hd⟩ := hspells.last_digit e he
    exact isBlank_of_digit? hd

theorem Written.isTrimmed {n : Int} (h : Written n cs) : IsTrimmed isBlank cs := by
  obtain ⟨sign, body, rfl, hsign, hbody⟩ := h
  refine isTrimmed_signed ?_ hbody
  cases hsign with
  | none => simp
  | plus | minus => simp; decide

theorem Written.ne_nil {n : Int} (h : Written n cs) : cs ≠ [] := by
  obtain ⟨sign, body, rfl, -, hbody⟩ := h
  exact List.append_ne_nil_of_right_ne_nil sign hbody.ne_nil

theorem MinusZero.isTrimmed (h : MinusZero cs) : IsTrimmed isBlank cs := by
  obtain ⟨body, rfl, hbody⟩ := h
  have hsigned : IsTrimmed isBlank (['-'] ++ body) := isTrimmed_signed (by simp; decide) hbody
  exact hsigned

theorem MinusZero.ne_nil (h : MinusZero cs) : cs ≠ [] := by
  obtain ⟨body, rfl, -⟩ := h
  exact List.cons_ne_nil '-' body

theorem numeral_toDigits (h : (decimal n).length ≤ maxDigits) : Numeral n (Nat.toDigits 10 n) := by
  have hdigits : ∀ c ∈ Nat.toDigits 10 n, c.isDigit = true :=
    fun c hc => Nat.isDigit_of_mem_toDigits (by decide) (by decide) hc
  have hspells := digits?_eq_some_iff.mp (digits?_of_isDigit Nat.toDigits_ne_nil hdigits)
  rw [← decimal_eq] at hspells
  exact ⟨0, hspells, by simpa using h⟩

/-- The text of a number is written for it. -/
theorem written_toString {n : Int} (h : (decimal n.natAbs).length ≤ maxDigits) : Written n (toString n).toList := by
  cases n with
  | ofNat n => exact ⟨[], _, toList_toString_ofNat n, .none (Int.natCast_nonneg n), numeral_toDigits h⟩
  | negSucc n => exact ⟨['-'], _, toList_toString_neg n, .minus (Int.negSucc_lt_zero n), numeral_toDigits h⟩

/-! ### The reader -/

theorem unsign_numeral (h : Numeral n cs) : unsign cs = (false, cs) := by
  obtain ⟨zeros, hspells, -⟩ := h
  obtain ⟨c, rest, d, rfl, hc⟩ := hspells.first
  unfold unsign
  split
  · rename_i heq
    rw [(List.cons.inj heq).1] at hc
    cases (show digit? '-' = none by decide +kernel).symm.trans hc
  · rename_i heq
    rw [(List.cons.inj heq).1] at hc
    cases (show digit? '+' = none by decide +kernel).symm.trans hc
  · rfl

theorem Numeral.unique {m : Nat} (hn : Numeral n cs) (hm : Numeral m cs) : n = m := by
  obtain ⟨ds, hspells, -, rfl⟩ := numeral_iff.mp hn
  obtain ⟨es, hspells', -, rfl⟩ := numeral_iff.mp hm
  rw [Option.some.inj (hspells.digits?.symm.trans hspells'.digits?)]

theorem MinusZero.not_written {n : Int} (h : MinusZero cs) : ¬ Written n cs := by
  obtain ⟨body, rfl, hzero⟩ := h
  rintro ⟨sign, rest, hcs, hsign, hrest⟩
  cases hsign with
  | none =>
    rw [List.nil_append] at hcs
    rw [← hcs] at hrest
    cases unsign_numeral hrest
  | plus => cases (List.cons.inj hcs).1
  | minus hn =>
    obtain rfl : body = rest := (List.cons.inj hcs).2
    have habs := hzero.unique hrest
    omega

theorem unsign_cases (cs : List Char) :
    (∃ rest, cs = '-' :: rest ∧ unsign cs = (true, rest)) ∨
      ∃ sign rest, cs = sign ++ rest ∧ (sign = [] ∨ sign = ['+']) ∧ unsign cs = (false, rest) := by
  unfold unsign
  split
  · exact .inl ⟨_, rfl, rfl⟩
  · exact .inr ⟨['+'], _, rfl, .inr rfl, rfl⟩
  · exact .inr ⟨[], _, rfl, .inl rfl, rfl⟩

theorem last_unsign : ∀ c ∈ (unsign cs).2.getLast?, c ∈ cs.getLast? := by
  intro c hc
  rcases unsign_cases cs with ⟨rest, hcs, hrest⟩ | ⟨sign, rest, hcs, -, hrest⟩
  · rw [hrest] at hc
    rw [hcs, ← List.singleton_append, List.getLast?_append, hc]
    rfl
  · rw [hrest] at hc
    rw [hcs, List.getLast?_append, hc]
    rfl

theorem isSpace_of_isBlank (h : isBlank c = false) : isSpace c = false := by
  by_contra hspace
  rw [isBlank_of_isSpace (by simpa using hspace)] at h
  cases h

/-- The text is one run of numeral characters, if all behind the first run is blank but the last character is not. -/
theorem takeWhile_of_solid {q : Char → Bool} (hlast : ∀ c ∈ cs.getLast?, q c = false)
    (h : (cs.dropWhile p).all q = true) : cs.takeWhile p = cs := by
  have hsplit := List.takeWhile_append_dropWhile (p := p) (l := cs)
  cases hrest : cs.dropWhile p with
  | nil => rwa [hrest, List.append_nil] at hsplit
  | cons d rest =>
    have hne : d :: rest ≠ [] := List.cons_ne_nil d rest
    have hmem : (d :: rest).getLast hne ∈ cs.getLast? := by
      rw [← hsplit, hrest, List.getLast?_append_of_ne_nil _ hne]
      exact List.getLast?_eq_some_getLast hne
    rw [hrest] at h
    cases (hlast _ hmem).symm.trans (List.all_eq_true.mp h _ (List.getLast_mem hne))

/-- Where the text has no blanks at its ends, all that stands behind the sign is the numeral. -/
theorem readAs_eq {literal : String} {m : Int} (h : IsTrimmed isBlank cs) :
    readAs literal cs = .ok m ↔ ∃ n, Numeral n (unsign cs).2 ∧ m = signed (unsign cs).1 n := by
  have hfront : cs.dropWhile isSpace = cs := dropWhile_of_head fun c hc => isSpace_of_isBlank (h.first c hc)
  have hlast : ∀ c ∈ (unsign cs).2.getLast?, isSpace c = false :=
    fun c hc => isSpace_of_isBlank (h.last c (last_unsign c hc))
  rw [readAs, hfront]
  dsimp only
  generalize (unsign cs).2 = rest at hlast ⊢
  constructor
  · intro hread
    split at hread
    next => cases hread
    next ds hds =>
      split at hread
      next => cases hread
      next hlength =>
        split at hread
        next hblank =>
          rw [takeWhile_of_solid hlast hblank] at hds
          exact ⟨_, numeral_iff.mpr ⟨ds, digits?_eq_some_iff.mp hds, Nat.le_of_not_lt hlength, rfl⟩,
            (Except.ok.inj hread).symm⟩
        next => cases hread
  · rintro ⟨n, hn, rfl⟩
    obtain ⟨ds, hspells, hlength, rfl⟩ := numeral_iff.mp hn
    rw [List.takeWhile_eq_self_iff.mpr hspells.isNumeralChar, List.dropWhile_eq_nil_iff.mpr hspells.isNumeralChar,
      hspells.digits?]
    dsimp only
    rw [if_neg (Nat.not_lt.mpr hlength)]
    rfl

/-- What is read is what is written for a number, and zero with a minus sign. -/
theorem readAs_eq_ok_iff {literal : String} {m : Int} (h : IsTrimmed isBlank cs) :
    readAs literal cs = .ok m ↔ Written m cs ∨ m = 0 ∧ MinusZero cs := by
  rw [readAs_eq h]
  constructor
  · rintro ⟨n, hn, rfl⟩
    rcases unsign_cases cs with ⟨rest, rfl, hrest⟩ | ⟨sign, rest, rfl, hsign, hrest⟩
    · rw [hrest] at hn ⊢
      rcases Nat.eq_zero_or_pos n with rfl | hpos
      · exact .inr ⟨rfl, rest, rfl, hn⟩
      · refine .inl ⟨['-'], rest, rfl, .minus ?_, ?_⟩
        · simpa [signed] using hpos
        · simpa [signed] using hn
    · rw [hrest] at hn ⊢
      refine .inl ⟨sign, rest, rfl, ?_, hn⟩
      rcases hsign with rfl | rfl
      · exact .none (Int.natCast_nonneg n)
      · exact .plus (Int.natCast_nonneg n)
  · rintro (⟨sign, body, rfl, hsign, hbody⟩ | ⟨rfl, body, rfl, hbody⟩)
    · cases hsign with
      | none hm =>
        refine ⟨m.natAbs, ?_, ?_⟩
        · rwa [List.nil_append, unsign_numeral hbody]
        · rw [List.nil_append, unsign_numeral hbody]
          exact (Int.natAbs_of_nonneg hm).symm
      | plus hm => exact ⟨m.natAbs, hbody, (Int.natAbs_of_nonneg hm).symm⟩
      | minus hm =>
        refine ⟨m.natAbs, hbody, ?_⟩
        change m = -(m.natAbs : Int)
        omega
    · exact ⟨0, hbody, rfl⟩

theorem read_eq_ok_iff {m : Int} (h : IsTrimmed isBlank cs) :
    read (String.ofList cs) = .ok m ↔ Written m cs ∨ m = 0 ∧ MinusZero cs := by
  rw [read, String.toList_ofList]
  exact readAs_eq_ok_iff h

/-- The text of a number is read as that number. -/
theorem read_toString {n : Int} (h : Double.decimalWidth n.natAbs ≤ maxDigits) : read (toString n) = .ok n := by
  have hwritten : Written n (toString n).toList := written_toString (by rwa [length_decimal])
  have hread := (read_eq_ok_iff hwritten.isTrimmed).mpr (.inl hwritten)
  rwa [String.ofList_toList] at hread

end Integer
end Transact.Text
