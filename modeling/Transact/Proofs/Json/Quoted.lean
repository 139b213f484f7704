import Transact.Json.Parser
import Transact.Json.Printer

/-! A text is read back from between its quotes, character by character, and what is written there is plain
ASCII. -/
namespace Transact.Json

variable {c : Char} {n fuel : Nat} {text rest : List Char}

/-! ### Escapes -/

theorem hexValue?_hexDigit : ∀ n < 16, Text.Percent.hexValue? (Text.hexDigit n) = some n := by decide

theorem hex_four (n : Nat) : Text.hex 4 n =
    [Text.hexDigit (n / 16 / 16 / 16 % 16), Text.hexDigit (n / 16 / 16 % 16), Text.hexDigit (n / 16 % 16),
      Text.hexDigit (n % 16)] := rfl

theorem unit?_hex_mod (n : Nat) (rest : List Char) : unit? (Text.hex 4 n ++ rest) = some (n % 0x10000, rest) := by
  have hdigit (k : Nat) := hexValue?_hexDigit (k % 16) (Nat.mod_lt k (by decide))
  rw [hex_four]
  simp only [List.cons_append, List.nil_append, unit?, hdigit, Option.bind_eq_bind, Option.bind_some]
  rw [show ((n / 16 / 16 / 16 % 16 * 16 + n / 16 / 16 % 16) * 16 + n / 16 % 16) * 16 + n % 16 = n % 0x10000 by omega]

theorem unit?_hex (hn : n < 0x10000) (rest : List Char) : unit? (Text.hex 4 n ++ rest) = some (n, rest) := by
  rw [unit?_hex_mod, Nat.mod_eq_of_lt hn]

theorem escaped?_unit (hn : n < 0x10000) (hsurrogate : n < 0xD800 ∨ 0xE000 ≤ n) (rest : List Char) :
    escaped? (Text.hex 4 n ++ rest) = some (Char.ofNat n, rest) := by
  rw [escaped?, unit?_hex hn]
  simp only [Option.bind_eq_bind, Option.bind_some]
  rw [if_neg (by omega), if_neg (by omega)]

theorem lowSurrogate?_unit {low : Nat} (h : low < 0x400) (rest : List Char) :
    lowSurrogate? (unitEscape (0xDC00 + low) ++ rest) = some (low, rest) := by
  rw [unitEscape, List.cons_append, List.cons_append, lowSurrogate?, unit?_hex (by omega)]
  simp only [Option.bind_eq_bind, Option.bind_some]
  rw [if_pos (by omega), Nat.add_sub_cancel_left]

theorem escaped?_pair {high low : Nat} (hhigh : high < 0x400) (hlow : low < 0x400) (rest : List Char) :
    escaped? (Text.hex 4 (0xD800 + high) ++ (unitEscape (0xDC00 + low) ++ rest)) =
      some (Char.ofNat (0x10000 + 0x400 * high + low), rest) := by
  rw [escaped?, unit?_hex (by omega)]
  simp only [Option.bind_eq_bind, Option.bind_some]
  rw [if_pos (by omega), lowSurrogate?_unit hlow, Nat.add_sub_cancel_left]

/-! ### Characters -/

/-- One character in front of what is read. -/
def prepend (c : Char) (read : List Char × List Char) : List Char × List Char := (c :: read.1, read.2)

theorem parseString_simple {e : Char} (he : simpleEscape? e = some c) :
    parseString (fuel + 1) ('\\' :: e :: rest) = (parseString fuel rest).map (prepend c) := by
  have hu : e ≠ 'u' := by
    rintro rfl
    cases he
  rw [parseString, he, Option.map_eq_bind]
  · rfl
  · exact fun heq => hu heq

theorem parseString_unit {cs : List Char} (h : escaped? cs = some (c, rest)) :
    parseString (fuel + 1) ('\\' :: 'u' :: cs) = (parseString fuel rest).map (prepend c) := by
  rw [parseString, h, Option.map_eq_bind]
  rfl

theorem parseString_plain (hquote : c ≠ '"') (hslash : c ≠ '\\') (hc : 0x20 ≤ c.toNat) :
    parseString (fuel + 1) (c :: rest) = (parseString fuel rest).map (prepend c) := by
  rw [parseString, if_neg (by simp [hslash, hc]), Option.map_eq_bind]
  · rfl
  · exact fun heq => hquote heq
  · exact fun _ heq => absurd heq hslash
  · exact fun _ _ heq => absurd heq hslash

theorem toNat_bounds (c : Char) : c.toNat < 0xD800 ∨ 0xE000 ≤ c.toNat ∧ c.toNat < 0x110000 := by
  rcases c.valid with h | ⟨hlow, hhigh⟩
  · exact .inl h
  · exact .inr ⟨Nat.succ_le_of_lt hlow, hhigh⟩

theorem toNat_ofNat : ∀ n < 0x7F, (Char.ofNat n).toNat = n := by decide +kernel

theorem parseString_escapePoint (c : Char) (fuel : Nat) (rest : List Char) :
    parseString (fuel + 1) (escapePoint c.toNat ++ rest) = (parseString fuel rest).map (prepend c) := by
  have hbounds := toNat_bounds c
  have hchar {n : Nat} (h : c.toNat = n) : Char.ofNat n = c := h ▸ Char.ofNat_toNat c
  unfold escapePoint
  split
  · rename_i h
    rcases h with h | h
    · exact parseString_simple (by rw [h, ← hchar h]; rfl)
    · exact parseString_simple (by rw [h, ← hchar h]; rfl)
  rename_i hplain
  rw [not_or] at hplain
  split
  · rename_i h
    rw [Char.ofNat_toNat]
    refine parseString_plain ?_ ?_ h.1
    · rintro rfl
      exact hplain.1 rfl
    · rintro rfl
      exact hplain.2 rfl
  split
  · rename_i h
    exact parseString_simple (by rw [← hchar h]; rfl)
  split
  · rename_i h
    exact parseString_simple (by rw [← hchar h]; rfl)
  split
  · rename_i h
    exact parseString_simple (by rw [← hchar h]; rfl)
  split
  · rename_i h
    exact parseString_simple (by rw [← hchar h]; rfl)
  split
  · rename_i h
    exact parseString_simple (by rw [← hchar h]; rfl)
  split
  · rename_i h
    rw [unitEscape, List.cons_append, List.cons_append, parseString_unit (escaped?_unit h (by omega) rest),
      Char.ofNat_toNat]
  · rename_i h
    have hhigh : (c.toNat - 0x10000) / 0x400 < 0x400 := by omega
    have hlow : (c.toNat - 0x10000) % 0x400 < 0x400 := by omega
    rw [unitEscape, List.append_assoc, List.cons_append, List.cons_append,
      parseString_unit (escaped?_pair hhigh hlow rest), hchar (by omega)]

theorem escapePoint_ne_nil (n : Nat) : escapePoint n ≠ [] := by
  unfold escapePoint
  repeat' split
  all_goals simp [unitEscape]

theorem length_le_escaped (ps : Text.Points) : ps.length ≤ (ps.flatMap escapePoint).length := by
  induction ps with
  | nil => exact Nat.le_refl _
  | cons n ps ih =>
    have hpos := List.length_pos_iff.mpr (escapePoint_ne_nil n)
    rw [List.flatMap_cons, List.length_append, List.length_cons]
    omega

/-- A text is read back up to its closing quote. -/
theorem parseString_points (h : text.length < fuel) (rest : List Char) :
    parseString fuel ((text.map Char.toNat).flatMap escapePoint ++ '"' :: rest) = some (text, rest) := by
  induction text generalizing fuel with
  | nil =>
    obtain ⟨fuel, rfl⟩ := Nat.exists_eq_succ_of_ne_zero (Nat.ne_of_gt h)
    rfl
  | cons c text ih =>
    obtain ⟨fuel, rfl⟩ := Nat.exists_eq_succ_of_ne_zero (Nat.ne_of_gt (Nat.lt_of_le_of_lt (Nat.zero_le _) h))
    rw [List.map_cons, List.flatMap_cons, List.append_assoc, parseString_escapePoint,
      ih (Nat.lt_of_succ_lt_succ h)]
    rfl

theorem parseString_string (s : String) (rest : List Char) :
    parseString (((Text.points s).flatMap escapePoint ++ '"' :: rest).length + 1)
      ((Text.points s).flatMap escapePoint ++ '"' :: rest) = some (s.toList, rest) := by
  refine parseString_points ?_ rest
  have hlength := length_le_escaped (Text.points s)
  have hcount : (Text.points s).length = s.toList.length := List.length_map _
  rw [List.length_append, List.length_cons]
  omega

/-! ### Code points -/

/-- What stands between quotes: characters as they are, and escapes of either kind. -/
inductive Escaped : List Char → Prop
  | nil : Escaped []
  | plain {c : Char} {cs : List Char} : c ≠ '"' → c ≠ '\\' → 0x20 ≤ c.toNat → Escaped cs → Escaped (c :: cs)
  | simple {e c : Char} {cs : List Char} : simpleEscape? e = some c → Escaped cs → Escaped ('\\' :: e :: cs)
  | unit {cs : List Char} (n : Nat) : Escaped cs → Escaped (unitEscape n ++ cs)

theorem Escaped.point {cs : List Char} (h : Escaped cs) (n : Nat) : Escaped (escapePoint n ++ cs) := by
  unfold escapePoint
  split
  · rename_i hn
    rcases hn with rfl | rfl
    · exact .simple rfl h
    · exact .simple rfl h
  rename_i hmarks
  rw [not_or] at hmarks
  split
  · rename_i hn
    have hback : (Char.ofNat n).toNat = n := toNat_ofNat n hn.2
    refine .plain ?_ ?_ (hback.symm ▸ hn.1) h
    · intro heq
      rw [heq] at hback
      exact hmarks.1 hback.symm
    · intro heq
      rw [heq] at hback
      exact hmarks.2 hback.symm
  split
  · exact .simple rfl h
  split
  · exact .simple rfl h
  split
  · exact .simple rfl h
  split
  · exact .simple rfl h
  split
  · exact .simple rfl h
  split
  · exact .unit n h
  · rw [List.append_assoc]
    exact .unit _ (.unit _ h)

theorem escaped_points (ps : Text.Points) : Escaped (ps.flatMap escapePoint) := by
  induction ps with
  | nil => exact .nil
  | cons n ps ih => exact ih.point n

/-- Where a low surrogate is found, what stands behind it is a text again. -/
theorem lowSurrogate?_escaped {cs : List Char} (h : Escaped cs) :
    (∀ rest, lowSurrogate? (cs ++ '"' :: rest) = none) ∨ ∃ low tail, Escaped tail ∧ tail.length ≤ cs.length ∧
      ∀ rest, lowSurrogate? (cs ++ '"' :: rest) = some (low, tail ++ '"' :: rest) := by
  cases h with
  | nil => exact .inl fun _ => rfl
  | plain hquote hslash hc h =>
    refine .inl fun rest => ?_
    rw [List.cons_append, lowSurrogate?]
    exact fun _ heq => hslash (List.cons.inj heq).1
  | simple he h =>
    refine .inl fun rest => ?_
    rw [List.cons_append, List.cons_append, lowSurrogate?]
    intro _ heq
    rw [(List.cons.inj (List.cons.inj heq).2).1] at he
    cases he
  | unit n h =>
    rename_i tail
    have hunit (rest : List Char) : lowSurrogate? (unitEscape n ++ tail ++ '"' :: rest) =
        if 0xDC00 ≤ n % 0x10000 ∧ n % 0x10000 < 0xE000 then some (n % 0x10000 - 0xDC00, tail ++ '"' :: rest) else none := by
      rw [unitEscape, List.cons_append, List.cons_append, List.cons_append, List.cons_append, List.append_assoc,
        lowSurrogate?, unit?_hex_mod]
      rfl
    by_cases hlow : 0xDC00 ≤ n % 0x10000 ∧ n % 0x10000 < 0xE000
    · refine .inr ⟨_, tail, h, ?_, fun rest => (hunit rest).trans (if_pos hlow)⟩
      rw [List.length_append]
      omega
    · exact .inl fun rest => (hunit rest).trans (if_neg hlow)

theorem escaped?_escaped {cs : List Char} (h : Escaped cs) (n : Nat) :
    ∃ c tail, Escaped tail ∧ tail.length ≤ cs.length ∧
      ∀ rest, escaped? (Text.hex 4 n ++ (cs ++ '"' :: rest)) = some (c, tail ++ '"' :: rest) := by
  simp only [escaped?, unit?_hex_mod, Option.bind_eq_bind, Option.bind_some]
  split
  · rcases lowSurrogate?_escaped h with hnone | ⟨low, tail, htail, hlength, hsome⟩
    · exact ⟨_, cs, h, Nat.le_refl _, fun rest => by rw [hnone]⟩
    · exact ⟨_, tail, htail, hlength, fun rest => by rw [hsome]⟩
  · split
    · exact ⟨_, cs, h, Nat.le_refl _, fun _ => rfl⟩
    · exact ⟨_, cs, h, Nat.le_refl _, fun _ => rfl⟩

/-- Whatever code points were written, some text is read, up to the closing quote. -/
theorem exists_parseString {cs : List Char} (h : Escaped cs) : ∃ text, ∀ fuel rest, cs.length < fuel →
    parseString fuel (cs ++ '"' :: rest) = some (text, rest) := by
  -- a pair of surrogates is two steps of the text and one of the reader, so the induction is on the length
  induction hk : cs.length using Nat.strongRecOn generalizing cs with
  | ind k ih =>
    subst hk
    cases h with
    | nil =>
      refine ⟨[], fun fuel rest hfuel => ?_⟩
      obtain ⟨fuel, rfl⟩ := Nat.exists_eq_succ_of_ne_zero (Nat.ne_of_gt hfuel)
      rfl
    | @plain c cs hquote hslash hc h =>
      obtain ⟨text, htext⟩ := ih cs.length (Nat.lt_succ_self _) h rfl
      refine ⟨c :: text, fun fuel rest hfuel => ?_⟩
      obtain ⟨fuel, rfl⟩ := Nat.exists_eq_succ_of_ne_zero (Nat.ne_of_gt (Nat.zero_lt_of_lt hfuel))
      rw [List.cons_append, parseString_plain hquote hslash hc, htext fuel rest (Nat.lt_of_succ_lt_succ hfuel)]
      rfl
    | @simple e c cs he h =>
      obtain ⟨text, htext⟩ := ih cs.length (by rw [List.length_cons, List.length_cons]; omega) h rfl
      refine ⟨c :: text, fun fuel rest hfuel => ?_⟩
      obtain ⟨fuel, rfl⟩ := Nat.exists_eq_succ_of_ne_zero (Nat.ne_of_gt (Nat.zero_lt_of_lt hfuel))
      rw [List.length_cons, List.length_cons] at hfuel
      rw [List.cons_append, List.cons_append, parseString_simple he, htext fuel rest (by omega)]
      rfl
    | @unit cs n h =>
      obtain ⟨c, tail, htail, hlength, hescape⟩ := escaped?_escaped h n
      obtain ⟨text, htext⟩ := ih tail.length (by simp [unitEscape]; omega) htail rfl
      refine ⟨c :: text, fun fuel rest hfuel => ?_⟩
      obtain ⟨fuel, rfl⟩ := Nat.exists_eq_succ_of_ne_zero (Nat.ne_of_gt (Nat.zero_lt_of_lt hfuel))
      rw [unitEscape, List.cons_append, List.cons_append, List.length_cons, List.length_cons, List.length_append] at hfuel
      rw [unitEscape, List.cons_append, List.cons_append, List.cons_append, List.cons_append, List.append_assoc,
        parseString_unit (hescape rest), htext fuel rest (by omega)]
      rfl

/-! ### Plain characters -/

/-- What a line may show: the characters of ASCII that are not controls. -/
def IsPlain (c : Char) : Prop := 0x20 ≤ c.toNat ∧ c.toNat < 0x7F

instance (c : Char) : Decidable (IsPlain c) := inferInstanceAs (Decidable (_ ∧ _))

/-- A literal is checked character by character. -/
theorem isPlain_of_all {cs : List Char} (h : (cs.all fun c => decide (IsPlain c)) = true) : ∀ c ∈ cs, IsPlain c :=
  fun c hc => of_decide_eq_true (List.all_eq_true.mp h c hc)

theorem isPlain_hexDigit : ∀ n < 16, IsPlain (Text.hexDigit n) := by decide

theorem isPlain_unitEscape (n : Nat) : ∀ c ∈ unitEscape n, IsPlain c := by
  have hdigit (k : Nat) := isPlain_hexDigit (k % 16) (Nat.mod_lt k (by decide))
  rw [unitEscape, hex_four]
  simp only [List.forall_mem_cons]
  exact ⟨by decide, by decide, hdigit _, hdigit _, hdigit _, hdigit _, by simp⟩

theorem isPlain_escapePoint (n : Nat) : ∀ c ∈ escapePoint n, IsPlain c := by
  unfold escapePoint
  split
  · rename_i h
    rcases h with rfl | rfl <;> exact isPlain_of_all rfl
  split
  · rename_i h
    rw [List.forall_mem_singleton, IsPlain, toNat_ofNat n h.2]
    exact h
  split
  · exact isPlain_of_all rfl
  split
  · exact isPlain_of_all rfl
  split
  · exact isPlain_of_all rfl
  split
  · exact isPlain_of_all rfl
  split
  · exact isPlain_of_all rfl
  split
  · exact isPlain_unitEscape n
  · exact List.forall_mem_append.mpr ⟨isPlain_unitEscape _, isPlain_unitEscape _⟩

theorem isPlain_quotedPoints (ps : Text.Points) : ∀ c ∈ quotedPoints ps, IsPlain c := by
  rw [quotedPoints]
  refine List.forall_mem_append.mpr ⟨List.forall_mem_cons.mpr ⟨by decide, fun c hc => ?_⟩, isPlain_of_all rfl⟩
  obtain ⟨n, -, hn⟩ := List.mem_flatMap.mp hc
  exact isPlain_escapePoint n c hn

end Transact.Json
