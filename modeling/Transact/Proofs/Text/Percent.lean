import Transact.Text.Percent

/-! What is percent-encoded is read back, whichever characters are left as they are. -/
namespace Transact.Text

namespace Utf8

theorem decodeFrom_cons (p : Option Pending) (b : UInt8) (rest : List UInt8) :
    decodeFrom p (b :: rest) = (step p b.toNat).1 ++ decodeFrom (step p b.toNat).2 rest := by
  rw [decodeFrom]

theorem step_more {p : Pending} {b : Nat} (hlow : p.low ≤ b) (hhigh : b ≤ p.high) (hneed : 1 < p.need) :
    step (some p) b = ([], some { need := p.need - 1, code := 64 * p.code + (b - 0x80) }) := by
  simp only [step, hlow, hhigh, and_self, ↓reduceIte, Pending.push]
  rw [if_neg (by omega)]

theorem step_last {p : Pending} {b : Nat} (hlow : p.low ≤ b) (hhigh : b ≤ p.high) (hneed : p.need = 1) :
    step (some p) b = ([Char.ofNat (64 * p.code + (b - 0x80))], none) := by
  simp [step, hlow, hhigh, Pending.push, hneed]

theorem first_two {n : Nat} (hlow : 0x80 ≤ n) (hhigh : n < 0x800) :
    first (n / 64 % 32 + 0xC0) = ([], some { need := 1, code := n / 64 }) := by
  unfold first
  rw [if_neg (by omega), if_neg (by omega), if_pos (by omega), show n / 64 % 32 + 0xC0 - 0xC0 = n / 64 by omega]

/-- What may follow the first of three bytes lets in neither a number that two bytes are enough for
nor a surrogate. -/
theorem first_three {n : Nat} (hlow : 0x800 ≤ n) (hhigh : n < 0x10000) (hvalid : n < 0xD800 ∨ 0xDFFF < n) :
    ∃ p, first (n / 4096 % 16 + 0xE0) = ([], some p) ∧ p.need = 2 ∧ p.code = n / 4096 ∧
      p.low ≤ n / 64 % 64 + 0x80 ∧ n / 64 % 64 + 0x80 ≤ p.high := by
  unfold first
  rw [if_neg (by omega), if_neg (by omega), if_neg (by omega)]
  split
  · exact ⟨_, rfl, rfl, by dsimp; omega, by dsimp; omega, by dsimp; omega⟩
  · split
    · exact ⟨_, rfl, rfl, by dsimp; omega, by dsimp; omega, by dsimp; omega⟩
    · rw [if_pos (by omega)]
      exact ⟨_, rfl, rfl, by dsimp; omega, by dsimp; omega, by dsimp; omega⟩

theorem first_four {n : Nat} (hlow : 0x10000 ≤ n) (hhigh : n < 0x110000) :
    ∃ p, first (n / 262144 % 8 + 0xF0) = ([], some p) ∧ p.need = 3 ∧ p.code = n / 262144 ∧
      p.low ≤ n / 4096 % 64 + 0x80 ∧ n / 4096 % 64 + 0x80 ≤ p.high := by
  unfold first
  rw [if_neg (by omega), if_neg (by omega), if_neg (by omega), if_neg (by omega), if_neg (by omega),
    if_neg (by omega)]
  split
  · exact ⟨_, rfl, rfl, by dsimp; omega, by dsimp; omega, by dsimp; omega⟩
  · split
    · exact ⟨_, rfl, rfl, by dsimp; omega, by dsimp; omega, by dsimp; omega⟩
    · rw [if_pos (by omega)]
      exact ⟨_, rfl, rfl, by dsimp; omega, by dsimp; omega, by dsimp; omega⟩

theorem toNat_valid (c : Char) : c.toNat < 0xD800 ∨ 0xDFFF < c.toNat ∧ c.toNat < 0x110000 := c.valid

theorem decodeFrom_encodeChar (c : Char) (rest : List UInt8) :
    decodeFrom none (String.utf8EncodeChar c ++ rest) = c :: decodeFrom none rest := by
  have hvalid := toNat_valid c
  have hchar : Char.ofNat c.toNat = c := Char.ofNat_toNat c
  have hbyte {n : Nat} (h : n < 256) : (UInt8.ofNat n).toNat = n := by simp; omega
  have hsplit : String.utf8EncodeChar c = _ := String.utf8EncodeChar.eq_1 c
  rw [hsplit, show c.val.toNat = c.toNat from rfl]
  generalize hn : c.toNat = n at *
  split
  · rw [List.cons_append, decodeFrom_cons, hbyte (by omega), step, first, if_pos (by omega), hchar]
    rfl
  · split
    · rw [List.cons_append, List.cons_append, decodeFrom_cons, hbyte (by omega), step,
        first_two (by omega) (by omega), decodeFrom_cons, hbyte (by omega),
        step_last (by dsimp; omega) (by dsimp; omega) rfl]
      dsimp only
      rw [show 64 * (n / 64) + (n % 64 + 128 - 0x80) = n by omega, hchar]
      rfl
    · split
      · obtain ⟨p, hfirst, hneed, hcode, hlow, hhigh⟩ := first_three (n := n) (by omega) (by omega) (by omega)
        rw [List.cons_append, List.cons_append, List.cons_append, decodeFrom_cons, hbyte (by omega), step, hfirst,
          decodeFrom_cons, hbyte (by omega), step_more hlow hhigh (by omega), decodeFrom_cons, hbyte (by omega),
          step_last (by dsimp; omega) (by dsimp; omega) (by dsimp; omega)]
        dsimp only
        rw [show 64 * (64 * p.code + (n / 64 % 64 + 128 - 0x80)) + (n % 64 + 128 - 0x80) = n by omega, hchar]
        rfl
      · obtain ⟨p, hfirst, hneed, hcode, hlow, hhigh⟩ := first_four (n := n) (by omega) (by omega)
        rw [List.cons_append, List.cons_append, List.cons_append, List.cons_append, decodeFrom_cons,
          hbyte (by omega), step, hfirst, decodeFrom_cons, hbyte (by omega), step_more hlow hhigh (by omega),
          decodeFrom_cons, hbyte (by omega), step_more (by dsimp; omega) (by dsimp; omega) (by dsimp; omega),
          decodeFrom_cons, hbyte (by omega), step_last (by dsimp; omega) (by dsimp; omega) (by dsimp; omega)]
        dsimp only
        rw [show 64 * (64 * (64 * p.code + (n / 4096 % 64 + 128 - 0x80)) + (n / 64 % 64 + 128 - 0x80))
          + (n % 64 + 128 - 0x80) = n by omega, hchar]
        rfl

theorem decode_encode (cs : List Char) : decode (encode cs) = cs := by
  induction cs with
  | nil => rfl
  | cons c cs ih =>
    rw [encode, List.flatMap_cons, decode, decodeFrom_encodeChar]
    exact congrArg (c :: ·) ih

theorem decodeFrom_some_ne_nil (p : Pending) (bytes : List UInt8) : decodeFrom (some p) bytes ≠ [] := by
  induction bytes generalizing p with
  | nil => simp [decodeFrom]
  | cons b rest ih =>
    rw [decodeFrom_cons, step]
    split
    · rw [Pending.push]
      split
      · simp
      · exact ih _
    · simp

/-- No byte goes by without a trace. -/
theorem decode_ne_nil {bytes : List UInt8} (h : bytes ≠ []) : decode bytes ≠ [] := by
  cases bytes with
  | nil => exact absurd rfl h
  | cons b rest =>
    rw [decode, decodeFrom_cons, step]
    cases hfirst : first b.toNat with
    | mk chars pending =>
      cases pending with
      | some p => exact List.append_ne_nil_of_right_ne_nil _ (decodeFrom_some_ne_nil p rest)
      | none =>
        have hchars : chars ≠ [] := by
          unfold first at hfirst
          repeat' split at hfirst
          all_goals first | cases hfirst; simp | cases hfirst
        exact List.append_ne_nil_of_left_ne_nil hchars _

end Utf8

namespace Percent

variable {safe : Char → Bool} {c : Char} {cs : List Char}

theorem bytes_cons (hc : c ≠ '%') (cs : List Char) : bytes (c :: cs) = String.utf8EncodeChar c ++ bytes cs := by
  match cs with
  | [] => simp [bytes]
  | [d] => simp [bytes]
  | d :: e :: rest => simp [bytes, hc]

theorem hexValue?_upperHexDigit : ∀ n < 16, hexValue? (upperHexDigit n) = some n := by decide

theorem isUnreserved_upperHexDigit : ∀ n < 16, isUnreserved (upperHexDigit n) = true := by decide

theorem bne_of_isUnreserved (h : isUnreserved c = true) {d : Char} (hd : isUnreserved d = false) :
    (c != d) = true := by
  rw [bne_iff_ne]
  intro heq
  rw [heq, hd] at h
  cases h

theorem bytes_escapeByte (b : UInt8) (cs : List Char) : bytes (escapeByte b ++ cs) = b :: bytes cs := by
  have hb : b.toNat < 256 := b.toNat_lt
  rw [escapeByte, List.cons_append, List.cons_append, List.cons_append, List.nil_append, bytes]
  simp only [beq_self_eq_true, hexValue?_upperHexDigit _ (show b.toNat / 16 < 16 by omega),
    hexValue?_upperHexDigit _ (show b.toNat % 16 < 16 by omega)]
  rw [show 16 * (b.toNat / 16) + b.toNat % 16 = b.toNat by omega]
  simp

theorem bytes_escapeBytes (bs : List UInt8) (cs : List Char) :
    bytes (bs.flatMap escapeByte ++ cs) = bs ++ bytes cs := by
  induction bs with
  | nil => rfl
  | cons b bs ih => rw [List.flatMap_cons, List.append_assoc, bytes_escapeByte, ih, List.cons_append]

theorem bytes_encode (hsafe : safe '%' = false) (cs : List Char) : bytes (encode safe cs) = Utf8.encode cs := by
  induction cs with
  | nil => rfl
  | cons c cs ih =>
    rw [encode, Utf8.encode, List.flatMap_cons, List.flatMap_cons, encodeChar]
    split
    · rename_i hc
      have hne : c ≠ '%' := by
        intro heq
        rw [heq, hsafe] at hc
        exact absurd hc (by decide)
      rw [List.singleton_append, bytes_cons hne]
      exact congrArg _ ih
    · rw [bytes_escapeBytes]
      exact congrArg _ ih

theorem decode_encode (hsafe : safe '%' = false) (cs : List Char) : decode (encode safe cs) = cs := by
  rw [decode, bytes_encode hsafe, Utf8.decode_encode]

theorem bytes_ne_nil (h : cs ≠ []) : bytes cs ≠ [] := by
  match cs with
  | [] => exact absurd rfl h
  | [c] => exact String.utf8EncodeChar_ne_nil
  | [c, d] => exact List.append_ne_nil_of_left_ne_nil String.utf8EncodeChar_ne_nil _
  | c :: d :: e :: rest =>
    rw [bytes]
    split
    · simp
    · exact List.append_ne_nil_of_left_ne_nil String.utf8EncodeChar_ne_nil _

theorem decode_ne_nil (h : cs ≠ []) : decode cs ≠ [] := Utf8.decode_ne_nil (bytes_ne_nil h)

theorem mem_escapeByte {b : UInt8} (h : c ∈ escapeByte b) : c = '%' ∨ isUnreserved c = true := by
  have hb : b.toNat < 256 := b.toNat_lt
  simp only [escapeByte, List.mem_cons, List.not_mem_nil, or_false] at h
  rcases h with h | h | h
  · exact .inl h
  · exact .inr (h ▸ isUnreserved_upperHexDigit _ (by omega))
  · exact .inr (h ▸ isUnreserved_upperHexDigit _ (by omega))

theorem mem_encodeChar {d : Char} (h : c ∈ encodeChar safe d) :
    c = '%' ∨ isUnreserved c = true ∨ safe c = true ∧ c = d := by
  rw [encodeChar] at h
  split at h
  · rename_i hkept
    obtain rfl := List.mem_singleton.mp h
    exact .inr ((Bool.or_eq_true_iff.mp hkept).imp_right fun hsafe => ⟨hsafe, rfl⟩)
  · obtain ⟨b, -, hb⟩ := List.mem_flatMap.mp h
    exact (mem_escapeByte hb).imp_right .inl

theorem encodeChar_ne_nil : encodeChar safe c ≠ [] := by
  rw [encodeChar]
  split
  · simp
  · obtain ⟨b, rest, hbytes⟩ := List.exists_cons_of_ne_nil (String.utf8EncodeChar_ne_nil (c := c))
    simp [hbytes, escapeByte]

/-- What stands in an encoded text. -/
theorem mem_encode (h : c ∈ encode safe cs) : c = '%' ∨ isUnreserved c = true ∨ safe c = true := by
  rw [encode, List.mem_flatMap] at h
  obtain ⟨d, -, hd⟩ := h
  exact (mem_encodeChar hd).imp_right fun h => h.imp_right And.left

theorem mem_encodePlus (h : c ∈ encodePlus cs) : c = '%' ∨ isUnreserved c = true ∨ c = '+' := by
  rw [encodePlus, List.mem_map] at h
  obtain ⟨d, hd, rfl⟩ := h
  rcases mem_encode hd with hd | hd | hd
  · subst hd
    exact .inl rfl
  · have hne : d ≠ ' ' := by
      intro heq
      rw [heq] at hd
      cases hd
    exact .inr (.inl (by simpa [hne] using hd))
  · exact .inr (.inr (by simp [beq_iff_eq.mp hd]))

theorem decodePlus_encodePlus (cs : List Char) : decodePlus (encodePlus cs) = cs := by
  have hback : ((encode (· == ' ') cs).map fun c => if c == ' ' then '+' else c).map
      (fun c => if c == '+' then ' ' else c) = encode (· == ' ') cs := by
    rw [List.map_map, List.map_congr_left (g := id), List.map_id]
    intro c hc
    have hplus : c ≠ '+' := by
      intro heq
      rcases mem_encode hc with h | h | h <;> rw [heq] at h <;> cases h
    by_cases hspace : c = ' '
    · rw [hspace]
      rfl
    · simp [hspace, hplus]
  rw [decodePlus, encodePlus, hback, decode_encode rfl]

theorem encodePlus_ne_nil (h : cs ≠ []) : encodePlus cs ≠ [] := by
  intro heq
  have hback := decodePlus_encodePlus cs
  rw [heq] at hback
  exact h hback.symm

theorem decodePlus_ne_nil (h : cs ≠ []) : decodePlus cs ≠ [] := decode_ne_nil (by simpa using h)

end Percent
end Transact.Text
