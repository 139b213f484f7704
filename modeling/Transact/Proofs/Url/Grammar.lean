import Transact.Proofs.Text.Integer
import Transact.Url.Parser

/-! What each step of the reader finds in a text that is put together, and what it leaves. -/
namespace Transact.Url

open Text (span_append)

variable {c : Char} {cs a b name rest : List Char}

/-! ### The first and the last of a character -/

theorem cut?_eq_some_iff : cut? c cs = some (a, b) ↔ c ∉ a ∧ cs = a ++ c :: b := by
  rw [cut?, List.span_eq_takeWhile_dropWhile]
  constructor
  · intro h
    split at h
    · rename_i before d after heq
      obtain ⟨hbefore, hafter⟩ := Prod.mk.inj heq
      cases h
      have hd : d = c := by
        have hhead := List.head?_dropWhile_not (· != c) cs
        rw [hafter] at hhead
        simpa using hhead
      refine ⟨fun hc => ?_, ?_⟩
      · rw [← hbefore] at hc
        simpa using List.mem_takeWhile_imp hc
      · rw [← hd, ← hafter, ← hbefore, List.takeWhile_append_dropWhile]
    · cases h
  · rintro ⟨hc, rfl⟩
    have hall : ∀ d ∈ a, (d != c) = true := fun d hd => bne_iff_ne.mpr fun heq => hc (heq ▸ hd)
    rw [← List.span_eq_takeWhile_dropWhile, span_append hall (by simp)]

theorem cut?_eq_none_iff : cut? c cs = none ↔ c ∉ cs := by
  constructor
  · intro h hc
    obtain ⟨a, b, hcs, ha⟩ := List.eq_append_cons_of_mem hc
    rw [cut?_eq_some_iff.mpr ⟨ha, hcs⟩] at h
    cases h
  · intro h
    cases hcut : cut? c cs with
    | none => rfl
    | some p =>
      obtain ⟨a, b⟩ := p
      exact absurd (by simp [(cut?_eq_some_iff.mp hcut).2]) h

theorem cutLast?_eq_some_iff : cutLast? c cs = some (a, b) ↔ c ∉ b ∧ cs = a ++ c :: b := by
  rw [cutLast?, Option.map_eq_some_iff]
  constructor
  · rintro ⟨⟨x, y⟩, hcut, heq⟩
    obtain ⟨hx, hcs⟩ := cut?_eq_some_iff.mp hcut
    cases heq
    refine ⟨by simpa using hx, ?_⟩
    rw [← List.reverse_reverse cs, hcs]
    simp
  · rintro ⟨hb, rfl⟩
    exact ⟨(b.reverse, a.reverse), cut?_eq_some_iff.mpr ⟨by simpa using hb, by simp⟩, by simp⟩

theorem cutLast?_eq_none_iff : cutLast? c cs = none ↔ c ∉ cs := by
  rw [cutLast?, Option.map_eq_none_iff, cut?_eq_none_iff, List.mem_reverse]

/-! ### Scheme and user -/

def isSchemeChar (c : Char) : Bool := Text.isWord c || c == '+'

theorem span_isSchemeChar (cs : List Char) : (cs.span fun c => Text.isWord c || c == '+') =
    (cs.takeWhile isSchemeChar, cs.dropWhile isSchemeChar) :=
  List.span_eq_takeWhile_dropWhile _ _

theorem scheme?_eq_some_iff : scheme? cs = some (name, rest) ↔
    name ≠ [] ∧ (∀ c ∈ name, isSchemeChar c = true) ∧ cs = name ++ ':' :: '/' :: '/' :: rest := by
  rw [scheme?, span_isSchemeChar]
  constructor
  · intro h
    split at h
    · cases h
    · rename_i taken left hne heq
      obtain ⟨htaken, hleft⟩ := Prod.mk.inj heq
      cases h
      refine ⟨hne, ?_, ?_⟩
      · rw [← htaken]
        exact fun c hc => List.mem_takeWhile_imp hc
      · rw [← hleft, ← htaken, List.takeWhile_append_dropWhile]
    · cases h
  · rintro ⟨hne, hname, rfl⟩
    rw [← List.span_eq_takeWhile_dropWhile, span_append hname (by simp; decide)]
    cases name with
    | nil => exact absurd rfl hne
    | cons => rfl

/-- A user ends before a colon or a slash. -/
def isUserChar (c : Char) : Bool := c != ':' && c != '/'

theorem user?_eq (cs : List Char) : user? cs =
    match cs.dropWhile isUserChar with
    | ':' :: afterColon =>
      match cut? '@' afterColon with
      | some (password, after) => some (⟨cs.takeWhile isUserChar, some password⟩, after)
      | none => (cutLast? '@' (cs.takeWhile isUserChar)).map fun (name, after) =>
          (⟨name, none⟩, after ++ cs.dropWhile isUserChar)
    | _ => (cutLast? '@' (cs.takeWhile isUserChar)).map fun (name, after) =>
        (⟨name, none⟩, after ++ cs.dropWhile isUserChar) := by
  rw [user?, List.span_eq_takeWhile_dropWhile]
  rfl

/-- Where no password is found, the name runs to the last at sign there is before a colon or a slash. -/
theorem user?_plain (h : ∀ afterColon, cs.dropWhile isUserChar = ':' :: afterColon → '@' ∉ afterColon) :
    user? cs = (cutLast? '@' (cs.takeWhile isUserChar)).map fun (name, after) =>
      (⟨name, none⟩, after ++ cs.dropWhile isUserChar) := by
  rw [user?_eq]
  split
  · rename_i afterColon heq
    rw [cut?_eq_none_iff.mpr (h afterColon heq)]
  · rfl

theorem user?_password {password : List Char} (hname : ∀ c ∈ name, isUserChar c = true) (hpassword : '@' ∉ password) :
    user? (name ++ ':' :: (password ++ '@' :: rest)) = some (⟨name, some password⟩, rest) := by
  rw [user?_eq, List.takeWhile_append_of_pos hname, List.dropWhile_append_of_pos hname]
  have hcut : cut? '@' (password ++ '@' :: rest) = some (password, rest) := cut?_eq_some_iff.mpr ⟨hpassword, rfl⟩
  simp [isUserChar, hcut]

theorem not_mem_afterColon (h : '@' ∉ cs) (afterColon : List Char)
    (heq : cs.dropWhile isUserChar = ':' :: afterColon) : '@' ∉ afterColon := fun hmem =>
  h ((List.dropWhile_sublist _).mem (heq ▸ List.mem_cons_of_mem _ hmem))

theorem user?_alone (hname : ∀ c ∈ name, isUserChar c = true) (hrest : '@' ∉ rest) :
    user? (name ++ '@' :: rest) = some (⟨name, none⟩, rest) := by
  have htake : (name ++ '@' :: rest).takeWhile isUserChar = name ++ '@' :: rest.takeWhile isUserChar := by
    rw [List.takeWhile_append_of_pos hname]
    rfl
  have hdrop : (name ++ '@' :: rest).dropWhile isUserChar = rest.dropWhile isUserChar := by
    rw [List.dropWhile_append_of_pos hname]
    rfl
  have hleft : '@' ∉ rest.takeWhile isUserChar := fun hmem => hrest (List.takeWhile_sublist _ |>.mem hmem)
  rw [user?_plain (by rw [hdrop]; exact not_mem_afterColon hrest), htake, hdrop,
    cutLast?_eq_some_iff.mpr ⟨hleft, rfl⟩, Option.map_some]
  dsimp only
  rw [List.takeWhile_append_dropWhile]

theorem user?_none (h : '@' ∉ cs) : user? cs = none := by
  have hleft : '@' ∉ cs.takeWhile isUserChar := fun hmem => h (List.takeWhile_sublist _ |>.mem hmem)
  rw [user?_plain (not_mem_afterColon h), cutLast?_eq_none_iff.mpr hleft, Option.map_none]

/-- No at sign before the first slash. -/
def IsClear (cs : List Char) : Prop := '@' ∉ cs.takeWhile (· != '/')

/-- What begins after a colon or a slash is clear with what stands before it. -/
theorem isClear_append (ha : ∀ c ∈ a, isUserChar c = true) (hat : '@' ∉ a) (hb : ∀ d ∈ b.head?, isUserChar d = false)
    (hcolon : ∀ afterColon, b = ':' :: afterColon → '@' ∉ afterColon) : IsClear (a ++ b) := by
  have hall : ∀ c ∈ a, (c != '/') = true := fun c hc => (Bool.and_eq_true_iff.mp (ha c hc)).2
  rw [IsClear, List.takeWhile_append_of_pos hall, List.mem_append, not_or]
  refine ⟨hat, fun hmem => ?_⟩
  cases b with
  | nil => cases hmem
  | cons d b =>
    have hd := hb d rfl
    by_cases hslash : d = '/'
    · simp [hslash] at hmem
    · have hd : d = ':' := by simpa [isUserChar, hslash] using hd
      subst hd
      have hmem := List.takeWhile_sublist _ |>.mem hmem
      rcases List.mem_cons.mp hmem with heq | hmem
      · cases heq
      · exact hcolon b rfl hmem

theorem head_dropWhile (p : Char → Bool) (cs : List Char) : ∀ d ∈ (cs.dropWhile p).head?, p d = false := by
  intro d hd
  have hnot := List.head?_dropWhile_not p cs
  rw [Option.mem_def.mp hd] at hnot
  exact hnot

theorem takeWhile_dropWhile (p : Char → Bool) (cs : List Char) : (cs.dropWhile p).takeWhile p = [] := by
  have hhead := head_dropWhile p cs
  cases hrest : cs.dropWhile p with
  | nil => rfl
  | cons d rest =>
    rw [hrest] at hhead
    simp [hhead d rfl]

/-- Where no password was found, what is left is clear. -/
theorem isClear_of_user? (h : user? cs = none ∧ rest = cs ∨ ∃ name, user? cs = some (⟨name, none⟩, rest)) :
    IsClear rest := by
  have hcolon : ∀ afterColon, cs.dropWhile isUserChar = ':' :: afterColon → '@' ∉ afterColon := by
    intro afterColon heq hmem
    obtain ⟨password, after, hcs, hpassword⟩ := List.eq_append_cons_of_mem hmem
    rw [user?_eq, heq] at h
    simp only [cut?_eq_some_iff.mpr ⟨hpassword, hcs⟩] at h
    rcases h with ⟨h, -⟩ | ⟨name, h⟩
    · cases h
    · cases h
  have htaken : ∀ c ∈ cs.takeWhile isUserChar, isUserChar c = true := fun c hc => List.mem_takeWhile_imp hc
  rw [user?_plain hcolon] at h
  rcases h with ⟨h, rfl⟩ | ⟨name, h⟩
  · have hat := cutLast?_eq_none_iff.mp (Option.map_eq_none_iff.mp h)
    rw [← List.takeWhile_append_dropWhile (p := isUserChar) (l := rest)]
    exact isClear_append htaken hat (head_dropWhile _ _) hcolon
  · obtain ⟨⟨name', after⟩, hcut, heq⟩ := Option.map_eq_some_iff.mp h
    cases heq
    obtain ⟨hat, hsplit⟩ := cutLast?_eq_some_iff.mp hcut
    refine isClear_append (fun c hc => htaken c ?_) hat (head_dropWhile _ _) hcolon
    rw [hsplit]
    exact List.mem_append_right _ (List.mem_cons_of_mem _ hc)

/-! ### Host -/

/-- A host in brackets ends before a slash or a question mark. -/
def isBracketChar (c : Char) : Bool := c != '/' && c != '?'

theorem bracketed?_eq (cs : List Char) : bracketed? ('[' :: cs) =
    match cutLast? ']' (cs.takeWhile isBracketChar) with
    | some ([], _) => none
    | some (host, tail) => some (host, tail ++ cs.dropWhile isBracketChar)
    | none => none := by
  rw [bracketed?, List.span_eq_takeWhile_dropWhile]
  rfl

theorem bracketed?_eq_none (h : ∀ d ∈ cs.head?, d ≠ '[') : bracketed? cs = none := by
  unfold bracketed?
  split
  · exact absurd rfl (h '[' rfl)
  · rfl

theorem bracketed?_eq_some_iff : bracketed? cs = some (a, b) ↔
    a ≠ [] ∧ (∀ c ∈ a, isBracketChar c = true) ∧ ']' ∉ b.takeWhile isBracketChar ∧ cs = '[' :: (a ++ ']' :: b) := by
  constructor
  · intro h
    match cs with
    | [] => cases h
    | d :: cs =>
      by_cases hd : d = '['
      · subst hd
        rw [bracketed?_eq] at h
        split at h
        · cases h
        · rename_i host tail hne hcut
          cases h
          obtain ⟨hmark, hsplit⟩ := cutLast?_eq_some_iff.mp hcut
          have htaken : ∀ c ∈ a ++ ']' :: tail, isBracketChar c = true :=
            fun c hc => List.mem_takeWhile_imp (hsplit ▸ hc)
          refine ⟨hne, fun c hc => htaken c (List.mem_append_left _ hc), ?_, ?_⟩
          · rw [List.takeWhile_append_of_pos fun c hc => htaken c (List.mem_append_right _ (List.mem_cons_of_mem _ hc)),
              takeWhile_dropWhile, List.append_nil]
            exact hmark
          · have hcs := List.takeWhile_append_dropWhile (p := isBracketChar) (l := cs)
            rw [hsplit, List.append_assoc, List.cons_append] at hcs
            rw [hcs]
        · cases h
      · rw [bracketed?_eq_none (by simpa using hd)] at h
        cases h
  · rintro ⟨hne, ha, hb, rfl⟩
    have htake : (a ++ ']' :: b).takeWhile isBracketChar = a ++ ']' :: b.takeWhile isBracketChar := by
      rw [List.takeWhile_append_of_pos ha]
      rfl
    have hdrop : (a ++ ']' :: b).dropWhile isBracketChar = b.dropWhile isBracketChar := by
      rw [List.dropWhile_append_of_pos ha]
      rfl
    rw [bracketed?_eq, htake, hdrop, cutLast?_eq_some_iff.mpr ⟨hb, rfl⟩]
    cases a with
    | nil => exact absurd rfl hne
    | cons d a =>
      dsimp only
      rw [List.takeWhile_append_dropWhile]

/-- What a host without brackets is made of. -/
def isHostPart (c : Char) : Bool := c != '/' && c != ':' && c != '?'

theorem host?_bracketed (h : bracketed? cs = some (a, b)) : host? cs = (some a, b) := by
  rw [host?, h]

theorem span_isHostPart (cs : List Char) : (cs.span fun c => c != '/' && c != ':' && c != '?') =
    (cs.takeWhile isHostPart, cs.dropWhile isHostPart) :=
  List.span_eq_takeWhile_dropWhile _ _

theorem host?_plain (hbracketed : bracketed? (a ++ b) = none) (hne : a ≠ []) (ha : ∀ c ∈ a, isHostPart c = true)
    (hb : ∀ d ∈ b.head?, isHostPart d = false) : host? (a ++ b) = (some a, b) := by
  rw [host?, hbracketed, span_isHostPart, ← List.span_eq_takeWhile_dropWhile, span_append ha hb]
  cases a with
  | nil => exact absurd rfl hne
  | cons => rfl

theorem host?_none (h : ∀ d ∈ cs.head?, isHostPart d = false) : host? cs = (none, cs) := by
  have hbracketed : bracketed? cs = none := by
    refine bracketed?_eq_none fun d hd heq => ?_
    rw [heq] at hd
    cases h '[' hd
  have hspan : cs.span isHostPart = ([], cs) := span_append (a := []) (by simp) h
  rw [host?, hbracketed, span_isHostPart, ← List.span_eq_takeWhile_dropWhile, hspan]

/-- A host is not empty, and holds neither a slash nor a question mark; where the text is clear, it
holds no at sign, and one with a colon stands in brackets. -/
theorem host?_some {host : List Char} (h : host? cs = (some host, rest)) :
    host ≠ [] ∧ (∀ c ∈ host, isBracketChar c = true) ∧ (IsClear cs → '@' ∉ host) := by
  rw [host?] at h
  split at h
  · rename_i a b hbracketed
    cases h
    obtain ⟨hne, ha, -, rfl⟩ := bracketed?_eq_some_iff.mp hbracketed
    refine ⟨hne, ha, fun hclear hat => hclear ?_⟩
    have hslash : ∀ c ∈ '[' :: host, (c != '/') = true := by
      refine List.forall_mem_cons.mpr ⟨by decide, fun c hc => ?_⟩
      exact (Bool.and_eq_true_iff.mp (ha c hc)).1
    rw [← List.cons_append, List.takeWhile_append_of_pos hslash]
    exact List.mem_append_left _ (List.mem_cons_of_mem _ hat)
  · rw [span_isHostPart] at h
    split at h
    · cases h
    · rename_i taken left hne heq
      obtain ⟨htaken, -⟩ := Prod.mk.inj heq
      cases h
      have hall : ∀ c ∈ host, isHostPart c = true := fun c hc => List.mem_takeWhile_imp (htaken ▸ hc)
      refine ⟨hne, fun c hc => ?_, fun hclear hat => hclear ?_⟩
      · have hc := hall c hc
        simp only [isHostPart, isBracketChar, Bool.and_eq_true] at hc ⊢
        exact ⟨hc.1.1, hc.2⟩
      · have hslash : ∀ c ∈ host, (c != '/') = true := fun c hc =>
          (Bool.and_eq_true_iff.mp (Bool.and_eq_true_iff.mp (hall c hc)).1).1
        rw [← List.takeWhile_append_dropWhile (p := isHostPart) (l := cs), htaken, List.takeWhile_append_of_pos hslash]
        exact List.mem_append_left _ hat

/-! ### The parts behind a mark -/

theorem part?_cons {mark : Char} {inside : Char → Bool} (ha : ∀ c ∈ a, inside c = true)
    (hb : ∀ d ∈ b.head?, inside d = false) : part? mark inside (mark :: (a ++ b)) = (some a, b) := by
  have hsplit := span_append ha hb
  rw [List.span_eq_takeWhile_dropWhile] at hsplit
  rw [part?, if_pos (beq_self_eq_true mark), (Prod.mk.inj hsplit).1, (Prod.mk.inj hsplit).2]

theorem part?_none {mark : Char} {inside : Char → Bool} (h : ∀ d ∈ cs.head?, d ≠ mark) :
    part? mark inside cs = (none, cs) := by
  cases cs with
  | nil => rfl
  | cons d cs =>
    have hd : d ≠ mark := h d rfl
    simp [part?, hd]

end Transact.Url
