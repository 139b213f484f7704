import Transact.Text.Blank
import Mathlib.Data.List.DropRight
import Mathlib.Data.List.TakeWhile

/-! What is left of a text without what is trimmed at its ends. -/
namespace Transact.Text

variable {p : Char → Bool} {a b cs : List Char}

/-- Nothing is left to be trimmed. -/
structure IsTrimmed (p : Char → Bool) (cs : List Char) : Prop where
  first : ∀ c ∈ cs.head?, p c = false
  last : ∀ c ∈ cs.getLast?, p c = false

theorem trim_eq (p : Char → Bool) (cs : List Char) : trim p cs = (cs.dropWhile p).rdropWhile p := rfl

theorem dropWhile_of_head (h : ∀ c ∈ cs.head?, p c = false) : cs.dropWhile p = cs := by
  cases cs with
  | nil => rfl
  | cons c cs => exact List.dropWhile_cons_of_neg (by simp [h c rfl])

theorem rdropWhile_append (ha : ∀ c ∈ a.getLast?, p c = false) (b : List Char) :
    (a ++ b).rdropWhile p = a ++ b.rdropWhile p := by
  induction b using List.reverseRecOn with
  | nil =>
    rw [List.append_nil, List.rdropWhile_nil, List.append_nil, List.rdropWhile_eq_self_iff]
    intro hne
    simp [ha _ (List.getLast?_eq_some_getLast hne)]
  | append_singleton b c ih =>
    rw [← List.append_assoc]
    by_cases hc : p c = true
    · rw [List.rdropWhile_concat_pos _ _ _ hc, List.rdropWhile_concat_pos _ _ _ hc, ih]
    · rw [List.rdropWhile_concat_neg _ _ _ hc, List.rdropWhile_concat_neg _ _ _ hc, List.append_assoc]

theorem trim_append (ha : ∀ c ∈ a, p c = true) (hb : ∀ c ∈ b, p c = true) (h : IsTrimmed p cs) :
    trim p (a ++ cs ++ b) = cs := by
  rw [trim_eq, List.append_assoc, List.dropWhile_append_of_pos ha]
  cases cs with
  | nil => rw [List.nil_append, List.dropWhile_eq_nil_iff.mpr hb, List.rdropWhile_nil]
  | cons c rest =>
    have hfirst : ∀ d ∈ (c :: rest ++ b).head?, p d = false := h.first
    rw [dropWhile_of_head hfirst, rdropWhile_append h.last, List.rdropWhile_eq_nil_iff.mpr hb, List.append_nil]

theorem isTrimmed_trim (p : Char → Bool) (cs : List Char) : IsTrimmed p (trim p cs) where
  first c hc := by
    obtain ⟨rest, hrest⟩ := List.rdropWhile_prefix p (cs.dropWhile p)
    have hhead : (cs.dropWhile p).head? = some c := by
      rw [← hrest]
      exact List.mem_head?_append_of_mem_head? hc
    have hnot := List.head?_dropWhile_not p cs
    rwa [hhead] at hnot
  last c hc := by
    rw [trim_eq] at hc
    obtain ⟨hne, rfl⟩ := List.mem_getLast?_eq_getLast hc
    simpa using List.rdropWhile_last_not p (cs.dropWhile p) hne

/-- A text is what is left of it between two runs of what is trimmed. -/
theorem exists_trim (p : Char → Bool) (text : List Char) :
    ∃ a b, text = a ++ trim p text ++ b ∧ (∀ c ∈ a, p c = true) ∧ ∀ c ∈ b, p c = true := by
  refine ⟨text.takeWhile p, (text.dropWhile p).rtakeWhile p, ?_, fun c hc => List.mem_takeWhile_imp hc,
    fun c hc => List.mem_rtakeWhile_imp hc⟩
  rw [trim_eq, List.append_assoc, List.rdropWhile_append_rtakeWhile, List.takeWhile_append_dropWhile]

end Transact.Text
