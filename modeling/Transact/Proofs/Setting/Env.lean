import Transact.Setting.Env
import Transact.Proofs.Text.Numeral

/-! Integers from the environment. A variable stands for the default where it is blank, for a number where that number
is written between blanks, and for none otherwise. -/
namespace Transact.Env

open Text (IsTrimmed isBlank)
open Text.Integer (MinusZero Written)

variable {name text : String} {value : Option String} {kind : List Char → Prop} {n default : Int}

/-- The variable is not set, or blank throughout. -/
def IsUnset (value : Option String) : Prop := ∀ text ∈ value, ∀ c ∈ text.toList, isBlank c = true

/-- The text is one of a kind with blanks around it. -/
def Holds (kind : List Char → Prop) (text : String) : Prop :=
  ∃ a cs b, text.toList = a ++ cs ++ b ∧ (∀ c ∈ a, isBlank c = true) ∧ (∀ c ∈ b, isBlank c = true) ∧ kind cs

theorem holds_iff (hkind : ∀ cs, kind cs → IsTrimmed isBlank cs) : Holds kind text ↔ kind (Text.strip text.toList) := by
  constructor
  · rintro ⟨a, cs, b, htext, ha, hb, hcs⟩
    rwa [htext, Text.strip, Text.trim_append ha hb (hkind cs hcs)]
  · intro h
    obtain ⟨a, b, htext, ha, hb⟩ := Text.exists_trim isBlank text.toList
    exact ⟨a, _, b, htext, ha, hb, h⟩

theorem strip_eq_nil_iff : Text.strip text.toList = [] ↔ IsUnset (some text) := by
  constructor
  · intro h shown hshown c hc
    obtain rfl := Option.some.inj hshown
    obtain ⟨a, b, htext, ha, hb⟩ := Text.exists_trim isBlank text.toList
    rw [Text.strip] at h
    rw [htext, h, List.append_nil] at hc
    exact (List.mem_append.mp hc).elim (ha c) (hb c)
  · intro h
    have hblank : Text.trim isBlank (text.toList ++ [] ++ []) = [] :=
      Text.trim_append (h text rfl) (by simp) ⟨by simp, by simp⟩
    rwa [List.append_nil, List.append_nil] at hblank

theorem integer_unset (h : IsUnset value) (name : String) (default : Int) :
    integer name value default = .ok default := by
  cases value with
  | none => rfl
  | some text =>
    rw [integer]
    simp [strip_eq_nil_iff.mpr h]

/-- What a variable that is set comes to does not depend on the default. -/
theorem integer_set (h : ¬ IsUnset (some text)) (name : String) (default : Int) :
    integer name (some text) default =
      (Text.Integer.read (String.ofList (Text.strip text.toList))).mapError fun _ => .notAnInteger name text := by
  have hne : (Text.strip text.toList).isEmpty = false := by
    rw [List.isEmpty_eq_false_iff, ne_eq, strip_eq_nil_iff]
    exact h
  rw [integer, hne]
  cases Text.Integer.read (String.ofList (Text.strip text.toList)) <;> rfl

theorem integer_eq_ok_iff (h : ¬ IsUnset (some text)) :
    integer name (some text) default = .ok n ↔ Holds (Written n) text ∨ n = 0 ∧ Holds MinusZero text := by
  have htrimmed : IsTrimmed isBlank (Text.strip text.toList) := Text.isTrimmed_trim isBlank text.toList
  rw [integer_set h, holds_iff fun _ => Written.isTrimmed, holds_iff fun _ => MinusZero.isTrimmed,
    ← Text.Integer.read_eq_ok_iff htrimmed]
  cases Text.Integer.read (String.ofList (Text.strip text.toList)) <;> simp [Except.mapError]

theorem not_isUnset_of_holds (hkind : ∀ cs, kind cs → IsTrimmed isBlank cs) (hne : ∀ cs, kind cs → cs ≠ [])
    (h : Holds kind text) : ¬ IsUnset (some text) := by
  intro hunset
  rw [holds_iff hkind] at h
  exact hne _ h (strip_eq_nil_iff.mpr hunset)

/-- What is refused is told by the variable and the whole of its text. -/
theorem integer_error {e : Error} (h : integer name value default = .error e) :
    ∃ text, value = some text ∧ e = .notAnInteger name text := by
  by_cases hunset : IsUnset value
  · rw [integer_unset hunset] at h
    cases h
  · cases value with
    | none => exact absurd (by simp [IsUnset]) hunset
    | some text =>
      rw [integer_set hunset] at h
      cases hread : Text.Integer.read (String.ofList (Text.strip text.toList)) with
      | ok n =>
        rw [hread] at h
        cases h
      | error refusal =>
        rw [hread] at h
        exact ⟨text, rfl, (Except.error.inj h).symm⟩

/-- A variable stands for the default, whatever that is, just where it is unset or blank. A number that is written in it
between blanks is read, and so is zero with a minus sign; everything else is refused, with the variable and its whole
text. -/
theorem integer_outcome (name : String) (value : Option String) :
    ((∀ default, integer name value default = .ok default) ↔ IsUnset value) ∧
      ∀ text default, value = some text →
        (∀ n, Holds (Written n) text → integer name value default = .ok n) ∧
        (Holds MinusZero text → integer name value default = .ok 0) ∧
        (¬ IsUnset value → (∀ n, ¬ Holds (Written n) text) → ¬ Holds MinusZero text →
          ∃ e, integer name value default = .error e ∧
            e.message = "Environment variable " ++ name ++ " must be an integer, got " ++ Text.quoted text) := by
  refine ⟨⟨fun hall => ?_, fun h => integer_unset h name⟩, ?_⟩
  · by_contra hset
    cases value with
    | none => exact hset (by simp [IsUnset])
    | some text =>
      -- The default is not looked at, so two defaults would be one number.
      have hsame : integer name (some text) 0 = integer name (some text) 1 := by
        rw [integer_set hset, integer_set hset]
      rw [hall 0, hall 1] at hsame
      cases hsame
  · rintro text default rfl
    refine ⟨fun n hn => ?_, fun hzero => ?_, fun hset hwritten hzero => ?_⟩
    · have hset := not_isUnset_of_holds (fun _ => Written.isTrimmed) (fun _ => Written.ne_nil) hn
      exact (integer_eq_ok_iff hset).mpr (.inl hn)
    · have hset := not_isUnset_of_holds (fun _ => MinusZero.isTrimmed) (fun _ => MinusZero.ne_nil) hzero
      exact (integer_eq_ok_iff hset).mpr (.inr ⟨rfl, hzero⟩)
    · cases hresult : integer name (some text) default with
      | ok n =>
        rcases (integer_eq_ok_iff hset).mp hresult with hn | ⟨-, hz⟩
        · exact absurd hn (hwritten n)
        · exact absurd hz hzero
      | error e =>
        obtain ⟨shown, hshown, rfl⟩ := integer_error hresult
        obtain rfl := Option.some.inj hshown
        exact ⟨_, rfl, rfl⟩

theorem integer_outcome_spaced :
    integer "POOL" (some "\u3000-0_4\u0662 ") 5 = .ok (-42) ∧ integer "POOL" (some "\t-00") 5 = .ok 0 ∧
      (∀ default, integer "POOL" (some "\u2003\n") default = .ok default) ∧
      ∃ e, integer "POOL" (some " 4 2") 5 = .error e ∧ e.message =
        "Environment variable " ++ "POOL" ++ " must be an integer, got " ++ Text.quoted " 4 2" := by
  have hspells : Text.Integer.Spells ['0', '_', '4', '\u0662'] [0, 4, 2] :=
    Text.Integer.digits?_eq_some_iff.mp (by decide +kernel)
  have hzeros : Text.Integer.Spells ['0', '0'] [0, 0] := Text.Integer.digits?_eq_some_iff.mp (by decide +kernel)
  have hwritten : Holds (Written (-42)) "\u3000-0_4\u0662 " :=
    ⟨['\u3000'], ['-', '0', '_', '4', '\u0662'], [' '], by decide, List.forall_mem_singleton.mpr (by decide),
      List.forall_mem_singleton.mpr (by decide), ['-'], _, rfl, .minus (by decide), 1, hspells, by decide⟩
  have hzero : Holds MinusZero "\t-00" :=
    ⟨['\t'], ['-', '0', '0'], [], by decide, List.forall_mem_singleton.mpr (by decide), List.forall_mem_nil _,
      ['0', '0'], rfl, 1, hzeros, by decide⟩
  have hblank : IsUnset (some "\u2003\n") := strip_eq_nil_iff.mp (by decide +kernel)
  have hset : ¬ IsUnset (some " 4 2") := fun h => absurd (h _ rfl '4' (by decide)) (by decide)
  have hrefused (n : Int) : integer "POOL" (some " 4 2") 5 ≠ .ok n := by
    have hread : integer "POOL" (some " 4 2") 5 = .error (.notAnInteger "POOL" " 4 2") := by decide +kernel
    rw [hread]
    exact fun h => nomatch h
  exact ⟨((integer_outcome "POOL" _).2 _ 5 rfl).1 (-42) hwritten, ((integer_outcome "POOL" _).2 _ 5 rfl).2.1 hzero,
    (integer_outcome "POOL" _).1.mpr hblank,
    ((integer_outcome "POOL" _).2 _ 5 rfl).2.2 hset
      (fun n hn => hrefused n ((integer_eq_ok_iff hset).mpr (.inl hn)))
      (fun hz => hrefused 0 ((integer_eq_ok_iff hset).mpr (.inr ⟨rfl, hz⟩)))⟩

/-- Zero with a minus sign is read, though no number is written so. Where zero is the default too, a variable that is
neither unset nor blank comes to the default. -/
theorem integer_minus_zero :
    integer "POOL" (some "-0") 0 = .ok 0 ∧ ¬ IsUnset (some "-0") ∧ (∀ n, ¬ Holds (Written n) "-0") ∧
      (¬ ∀ text default, integer "POOL" (some text) default = .ok default ↔ IsUnset (some text)) ∧
      ¬ ∀ text default, ¬ IsUnset (some text) → (∀ n, ¬ Holds (Written n) text) →
        ∃ e, integer "POOL" (some text) default = .error e := by
  have hread : integer "POOL" (some "-0") 0 = .ok 0 := by decide +kernel
  have hset : ¬ IsUnset (some "-0") := fun h => absurd (h _ rfl '0' (by decide)) (by decide)
  have hzero : MinusZero (Text.strip "-0".toList) :=
    ⟨['0'], by decide +kernel, 0, Text.Integer.digits?_eq_some_iff.mp (by decide +kernel), by decide⟩
  have hwritten (n : Int) : ¬ Holds (Written n) "-0" := by
    rw [holds_iff fun _ => Written.isTrimmed]
    exact hzero.not_written
  refine ⟨hread, hset, hwritten, fun hall => hset ((hall "-0" 0).mp hread), fun hall => ?_⟩
  obtain ⟨e, he⟩ := hall "-0" 0 hset hwritten
  cases hread.symm.trans he

end Transact.Env
