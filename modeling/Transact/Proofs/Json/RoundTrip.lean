import Transact.Proofs.Json.Number
import Transact.Proofs.Json.Quoted

/-! A value is read back from its JSON text, and the text is plain ASCII. -/
namespace Transact

/-- What JSON has a form for: no bytes, nothing infinite, and integers that can be written out. -/
inductive Value.IsJson : Value → Prop
  | null : IsJson .null
  | bool (b : Bool) : IsJson (.bool b)
  | int (n : Int) : Double.decimalWidth n.natAbs ≤ Text.Integer.maxDigits → IsJson (.int n)
  | float (x : Double) : x.isFinite = true → IsJson (.float x)
  | text (s : String) : IsJson (.text s)
  | list (vs : List Value) : (∀ v ∈ vs, IsJson v) → IsJson (.list vs)
  | object (fields : List (String × Value)) : (∀ e ∈ fields, IsJson e.2) → IsJson (.object fields)

namespace Json

variable {v : Value} {vs : List Value} {fields : List (String × Value)} {cs rest : List Char} {fuel : Nat}

/-! ### What stands first -/

theorem skip_space (cs : List Char) : skip (' ' :: cs) = skip cs := rfl

theorem parseValue_space (fuel : Nat) (cs : List Char) : parseValue fuel (' ' :: cs) = parseValue fuel cs := by
  cases fuel with
  | zero => rfl
  | succ fuel => rw [parseValue, parseValue, skip_space]

theorem parseItems_space (fuel : Nat) (cs : List Char) : parseItems fuel (' ' :: cs) = parseItems fuel cs := by
  cases fuel with
  | zero => rfl
  | succ fuel => rw [parseItems, parseItems, parseValue_space]

theorem parseFields_space (fuel : Nat) (cs : List Char) : parseFields fuel (' ' :: cs) = parseFields fuel cs := by
  cases fuel with
  | zero => rfl
  | succ fuel => rw [parseFields, parseFields, skip_space]

/-! ### Numbers -/

/-- The text begins as a number does. -/
def IsNumeric (cs : List Char) : Prop := ∃ c tail, cs = c :: tail ∧ (c = '-' ∨ c.isDigit = true)

theorem skip_numeric (h : IsNumeric cs) : skip cs = cs := by
  obtain ⟨c, tail, rfl, h⟩ := h
  have hspace : isSpace c = false := by
    by_contra hspace
    rw [Bool.not_eq_false, isSpace] at hspace
    simp only [Bool.or_eq_true, beq_iff_eq] at hspace
    rcases hspace with ((rfl | rfl) | rfl) | rfl <;> rcases h with h | h <;> cases h
  rw [skip, List.dropWhile_cons_of_neg (by simp [hspace])]

theorem parseValue_number (h : IsNumeric cs) : parseValue (fuel + 1) cs = parseNumber cs := by
  rw [parseValue, skip_numeric h]
  obtain ⟨c, tail, rfl, h⟩ := h
  split
  case h_9 => rfl
  all_goals
    rename_i heq
    cases heq
    rcases h with h | h <;> cases h

theorem head_of_parseMagnitude {negative : Bool} {r : Value × List Char} (h : parseMagnitude negative cs = some r) :
    ∃ c tail, cs = c :: tail ∧ c.isDigit = true := by
  cases cs with
  | nil => cases h
  | cons c tail =>
    refine ⟨c, tail, rfl, ?_⟩
    by_contra hdigit
    have hspan : spanDigits (c :: tail) = ([], c :: tail) := by
      simp [spanDigits, List.span_eq_takeWhile_dropWhile, hdigit]
    rw [parseMagnitude, hspan] at h
    cases h

def sign (negative : Bool) : List Char := if negative then ['-'] else []

theorem parseNumber_sign (negative : Bool) {r : Value × List Char} (h : parseMagnitude negative cs = some r) :
    IsNumeric (sign negative ++ cs) ∧ parseNumber (sign negative ++ cs) = some r := by
  obtain ⟨c, tail, rfl, hdigit⟩ := head_of_parseMagnitude h
  cases negative with
  | false =>
    refine ⟨⟨c, tail, rfl, .inr hdigit⟩, ?_⟩
    have hc : c ≠ '-' := by
      rintro rfl
      cases hdigit
    rw [sign, if_neg Bool.false_ne_true, List.nil_append, parseNumber]
    · exact h
    · exact fun _ heq => hc (List.cons.inj heq).1
    · exact fun _ heq => hc (List.cons.inj heq).1
  | true =>
    refine ⟨⟨'-', c :: tail, rfl, .inl rfl⟩, ?_⟩
    have hc : c ≠ 'I' := by
      rintro rfl
      cases hdigit
    rw [sign, if_pos rfl, List.singleton_append, parseNumber]
    · exact h
    · exact fun _ heq => hc (List.cons.inj heq).1

/-! ### Values -/

theorem parseValue_quote (cs : List Char) : parseValue (fuel + 1) ('"' :: cs) =
    (parseString (cs.length + 1) cs).map fun (s, rest) => (.text (String.ofList s), rest) := rfl

theorem parseValue_bracket (cs : List Char) : parseValue (fuel + 1) ('[' :: cs) =
    match skip cs with
    | ']' :: rest => some (.list [], rest)
    | rest => (parseItems fuel rest).map fun (vs, rest) => (.list vs, rest) := rfl

theorem parseValue_fields (cs : List Char) : parseValue (fuel + 1) ('{' :: '"' :: cs) =
    (parseFields fuel ('"' :: cs)).map fun (fields, rest) => (.object fields, rest) := rfl

/-- Where a value begins: neither with a blank nor with the end of a list. -/
def IsBegun (cs : List Char) : Prop := ∃ c tail, cs = c :: tail ∧ isSpace c = false ∧ c ≠ ']'

theorem IsNumeric.isBegun (h : IsNumeric cs) : IsBegun cs := by
  have hskip := skip_numeric h
  obtain ⟨c, tail, rfl, h⟩ := h
  refine ⟨c, tail, rfl, ?_, ?_⟩
  · by_contra hspace
    rw [skip, List.dropWhile_cons_of_pos (by simpa using hspace)] at hskip
    have hlength := (List.dropWhile_sublist isSpace (l := tail)).length_le
    rw [hskip, List.length_cons] at hlength
    omega
  · rintro rfl
    rcases h with h | h <;> cases h

theorem IsBegun.append (h : IsBegun cs) (rest : List Char) : IsBegun (cs ++ rest) := by
  obtain ⟨c, tail, rfl, hc⟩ := h
  exact ⟨c, tail ++ rest, rfl, hc⟩

/-- A text of the value: the reader finds the value in it and leaves what stands behind it. -/
structure Written (cs : List Char) (v : Value) : Prop where
  begun : IsBegun cs
  read : ∀ fuel rest, 2 * cs.length ≤ fuel + 1 → Stops rest → parseValue (fuel + 1) (cs ++ rest) = some (v, rest)

theorem Written.length_pos (h : Written cs v) : 0 < cs.length := by
  obtain ⟨c, tail, rfl, -⟩ := h.begun
  exact Nat.succ_pos _

theorem Stops.nil : Stops [] := by
  intro d hd
  cases hd

theorem stops_cons {d : Char} (h : d = ',' ∨ d = ']' ∨ d = '}') (rest : List Char) : Stops (d :: rest) := by
  intro e he
  obtain rfl : d = e := Option.some.inj he
  exact h

theorem written_magnitude {negative : Bool} (h : ∀ rest, Stops rest → parseMagnitude negative (cs ++ rest) = some (v, rest)) :
    Written (sign negative ++ cs) v where
  begun := by
    obtain ⟨hnumeric, -⟩ := parseNumber_sign negative (h [] Stops.nil)
    rw [List.append_nil] at hnumeric
    exact hnumeric.isBegun
  read := by
    intro fuel rest _ hrest
    obtain ⟨hnumeric, hparse⟩ := parseNumber_sign negative (h rest hrest)
    rw [List.append_assoc, parseValue_number hnumeric, hparse]

theorem written_int (n : Int) : Written (print (.int n)) (.int n) := by
  have hdigit (k : Nat) : ∀ c ∈ Nat.toDigits 10 k, c.isDigit = true := fun c hc =>
    Nat.isDigit_of_mem_toDigits (by decide) (by decide) hc
  have hvalue (k : Nat) : digitsValue (Nat.toDigits 10 k) = k := by
    rw [digitsValue_eq, Nat.ofDigitChars_ten_toDigits]
  rw [print]
  cases n with
  | ofNat k =>
    rw [show (toString (Int.ofNat k)).toList = sign false ++ Nat.toDigits 10 k from
      Text.Integer.toList_toString_ofNat k]
    refine written_magnitude fun rest hrest => ?_
    rw [parseMagnitude_int Nat.toDigits_ne_nil (hdigit k) hrest, hvalue]
    rfl
  | negSucc k =>
    rw [show (toString (Int.negSucc k)).toList = sign true ++ Nat.toDigits 10 (k + 1) from
      Text.Integer.toList_toString_neg k]
    refine written_magnitude fun rest hrest => ?_
    rw [parseMagnitude_int Nat.toDigits_ne_nil (hdigit (k + 1)) hrest, hvalue]
    rfl

theorem number_eq {x : Double} (h : x.isFinite = true) :
    number x = sign x.negative ++ (Double.magnitudeText x.rank).toList := by
  have hrank : x.rank < Double.infinityRank := of_decide_eq_true h
  have hnan : x.isNaN = false := decide_eq_false (Nat.not_lt.mpr hrank.le)
  rw [number, hnan, if_neg Bool.false_ne_true, if_pos h, Double.text, hnan, if_neg Bool.false_ne_true, if_pos h,
    String.toList_append, Double.signText, sign]
  split <;> rfl

theorem written_float {x : Double} (h : x.isFinite = true) : Written (print (.float x)) (.float x) := by
  rw [print, number_eq h]
  exact written_magnitude fun rest hrest => parseMagnitude_magnitudeText (of_decide_eq_true h) hrest

theorem quotedPoints_append (ps : Text.Points) (rest : List Char) :
    quotedPoints ps ++ rest = '"' :: (ps.flatMap escapePoint ++ '"' :: rest) := by
  simp [quotedPoints]

theorem written_text (s : String) : Written (string s) (.text s) where
  begun := ⟨'"', _, rfl, rfl, by decide⟩
  read := by
    intro fuel rest _ _
    rw [string, quotedPoints_append, parseValue_quote, parseString_string, Option.map_some]
    dsimp only
    rw [String.ofList_toList]

/-- Text that holds surrogates is written all the same, and some text is read. -/
theorem exists_written_points (ps : Text.Points) : ∃ s, Written (quotedPoints ps) (.text s) := by
  obtain ⟨text, htext⟩ := exists_parseString (escaped_points ps)
  refine ⟨String.ofList text, ⟨'"', _, rfl, rfl, by decide⟩, fun fuel rest _ _ => ?_⟩
  have hfuel : (ps.flatMap escapePoint).length < (ps.flatMap escapePoint ++ '"' :: rest).length + 1 := by
    rw [List.length_append]
    omega
  rw [quotedPoints_append, parseValue_quote, htext _ rest hfuel]
  rfl

theorem written_null : Written (print .null) .null where
  begun := ⟨'n', _, rfl, rfl, by decide⟩
  read := fun _ _ _ _ => rfl

theorem written_bool (b : Bool) : Written (print (.bool b)) (.bool b) := by
  cases b with
  | false => exact ⟨⟨'f', _, rfl, rfl, by decide⟩, fun _ _ _ _ => rfl⟩
  | true => exact ⟨⟨'t', _, rfl, rfl, by decide⟩, fun _ _ _ _ => rfl⟩

/-! ### Lists -/

theorem parseItems_more (hv : parseValue fuel cs = some (v, ',' :: ' ' :: rest)) :
    parseItems (fuel + 1) cs = (parseItems fuel rest).map fun (vs, rest) => (v :: vs, rest) := by
  rw [parseItems, hv, ← parseItems_space fuel rest, Option.map_eq_bind]
  rfl

theorem parseItems_last (hv : parseValue fuel cs = some (v, ']' :: rest)) :
    parseItems (fuel + 1) cs = some ([v], rest) := by
  rw [parseItems, hv]
  rfl

theorem parseItems_printList (hne : vs ≠ []) (h : ∀ v ∈ vs, Written (print v) v) (hfuel : 2 * (printList vs).length < fuel)
    (rest : List Char) : parseItems fuel (printList vs ++ ']' :: rest) = some (vs, rest) := by
  induction vs generalizing fuel with
  | nil => exact absurd rfl hne
  | cons v more ih =>
    have hv := h v List.mem_cons_self
    have hpos := hv.length_pos
    match more with
    | [] =>
      rw [printList] at hfuel ⊢
      obtain ⟨fuel, rfl⟩ : ∃ k, fuel = k + 2 := ⟨fuel - 2, by omega⟩
      exact parseItems_last (hv.read fuel _ (by omega) (stops_cons (by simp) rest))
    | w :: more =>
      rw [printList] at hfuel ⊢
      · rw [List.length_append, List.length_cons, List.length_cons] at hfuel
        obtain ⟨fuel, rfl⟩ : ∃ k, fuel = k + 2 := ⟨fuel - 2, by omega⟩
        rw [List.append_assoc, List.cons_append, List.cons_append,
          parseItems_more (hv.read fuel _ (by omega) (stops_cons (by simp) _)),
          ih (List.cons_ne_nil w more) (fun u hu => h u (List.mem_cons_of_mem v hu)) (by omega)]
        rfl
      · simp
      · simp

theorem begun_printList (hne : vs ≠ []) (h : ∀ v ∈ vs, Written (print v) v) : IsBegun (printList vs) := by
  match vs with
  | [] => exact absurd rfl hne
  | [v] => exact (h v List.mem_cons_self).begun
  | v :: w :: more => exact (h v List.mem_cons_self).begun.append _

theorem parseValue_items (h : IsBegun cs) : parseValue (fuel + 1) ('[' :: cs) =
    (parseItems fuel cs).map fun (vs, rest) => (.list vs, rest) := by
  obtain ⟨c, tail, rfl, hspace, hclose⟩ := h
  rw [parseValue_bracket, skip, List.dropWhile_cons_of_neg (by simpa using hspace)]
  split
  · rename_i heq
    exact absurd (List.cons.inj heq).1 hclose
  · rfl

theorem written_list (h : ∀ v ∈ vs, Written (print v) v) : Written (print (.list vs)) (.list vs) where
  begun := ⟨'[', _, rfl, rfl, by decide⟩
  read := by
    intro fuel rest hfuel _
    by_cases hne : vs = []
    · subst hne
      rfl
    · rw [print, List.cons_append, List.length_cons, List.length_append, List.length_singleton] at hfuel
      have hopen : print (.list vs) ++ rest = '[' :: (printList vs ++ ']' :: rest) := by simp [print]
      rw [hopen, parseValue_items ((begun_printList hne h).append _), parseItems_printList hne h (by omega)]
      rfl

/-! ### Objects -/

/-- Fields whose values are written already. -/
def joinFields : List (String × List Char) → List Char
  | [] => []
  | [(key, cs)] => string key ++ ':' :: ' ' :: cs
  | (key, cs) :: more => string key ++ ':' :: ' ' :: cs ++ ',' :: ' ' :: joinFields more

theorem joinFields_cons {key : String} {more : List (String × List Char)} (h : more ≠ []) (cs : List Char) :
    joinFields ((key, cs) :: more) = string key ++ ':' :: ' ' :: cs ++ ',' :: ' ' :: joinFields more := by
  obtain ⟨f, more, rfl⟩ := List.exists_cons_of_ne_nil h
  rfl

theorem joinFields_append {a b : List (String × List Char)} (ha : a ≠ []) (hb : b ≠ []) :
    joinFields (a ++ b) = joinFields a ++ ',' :: ' ' :: joinFields b := by
  induction a with
  | nil => exact absurd rfl ha
  | cons e more ih =>
    obtain ⟨key, cs⟩ := e
    by_cases hmore : more = []
    · rw [hmore, List.singleton_append, joinFields_cons hb]
      rfl
    · rw [List.cons_append, joinFields_cons (List.append_ne_nil_of_left_ne_nil hmore b), ih hmore,
        joinFields_cons hmore]
      simp

theorem printFields_eq (fields : List (String × Value)) :
    printFields fields = joinFields (fields.map fun e => (e.1, print e.2)) := by
  induction fields with
  | nil => rfl
  | cons e more ih =>
    obtain ⟨key, v⟩ := e
    match more with
    | [] => rfl
    | f :: more =>
      rw [printFields, ih]
      · rfl
      · simp

theorem parseFields_key (key : String) (cs : List Char) : parseFields (fuel + 1) (string key ++ ':' :: cs) =
    (parseValue fuel cs).bind fun (v, tail) =>
      match skip tail with
      | ',' :: rest => (parseFields fuel rest).map fun (fields, rest) => ((key, v) :: fields, rest)
      | '}' :: rest => some ([(key, v)], rest)
      | _ => none := by
  have hskip (cs : List Char) : skip ('"' :: cs) = '"' :: cs := rfl
  rw [string, quotedPoints_append, parseFields, hskip]
  simp only [parseString_string, Option.bind_eq_bind, Option.bind_some, String.ofList_toList, Option.map_eq_bind]
  rfl

theorem parseFields_more {key : String} (hv : parseValue fuel (' ' :: cs) = some (v, ',' :: ' ' :: rest)) :
    parseFields (fuel + 1) (string key ++ ':' :: ' ' :: cs) =
      (parseFields fuel rest).map fun (fields, rest) => ((key, v) :: fields, rest) := by
  rw [parseFields_key, hv, ← parseFields_space fuel rest]
  rfl

theorem parseFields_last {key : String} (hv : parseValue fuel (' ' :: cs) = some (v, '}' :: rest)) :
    parseFields (fuel + 1) (string key ++ ':' :: ' ' :: cs) = some ([(key, v)], rest) := by
  rw [parseFields_key, hv]
  rfl

/-- A field with the text its value is written as. -/
structure Entry where
  key : String
  text : List Char
  value : Value

def Entry.pair (e : Entry) : String × List Char := (e.key, e.text)

def Entry.field (e : Entry) : String × Value := (e.key, e.value)

theorem parseFields_joinFields {entries : List Entry} (hne : entries ≠ []) (h : ∀ e ∈ entries, Written e.text e.value)
    (hfuel : 2 * (joinFields (entries.map Entry.pair)).length < fuel) (rest : List Char) :
    parseFields fuel (joinFields (entries.map Entry.pair) ++ '}' :: rest) = some (entries.map Entry.field, rest) := by
  induction entries generalizing fuel with
  | nil => exact absurd rfl hne
  | cons e more ih =>
    have he := h e List.mem_cons_self
    have hpos := he.length_pos
    match more with
    | [] =>
      simp only [List.map_cons, List.map_nil, Entry.pair, joinFields, List.length_append, List.length_cons] at hfuel ⊢
      obtain ⟨fuel, rfl⟩ : ∃ k, fuel = k + 2 := ⟨fuel - 2, by omega⟩
      rw [List.append_assoc, List.cons_append, List.cons_append]
      refine parseFields_last ?_
      rw [parseValue_space]
      exact he.read fuel _ (by omega) (stops_cons (by simp) rest)
    | f :: more =>
      have hjoin : joinFields ((e :: f :: more).map Entry.pair) =
          string e.key ++ ':' :: ' ' :: e.text ++ ',' :: ' ' :: joinFields ((f :: more).map Entry.pair) :=
        joinFields_cons (List.cons_ne_nil _ _) e.text
      rw [hjoin] at hfuel ⊢
      simp only [List.length_append, List.length_cons] at hfuel
      obtain ⟨fuel, rfl⟩ : ∃ k, fuel = k + 2 := ⟨fuel - 2, by omega⟩
      have hread : parseValue (fuel + 1)
          (' ' :: (e.text ++ ',' :: ' ' :: (joinFields ((f :: more).map Entry.pair) ++ '}' :: rest))) =
          some (e.value, ',' :: ' ' :: (joinFields ((f :: more).map Entry.pair) ++ '}' :: rest)) := by
        rw [parseValue_space]
        exact he.read fuel _ (by omega) (stops_cons (by simp) _)
      have hmore := ih (List.cons_ne_nil f more) (fun e he => h e (List.mem_cons_of_mem _ he))
        (show 2 * (joinFields ((f :: more).map Entry.pair)).length < fuel + 1 by omega)
      simp only [List.append_assoc, List.cons_append]
      rw [parseFields_more hread, hmore]
      rfl

theorem begun_joinFields {pairs : List (String × List Char)} (hne : pairs ≠ []) :
    ∃ tail, joinFields pairs = '"' :: tail := by
  match pairs with
  | [] => exact absurd rfl hne
  | [(key, cs)] => exact ⟨_, quotedPoints_append (Text.points key) _⟩
  | (key, cs) :: f :: more =>
    rw [joinFields_cons (List.cons_ne_nil f more), List.append_assoc]
    exact ⟨_, quotedPoints_append (Text.points key) _⟩

/-- An object is read from fields whose values are written in whatever way. -/
theorem written_entries {entries : List Entry} (h : ∀ e ∈ entries, Written e.text e.value) :
    Written ('{' :: (joinFields (entries.map Entry.pair) ++ ['}'])) (.object (entries.map Entry.field)) where
  begun := ⟨'{', _, rfl, rfl, by decide⟩
  read := by
    intro fuel rest hfuel _
    by_cases hne : entries = []
    · subst hne
      rfl
    · rw [List.length_cons, List.length_append, List.length_singleton] at hfuel
      have hread := parseFields_joinFields hne h
        (show 2 * (joinFields (entries.map Entry.pair)).length < fuel by omega) rest
      obtain ⟨tail, htail⟩ := begun_joinFields (show entries.map Entry.pair ≠ [] by simpa using hne)
      rw [List.cons_append, List.append_assoc, List.singleton_append, htail, List.cons_append, parseValue_fields,
        ← List.cons_append, ← htail, hread]
      rfl

theorem written_object (h : ∀ e ∈ fields, Written (print e.2) e.2) : Written (print (.object fields)) (.object fields) := by
  let entry (e : String × Value) : Entry := ⟨e.1, print e.2, e.2⟩
  have hwritten : ∀ e ∈ fields.map entry, Written e.text e.value := by
    intro e he
    obtain ⟨f, hf, rfl⟩ := List.mem_map.mp he
    exact h f hf
  have hfields : (fields.map entry).map Entry.field = fields := by
    rw [List.map_map]
    exact List.map_id fields
  have hprint : print (.object fields) = '{' :: (joinFields ((fields.map entry).map Entry.pair) ++ ['}']) := by
    rw [print, printFields_eq, List.map_map]
    rfl
  have hentries := written_entries hwritten
  rwa [hfields, ← hprint] at hentries

/-! ### The whole -/

theorem written_of_isJson (h : v.IsJson) : Written (print v) v := by
  induction h with
  | null => exact written_null
  | bool b => exact written_bool b
  | int n _ => exact written_int n
  | float x hx => exact written_float hx
  | text s => exact written_text s
  | list vs _ ih => exact written_list ih
  | object fields _ ih => exact written_object ih

theorem parse_of_written (h : Written cs v) : parse (String.ofList cs) = some v := by
  have hread := h.read (2 * cs.length + 1) [] (by omega) Stops.nil
  rw [List.append_nil] at hread
  rw [parse, String.toList_ofList, hread]
  rfl

/-! ### What is written -/

theorem isPlain_string (s : String) : ∀ c ∈ string s, IsPlain c := isPlain_quotedPoints _

theorem isPlain_number {x : Double} (h : x.isFinite = true) : ∀ c ∈ number x, IsPlain c := by
  rw [number_eq h, sign]
  refine List.forall_mem_append.mpr ⟨?_, isPlain_magnitudeText x.rank⟩
  split <;> exact isPlain_of_all rfl

theorem isPlain_printList (h : ∀ v ∈ vs, ∀ c ∈ print v, IsPlain c) : ∀ c ∈ printList vs, IsPlain c := by
  induction vs with
  | nil => simp [printList]
  | cons v more ih =>
    have hv := h v List.mem_cons_self
    match more with
    | [] => exact hv
    | w :: more =>
      have hmore := ih fun u hu => h u (List.mem_cons_of_mem v hu)
      rw [printList]
      · exact List.forall_mem_append.mpr ⟨hv, List.forall_mem_cons.mpr ⟨by decide,
          List.forall_mem_cons.mpr ⟨by decide, hmore⟩⟩⟩
      · simp

theorem isPlain_printFields (h : ∀ e ∈ fields, ∀ c ∈ print e.2, IsPlain c) : ∀ c ∈ printFields fields, IsPlain c := by
  induction fields with
  | nil => simp [printFields]
  | cons e more ih =>
    obtain ⟨key, v⟩ := e
    have hv := h (key, v) List.mem_cons_self
    have hkey : ∀ c ∈ string key ++ ':' :: ' ' :: print v, IsPlain c :=
      List.forall_mem_append.mpr ⟨isPlain_string key, List.forall_mem_cons.mpr ⟨by decide,
        List.forall_mem_cons.mpr ⟨by decide, hv⟩⟩⟩
    match more with
    | [] => exact hkey
    | f :: more =>
      have hmore := ih fun e he => h e (List.mem_cons_of_mem _ he)
      rw [printFields]
      · exact List.forall_mem_append.mpr ⟨hkey, List.forall_mem_cons.mpr ⟨by decide,
          List.forall_mem_cons.mpr ⟨by decide, hmore⟩⟩⟩
      · simp

theorem isPlain_print (h : v.IsJson) : ∀ c ∈ print v, IsPlain c := by
  induction h with
  | null => exact isPlain_of_all rfl
  | bool b => cases b <;> exact isPlain_of_all rfl
  | int n _ =>
    intro c hc
    rcases Text.Integer.mem_toString hc with rfl | hc
    · decide
    · exact isPlain_digit hc
  | float x hx => exact isPlain_number hx
  | text s => exact isPlain_string s
  | list vs _ ih =>
    exact List.forall_mem_cons.mpr ⟨by decide, List.forall_mem_append.mpr ⟨isPlain_printList ih, isPlain_of_all rfl⟩⟩
  | object fields _ ih =>
    exact List.forall_mem_cons.mpr ⟨by decide, List.forall_mem_append.mpr ⟨isPlain_printFields ih, isPlain_of_all rfl⟩⟩

end Json
end Transact
