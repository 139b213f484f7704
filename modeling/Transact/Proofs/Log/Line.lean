import Transact.Log.Record
import Transact.Proofs.Json.RoundTrip

/-! The line of a record: one line of plain ASCII, from which everything that the record tells is read back. -/
namespace Transact.Log.Record

open Json (Written IsPlain Entry joinFields joinFields_append print printFields quotedPoints)

variable {stamp : Stamp} {r : Record} {level : Value} {points : Text.Points} {message : String} {error : Option String}

/-! ### What a line tells -/

def shownName (r : Record) : Value := (r.attribute? "name").getD (.text r.logger)

/-- What stands behind the message. -/
def toldDetails (stamp : Stamp) (r : Record) (error : Option String) : List (String × Value) :=
  (sessionKey, r.sessionId) :: (error.map fun text => ("exc_info", Value.text text)).toList
    ++ shownKeys.filterMap (r.shown stamp)

/-- What a line tells, in its order. -/
def told (stamp : Stamp) (r : Record) (level : Value) (message : String) (error : Option String) :
    List (String × Value) :=
  [("time", .text stamp.time), ("level", level), ("name", r.shownName), ("message", .text message)]
    ++ r.toldDetails stamp error

/-- The record can be told: its level, its message and its error have a text, and its attributes a JSON form. -/
structure Tells (stamp : Stamp) (r : Record) (level : Value) (points : Text.Points) (error : Option String) : Prop where
  levelShown : r.levelShown = .ok level
  message : r.message = .ok points
  errorText : r.errorText = .ok error
  level : level.IsJson
  name : r.shownName.IsJson
  session : r.sessionId.IsJson
  shown : ∀ key ∈ shownKeys, ∀ e, r.shown stamp key = some e → e.2.IsJson

/-! ### Its text -/

def entry (e : String × Value) : Entry := ⟨e.1, print e.2, e.2⟩

def entries (stamp : Stamp) (r : Record) (level : Value) (points : Text.Points) (message : String) (error : Option String) :
    List Entry :=
  [entry ("time", .text stamp.time), entry ("level", level), entry ("name", r.shownName),
    ⟨"message", quotedPoints points, .text message⟩] ++ (r.toldDetails stamp error).map entry

theorem map_entry (fields : List (String × Value)) :
    (fields.map entry).map Entry.field = fields ∧ joinFields ((fields.map entry).map Entry.pair) = printFields fields := by
  rw [Json.printFields_eq, List.map_map, List.map_map]
  exact ⟨List.map_id fields, rfl⟩

theorem map_field_entries : (entries stamp r level points message error).map Entry.field =
    r.told stamp level message error := by
  rw [entries, List.map_append, (map_entry _).1]
  rfl

theorem joinFields_entries (message : String) : joinFields ((entries stamp r level points message error).map Entry.pair) =
    printFields [("time", .text stamp.time), ("level", level), ("name", r.shownName)] ++
      (", \"message\": ".toList ++ (quotedPoints points ++ (", ".toList ++ printFields (r.toldDetails stamp error)))) := by
  have hkey : ", \"message\": ".toList = ',' :: ' ' :: (Json.string "message" ++ [':', ' ']) := by decide +kernel
  have hsplit : (entries stamp r level points message error).map Entry.pair =
      [("time", print (.text stamp.time)), ("level", print level), ("name", print r.shownName)] ++
        ([("message", quotedPoints points)] ++ ((r.toldDetails stamp error).map entry).map Entry.pair) := by
    rw [entries, List.map_append]
    rfl
  rw [hsplit, joinFields_append (by simp) (by simp), joinFields_append (by simp) (by simp [toldDetails]),
    (map_entry (r.toldDetails stamp error)).2, hkey]
  have hhead := Json.printFields_eq [("time", .text stamp.time), ("level", level), ("name", r.shownName)]
  rw [hhead, joinFields]
  simp

theorem line_eq (message : String) (h : r.Tells stamp level points error) : r.line stamp = .ok (String.ofList
    ('{' :: (joinFields ((entries stamp r level points message error).map Entry.pair) ++ ['}']))) := by
  have hdetails : r.details stamp = .ok (r.toldDetails stamp error) := by
    rw [details, h.errorText]
    rfl
  have hline : r.line stamp = .ok (String.ofList
      ('{' :: printFields [("time", .text stamp.time), ("level", level), ("name", r.shownName)]
        ++ ", \"message\": ".toList ++ quotedPoints points ++ ", ".toList ++ printFields (r.toldDetails stamp error)
        ++ ['}'])) := by
    rw [line, h.levelShown, h.message, hdetails]
    rfl
  rw [hline, joinFields_entries]
  simp only [List.cons_append, List.append_assoc]

theorem shown_eq_some {key : String} {e : String × Value} (h : r.shown stamp key = some e) : e.1 = key := by
  rw [shown] at h
  split at h
  · cases h
    rfl
  · split at h
    · cases h
      rfl
    · cases h

theorem isJson_details (h : r.Tells stamp level points error) : ∀ e ∈ r.toldDetails stamp error, e.2.IsJson := by
  intro e he
  rcases List.mem_append.mp he with he | he
  · rcases List.mem_cons.mp he with rfl | he
    · exact h.session
    · obtain ⟨text, -, rfl⟩ := Option.map_eq_some_iff.mp (Option.mem_toList.mp he)
      exact .text text
  · obtain ⟨key, hkey, hshown⟩ := List.mem_filterMap.mp he
    exact h.shown key hkey e hshown

theorem written_entry (h : r.Tells stamp level points error) (hmessage : Written (quotedPoints points) (.text message)) :
    ∀ e ∈ entries stamp r level points message error, Written e.text e.value := by
  have hentry {e : String × Value} (he : e.2.IsJson) : Written (entry e).text (entry e).value := Json.written_of_isJson he
  simp only [entries, List.mem_append, List.mem_cons, List.not_mem_nil, or_false, or_imp, forall_and, forall_eq]
  refine ⟨⟨hentry (.text _), hentry h.level, hentry h.name, hmessage⟩, fun e he => ?_⟩
  obtain ⟨field, hfield, rfl⟩ := List.mem_map.mp he
  exact hentry (isJson_details h field hfield)

theorem isPlain_line (h : r.Tells stamp level points error) (message : String) :
    ∀ c ∈ '{' :: (joinFields ((entries stamp r level points message error).map Entry.pair) ++ ['}']), IsPlain c := by
  have hfields {fields : List (String × Value)} (hfields : ∀ e ∈ fields, e.2.IsJson) : ∀ c ∈ printFields fields, IsPlain c :=
    Json.isPlain_printFields fun e he => Json.isPlain_print (hfields e he)
  have hhead : ∀ e ∈ [("time", Value.text stamp.time), ("level", level), ("name", r.shownName)], e.2.IsJson := by
    simp only [List.mem_cons, List.not_mem_nil, or_false, or_imp, forall_and, forall_eq]
    exact ⟨.text _, h.level, h.name⟩
  rw [joinFields_entries]
  simp only [List.forall_mem_cons, List.forall_mem_append]
  exact ⟨by decide, ⟨hfields hhead, Json.isPlain_of_all rfl, Json.isPlain_quotedPoints points,
    Json.isPlain_of_all rfl, hfields (isJson_details h)⟩, by decide, by simp⟩

/-- The line is plain ASCII, and what it tells is read back from it. -/
theorem line_of_tells (h : r.Tells stamp level points error) (hmessage : Written (quotedPoints points) (.text message)) :
    ∃ l, r.line stamp = .ok l ∧ (∀ c ∈ l.toList, IsPlain c) ∧
      Json.parse l = some (.object (r.told stamp level message error)) := by
  refine ⟨_, line_eq message h, ?_, ?_⟩
  · rw [String.toList_ofList]
    exact isPlain_line h message
  · rw [← map_field_entries]
    exact Json.parse_of_written (Json.written_entries (written_entry h hmessage))

/-! ### What the line says of the record -/

theorem keys_filterMap (keys : List String) :
    (keys.filterMap (r.shown stamp)).map (·.1) = keys.filter fun key => (r.shown stamp key).isSome := by
  induction keys with
  | nil => rfl
  | cons key keys ih =>
    cases hshown : r.shown stamp key with
    | none => simp [hshown, ih]
    | some e => simp [hshown, ih, shown_eq_some hshown]

theorem keys_told : (r.told stamp level message error).map (·.1) =
    ["time", "level", "name", "message", "session_id"] ++ (if error.isSome then ["exc_info"] else [])
      ++ shownKeys.filter fun key => (r.shown stamp key).isSome := by
  rw [← keys_filterMap]
  cases error <;> simp [told, toldDetails, sessionKey]

theorem nodup_told : ((r.told stamp level message error).map (·.1)).Nodup := by
  have hall : (["time", "level", "name", "message", "session_id"] ++ ["exc_info"] ++ shownKeys).Nodup := by decide
  rw [keys_told]
  refine hall.sublist (List.Sublist.append (List.Sublist.append (List.Sublist.refl _) ?_) List.filter_sublist)
  split
  · exact List.Sublist.refl _
  · exact List.nil_sublist _

theorem lookup_filterMap (keys : List String) (key : String) :
    (keys.filterMap (r.shown stamp)).lookup key = if key ∈ keys then (r.shown stamp key).map (·.2) else none := by
  induction keys with
  | nil => rfl
  | cons k keys ih =>
    cases hshown : r.shown stamp k with
    | none =>
      rw [List.filterMap_cons_none hshown, ih]
      by_cases hk : key = k
      · simp [hk, hshown]
      · simp [hk]
    | some e =>
      obtain ⟨name, v⟩ := e
      obtain rfl : name = k := shown_eq_some hshown
      rw [List.filterMap_cons_some hshown, List.lookup_cons]
      by_cases hk : key = name
      · simp [hk, hshown]
      · simp [hk, ih, beq_eq_false_iff_ne.mpr hk]

theorem lookup_rest (error : Option String) (key : String) :
    ((error.map fun text => ("exc_info", Value.text text)).toList ++ shownKeys.filterMap (r.shown stamp)).lookup key =
      if key = "exc_info" then error.map .text else if key ∈ shownKeys then (r.shown stamp key).map (·.2) else none := by
  rw [List.lookup_append, lookup_filterMap]
  cases error with
  | none =>
    by_cases hkey : key = "exc_info"
    · subst hkey
      rfl
    · simp [hkey]
  | some text =>
    by_cases hkey : key = "exc_info"
    · subst hkey
      rfl
    · simp [List.lookup_cons, beq_eq_false_iff_ne.mpr hkey, hkey]

/-- The text of the record's error and the attributes that stand behind it. -/
theorem rest_inj {stamp' : Stamp} {r' : Record} {error' : Option String}
    (h : (error'.map fun text => ("exc_info", Value.text text)).toList ++ shownKeys.filterMap (r'.shown stamp') =
      (error.map fun text => ("exc_info", Value.text text)).toList ++ shownKeys.filterMap (r.shown stamp)) :
    error' = error ∧ ∀ key ∈ shownKeys, r'.shown stamp' key = r.shown stamp key := by
  have hlookup (key : String) := congrArg (List.lookup key) h
  simp only [lookup_rest] at hlookup
  constructor
  · exact Option.map_injective (fun _ _ => Value.text.inj) (hlookup "exc_info")
  · intro key hkey
    have hvalue := hlookup key
    have hother : key ≠ "exc_info" := by
      rintro rfl
      exact absurd hkey (by decide)
    rw [if_neg hother, if_neg hother, if_pos hkey, if_pos hkey] at hvalue
    cases hshown : r.shown stamp key with
    | none =>
      rw [hshown] at hvalue
      exact Option.map_eq_none_iff.mp hvalue
    | some e =>
      rw [hshown] at hvalue
      obtain ⟨e', hshown', hsame⟩ := Option.map_eq_some_iff.mp hvalue
      rw [hshown']
      exact congrArg some (Prod.ext ((shown_eq_some hshown').trans (shown_eq_some hshown).symm) hsame)

/-- A record is one line of ASCII without a line break, and the line is one object: its keys are those of the
record, each once and in order, with the record's values, among them all that is printed of its error: the calls
that it came through, and the errors before it. So the line of a record is that of no record which tells anything
else. -/
theorem line_told (h : r.Tells stamp level (Text.points message) error) :
    ∃ l, r.line stamp = .ok l ∧ (∀ c ∈ l.toList, 0x20 ≤ c.toNat ∧ c.toNat ≤ 0x7F) ∧
      Json.parse l = some (.object (r.told stamp level message error)) ∧
      (r.told stamp level message error).map (·.1) =
        ["time", "level", "name", "message", "session_id"] ++ (if error.isSome then ["exc_info"] else [])
          ++ shownKeys.filter (fun key => (r.shown stamp key).isSome) ∧
      ((r.told stamp level message error).map (·.1)).Nodup ∧
      ∀ stamp' r' level' message' error', Tells stamp' r' level' (Text.points message') error' →
        r'.line stamp' = .ok l → stamp'.time = stamp.time ∧ level' = level ∧ r'.shownName = r.shownName ∧
          message' = message ∧ r'.sessionId = r.sessionId ∧ error' = error ∧
          ∀ key ∈ shownKeys, r'.shown stamp' key = r.shown stamp key := by
  obtain ⟨l, hline, hplain, hparse⟩ := line_of_tells h (Json.written_text message)
  refine ⟨l, hline, fun c hc => ⟨(hplain c hc).1, (hplain c hc).2.le⟩, hparse, keys_told, nodup_told, ?_⟩
  intro stamp' r' level' message' error' h' hline'
  obtain ⟨l', hl', -, hparse'⟩ := line_of_tells h' (Json.written_text message')
  obtain rfl : l' = l := Except.ok.inj (hl'.symm.trans hline')
  have hsame : r'.told stamp' level' message' error' = r.told stamp level message error :=
    Value.object.inj (Option.some.inj (hparse'.symm.trans hparse))
  simp only [told, toldDetails, List.cons_append, List.nil_append, List.cons.injEq, Prod.mk.injEq, true_and,
    Value.text.injEq] at hsame
  obtain ⟨htime, hlevel, hname, hmessage, hsession, hrest⟩ := hsame
  exact ⟨htime, hlevel, hname, hmessage, hsession, rest_inj hrest⟩

/-- An error raised from another, with quotes, braces and line breaks wherever there can be any. -/
def quotedRecord : Record where
  logger := "app"
  level := 40
  template := "done\"\x7d\n\x7b\"level\": \"INFO\""
  error := some (.given .runtime [.text "kaput\"\x7d\n\x7b\"a\": \""] none)
  trace := { calls := [⟨"app.py", 7, "serve", ["raise RuntimeError(\"kaput…\")"]⟩]
             earlier := [(⟨[], "Lost: \"💥\"", []⟩, .cause)] }
  extra := [("session_id", .text "s-😀"), ("hook", .list [.null, .int (-3), .float ⟨true, 0⟩])]
  timed := true

theorem line_told_quoted :
    ∃ l, quotedRecord.line ⟨"12:00:00", .float ⟨false, 0x3FF8000000000000⟩⟩ = .ok l ∧
      Json.parse l = some (.object [("time", .text "12:00:00"), ("level", .text "ERROR"), ("name", .text "app"),
        ("message", .text "done\"\x7d\n\x7b\"level\": \"INFO\""), ("session_id", .text "s-😀"),
        ("exc_info", .text ("Lost: \"💥\"\n\n" ++
          "The above exception was the direct cause of the following exception:\n\n" ++
          "Traceback (most recent call last):\n  File \"app.py\", line 7, in serve\n" ++
          "    raise RuntimeError(\"kaput…\")\nRuntimeError: kaput\"\x7d\n\x7b\"a\": \"")),
        ("hook", .list [.null, .int (-3), .float ⟨true, 0⟩]), ("elapsed_ms", .float ⟨false, 0x3FF8000000000000⟩)]) := by
  have htext : quotedRecord.error.map quotedRecord.trace.text = some ("Lost: \"💥\"\n\n" ++
      "The above exception was the direct cause of the following exception:\n\n" ++
      "Traceback (most recent call last):\n  File \"app.py\", line 7, in serve\n" ++
      "    raise RuntimeError(\"kaput…\")\nRuntimeError: kaput\"\x7d\n\x7b\"a\": \"") := by
    decide +kernel
  have htells : Tells ⟨"12:00:00", .float ⟨false, 0x3FF8000000000000⟩⟩ quotedRecord (.text "ERROR")
      (Text.points "done\"\x7d\n\x7b\"level\": \"INFO\"") (quotedRecord.error.map quotedRecord.trace.text) := by
    refine ⟨rfl, rfl, rfl, .text _, .text _, .text _, fun key hkey e he => ?_⟩
    simp only [shownKeys, List.mem_cons, List.not_mem_nil, or_false] at hkey
    rcases hkey with rfl | rfl | rfl | rfl
    · cases he
    · cases he
      refine .list _ fun v hv => ?_
      simp only [List.mem_cons, List.not_mem_nil, or_false] at hv
      rcases hv with rfl | rfl | rfl
      · exact .null
      · exact .int _ (by decide)
      · exact .float _ (by decide)
    · cases he
    · cases he
      exact .float _ (by decide)
  rw [htext] at htells
  obtain ⟨l, hline, -, hparse, -⟩ := line_told htells
  exact ⟨l, hline, hparse⟩

end Transact.Log.Record
