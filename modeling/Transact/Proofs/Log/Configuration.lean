import Transact.Log.Root
import Transact.Proofs.Log.Line
import Transact.Setting.Profile

/-! The root logger along a run: one handler from the first configuration on, the level that was set last, and for
every record that is sent one line, with the session of the innermost block. -/
namespace Transact.Log

open Json (IsPlain)

/-! ### Records that are sent -/

namespace Record

variable {stamp : Stamp} {r : Record} {id : Value} {key : String}

/-- The record can be sent: its level is a positive number, no attribute takes the place of one that every record
has, all have a JSON form, and its message has a text. -/
structure Sendable (stamp : Stamp) (r : Record) : Prop where
  level : 0 < r.level
  levelGiven : ∀ v, r.oddLevel = some v → Root.isLevel v = true
  free : ∀ e ∈ r.extra, e.1 ∉ Root.reserved
  extra : ∀ e ∈ r.extra, e.2.IsJson
  elapsed : r.timed = true → stamp.elapsed.IsJson
  message : ∃ points, r.message = .ok points

theorem bind_of_ne (h : r.sessionId ≠ .null) (id : Value) : r.bind id = r := by
  unfold bind
  split
  · contradiction
  · rfl

theorem bind_of_null (h : r.sessionId = .null) (id : Value) :
    r.bind id = { r with extra := (sessionKey, id) :: r.extra.filter (·.1 != sessionKey) } := by
  rw [bind, h]

theorem sessionId_bind (h : r.sessionId = .null) (id : Value) : (r.bind id).sessionId = id := by
  rw [bind_of_null h, sessionId, attribute?, List.lookup_cons_self]
  rfl

theorem bind_session (id : Value) (r : Record) : r.bind (r.bind id).sessionId = r.bind id := by
  by_cases hnull : r.sessionId = .null
  · rw [sessionId_bind hnull]
  · rw [bind_of_ne hnull, bind_of_ne hnull]

theorem lookup_filter_ne {name : String} (h : key ≠ name) (fields : List (String × Value)) :
    (fields.filter (·.1 != name)).lookup key = fields.lookup key := by
  induction fields with
  | nil => rfl
  | cons e fields ih =>
    by_cases hname : e.1 = name
    · have hkey : (key == e.1) = false := beq_eq_false_iff_ne.mpr (hname ▸ h)
      rw [List.filter_cons_of_neg (by simpa using hname), ih, List.lookup_cons, hkey]
    · rw [List.filter_cons_of_pos (by simpa using hname), List.lookup_cons, List.lookup_cons, ih]

theorem attribute?_bind (h : key ≠ sessionKey) (id : Value) (r : Record) :
    (r.bind id).attribute? key = r.attribute? key := by
  by_cases hnull : r.sessionId = .null
  · rw [bind_of_null hnull, attribute?, List.lookup_cons, beq_eq_false_iff_ne.mpr h]
    exact lookup_filter_ne h r.extra
  · rw [bind_of_ne hnull]

/-- Binding changes attributes only. -/
theorem bind_eq (id : Value) (r : Record) : r.bind id = { r with extra := (r.bind id).extra } := by
  by_cases hnull : r.sessionId = .null
  · rw [bind_of_null hnull]
  · rw [bind_of_ne hnull]

theorem message_bind (id : Value) (r : Record) : (r.bind id).message = r.message := by
  have htemplate : (r.bind id).template = r.template := by rw [bind_eq]
  have hargs : (r.bind id).args = r.args := by rw [bind_eq]
  rw [message, message, attribute?_bind (by decide), attribute?_bind (by decide), attribute?_bind (by decide),
    htemplate, hargs]

theorem shown_bind (h : key ≠ sessionKey) (id : Value) (r : Record) :
    (r.bind id).shown stamp key = r.shown stamp key := by
  have htimed : (r.bind id).timed = r.timed := by rw [bind_eq]
  rw [shown, shown, attribute?_bind h, htimed]

theorem mem_of_attribute? {v : Value} (h : r.attribute? key = some v) : (key, v) ∈ r.extra := by
  obtain ⟨before, after, hsplit, -⟩ := List.lookup_eq_some_iff.mp h
  rw [hsplit]
  exact List.mem_append_right _ List.mem_cons_self

namespace Sendable

theorem attribute?_eq_none (h : r.Sendable stamp) (hkey : key ∈ Root.reserved) : r.attribute? key = none := by
  cases hvalue : r.attribute? key with
  | none => rfl
  | some v => exact absurd hkey (h.free _ (mem_of_attribute? hvalue))

theorem levelShown (h : r.Sendable stamp) : ∃ text, shownLevel (r.oddLevel.getD (.int r.level)) = .ok (.text text) := by
  cases hodd : r.oddLevel with
  | none => exact ⟨_, rfl⟩
  | some v =>
    cases v with
    | int n => exact ⟨_, rfl⟩
    | bool b => exact ⟨_, rfl⟩
    | _ => exact absurd (h.levelGiven _ hodd) (by simp [Root.isLevel])

theorem isJson_shown (h : r.Sendable stamp) {e : String × Value} (hshown : r.shown stamp key = some e) : e.2.IsJson := by
  rw [shown] at hshown
  split at hshown
  next v hv =>
    cases hshown
    exact h.extra _ (mem_of_attribute? hv)
  next =>
    split at hshown
    next htimed =>
      cases hshown
      exact h.elapsed (Bool.and_eq_true_iff.mp htimed).1
    next => cases hshown

theorem isJson_sessionId (h : r.Sendable stamp) : r.sessionId.IsJson := by
  cases hvalue : r.attribute? sessionKey with
  | none => simpa [sessionId, hvalue] using Value.IsJson.null
  | some v => simpa [sessionId, hvalue] using h.extra _ (mem_of_attribute? hvalue)

/-- Whatever is bound, the record is told, with its own session or else the one that is bound. -/
theorem tells (h : r.Sendable stamp) (hid : id.IsJson) :
    ∃ level points, (r.bind id).Tells stamp level points (r.error.map r.trace.text) := by
  obtain ⟨text, hlevel⟩ := h.levelShown
  obtain ⟨points, hmessage⟩ := h.message
  have hkept {key : String} (hkey : key ∈ Root.reserved) (hother : key ≠ sessionKey) :
      (r.bind id).attribute? key = none := by
    rw [attribute?_bind hother, h.attribute?_eq_none hkey]
  refine ⟨.text text, points, ?_, ?_, ?_, .text text, ?_, ?_, ?_⟩
  · have hodd : (r.bind id).oddLevel = r.oddLevel := by rw [bind_eq]
    have hsame : (r.bind id).level = r.level := by rw [bind_eq]
    rw [Record.levelShown, hkept (by decide) (by decide), hodd, hsame, hlevel]
    rfl
  · rw [message_bind, hmessage]
  · have herror : (r.bind id).error = r.error := by rw [bind_eq]
    have htrace : (r.bind id).trace = r.trace := by rw [bind_eq]
    rw [errorText, hkept (by decide) (by decide), herror, htrace]
  · rw [shownName, hkept (by decide) (by decide)]
    exact .text _
  · by_cases hnull : r.sessionId = .null
    · rw [sessionId_bind hnull]
      exact hid
    · rw [bind_of_ne hnull]
      exact h.isJson_sessionId
  · intro key hkey e hshown
    have hother : key ≠ sessionKey := by
      rintro rfl
      exact absurd hkey (by decide)
    rw [shown_bind hother] at hshown
    exact h.isJson_shown hshown

/-- The line of a record that is sent, whatever is bound. -/
theorem line_bind (h : r.Sendable stamp) (hid : id.IsJson) :
    ∃ line fields, (r.bind id).line stamp = .ok line ∧ (∀ c ∈ line.toList, IsPlain c) ∧
      Json.parse line = some (.object fields) ∧ fields.lookup sessionKey = some (r.bind id).sessionId := by
  obtain ⟨level, points, htells⟩ := h.tells hid
  obtain ⟨message, hmessage⟩ := Json.exists_written_points points
  obtain ⟨line, hline, hplain, hparse⟩ := line_of_tells htells hmessage
  exact ⟨line, _, hline, hplain, hparse, rfl⟩

end Sendable
end Record

/-! ### Runs -/

inductive Step where
  /-- No level is null. -/
  | configure (level : Value)
  | enter (id : Value)
  /-- The innermost block ends, by an error or not. -/
  | leave
  | log (stamp : Stamp) (record : Record)

/-- Without a level, that of the settings counts. -/
def chosenLevel (config : Settings) : Value → Value
  | .null => config.logLevel
  | level => level

/-- The level that a step sets: none if it does not configure or its level cannot be read. -/
def Step.levelSet? (config : Settings) : Step → Option Int
  | .configure level => (readLevel (chosenLevel config level)).toOption
  | _ => none

/-- Steps that leave no block open, and none that was open before. -/
inductive Balanced : List Step → Prop
  | nil : Balanced []
  | configure {level rest} : Balanced rest → Balanced (.configure level :: rest)
  | log {stamp record rest} : Balanced rest → Balanced (.log stamp record :: rest)
  | block {id inside rest} : Balanced inside → Balanced rest → Balanced (.enter id :: (inside ++ .leave :: rest))

/-- The session of what comes behind the steps: that of the innermost block still open. -/
inductive SessionAfter (steps : List Step) : Value → Prop
  | inside {before id inside} : steps = before ++ .enter id :: inside → Balanced inside → SessionAfter steps id
  | outside : (∀ before id inside, steps = before ++ .enter id :: inside → ¬ Balanced inside) → SessionAfter steps .null

variable {config : Settings} {start : Root} {steps before inside rest : List Step} {id : Value}

namespace Root

def step (config : Settings) (r : Root) : Step → Root
  | .configure level => (r.configure (chosenLevel config level)).2
  | .enter id => r.enter id
  | .leave => r.leave
  | .log _ _ => r

def after (config : Settings) (r : Root) (steps : List Step) : Root := steps.foldl (step config) r

theorem after_append (config : Settings) (r : Root) (xs ys : List Step) :
    r.after config (xs ++ ys) = (r.after config xs).after config ys :=
  List.foldl_append

theorem after_last (config : Settings) (r : Root) (xs : List Step) (s : Step) :
    r.after config (xs ++ [s]) = (r.after config xs).step config s :=
  after_append config r xs [s]

/-! ### Handlers and level -/

/-- Whatever was installed, one handler is left when a new one is added to the cleared root. -/
@[simp] theorem installed_add_clear (h : Handler) (r : Root) : (r.clear.add h).installed = [h] := rfl

/-- A configuration replaces the handlers whether or not its level can be read; the level changes only if it can. -/
theorem configure_eq (level : Value) (r : Root) :
    (r.configure level).2 = { r.clear.add .json with level := (readLevel level).toOption.getD r.level } := by
  unfold configure
  cases hread : readLevel level <;> simp [clear, add, Except.toOption]

theorem installed_configure (level : Value) (r : Root) : (r.configure level).2.installed = [.json] := by
  rw [configure_eq, installed_add_clear]

theorem installed_step {r : Root} (h : r.installed = [.json]) (s : Step) : (r.step config s).installed = [.json] := by
  cases s with
  | configure level => exact installed_configure _ r
  | enter id => exact h
  | leave => exact h
  | log stamp record => exact h

theorem level_step (config : Settings) (r : Root) (s : Step) :
    (r.step config s).level = (s.levelSet? config).getD r.level := by
  cases s with
  | configure level => rw [step, configure_eq, Step.levelSet?]
  | enter id => rfl
  | leave => rfl
  | log stamp record => rfl

theorem installed_after {r : Root} (h : r.installed = [.json]) (steps : List Step) :
    (r.after config steps).installed = [.json] := by
  induction steps generalizing r with
  | nil => exact h
  | cons s steps ih => exact ih (installed_step h s)

theorem installed_configured {level : Value} (h : .configure level ∈ steps) :
    (start.after config steps).installed = [.json] := by
  obtain ⟨before, rest, rfl⟩ := List.append_of_mem h
  rw [after_append]
  exact installed_after (installed_configure _ _) rest

theorem level_after (config : Settings) (r : Root) (steps : List Step) :
    (r.after config steps).level = (steps.filterMap (Step.levelSet? config)).getLast?.getD r.level := by
  induction steps using List.reverseRecOn with
  | nil => rfl
  | append_singleton steps s ih =>
    rw [after_last, level_step, List.filterMap_append]
    cases hset : s.levelSet? config with
    | none => simp [hset, ih]
    | some n => simp [hset]

/-! ### Blocks -/

theorem isJson_bound (config : Settings) (hbound : ∀ v ∈ start.bound, v.IsJson)
    (hids : ∀ id, .enter id ∈ steps → id.IsJson) :
    ∀ v ∈ (start.after config steps).bound, v.IsJson := by
  induction steps generalizing start with
  | nil => exact hbound
  | cons s steps ih =>
    refine ih ?_ fun id hid => hids id (List.mem_cons_of_mem s hid)
    cases s with
    | configure level =>
      rw [step, configure_eq]
      exact hbound
    | enter id =>
      intro v hv
      rcases List.mem_cons.mp hv with rfl | hv
      · exact hids _ List.mem_cons_self
      · exact hbound v hv
    | leave => exact fun v hv => hbound v (List.mem_of_mem_tail hv)
    | log stamp record => exact hbound

end Root

theorem Balanced.append (h : Balanced before) (hrest : Balanced rest) : Balanced (before ++ rest) := by
  induction h with
  | nil => exact hrest
  | configure _ ih => exact .configure ih
  | log _ ih => exact .log ih
  | block hinside _ _ ih =>
    rw [List.cons_append, List.append_assoc]
    exact .block hinside ih

namespace Root

theorem bound_balanced (h : Balanced inside) (r : Root) : (r.after config inside).bound = r.bound := by
  induction h generalizing r with
  | nil => rfl
  | configure _ ih =>
    refine (ih _).trans ?_
    rw [step, configure_eq]
    rfl
  | log _ ih => exact ih r
  | block _ _ ihinside ihrest =>
    refine (congrArg bound (after_append config (r.enter _) _ _)).trans ((ihrest _).trans ?_)
    exact congrArg List.tail (ihinside (r.enter _))

/-- Each session that is bound is that of a block, and what came behind its beginning left no other open. By
induction on the number of steps: a block that is left is dropped with all that stood before the end. -/
theorem exists_block (hstart : start.bound = []) (steps : List Step) {ids : List Value}
    (h : (start.after config steps).bound = id :: ids) :
    ∃ before inside, steps = before ++ .enter id :: inside ∧ Balanced inside ∧
      (start.after config before).bound = ids := by
  induction hn : steps.length using Nat.strong_induction_on generalizing steps id ids with
  | _ n ih =>
    rcases List.eq_nil_or_concat' steps with rfl | ⟨earlier, s, rfl⟩
    · exact absurd (hstart.symm.trans h) (List.cons_ne_nil id ids).symm
    · rw [after_last] at h
      have hshorter : earlier.length < n := by
        rw [← hn, List.length_append]
        exact Nat.lt_succ_self _
      have hsame (hbound : (start.after config earlier).bound = id :: ids) (hlast : Balanced [s]) :
          ∃ before inside, earlier ++ [s] = before ++ .enter id :: inside ∧ Balanced inside ∧
            (start.after config before).bound = ids := by
        obtain ⟨before, inside, rfl, hinside, hids⟩ := ih _ hshorter earlier hbound rfl
        exact ⟨before, inside ++ [s], by simp, hinside.append hlast, hids⟩
      cases s with
      | configure level =>
        rw [step, configure_eq] at h
        exact hsame h (.configure .nil)
      | log stamp record => exact hsame h (.log .nil)
      | enter other =>
        obtain ⟨rfl, rfl⟩ := List.cons.inj h
        exact ⟨earlier, [], rfl, .nil, rfl⟩
      | leave =>
        have htail : (start.after config earlier).bound.tail = id :: ids := h
        obtain ⟨other, hbound⟩ : ∃ other, (start.after config earlier).bound = other :: id :: ids := by
          cases hbound : (start.after config earlier).bound with
          | nil =>
            rw [hbound] at htail
            cases htail
          | cons other rest =>
            rw [hbound] at htail
            exact ⟨other, congrArg (other :: ·) htail⟩
        obtain ⟨before, ended, rfl, hended, hbefore⟩ := ih _ hshorter earlier hbound rfl
        have hbeforeShorter : before.length < n := by
          refine lt_of_le_of_lt ?_ hshorter
          rw [List.length_append]
          exact Nat.le_add_right _ _
        obtain ⟨outer, inside, rfl, hinside, hids⟩ := ih _ hbeforeShorter before hbefore rfl
        exact ⟨outer, inside ++ .enter other :: (ended ++ .leave :: []), by simp,
          hinside.append (.block hended .nil), hids⟩

theorem bound_inside (hinside : Balanced inside) (before : List Step) (id : Value) :
    (start.after config (before ++ .enter id :: inside)).bound = id :: (start.after config before).bound := by
  rw [after_append]
  exact bound_balanced hinside ((start.after config before).enter id)

/-- What is bound is the session of the innermost block, and there is one such session. -/
theorem sessionAfter_iff (config : Settings) (hstart : start.bound = []) :
    SessionAfter steps id ↔ (start.after config steps).current = id := by
  constructor
  · rintro (⟨rfl, hinside⟩ | hopen)
    · rw [current, bound_inside hinside, List.headD_cons]
    · cases hbound : (start.after config steps).bound with
      | nil => rw [current, hbound, List.headD_nil]
      | cons id ids =>
        obtain ⟨before, inside, hsplit, hinside, -⟩ := exists_block hstart steps hbound
        exact absurd hinside (hopen before id inside hsplit)
  · rintro rfl
    cases hbound : (start.after config steps).bound with
    | nil =>
      rw [current, hbound, List.headD_nil]
      refine .outside fun before id inside hsplit hinside => ?_
      rw [hsplit, bound_inside hinside] at hbound
      cases hbound
    | cons id ids =>
      obtain ⟨before, inside, hsplit, hinside, -⟩ := exists_block hstart steps hbound
      rw [current, hbound, List.headD_cons]
      exact .inside hsplit hinside

/-! ### What is printed -/

variable {stamp : Stamp} {record : Record} {r : Root}

theorem oddLevel_of_sendable (h : record.Sendable stamp) : record.oddLevel.any (!isLevel ·) = false := by
  cases hlevel : record.oddLevel with
  | none => rfl
  | some v => simp [h.levelGiven v hlevel]

theorem log_low (h : record.Sendable stamp) (hlevel : record.level < r.level) : r.log stamp record = .ok [] := by
  rw [log, oddLevel_of_sendable h, isEnabled, decide_eq_false (not_le.mpr hlevel), Bool.and_false]
  rfl

theorem log_reached (h : record.Sendable stamp) (hlevel : r.level ≤ record.level) {line : String}
    (hline : (record.bind r.current).line stamp = .ok line) :
    r.log stamp record = .ok (r.installed.flatMap (Handler.prints line)) := by
  rw [log, oddLevel_of_sendable h, isEnabled, decide_eq_true h.level, decide_eq_true hlevel, Bool.and_self]
  simp only [Bool.false_eq_true, if_false, if_true]
  split
  · rename_i e hfound
    exact absurd (by simpa using List.find?_some hfound) (h.free _ (List.mem_of_find?_eq_some hfound))
  · rw [hline]

theorem log_line (h : record.Sendable stamp) (hbound : r.current.IsJson) (hinstalled : r.installed = [.json])
    (hlevel : r.level ≤ record.level) :
    ∃ line fields, r.log stamp record = .ok [line] ∧ (record.bind r.current).line stamp = .ok line ∧
      (∀ c ∈ line.toList, IsPlain c) ∧ Json.parse line = some (.object fields) ∧
      fields.lookup Record.sessionKey = some (record.bind r.current).sessionId := by
  obtain ⟨line, fields, hline, hread⟩ := h.line_bind hbound
  refine ⟨line, fields, ?_, hline, hread⟩
  rw [log_reached h hlevel hline, hinstalled]
  rfl

/-- From the first configuration on, even one that fails, the root has one handler; its level is the one that was
set last; and a record that is sent prints one line if its level reaches the root's, and none below. The session in
the line is the record's own, or else that of the innermost block. -/
theorem configured_root (config : Settings) (hstart : start.bound = []) (hconfigured : ∃ level, .configure level ∈ steps)
    (hids : ∀ id, .enter id ∈ steps → id.IsJson) :
    (start.after config steps).handlers = 1 ∧
    (start.after config steps).level = (steps.filterMap (Step.levelSet? config)).getLast?.getD start.level ∧
    ∀ stamp record, record.Sendable stamp →
      (record.level < (start.after config steps).level → (start.after config steps).log stamp record = .ok []) ∧
      ((start.after config steps).level ≤ record.level → ∃ line fields id,
        (start.after config steps).log stamp record = .ok [line] ∧ (record.bind id).line stamp = .ok line ∧
        (∀ c ∈ line.toList, IsPlain c) ∧ Json.parse line = some (.object fields) ∧
        fields.lookup Record.sessionKey = some id ∧
        (record.sessionId ≠ .null → id = record.sessionId) ∧ (record.sessionId = .null → SessionAfter steps id)) := by
  obtain ⟨level, hconfigure⟩ := hconfigured
  have hinstalled : (start.after config steps).installed = [.json] := installed_configured hconfigure
  have hhandlers : (start.after config steps).handlers = 1 := by rw [handlers, hinstalled, List.length_singleton]
  refine ⟨hhandlers, level_after config start steps, fun stamp record h => ⟨log_low h, fun hlevel => ?_⟩⟩
  have hbound : (start.after config steps).current.IsJson := by
    have hnone : ∀ v ∈ start.bound, v.IsJson := by simp [hstart]
    have hall := isJson_bound config hnone hids
    unfold current
    cases hopen : (start.after config steps).bound with
    | nil => exact .null
    | cons id ids => exact hall id (hopen ▸ List.mem_cons_self)
  obtain ⟨line, fields, hlog, hline, hplain, hparse, hsession⟩ := log_line h hbound hinstalled hlevel
  refine ⟨line, fields, _, hlog, ?_, hplain, hparse, hsession, fun hown => ?_, fun hnull => ?_⟩
  · rw [Record.bind_session, hline]
  · rw [Record.bind_of_ne hown]
  · rw [Record.sessionId_bind hnull]
    exact (sessionAfter_iff config hstart).mpr rfl

theorem configured_root_failing :
    ∃ root : Root,
      root = after ⟨.null, .null, .null, .null, .null, .null, .text "INFO"⟩ {}
        [.enter (.text "outer"), .configure (.text "warning"), .configure (.text "loud"), .enter (.text "inner"),
          .log ⟨"12:00:00", .null⟩ { logger := "app", level := 40, template := "early" }, .leave, .configure (.list [])] ∧
      root.handlers = 1 ∧ root.level = 30 ∧
      root.log ⟨"12:00:01", .null⟩ { logger := "app", level := 20, template := "quiet" } = .ok [] ∧
      ∃ line fields, root.log ⟨"12:00:02", .null⟩ { logger := "app", level := 30, template := "heard" } = .ok [line] ∧
        Json.parse line = some (.object fields) ∧ fields.lookup "session_id" = some (.text "outer") := by
  refine ⟨_, rfl, ?_⟩
  have hids : ∀ id : Value, Step.enter id ∈ ([.enter (.text "outer"), .configure (.text "warning"),
      .configure (.text "loud"), .enter (.text "inner"),
      .log ⟨"12:00:00", .null⟩ { logger := "app", level := 40, template := "early" }, .leave, .configure (.list [])] :
      List Step) → id.IsJson := by
    intro id hid
    simp only [List.mem_cons, Step.enter.injEq, reduceCtorEq, false_or, List.not_mem_nil, or_false] at hid
    rcases hid with rfl | rfl
    · exact .text _
    · exact .text _
  have hsendable (time template : String) (level : Int) (hlevel : 0 < level) :
      Record.Sendable ⟨time, .null⟩ { logger := "app", level := level, template := template } :=
    ⟨hlevel, by simp, by simp, by simp, by simp, Text.points template, rfl⟩
  obtain ⟨hhandlers, hlevel, hlog⟩ := configured_root ⟨.null, .null, .null, .null, .null, .null, .text "INFO"⟩
    (rfl : ({} : Root).bound = []) ⟨.text "warning", by simp⟩ hids
  have hthirty := hlevel.trans (show _ = (30 : Int) by decide +kernel)
  refine ⟨hhandlers, hthirty, ?_, ?_⟩
  · apply (hlog _ _ (hsendable _ _ 20 (by decide))).1
    rw [hthirty]
    decide
  · obtain ⟨line, fields, id, hline, -, -, hparse, hid, -, hsession⟩ :=
      (hlog _ _ (hsendable "12:00:02" "heard" 30 (by decide))).2 hthirty.le
    refine ⟨line, fields, hline, hparse, hid.trans (congrArg some ?_)⟩
    exact ((sessionAfter_iff ⟨.null, .null, .null, .null, .null, .null, .text "INFO"⟩
      (rfl : ({} : Root).bound = [])).mp (hsession rfl)).symm

end Root
end Transact.Log
