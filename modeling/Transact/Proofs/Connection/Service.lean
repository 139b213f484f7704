import Transact.Proofs.Connection.Calls
import Transact.Proofs.Session.Serial

/-! A run of a session with its connection. The session is where the inputs that were passed to it
have brought it, and the store has answered what the calls come to that have ended, with what the
call under way has had so far. -/
namespace Transact.Attached

open Connection (Carried Stands)

variable {ρ : Type}

def Effect.point? : Effect ρ → Option Point
  | touch point => some point
  | session _ => none

def Effect.call? : Effect ρ → Option (Call Query)
  | session effect => effect.call?
  | touch _ => none

abbrev Moment (ρ : Type) := Move (Attached ρ) (Input ρ) (Effect ρ)

namespace Moment

/-- The points that are gone to. -/
def touched (m : Moment ρ) : List Point := m.effects.filterMap Effect.point?

def calls (m : Moment ρ) : List (Call Query) := m.effects.filterMap Effect.call?

/-- The point that answers, and how. -/
def reading (m : Moment ρ) : Option Reading := (m.before.route m.input).answered

def passed (m : Moment ρ) : Option (Transact.Input Query ρ) := (m.before.route m.input).passed

end Moment

abbrev History (ρ : Type) := List (Moment ρ)

namespace History

def touched (h : History ρ) : List Point := h.flatMap Moment.touched

def readings (h : History ρ) : List Reading := h.filterMap Moment.reading

def passed (h : History ρ) : List (Transact.Input Query ρ) := h.filterMap Moment.passed

variable {h : History ρ} {m : Moment ρ}

theorem touched_concat : touched (h ++ [m]) = h.touched ++ m.touched := by simp [touched]

theorem readings_concat : readings (h ++ [m]) = h.readings ++ m.reading.toList := by
  cases hm : m.reading <;> simp [readings, hm]

theorem passed_concat : passed (h ++ [m]) = h.passed ++ m.passed.toList := by
  cases hm : m.passed <;> simp [passed, hm]

end History

def after (a : Attached ρ) (inputs : List (Input ρ)) : Attached ρ := Walk.after step a inputs

def history (a : Attached ρ) (inputs : List (Input ρ)) : History ρ := Walk.history step a inputs

/-! The cases of a step -/

inductive Routing (a : Attached ρ) : Input ρ → Routed ρ → Prop
  | idle {i : Input ρ} : Routing a i ⟨a.connection, a.errand, none, none, none⟩
  | turned {active : Bool} :
      Routing a (.turn active) ⟨a.connection.turned active, a.errand, none, none, none⟩
  | own {x : Transact.Input Query ρ} : a.session.answered x = none →
      Routing a (.session x) ⟨a.connection, a.errand, none, none, some x⟩
  | replied {job : Nat} {q : Query} {p : Connection.Progress} {outcome : Except Error ρ} : a.errand = some ⟨job, .execute q, .ok p⟩ →
      Routing a (.reply outcome) ⟨(a.connection.settle p (outcome.map fun _ => ())).1, none,
        some (p.point, outcome.map fun _ => ()), none, some (.reply job outcome)⟩
  | moved {job : Nat} {call : Call Query} {p q : Connection.Progress} {outcome : Except Error Unit}
      (active : Bool) : a.errand = some ⟨job, call, .ok p⟩ →
      (a.connection.settle p outcome).2 = .touch q →
      Routing a (.settle outcome active) ⟨(a.connection.settle p outcome).1.turned active,
        some ⟨job, call, .ok q⟩, some (p.point, outcome), some q.point, none⟩
  | answered {job : Nat} {call : Call Query} {p : Connection.Progress}
      {outcome result : Except Error Unit} (active : Bool) : a.errand = some ⟨job, call, .ok p⟩ →
      call.statement? = none → (a.connection.settle p outcome).2 = .answered result →
      Routing a (.settle outcome active) ⟨(a.connection.settle p outcome).1.turned active, none,
        some (p.point, outcome), none, some (.settle job result)⟩
  | refused {job : Nat} {call : Call Query} {e : Error} : a.errand = some ⟨job, call, .error e⟩ →
      Routing a .refuse ⟨a.connection, none, none, none, some (.settle job (.error e))⟩

theorem route_cases (a : Attached ρ) (i : Input ρ) : Routing a i (a.route i) := by
  cases i with
  | session x =>
    cases hanswered : a.session.answered x with
    | none =>
      simp only [route, hanswered, Option.isSome_none, Bool.false_eq_true, if_false]
      exact .own hanswered
    | some entry =>
      simp only [route, hanswered, Option.isSome_some, if_true]
      exact .idle
  | reply outcome =>
    simp only [route]
    split
    · exact .replied ‹_›
    · exact .idle
  | settle outcome active =>
    simp only [route]
    split
    · exact .idle
    · rename_i job call p hstatement herrand
      have hcall : call.statement? = none := by
        cases call <;> first | rfl | exact (hstatement _ rfl).elim
      split
      · rename_i d q hsettle
        have hmoved := Routing.moved active herrand (congrArg Prod.snd hsettle)
        rwa [hsettle] at hmoved
      · rename_i d result hsettle
        have hanswered := Routing.answered active herrand hcall (congrArg Prod.snd hsettle)
        rwa [hsettle] at hanswered
    · exact .idle
  | refuse =>
    simp only [route]
    split
    · exact .refused ‹_›
    · exact .idle
  | turn active => exact .turned

variable {a b : Attached ρ} {i : Input ρ} {x : Transact.Input Query ρ} {effects : List (Effect ρ)}

/-- The call that the session makes with an input. -/
def called (a : Attached ρ) (x : Transact.Input Query ρ) : List (Call Query) :=
  (a.session.step x).2.filterMap Transact.Effect.call?

/-- Either the session is silent, or its call sets out. -/
theorem take_cases (a : Attached ρ) (x : Transact.Input Query ρ) :
    (a.called x = [] ∧
      a.take x = ({ a with session := (a.session.step x).1 }, (a.session.step x).2.map .session)) ∨
    ∃ e : Errand, a.called x = [e.call] ∧ (a.session.step x).1.awaited e.job = some e.call ∧
      e.progress = a.connection.start e.call ∧
      a.take x = ({ a with session := (a.session.step x).1, errand := some e },
        (a.session.step x).2.map .session ++ e.point?.toList.map .touch) := by
  have hchange := Session.step_change a.session x
  have hone := Session.calls_single hchange
  simp only [take, called]
  rcases hcalls : (a.session.step x).2.filterMap Transact.Effect.call? with _ | ⟨c, rest⟩
  · left
    cases x.job? <;> exact ⟨rfl, rfl⟩
  · right
    obtain rfl : rest = [] := by simpa [hcalls] using hone
    obtain ⟨job, hjob, hawaited⟩ := Session.awaited_lands hchange (c := c) (by simp [hcalls])
    exact ⟨⟨job, c, a.connection.start c⟩, rfl, hawaited, rfl, by simp only [hjob, List.head?_cons]⟩

/-! What is known at the end of a run -/

/-- The answers that the call under way has had. -/
inductive Underway : Option Errand → List Reading → Prop
  | none : Underway none []
  | some {e : Errand} {past : List Reading} : Stands e.call e.progress past → Underway (some e) past

variable {id : String} {xs : List (Transact.Input Query ρ)} {readings past : List Reading}
  {touched : List Point} {job : Nat} {c : Call Query} {q : Query}

structure Served (id : String) (xs : List (Transact.Input Query ρ)) (readings : List Reading)
    (touched : List Point) (a : Attached ρ) : Prop where
  session : a.session = ({ id } : Session Query ρ).after xs
  adapted : a.connection.adapted = true
  calling : a.session.calling = a.errand.map Errand.call
  awaited : ∀ e ∈ a.errand, a.session.awaited e.job = some e.call
  carried : ∃ front past, readings = front ++ past ∧
    Carried (({ id } : Session Query ρ).history xs).log front ∧ Underway a.errand past
  touched : touched = readings.map Prod.fst ++ (a.errand.bind Errand.point?).toList

/-- The connection has done its part of a step, and the session is about to take the input. -/
structure Feeding (id : String) (xs : List (Transact.Input Query ρ)) (readings : List Reading)
    (touched : List Point) (x : Transact.Input Query ρ) (a : Attached ρ) : Prop where
  session : a.session = ({ id } : Session Query ρ).after xs
  adapted : a.connection.adapted = true
  calling : a.session.calling.toList =
    ((a.session.answered x).map Prod.fst).toList ++ (a.errand.map Errand.call).toList
  awaited : ∀ e ∈ a.errand, a.session.awaited e.job = some e.call ∧ a.session.answered x = none
  carried : ∃ front past, readings = front ++ past ∧
    Carried ((({ id } : Session Query ρ).history xs).log ++ (a.session.answered x).toList) front ∧
      Underway a.errand past
  touched : touched = readings.map Prod.fst ++ (a.errand.bind Errand.point?).toList

theorem Served.sound (h : Served id xs readings touched a) : a.session.Sound := by
  rw [h.session]
  exact Session.sound_after (Session.sound_fresh id) xs

theorem Feeding.sound (h : Feeding id xs readings touched x a) : a.session.Sound := by
  rw [h.session]
  exact Session.sound_after (Session.sound_fresh id) xs

theorem log_concat (s : Session Query ρ) (xs : List (Transact.Input Query ρ)) (x : Transact.Input Query ρ) :
    (s.history (xs ++ [x])).log = (s.history xs).log ++ ((s.after xs).answered x).toList := by
  rw [Session.history_append]
  exact History.log_concat

theorem filterMap_point?_session (effects : List (Transact.Effect Query ρ)) :
    (effects.map (Effect.session : _ → Effect ρ)).filterMap Effect.point? = [] := by
  simp [List.filterMap_map, Function.comp_def, Effect.point?]

theorem filterMap_call?_session (effects : List (Transact.Effect Query ρ)) :
    (effects.map (Effect.session : _ → Effect ρ)).filterMap Effect.call? =
      effects.filterMap Transact.Effect.call? := by
  rw [List.filterMap_map]
  rfl

theorem filterMap_point?_touch (points : List Point) :
    (points.map (Effect.touch : _ → Effect ρ)).filterMap Effect.point? = points := by
  simp [List.filterMap_map, Function.comp_def, Effect.point?]

theorem filterMap_call?_touch (points : List Point) :
    (points.map (Effect.touch : _ → Effect ρ)).filterMap Effect.call? = [] := by
  simp [List.filterMap_map, Function.comp_def, Effect.call?]

theorem Feeding.take (h : Feeding id xs readings touched x a) :
    Served id (xs ++ [x]) readings (touched ++ (a.take x).2.filterMap Effect.point?) (a.take x).1 := by
  have hchange := Session.step_change a.session x
  obtain ⟨front, past, hreadings, hfront, hunder⟩ := h.carried
  have hsession : (({ id } : Session Query ρ).after (xs ++ [x])) = (a.session.step x).1 := by
    rw [Session.after_append, h.session]
    rfl
  rw [h.session, ← log_concat] at hfront
  -- what the session waits for now is what it has called
  have hcalls := Session.calls_change h.sound hchange
  rw [h.calling, List.append_assoc, List.append_cancel_left_eq] at hcalls
  change (a.errand.map Errand.call).toList ++ a.called x = _ at hcalls
  rcases take_cases a x with ⟨hcalled, htake⟩ | ⟨e, hcalled, hawaited, hprogress, htake⟩
  · have hcalling : (a.session.step x).1.calling = a.errand.map Errand.call := by
      rw [hcalled, List.append_nil] at hcalls
      simpa using (congrArg List.head? hcalls).symm
    rw [htake]
    refine ⟨hsession.symm, h.adapted, hcalling, fun e he => ?_, ⟨front, past, hreadings, hfront, hunder⟩, ?_⟩
    · obtain ⟨hawaited, hanswered⟩ := h.awaited e he
      exact Session.awaited_stays h.sound hchange hawaited hanswered
    · rw [filterMap_point?_session, List.append_nil]
      exact h.touched
  · rw [hcalled] at hcalls
    have hnone : a.errand = none := by
      have hlength := congrArg List.length hcalls
      cases herrand : a.errand with
      | none => rfl
      | some other =>
        have hone := Option.length_toList_le (o := (a.session.step x).1.calling)
        simp [herrand] at hlength
        omega
    have hcalling : (a.session.step x).1.calling = some e.call := by
      rw [hnone] at hcalls
      simpa using (congrArg List.head? hcalls).symm
    rw [hnone] at hunder
    cases hunder
    rw [htake]
    refine ⟨hsession.symm, h.adapted, hcalling, fun e' he' => ?_, ⟨front, [], hreadings, hfront, ?_⟩, ?_⟩
    · cases he'
      exact hawaited
    · refine .some ?_
      rw [hprogress]
      exact Connection.stands_start h.adapted e.call
    · rw [List.filterMap_append, filterMap_point?_session, filterMap_point?_touch, List.nil_append,
        h.touched, hnone]
      simp

/-! One step -/

theorem answered_reply (s : Session Query ρ) {job : Nat} {q : Query} (outcome : Except Error ρ)
    (h : s.awaited job = some (.execute q)) :
    s.answered (.reply job outcome) = some (.execute q, outcome.map fun _ => ()) := by
  obtain ⟨⟨r, st⟩, hj, hcall⟩ := Option.bind_eq_some_iff.mp h
  cases st <;> simp_all [Session.answered, Stage.call?]

theorem answered_settle {s : Session Query ρ} (hs : s.Sound) {job : Nat} {c : Call Query}
    (outcome : Except Error Unit) (h : s.awaited job = some c) (hc : c.statement? = none) :
    s.answered (.settle job outcome) = some (c, outcome) := by
  obtain ⟨⟨r, st⟩, hj, hcall⟩ := Option.bind_eq_some_iff.mp h
  have hfits := hs.fits _ _ _ hj
  cases st with
  | forwarding =>
    have hr : r.isEnding = false := hfits.2
    cases r <;> simp_all [Stage.call?, Request.firstCall, Request.isEnding, Call.statement?]
    subst hcall
    cases hc
  | _ => simp_all [Session.answered, Stage.call?]

theorem Stands.statement? {call : Call Query} {e : Error} {past : List Reading}
    (h : Stands call (.error e) past) : call.statement? = none := by
  cases h
  rfl

/-- A call that was under way has ended, and its answer goes to the session. -/
theorem Served.feed (h : Served id xs readings touched a) {e : Errand} {c : Connection}
    (reading : Option Reading) {result : Except Error Unit} (he : a.errand = some e)
    (hc : c.adapted = true) (hx : a.session.answered x = some (e.call, result))
    (hpiece : ∀ past, Stands e.call e.progress past →
      Connection.Piece e.call result (past ++ reading.toList))
    (hpoint : reading.map Prod.fst = e.point?) :
    Feeding id xs (readings ++ reading.toList) touched x { a with connection := c, errand := none } where
  session := h.session
  adapted := hc
  calling := by
    simp only [hx, h.calling, he]
    rfl
  awaited := by simp
  carried := by
    obtain ⟨front, past, hreadings, hfront, hunder⟩ := h.carried
    rw [he] at hunder
    cases hunder with
    | some hstands =>
      refine ⟨front ++ (past ++ reading.toList), [], ?_, ?_, .none⟩
      · rw [hreadings, List.append_nil, List.append_assoc]
      · rw [hx]
        exact hfront.concat (hpiece past hstands)
  touched := by
    rw [h.touched, he]
    cases reading <;> simp [← hpoint]

theorem Served.stands (h : Served id xs readings touched a) {e : Errand} (he : a.errand = some e) :
    ∃ past, Stands e.call e.progress past := by
  obtain ⟨front, past, -, -, hunder⟩ := h.carried
  rw [he] at hunder
  cases hunder with
  | some hstands => exact ⟨past, hstands⟩

theorem Served.step (h : Served id xs readings touched a) (i : Input ρ) :
    Served id (xs ++ (a.route i).passed.toList) (readings ++ (a.route i).answered.toList)
      (touched ++ (a.step i).2.filterMap Effect.point?) (a.step i).1 := by
  have hcases := route_cases a i
  have hsettled (p : Connection.Progress) (outcome : Except Error Unit) :
      (a.connection.settle p outcome).1.adapted = true := by
    rw [Connection.settle_adapted]
    exact h.adapted
  simp only [Attached.step]
  generalize a.route i = r at hcases ⊢
  cases hcases with
  | idle => simpa using h
  | turned =>
    simp only [Option.toList_none, List.append_nil, List.map_nil, List.filterMap_nil]
    exact ⟨h.session, h.adapted, h.calling, h.awaited, h.carried, h.touched⟩
  | @own x hanswered =>
    simp only [Option.toList_some, Option.toList_none, List.append_nil]
    apply Feeding.take
    refine ⟨h.session, h.adapted, ?_, fun e he => ⟨h.awaited e he, hanswered⟩, ?_, h.touched⟩
    · rw [hanswered, h.calling]
      rfl
    · simpa [hanswered] using h.carried
  | @replied job q p outcome herrand =>
    have hx := answered_reply a.session outcome (h.awaited _ herrand)
    refine (h.feed (some (p.point, outcome.map fun _ => ())) herrand (hsettled p _) hx (fun past hstands => ?_) rfl).take
    cases hstands with
    | execute _ _ hp =>
      rw [hp]
      exact .execute q _
  | @answered job call p outcome result active herrand hstatement hsettle =>
    have hx := answered_settle h.sound result (h.awaited _ herrand) hstatement
    have hfeeding := h.feed (some (p.point, outcome))
      (c := (a.connection.settle p outcome).1.turned active) herrand (hsettled p outcome) hx
      (fun past hstands => hstands.answered hsettle) rfl
    exact hfeeding.take
  | @refused job call e herrand =>
    obtain ⟨past, hstands⟩ := h.stands herrand
    have hx := answered_settle h.sound (.error e) (h.awaited _ herrand) (Stands.statement? hstands)
    have hfeeding := h.feed none herrand h.adapted hx
      (fun past hstands => by simpa using hstands.refused) rfl
    exact hfeeding.take
  | @moved job call p q outcome active herrand hsettle =>
    simp only [Option.toList_some, Option.toList_none, List.append_nil, filterMap_point?_touch]
    obtain ⟨front, past, hreadings, hfront, hunder⟩ := h.carried
    have htouched := h.touched
    have hcalling := h.calling
    have hawaited := h.awaited _ herrand
    rw [herrand] at hunder htouched hcalling
    cases hunder with
    | some hstands =>
      obtain ⟨rfl, hp, rfl, rfl⟩ := hstands.moved hsettle
      rw [hp]
      refine ⟨h.session, hsettled p outcome, hcalling, fun e he => ?_, ?_, ?_⟩
      · cases he
        exact hawaited
      · refine ⟨front, [(.invalidate, outcome)], ?_, hfront, .some (.closing outcome)⟩
        rw [hreadings, List.append_nil]
      · rw [htouched]
        simp [Errand.point?, hp]

/-- A session that begins on the connection as it is. -/
def fresh (id : String) (c : Connection) : Attached ρ := { session := { id }, connection := c }

variable (id : String) (c : Connection)

/-- At first nothing is asked and nothing is under way. -/
theorem served_fresh (hc : c.adapted = true) : Served id [] [] [] (fresh (ρ := ρ) id c) where
  session := rfl
  adapted := hc
  calling := rfl
  awaited e he := by cases he
  carried := ⟨[], [], rfl, rfl, .none⟩
  touched := rfl

theorem served_history (hc : c.adapted = true) (inputs : List (Input ρ)) :
    Served id (history (fresh id c) inputs).passed (history (fresh id c) inputs).readings
      (history (fresh id c) inputs).touched (after (fresh id c) inputs) := by
  refine Walk.run_induction (P := fun h a => Served id (History.passed h) (History.readings h) (History.touched h) a)
    (Q := fun _ => True) (served_fresh id c hc) ?_ inputs fun _ _ => trivial
  intro h a i _ ih
  rw [History.passed_concat, History.readings_concat, History.touched_concat]
  exact ih.step i

end Transact.Attached
