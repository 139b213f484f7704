import Transact.Proofs.Repository.Following

/-! Runs of a transaction. What is asked alone, or performed alone, is a run like any other. -/
namespace Transact.Transaction

variable {t : Transaction} {i : Input} {job : Nat} {s : Session Sql.Statement Sql.Result} {ω : Type}

def after (t : Transaction) : List Event → Transaction
  | [] => t
  | event :: rest => (t.handle event).1.after rest

/-- What the session gets to know of a run. -/
def inputs (t : Transaction) : List Event → List Input
  | [] => []
  | event :: rest => ((t.intake event).map Prod.snd).toList ++ (t.handle event).1.inputs rest

def history (t : Transaction) (events : List Event) : History Sql.Statement Sql.Result :=
  t.session.history (t.inputs events)

theorem after_append (t : Transaction) (xs ys : List Event) :
    t.after (xs ++ ys) = (t.after xs).after ys := by
  induction xs generalizing t with
  | nil => rfl
  | cons event rest ih => exact ih _

theorem inputs_append (t : Transaction) (xs ys : List Event) :
    t.inputs (xs ++ ys) = t.inputs xs ++ (t.after xs).inputs ys := by
  induction xs generalizing t with
  | nil => rfl
  | cons event rest ih => simp only [List.cons_append, inputs, after, ih, List.append_assoc]

theorem history_refused {event : Event} (h : t.intake event = none) : t.history [event] = [] := by
  simp [history, inputs, h, Session.history]

theorem history_taken {u : Transaction} {event : Event} (h : t.intake event = some (u, i)) :
    t.history [event] = [t.session.moment i] := by
  simp [history, inputs, h, Session.history]

/-- The operation waits for the job that is opened next. -/
def awaiting (t : Transaction) (repository : Nat) (operation : Operation) : Transaction :=
  { t with pending := t.pending ++ [⟨t.session.jobs.length, repository, operation⟩] }

theorem intake_cases {u : Transaction} {event : Event} (h : t.intake event = some (u, i)) :
    (u = t ∧ event = .session i) ∨
      ∃ (k : Nat) (operation : Operation) (r : Repository) (statement : Sql.Statement),
        t.repositories[k]? = some r ∧ r.statement operation = .ok statement ∧
          i = .request (.execute statement) ∧ u = t.awaiting k operation := by
  cases event with
  | session i' =>
    cases h
    exact .inl ⟨rfl, rfl⟩
  | operation k operation =>
    simp only [intake] at h
    cases hr : t.repositories[k]? with
    | none => simp [hr] at h
    | some r =>
      cases hstatement : r.statement operation with
      | error e => simp [hr, prepare, hstatement, bind, Except.bind] at h
      | ok statement =>
        simp only [hr, prepare, hstatement, bind, Except.bind, pure, Except.pure, Option.some.injEq,
          Prod.mk.injEq] at h
        exact .inr ⟨k, operation, r, statement, hr, hstatement, h.2.symm, h.1.symm⟩

theorem intake_session {u : Transaction} {event : Event} (h : t.intake event = some (u, i)) :
    u.session = t.session := by
  obtain ⟨rfl, -⟩ | ⟨_, _, _, _, -, -, -, rfl⟩ := intake_cases h
  · rfl
  · rfl

theorem intake_repositories {u : Transaction} {event : Event} (h : t.intake event = some (u, i)) :
    u.repositories = t.repositories := by
  obtain ⟨rfl, -⟩ | ⟨_, _, _, _, -, -, -, rfl⟩ := intake_cases h
  · rfl
  · rfl

theorem handle_taken {u : Transaction} {event : Event} (h : t.intake event = some (u, i)) :
    t.handle event = u.step i := by simp only [handle, h]

theorem handle_refused {event : Event} (h : t.intake event = none) : t.handle event = (t, []) := by
  simp only [handle, h]

theorem handle_session (t : Transaction) (event : Event) :
    (t.handle event).1.session = t.session.after ((t.intake event).map Prod.snd).toList := by
  cases h : t.intake event with
  | none =>
    rw [handle_refused h]
    rfl
  | some admitted =>
    obtain ⟨u, i⟩ := admitted
    rw [handle_taken h, step_session, intake_session h]
    rfl

theorem session_after (t : Transaction) (events : List Event) :
    (t.after events).session = t.session.after (t.inputs events) := by
  induction events generalizing t with
  | nil => rfl
  | cons event rest ih =>
    simp only [after, inputs, Session.after_append, ← handle_session]
    exact ih _

theorem history_append (t : Transaction) (xs ys : List Event) :
    t.history (xs ++ ys) = t.history xs ++ (t.after xs).history ys := by
  simp only [history, inputs_append, Session.history_append, session_after]

/-- What holds at the start and is kept by every input that is let in holds of every run. -/
theorem run_induction {P : History Sql.Statement Sql.Result → Transaction → Prop}
    (hs : t.session.Sound) (start : P [] t)
    (step : ∀ {h t u event i}, t.session.Sound → t.intake event = some (u, i) → P h t →
      P (h ++ [t.session.moment i]) (u.step i).1)
    (events : List Event) : P (t.history events) (t.after events) := by
  induction events using List.reverseRecOn with
  | nil => exact start
  | append_singleton rest event ih =>
    have hsound : (t.after rest).session.Sound := by
      rw [session_after]
      exact Session.sound_after hs _
    rw [after_append, history_append, after, after]
    cases hintake : (t.after rest).intake event with
    | none =>
      rw [handle_refused hintake, history_refused hintake, List.append_nil]
      exact ih
    | some admitted =>
      obtain ⟨u, i⟩ := admitted
      rw [handle_taken hintake, history_taken hintake]
      exact step hsound hintake ih

/-! Alone -/

def withSession (t : Transaction) (s : Session Sql.Statement Sql.Result) : Transaction :=
  { t with session := s }

@[simp] theorem withSession_withSession {s' : Session Sql.Statement Sql.Result} :
    (t.withSession s').withSession s = t.withSession s := rfl

theorem follow_withSession (job : Option Nat) (e : Effect) :
    (t.withSession s).follow job e = (t.follow job e).withSession s := by
  have hat (job : Nat) : (t.withSession s).pendingAt job = t.pendingAt job := rfl
  cases e with
  | finish answer =>
    cases job with
    | none => rfl
    | some job =>
      simp only [follow, Option.bind_some, hat]
      split <;> rfl
  | _ => rfl

theorem foldl_withSession (job : Option Nat) (effects : List Effect) :
    effects.foldl (follow job) (t.withSession s) = (effects.foldl (follow job) t).withSession s := by
  induction effects generalizing t with
  | nil => rfl
  | cons e rest ih => rw [List.foldl_cons, follow_withSession, ih, List.foldl_cons]

/-- A run in which one job alone is moved is followed from its first effect to its last. -/
theorem after_job {inputs : List Input} (hinputs : ∀ i ∈ inputs, jobOf i = some job) :
    t.after (inputs.map .session) = (((t.session.history inputs).flatMap Moment.effects).foldl
      (follow (some job)) t).withSession (t.session.after inputs) := by
  induction inputs generalizing t with
  | nil => rfl
  | cons i rest ih =>
    have hrest := ih (t := (t.step i).1) fun i hi => hinputs i (List.mem_cons_of_mem _ hi)
    have hstep : (t.step i).1 =
        ((t.session.step i).2.foldl (follow (some job)) t).withSession (t.session.step i).1 := by
      rw [← foldl_withSession, ← hinputs i List.mem_cons_self]
      rfl
    calc t.after ((i :: rest).map .session)
        = (t.step i).1.after (rest.map .session) := rfl
      _ = ((((t.session.step i).1.history rest).flatMap Moment.effects).foldl (follow (some job))
            ((t.session.step i).2.foldl (follow (some job)) t)).withSession
              ((t.session.step i).1.after rest) := by
        rw [hrest, step_session, hstep, foldl_withSession, withSession_withSession]
      _ = (((t.session.history (i :: rest)).flatMap Moment.effects).foldl (follow (some job)) t).withSession
            (t.session.after (i :: rest)) := by
        rw [Session.history, List.flatMap_cons, List.foldl_append]
        rfl

theorem respond_job {env : Surroundings Sql.Statement Sql.Result ω} {effects : List Effect} {w w' : ω}
    (h : Session.respond env job effects w = (some i, w')) : jobOf i = some job := by
  induction effects with
  | nil => cases h
  | cons e rest ih =>
    cases e with
    | call c =>
      simp only [Session.respond, Prod.mk.injEq, Option.some.injEq] at h
      rw [← h.1]
      cases c <;> rfl
    | notify hook o =>
      simp only [Session.respond, Prod.mk.injEq, Option.some.injEq] at h
      rw [← h.1]
      rfl
    | _ => exact ih h

theorem carry_history (env : Surroundings Sql.Statement Sql.Result ω) (job fuel : Nat)
    (run : Run Sql.Statement Sql.Result ω) :
    ∃ inputs : List Input, (∀ i ∈ inputs, jobOf i = some job) ∧
      (Session.carry env job fuel run).session = run.session.after inputs ∧
      (Session.carry env job fuel run).effects =
        run.effects ++ (run.session.history inputs).flatMap Moment.effects := by
  induction fuel generalizing run with
  | zero => exact ⟨[], by simp, rfl, by simp [Session.carry, Session.history]⟩
  | succ fuel ih =>
    rcases hrespond : Session.respond env job run.effects run.world with ⟨_ | i, w⟩
    · exact ⟨[], by simp, by simp [Session.carry, hrespond, Session.after],
        by simp [Session.carry, hrespond, Session.history]⟩
    · obtain ⟨inputs, hinputs, hsession, heffects⟩ :=
        ih ⟨(run.session.step i).1, (run.session.step i).2, w⟩
      refine ⟨i :: inputs, ?_, ?_, ?_⟩
      · intro i' hi'
        rcases List.mem_cons.mp hi' with rfl | hi'
        · exact respond_job hrespond
        · exact hinputs i' hi'
      · simp only [Session.carry, hrespond, hsession]
        rfl
      · simp only [Session.carry, hrespond, heffects]
        rfl

theorem request_still (s : Session Sql.Statement Sql.Result) (request : Request Sql.Statement) :
    ∀ e ∈ (s.step (.request request)).2, e.isStill = true := by
  have hchange := Session.step_change s (.request request)
  generalize (s.step (.request request)).2 = effects at hchange ⊢
  generalize (s.step (.request request)).1 = s' at hchange
  cases hchange with
  | idle => simp
  | opened records => exact Session.still_append (Session.still_logs _) (by simp [Effect.isStill])

theorem step_request_eq (t : Transaction) (request : Request Sql.Statement) :
    (t.step (.request request)).1 = t.withSession (t.session.step (.request request)).1 :=
  foldl_still (request_still t.session request) none

/-- What is asked of a transaction alone is a run of it. -/
theorem ask_after (store : Store ω) (connection : Nat) (request : Request Sql.Statement)
    (t : Transaction) (w : ω) : ∃ inputs : List Input,
      (t.ask store connection request w).2.1 =
        t.after (.session (.request request) :: inputs.map .session) := by
  have hstill := request_still t.session request
  have hstart := step_request_eq t request
  have hask : (t.ask store connection request w).2.1 =
      ((t.session.alone (store.surroundings connection) request w).effects.foldl
        (follow (some t.session.jobs.length)) t).withSession
          (t.session.alone (store.surroundings connection) request w).session := by
    rw [← foldl_withSession]
    rfl
  have hafter (inputs : List Input) : t.after (.session (.request request) :: inputs.map .session) =
      (t.withSession (t.session.step (.request request)).1).after (inputs.map .session) := by
    rw [← hstart]
    rfl
  simp only [hask, hafter, Session.alone]
  generalize t.session.step (.request request) = moved at hstill ⊢
  obtain ⟨s, opening⟩ := moved
  by_cases hlength : s.jobs.length = t.session.jobs.length
  · refine ⟨[], ?_⟩
    simp only [hlength, if_true, foldl_still hstill]
    rfl
  · let job := t.session.jobs.length
    obtain ⟨inputs, hinputs, hsession, heffects⟩ := carry_history (store.surroundings connection) job
      s.steps ⟨(s.step (.run job)).1, (s.step (.run job)).2, w⟩
    have hjob : ∀ i ∈ (.run job :: inputs : List Input), jobOf i = some job := by
      intro i hi
      rcases List.mem_cons.mp hi with rfl | hi
      · rfl
      · exact hinputs i hi
    refine ⟨.run job :: inputs, ?_⟩
    rw [after_job hjob, if_neg hlength, List.foldl_append, foldl_still hstill, hsession, heffects,
      foldl_withSession]
    rfl

/-- An operation that is performed alone is a run that begins with it. -/
theorem perform_after (store : Store ω) (connection repository : Nat) (operation : Operation)
    (t : Transaction) (w : ω) : ∃ inputs : List Input,
      (t.perform store connection repository operation w).2.1 =
        t.after (.operation repository operation :: inputs.map .session) := by
  have hnone (hintake : t.intake (.operation repository operation) = none) :
      t.after [.operation repository operation] = t := by
    rw [after, handle_refused hintake]
    rfl
  cases hr : t.repositories[repository]? with
  | none =>
    refine ⟨[], ?_⟩
    rw [List.map_nil, hnone (by simp only [intake, hr])]
    simp only [perform, hr]
  | some r =>
    cases hprepare : t.prepare repository operation r with
    | error e =>
      refine ⟨[], ?_⟩
      rw [List.map_nil, hnone (by simp only [intake, hr, hprepare])]
      simp only [perform, hr, hprepare]
    | ok prepared =>
      obtain ⟨statement, u⟩ := prepared
      obtain ⟨inputs, hask⟩ := ask_after store connection (.execute statement) u w
      refine ⟨inputs, ?_⟩
      have hintake : t.intake (.operation repository operation) =
          some (u, .request (.execute statement)) := by simp only [intake, hr, hprepare]
      calc (t.perform store connection repository operation w).2.1
          = (u.ask store connection (.execute statement) w).2.1 := by simp only [perform, hr, hprepare]
        _ = u.after (.session (.request (.execute statement)) :: inputs.map .session) := hask
        _ = (u.step (.request (.execute statement))).1.after (inputs.map .session) := rfl
        _ = t.after (.operation repository operation :: inputs.map .session) := by
          rw [after, handle_taken hintake]

end Transact.Transaction
