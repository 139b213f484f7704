import Transact.Proofs.Simulation.Control

/-! Whatever a task does while it has control, it stands afterwards where its frames say. -/
namespace Transact.Simulation

def Next.frames : Next → List Frame
  | .go frames _ => frames
  | .suspend _ frames => frames

/-- What comes of a turn in a world that was like this. -/
structure Turns (t : Nat) (outer : Value) (c : Core) (m : Moved) : Prop where
  follows : Follows c m.1.core
  stands : Stands t outer m.1.core m.2.frames

theorem Turns.after {t : Nat} {outer : Value} {c d : Core} {m : Moved} (h : Turns t outer d m)
    (hfollows : Follows c d) : Turns t outer c m := ⟨hfollows.trans h.follows, h.stands⟩

namespace World

variable {w : World} {c : Core} {outer : Value} {frames : List Frame} {s j t k : Nat} {outside : Option Value}
  {records : List Log.Record}

theorem turns_of_grows {u : World} {next : Next} (h : Stands t outer w.core next.frames)
    (hgrows : Grows w.core u.core) : Turns t outer w.core (u, next) :=
  ⟨hgrows.follows, h.grows hgrows⟩

/-! What leaves everything that is under way as it is -/

@[simp] theorem core_report (r : Log.Record) : (w.report r).core = w.core := by
  unfold report
  split <;> rfl

@[simp] theorem core_reportAll : (w.reportAll records).core = w.core := by
  unfold reportAll
  induction records generalizing w with
  | nil => rfl
  | cons r rest ih => exact ih.trans (core_report r)

theorem core_setTask {f : Task → Task} (hf : ∀ task, (f task).strand = task.strand) :
    (w.setTask k f).core = w.core := by
  have htasks : (w.tasks.modify k f).map Task.strand = w.tasks.map Task.strand := by
    apply List.ext_getElem?
    intro i
    simp only [List.getElem?_map, List.getElem?_modify]
    cases w.tasks[i]? with
    | none => rfl
    | some task =>
      by_cases hi : k = i <;> simp [hi, hf]
  simp [core, setTask, htasks]

theorem core_wake : (w.wake s j).core = w.core := by
  unfold wake
  split
  · rename_i k hk
    exact (core_setTask (w := w) (k := k) fun _ => rfl :
      (w.setTask k fun task => { task with state := .ready }).core = w.core)
  · rfl

theorem grows_stepLedger (i : Ledger.Input Query Value) (hi : i.moved? = none) :
    Grows w.core (w.stepLedger i).2.core :=
  grows_ledger rfl rfl (hi ▸ w.ledger.step_keeps i)

/-! Calls -/

theorem turns_reach (h : Stands t outer w.core frames) (point : String) :
    Turns t outer w.core (w.reach frames point) := by
  unfold reach
  simp only
  split
  · exact turns_of_grows h (.refl _)
  · exact turns_of_grows h (.refl _)

theorem turns_touch (h : Stands t outer w.core frames) (k : Nat) (p : Connection.Progress) :
    Turns t outer w.core (w.touch frames k p) :=
  turns_reach (h.push (.operation k p) rfl trivial) _

theorem turns_callConnection (h : Stands t outer w.core frames) (k : Nat) (call : Call Query) :
    Turns t outer w.core (w.callConnection frames k call) := by
  unfold callConnection
  split
  · exact turns_of_grows h (.refl _)
  · split
    · exact turns_touch h k _
    · exact turns_of_grows h (.refl _)

theorem turns_acquire (h : Stands t outer w.core frames) : Turns t outer w.core (w.acquire frames) :=
  turns_reach (h.push .acquiring rfl trivial) _

theorem turns_callHook (h : Stands t outer w.core frames) (hcaller : ∃ f ∈ frames.head?, f.isCaller = true)
    (observer : Observer) (hook : Hook) : Turns t outer w.core (w.callHook frames observer hook) := by
  unfold callHook
  simp only
  split
  · split
    · exact turns_of_grows h (.refl _)
    · exact turns_reach (h.push (.hook observer.key hook) rfl hcaller) _
  · exact turns_of_grows h (.refl _)

theorem turns_moveRound (h : Stands t outer w.core frames) (next : Round.Next) :
    Turns t outer w.core (w.moveRound frames next) := by
  cases next with
  | call round => exact turns_callHook (h.push (.round round) rfl trivial) ⟨.round round, rfl, rfl⟩ _ _
  | ended failures => exact turns_of_grows h (.refl _)
  | aborted e => exact turns_of_grows h (.refl _)

/-! Jobs -/

theorem lease?_of_knows (h : w.core.ledger.Knows s j) : ∃ lease, w.lease? s = some lease := by
  obtain ⟨lease, -, hlease, -⟩ := h
  exact ⟨lease, hlease⟩

theorem enter_none (h : w.core.ledger.Knows s j) :
    w.enter s none = (some w.context, { w with context := idOf w.ledger s }) := by
  obtain ⟨lease, hlease⟩ := lease?_of_knows h
  have hid : idOf w.ledger s = .text lease.session.id := by simp [idOf, Ledger.id?_eq hlease]
  simp [enter, hlease, hid]

theorem turns_perform (effects : List (Effect Query Value)) (h : Amid t outer s j outside w.core frames)
    (hleads : Session.Leads (w.ledger.notifies s j) outside.isSome effects) :
    Turns t outer w.core (w.perform s j outside frames effects) := by
  induction effects generalizing w outside with
  | nil => exact turns_of_grows (h.stands hleads) (.refl _)
  | cons e rest ih =>
    have hexit : Follows w.core (w.exit outside).core := ⟨fun _ _ hid => hid, List.prefix_refl _⟩
    cases e with
    | call call =>
      obtain ⟨hclosed, hquiet⟩ := hleads
      obtain ⟨lease, hlease⟩ := lease?_of_knows h.knows
      simp only [perform, hlease]
      exact turns_callConnection (h.stands (hclosed.trans hquiet.symm)) _ _
    | notify hook observer =>
      cases outside with
      | some v =>
        have henter : w.enter s (some v) = (some v, w) := rfl
        simp only [perform, henter]
        exact turns_callHook (h.stands hleads.symm) ⟨_, rfl, rfl⟩ _ _
      | none =>
        simp only [perform, enter_none h.knows]
        have hinto := h.into.stands hleads.symm
        exact (turns_callHook (w := { w with context := idOf w.ledger s }) hinto
          ⟨.job s j (some w.context), rfl, rfl⟩ observer hook).after ⟨fun _ _ hid => hid, List.prefix_refl _⟩
    | finish answer => exact ⟨hexit, h.below⟩
    | log r =>
      have hout : Amid t outer s j none ((w.exit outside).report r).core frames := by
        rw [core_report]
        exact h.out
      have hledger : ((w.exit outside).report r).ledger = w.ledger := congrArg Core.ledger (core_report r)
      have hrest := ih hout (hledger ▸ hleads)
      rw [core_report] at hrest
      exact hrest.after hexit
    | hookLog r =>
      have hledger : (w.report r).ledger = w.ledger := congrArg Core.ledger (core_report r)
      have hrest := ih (w := w.report r) (by rwa [core_report]) (hledger ▸ hleads.2)
      rwa [core_report] at hrest
    | wake other =>
      have hledger : (w.wake s other).ledger = w.ledger := congrArg Core.ledger core_wake
      have hrest := ih (w := w.wake s other) (by rwa [core_wake]) (hledger ▸ hleads)
      rwa [core_wake] at hrest
    | opened k => exact ih h hleads
    | accepted o => exact ih h hleads
    | refused e => exact ih h hleads

theorem stepSession_eq {lease : Lease Query Value} (h : w.lease? s = some lease) (i : Input Query Value) :
    w.stepSession s i =
      ((lease.session.step i).2, { w with ledger := (w.ledger.step (.session s i)).1 }) := by
  have hlease : w.ledger.lease? s = some lease := h
  have heffects : ((lease.session.step i).2.map (Ledger.Effect.session lease.connection)).filterMap
      Ledger.Effect.session? = (lease.session.step i).2 := by
    rw [List.filterMap_map]
    exact List.filterMap_some
  simp [stepSession, stepLedger, Ledger.step, hlease, heffects]

theorem leads_step {lease : Lease Query Value} (hlease : w.lease? s = some lease)
    (hinside : outside.isSome = w.ledger.notifies s j) {i : Input Query Value} (hi : i.job? = some j) :
    Session.Leads ((w.ledger.step (.session s i)).1.notifies s j) outside.isSome (lease.session.step i).2 := by
  have hafter := Ledger.lease?_session (s := s) hlease i
  rw [if_pos rfl] at hafter
  rw [hinside, Ledger.notifies_eq hlease, Ledger.notifies_eq hafter]
  exact Session.change_leads (Session.step_change lease.session i) hi

theorem turns_moveJob (h : Amid t outer s j outside w.core frames)
    (hinside : outside.isSome = w.ledger.notifies s j) {i : Input Query Value} (hi : i.job? = some j) :
    Turns t outer w.core (w.moveJob s j outside frames i) := by
  obtain ⟨lease, hlease⟩ := lease?_of_knows h.knows
  have hkeeps := w.ledger.step_keeps (.session s i)
  have hmoved : (Ledger.Input.session s i).moved? = some (s, j) := by simp [Ledger.Input.moved?, hi]
  rw [hmoved] at hkeeps
  unfold moveJob
  rw [stepSession_eq hlease]
  exact (turns_perform (w := { w with ledger := (w.ledger.step (.session s i)).1 }) _ (h.moved hkeeps)
    (leads_step hlease hinside hi)).after ⟨hkeeps.id, List.prefix_refl _⟩

theorem openJob_none (h : w.lease? s = none) (r : Request Query) : w.openJob s r = (none, w) := by
  have hlease : w.ledger.lease? s = none := h
  simp [openJob, stepSession, stepLedger, Ledger.step, hlease]

theorem foldl_opening (opened : Option Nat) (w : World) (records : List Log.Record) (rest : List (Effect Query Value)) :
    (records.map Effect.log ++ rest).foldl opening (opened, w) = rest.foldl opening (opened, w.reportAll records) := by
  induction records generalizing w with
  | nil => rfl
  | cons record records ih => exact ih _

theorem openJob_eq {lease : Lease Query Value} (h : w.lease? s = some lease) (r : Request Query) :
    w.openJob s r = (none, { w with ledger := (w.ledger.step (.session s (.request r))).1 }) ∨
      ∃ (u : Session Query Value) (records : List Log.Record),
        u.jobs = lease.session.jobs ++ [{ request := r }] ∧
        lease.session.step (.request r) = (u, records.map .log ++ [.opened lease.session.jobs.length]) ∧
        w.openJob s r = (some lease.session.jobs.length,
          { w with ledger := (w.ledger.step (.session s (.request r))).1 }.reportAll records) := by
  unfold openJob
  rw [stepSession_eq h]
  rcases Session.request_cases lease.session r with hstep | ⟨u, records, hjobs, hstep⟩
  · exact .inl (by rw [hstep]; rfl)
  · refine .inr ⟨u, records, hjobs, hstep, ?_⟩
    simp only [hstep, foldl_opening]
    rfl

/-- What a request opens: nothing, or a job that was not there. -/
structure Opens (s : Nat) (w : World) (opened : Option Nat × World) : Prop where
  grows : Grows w.core opened.2.core
  strands : opened.2.core.strands = w.core.strands
  new : ∀ j ∈ opened.1, ¬ w.ledger.Knows s j ∧ opened.2.ledger.Knows s j ∧ opened.2.ledger.notifies s j = false

theorem opens_openJob (s : Nat) (r : Request Query) (w : World) : Opens s w (w.openJob s r) := by
  cases hlease : w.lease? s with
  | none =>
    rw [openJob_none hlease]
    exact ⟨.refl _, rfl, by simp⟩
  | some lease =>
    have hkeeps : Ledger.Keeps none w.ledger (w.ledger.step (.session s (.request r))).1 :=
      w.ledger.step_keeps (.session s (.request r))
    rcases openJob_eq hlease r with heq | ⟨u, records, hjobs, hstep, heq⟩
    · rw [heq]
      exact ⟨grows_ledger rfl rfl hkeeps, rfl, by simp⟩
    · rw [heq]
      have hafter := Ledger.lease?_session (s := s) (show w.ledger.lease? s = some lease from hlease) (.request r)
      rw [if_pos rfl, hstep] at hafter
      have hjob : u.jobs[lease.session.jobs.length]? = some { request := r } := by simp [hjobs]
      refine ⟨?_, ?_, ?_⟩
      · rw [core_reportAll]
        exact grows_ledger rfl rfl hkeeps
      · rw [core_reportAll]
        rfl
      · rintro j ⟨⟩
        have hledger (u : World) : (u.reportAll records).ledger = u.ledger := congrArg Core.ledger core_reportAll
        rw [hledger]
        refine ⟨?_, ⟨_, _, hafter, hjob⟩, ?_⟩
        · rintro ⟨lease', job, hlease', hj⟩
          obtain rfl := Option.some.inj (hlease.symm.trans hlease')
          simp at hj
        · rw [Ledger.notifies_eq hafter, Session.isNotifying_eq hjob]
          rfl

theorem grows_detach {opened : Option Nat × World} (h : Opens s w opened) (hj : j ∈ opened.1) :
    Grows w.core (opened.2.detach s j).2.core := by
  obtain ⟨hnew, hknows, hquiet⟩ := h.new j hj
  refine ⟨h.grows.context, h.grows.keeps,
    [⟨opened.2.context, opened.2.context, [.job s j none]⟩], ?_, sound_cons.mpr ⟨⟨?_, rfl⟩, ?_, sound_nil _⟩, ?_⟩
  · rw [← h.strands]
    simp [core, detach, addTask, enqueue, Task.strand]
  · exact ⟨⟨hknows, by rw [show (opened.2.detach s j).2.core.ledger = opened.2.ledger from rfl, hquiet]; rfl⟩, trivial⟩
  · simp [Strand.jobs, jobsOf, Frame.job?]
  · have hnew : ¬ w.core.ledger.Knows s j := hnew
    simpa [Strand.jobs, jobsOf, Frame.job?] using hnew

theorem grows_forget (s : Nat) (w : World) : Grows w.core (w.forget s).core := by
  have hopens := opens_openJob s .orphan w
  unfold forget
  generalize w.openJob s .orphan = opened at hopens
  obtain ⟨_ | j, u⟩ := opened
  · exact hopens.grows
  · exact grows_detach hopens rfl

theorem turns_askDetached (h : Stands t outer w.core frames) (s : Nat) (r : Request Query) :
    Turns t outer w.core (w.askDetached frames s r) := by
  have hopens := opens_openJob s r w
  unfold askDetached
  generalize w.openJob s r = opened at hopens
  obtain ⟨_ | j, u⟩ := opened
  · exact turns_of_grows h hopens.grows
  · exact turns_of_grows h (grows_detach hopens rfl)

theorem turns_execute (h : Stands t outer w.core frames) (s : Nat) (q : Query) :
    Turns t outer w.core (w.execute frames s q) := by
  have hopens := opens_openJob s (.execute q) w
  unfold execute
  generalize w.openJob s (.execute q) = opened at hopens
  obtain ⟨_ | j, u⟩ := opened
  · exact turns_of_grows h hopens.grows
  · obtain ⟨hnew, hknows, hquiet⟩ := hopens.new j rfl
    have hamid := h.opened hopens.grows hopens.strands hnew hknows
    exact (turns_moveJob hamid hquiet.symm rfl).after hopens.grows.follows

theorem grows_registerWith (s : Nat) (c : Component) (w : World) : Grows w.core (w.registerWith s c).2.core :=
  grows_stepLedger (.session s (.register c)) rfl

theorem core_enlistIn (name : String) (r : Registry) (c : Component) : (w.enlistIn name r c).2.core = w.core := by
  unfold enlistIn
  split <;> rfl

/-! Acts -/

theorem turns_carryOut (h : Stands t outer w.core frames) (observer : String) (action : Action) :
    Turns t outer w.core (w.carryOut observer frames action) := by
  cases action with
  | raise e => exact turns_of_grows h (.refl _)
  | log message level extra => exact turns_of_grows h (grows_of_eq (core_report _))
  | see name =>
    simp only [carryOut]
    split <;> exact turns_of_grows h (.refl _)
  | ask request name =>
    simp only [carryOut]
    split
    · exact turns_of_grows h (.refl _)
    · exact turns_askDetached h _ _
  | execute name statement =>
    simp only [carryOut]
    split
    · exact turns_of_grows h (.refl _)
    · exact turns_execute h _ _
  | register session observer' =>
    simp only [carryOut]
    split
    · exact turns_of_grows h (.refl _)
    · exact turns_of_grows h (.refl _)
    · exact turns_of_grows h (grows_registerWith _ _ _)
  | enlist registry observer' =>
    simp only [carryOut]
    split
    · exact turns_of_grows h (.refl _)
    · exact turns_of_grows h (.refl _)
    · exact turns_of_grows h (grows_of_eq (core_enlistIn _ _ _))

theorem turns_act (h : Stands t outer w.core frames) (hcaller : ∃ f ∈ frames.head?, f.isCaller = true)
    (observer : String) (acts : List Act) : Turns t outer w.core (w.act observer frames acts) := by
  cases acts with
  | nil => exact turns_of_grows h (.refl _)
  | cons a rest =>
    cases hlabel : label a.action with
    | some l =>
      simp only [act, hlabel]
      exact turns_carryOut (h.push (.act observer l a.propagate rest) rfl hcaller) _ _
    | none =>
      simp only [act, hlabel]
      exact turns_carryOut (h.push (.act observer "" true rest) rfl hcaller) _ _

theorem turns_afterAct (h : Stands t outer w.core frames) (hcaller : ∃ f ∈ frames.head?, f.isCaller = true)
    (observer name : String) (propagate : Bool) (rest : List Act) (outcome : Outcome) :
    Turns t outer w.core (w.afterAct observer name propagate rest frames outcome) := by
  cases outcome with
  | ok reply =>
    simp only [afterAct]
    split
    · exact turns_act h hcaller observer rest
    · exact turns_act (w := w.note _) h hcaller observer rest
  | error e =>
    simp only [afterAct]
    split
    · exact turns_act (w := w.note _) h hcaller observer rest
    · exact turns_of_grows h (.refl _)

/-! Sessions that are given names, and that nobody holds -/

theorem grows_release (s : Nat) (inLoop : Bool) (w : World) : Grows w.core (w.release s inLoop).core := by
  unfold release
  split
  · exact .refl _
  · cases inLoop with
    | true => exact grows_forget s { w with forgotten := s :: w.forgotten }
    | false =>
      simp only [Bool.false_eq_true, if_false, forgetOutside]
      split
      · split
        · exact grows_of_eq (core_report _)
        · exact .refl _
      · exact .refl _

theorem core_dropScope (name : String) : (w.dropScope name).core = w.core := by
  unfold dropScope
  split
  · rfl
  · simp only
    split <;> rfl

theorem grows_bindScope (name : String) (scope : Scope) (w : World) : Grows w.core (w.bindScope name scope).core := by
  unfold bindScope
  have hdrop : Grows w.core { w.dropScope name with scopes := put name scope (w.dropScope name).scopes }.core :=
    grows_of_eq (core_dropScope name)
  cases w.scopes.lookup name with
  | none => exact hdrop
  | some old => exact hdrop.trans (grows_release _ _ _)

theorem grows_bindSession (name : String) (s : Nat) (w : World) : Grows w.core (w.bindSession name s).core := by
  unfold bindSession
  have hput : Grows w.core { w with sessionNames := put name s w.sessionNames }.core := .refl _
  cases w.sessionNames.lookup name with
  | none => exact hput
  | some old => exact hput.trans (grows_release _ _ _)

theorem grows_wrap (k : Nat) (id : Option String) (w : World) : Grows w.core (w.wrap k id).2.2.core := by
  have hstep (u : World) (id : String) : Grows u.core (u.stepLedger (.wrap k id)).2.core := grows_stepLedger _ rfl
  cases id with
  | none => exact hstep w.issueId.2 _
  | some id =>
    simp only [wrap]
    split
    · exact hstep w.issueId.2 _
    · exact hstep w id

theorem grows_conclude (purpose : Purpose) (outcome : Outcome) (w : World) :
    Grows w.core (w.conclude purpose outcome).2.core := by
  unfold conclude
  split
  · exact .refl _
  · split
    · exact grows_bindSession _ _ _
    · exact .refl _
  · split
    · exact (grows_bindScope _ _ _).trans (grows_bindSession _ _ _)
    · exact .refl _
  · exact (grows_wrap _ _ _).trans (grows_bindSession _ _ _)
  · exact .refl _
  · exact .refl _

/-! Turns -/

theorem turns_advance (slot : Nat) (effects : List (Ledger.Effect Query Value)) (h : Stands t outer w.core frames) :
    Turns t outer w.core (w.advance slot frames effects) := by
  induction effects generalizing w with
  | nil => exact turns_of_grows h (.refl _)
  | cons e rest ih =>
    cases e with
    | acquire k => exact turns_acquire (h.push (.opening k) rfl trivial)
    | call k call => exact turns_callConnection (h.push (.opening slot) rfl trivial) k call
    | log r =>
      have hrest := ih (w := w.report r) (by rwa [core_report])
      rwa [core_report] at hrest
    | began k => exact turns_of_grows h (.refl _)
    | failed e => exact turns_of_grows h (.refl _)
    | session k e => exact ih h

theorem turns_undertake (h : Stands t outer w.core frames) (work : Work) :
    Turns t outer w.core (w.undertake frames work) := by
  cases work with
  | acquire => exact turns_acquire h
  | begin =>
    have hgrows := grows_stepLedger (w := w) .begin rfl
    exact (turns_advance _ _ (h.grows hgrows)).after hgrows.follows
  | ask request s => exact turns_askDetached h _ _
  | execute s q => exact turns_execute h _ _
  | dispatch registry hook =>
    simp only [undertake]
    split
    · exact turns_moveRound h _
    · exact turns_of_grows h (.refl _)
  | dispose => exact turns_of_grows h (.refl _)

theorem turns_deliver {f : Frame} (h : Stands t outer w.core (f :: frames)) (outcome : Outcome) :
    Turns t outer w.core (w.deliver f frames outcome) := by
  cases f with
  | start work => exact turns_undertake (h.pop rfl) work
  | acquiring =>
    cases outcome with
    | ok reply => exact turns_of_grows (h.pop rfl) (.refl _)
    | error e => exact turns_of_grows (h.pop rfl) (.refl _)
  | opening slot =>
    have hadvance (i : Ledger.Input Query Value) (hi : i.moved? = none) : Turns t outer w.core
        ((w.stepLedger i).2.advance slot frames (w.stepLedger i).1) :=
      (turns_advance slot _ ((h.pop rfl).grows (grows_stepLedger i hi))).after (grows_stepLedger i hi).follows
    simp only [deliver]
    split
    · exact hadvance _ rfl
    · exact hadvance _ rfl
  | operation k p =>
    simp only [deliver]
    split
    · exact turns_of_grows (h.pop rfl) (.refl _)
    · rename_i connection hconnection
      have hsettled : Stands t outer
          { w with connections := w.connections.set k (connection.settle p (settled outcome)).1 }.core frames := h.pop rfl
      split
      · exact turns_touch hsettled k _
      · exact turns_of_grows (h.pop rfl) (.refl _)
      · exact turns_of_grows (h.pop rfl) (.refl _)
  | job s j outside =>
    simp only [deliver]
    split
    · exact turns_moveJob h.amid h.inside rfl
    · split
      · exact turns_moveJob h.amid h.inside rfl
      · exact turns_moveJob h.amid h.inside rfl
  | hook key hook =>
    have hcaller := h.stacked.1
    simp only [deliver]
    split
    · exact turns_act (h.pop rfl) hcaller _ _
    · exact turns_of_grows (h.pop rfl) (.refl _)
  | act observer name propagate rest =>
    exact turns_afterAct (h.pop rfl) h.stacked.1 observer name propagate rest outcome
  | round round =>
    have hlogged : (w.reportAll (round.settle (settled outcome)).1).core = w.core := core_reportAll
    have hmove := turns_moveRound (w := w.reportAll (round.settle (settled outcome)).1)
      (by rw [hlogged]; exact h.pop rfl) (round.settle (settled outcome)).2
    rwa [hlogged] at hmove
  | result purpose => exact turns_of_grows (h.pop rfl) (grows_conclude purpose outcome w)

theorem turns_resume {task : Task} (h : Stands t outer w.core task.frames) (signal : Signal) :
    Turns t outer w.core (w.resume task signal) := by
  cases signal with
  | freed point => exact turns_of_grows h (.refl _)
  | outcome outcome => exact turns_of_grows h (.refl _)
  | woken =>
    simp only [resume]
    split
    · rename_i hframes
      rw [hframes] at h
      exact turns_moveJob h.amid h.inside rfl
    · exact turns_of_grows h (.refl _)
  | cancelled =>
    simp only [resume]
    split
    · rename_i hframes
      split
      · rw [hframes] at h
        exact turns_moveJob h.amid h.inside rfl
      · exact turns_of_grows h (.refl _)
    · exact turns_of_grows h (.refl _)

end World
end Transact.Simulation
