import Transact.Proofs.Simulation.Course

/-! Every record that a session writes, or that is written in its hooks, can be told to be the
session's; and what is bound around a hook, a round of them or a whole end of a session is bound
there again afterwards. -/
namespace Transact.Simulation

variable {w u v : World} {P Q : Written → Prop} {x : Written} {t s j : Nat} {outer : Value} {frames : List Frame}
  {outside : Option Value} {c : Core}

/-! Records -/

theorem heard_of_null (h : x.record.sessionId = .null) : x.heard.sessionId = x.bound := by
  unfold Written.heard Log.Record.bind
  rw [h]
  simp [Log.Record.sessionId, Log.Record.attribute?]

theorem heard_of_ne (h : x.record.sessionId ≠ .null) : x.heard = x.record := by
  unfold Written.heard Log.Record.bind
  split
  · exact absurd ‹_› h
  · rfl

/-- The record itself says that it is of the session. -/
def Written.Names (l : Ledger Query Value) (s : Nat) (x : Written) : Prop :=
  ∃ id, l.id? s = some id ∧ x.record.sessionId = .text id

/-- Whoever reads the record is told that it is of the session. -/
def Written.IsOf (l : Ledger Query Value) (s : Nat) (x : Written) : Prop :=
  ∃ id, l.id? s = some id ∧ x.heard.sessionId = .text id

theorem Written.Names.isOf {l : Ledger Query Value} (h : x.Names l s) : x.IsOf l s := by
  obtain ⟨id, hid, hrecord⟩ := h
  have hne : x.record.sessionId ≠ .null := by simp [hrecord]
  exact ⟨id, hid, by rw [heard_of_ne hne, hrecord]⟩

theorem isOf_of_bound {l : Ledger Query Value} (hnull : x.record.sessionId = .null) (hknows : l.Knows s j)
    (hbound : x.bound = idOf l s) : x.IsOf l s := by
  obtain ⟨id, hid, heq⟩ := idOf_eq_text hknows
  exact ⟨id, hid, by rw [heard_of_null hnull, hbound, heq]⟩

/-- What was written between two worlds has the property. -/
def Writes (P : Written → Prop) (w u : World) : Prop := ∃ new, u.logs = new ++ w.logs ∧ ∀ x ∈ new, P x

theorem writes_nothing (h : u.logs = w.logs) : Writes P w u := ⟨[], h, by simp⟩

theorem Writes.trans (h : Writes P w u) (h' : Writes P u v) : Writes P w v := by
  obtain ⟨new, hnew, hP⟩ := h
  obtain ⟨new', hnew', hP'⟩ := h'
  refine ⟨new' ++ new, by rw [hnew', hnew, List.append_assoc], fun x hx => ?_⟩
  exact (List.mem_append.mp hx).elim (hP' x) (hP x)

theorem Writes.mono (h : Writes P w u) (hPQ : ∀ x, P x → Q x) : Writes Q w u := by
  obtain ⟨new, hnew, hP⟩ := h
  exact ⟨new, hnew, fun x hx => hPQ x (hP x hx)⟩

theorem Writes.since (h : Writes P w u) : ∀ x ∈ w.since u, P x := by
  obtain ⟨new, hnew, hP⟩ := h
  have hsince : w.since u = new.reverse := by simp [World.since, hnew]
  intro x hx
  rw [hsince, List.mem_reverse] at hx
  exact hP x hx

namespace World

theorem writes_report {r : Log.Record} (h : P ⟨r, w.context⟩) : Writes P w (w.report r) := by
  unfold report
  split
  · exact writes_nothing rfl
  · exact ⟨[⟨r, w.context⟩], rfl, by simpa using h⟩

theorem writes_reportAll {records : List Log.Record} (h : ∀ r ∈ records, P ⟨r, w.context⟩) :
    Writes P w (w.reportAll records) := by
  induction records generalizing w with
  | nil => exact writes_nothing rfl
  | cons r rest ih =>
    have hcontext : (w.report r).context = w.context := congrArg Core.context (core_report r)
    have hrest := ih (w := w.report r) fun r' hr' => hcontext ▸ h r' (List.mem_cons_of_mem _ hr')
    exact (writes_report (h r List.mem_cons_self)).trans hrest

/-! What writes nothing -/

theorem logs_reach (point : String) : (w.reach frames point).1.logs = w.logs := by
  unfold reach
  simp only
  split <;> rfl

theorem logs_callConnection (k : Nat) (call : Call Query) : (w.callConnection frames k call).1.logs = w.logs := by
  unfold callConnection
  split
  · rfl
  · split
    · exact logs_reach _
    · rfl

theorem logs_callHook (observer : Observer) (hook : Hook) : (w.callHook frames observer hook).1.logs = w.logs := by
  unfold callHook
  simp only
  split
  · split
    · rfl
    · exact logs_reach _
  · rfl

theorem logs_wake : (w.wake s j).logs = w.logs := by
  unfold wake
  split <;> rfl

/-! Jobs -/

/-- The session's own records are written outside of the block, and the others inside. -/
theorem writes_perform {notifying : Bool} (outside : Option Value) (effects : List (Effect Query Value))
    (hleads : Session.Leads notifying outside.isSome effects)
    (hlog : ∀ r, Effect.log r ∈ effects → P ⟨r, outside.getD w.context⟩)
    (hhook : ∀ v ∈ outside, ∀ r, Effect.hookLog r ∈ effects → P ⟨r, w.context⟩) :
    Writes P w (w.perform s j outside frames effects).1 := by
  induction effects generalizing w outside with
  | nil => exact writes_nothing rfl
  | cons e rest ih =>
    cases e with
    | call call =>
      simp only [perform]
      split
      · exact writes_nothing (logs_callConnection _ _)
      · exact writes_nothing rfl
    | notify hook observer =>
      have henter : (w.enter s outside).2.logs = w.logs := by
        unfold enter
        split <;> rfl
      exact writes_nothing ((logs_callHook observer hook).trans henter)
    | finish answer => exact writes_nothing rfl
    | log r =>
      have hcontext : ((w.exit outside).report r).context = outside.getD w.context :=
        congrArg Core.context (core_report r)
      have hrest := ih (w := (w.exit outside).report r) none hleads
        (fun r' hr' => hcontext ▸ hlog r' (List.mem_cons_of_mem _ hr')) (by simp)
      exact (writes_report (w := w.exit outside) (hlog r List.mem_cons_self)).trans hrest
    | hookLog r =>
      obtain ⟨hinside, hleads⟩ := hleads
      obtain ⟨v, rfl⟩ := Option.isSome_iff_exists.mp hinside
      have hcontext : (w.report r).context = w.context := congrArg Core.context (core_report r)
      have hrest := ih (w := w.report r) (some v) hleads (fun r' hr' => hlog r' (List.mem_cons_of_mem _ hr'))
        fun v' hv' r' hr' => hcontext ▸ hhook v' hv' r' (List.mem_cons_of_mem _ hr')
      exact (writes_report (hhook v rfl r List.mem_cons_self)).trans hrest
    | wake other =>
      have hcontext : (w.wake s other).context = w.context := congrArg Core.context core_wake
      have hrest := ih (w := w.wake s other) outside hleads
        (fun r' hr' => hcontext ▸ hlog r' (List.mem_cons_of_mem _ hr'))
        fun v' hv' r' hr' => hcontext ▸ hhook v' hv' r' (List.mem_cons_of_mem _ hr')
      exact (writes_nothing logs_wake).trans hrest
    | opened | accepted | refused =>
      exact ih outside hleads (fun r' hr' => hlog r' (List.mem_cons_of_mem _ hr'))
        fun v' hv' r' hr' => hhook v' hv' r' (List.mem_cons_of_mem _ hr')

/-- The session's own record, written outside of its block, or a report from inside. -/
def Tells (w : World) (s : Nat) (outside : Option Value) (x : Written) : Prop :=
  x.Names w.ledger s ∧ x.bound = outside.getD w.context ∨
    outside.isSome = true ∧ x.record.sessionId = .null ∧ x.bound = w.context

theorem writes_moveJob (h : Amid t outer s j outside w.core frames)
    (hinside : outside.isSome = w.ledger.notifies s j) {i : Input Query Value} (hi : i.job? = some j) :
    Writes (w.Tells s outside) w (w.moveJob s j outside frames i).1 := by
  obtain ⟨lease, hlease⟩ := lease?_of_knows h.knows
  have hspoken : ∀ e ∈ (lease.session.step i).2, e.Spoken lease.session.id :=
    Session.step_spoken (by rintro rfl; cases hi)
  unfold moveJob
  rw [stepSession_eq hlease]
  refine writes_perform (w := { w with ledger := (w.ledger.step (.session s i)).1 }) outside _
    (leads_step hlease hinside hi) (fun r hr => .inl ⟨⟨_, Ledger.id?_eq hlease, hspoken _ hr⟩, rfl⟩)
    fun v hv r hr => .inr ⟨?_, ?_, rfl⟩
  · rw [show outside = some v from hv]
    rfl
  · exact hspoken _ hr

theorem writes_openJob (s : Nat) (r : Request Query) (w : World) :
    Writes (fun x => x.bound = w.context ∧ (r ≠ .orphan → x.Names w.ledger s)) w
      (w.openJob s r).2 := by
  cases hlease : w.lease? s with
  | none =>
    rw [openJob_none hlease]
    exact writes_nothing rfl
  | some lease =>
    rcases openJob_eq hlease r with heq | ⟨u, records, -, hstep, heq⟩
    · rw [heq]
      exact writes_nothing rfl
    · rw [heq]
      refine writes_reportAll (w := { w with ledger := (w.ledger.step (.session s (.request r))).1 })
        fun record hrecord => ⟨rfl, fun hr => ?_⟩
      have hspoken : ∀ e ∈ (lease.session.step (.request r)).2, e.Spoken lease.session.id :=
        Session.step_spoken (by simpa using hr)
      have hmem : Effect.log record ∈ (lease.session.step (.request r)).2 := by
        rw [hstep]
        exact List.mem_append_left _ (List.mem_map_of_mem hrecord)
      exact ⟨_, Ledger.id?_eq hlease, hspoken _ hmem⟩

theorem writes_askDetached (frames : List Frame) (s : Nat) (r : Request Query) (w : World) :
    Writes (fun x => x.bound = w.context ∧ (r ≠ .orphan → x.Names w.ledger s)) w
      (w.askDetached frames s r).1 := by
  have hopen := writes_openJob s r w
  unfold askDetached
  generalize w.openJob s r = opened at hopen
  obtain ⟨_ | j, u⟩ := opened
  · exact hopen
  · exact hopen.trans (writes_nothing rfl)

theorem writes_execute (h : Stands t outer w.core frames) (s : Nat) (q : Query) :
    Writes (fun x => x.bound = w.context) w (w.execute frames s q).1 := by
  have hopen := (writes_openJob s (.execute q) w).mono fun _ => And.left
  have hopens := opens_openJob s (.execute q) w
  unfold execute
  generalize w.openJob s (.execute q) = opened at hopen hopens
  obtain ⟨_ | j, u⟩ := opened
  · exact hopen
  · obtain ⟨hnew, hknows, hquiet⟩ := hopens.new j rfl
    have hamid := h.opened hopens.grows hopens.strands hnew hknows
    have hcontext : u.context = w.context := hopens.grows.context
    refine hopen.trans ((writes_moveJob hamid hquiet.symm rfl).mono fun x hx => ?_)
    rcases hx with ⟨-, hbound⟩ | ⟨hinside, -⟩
    · exact hbound.trans hcontext
    · cases hinside

/-- The session that an act asks for its end. One that an act forgets is left out: the warning that is written of it
comes before its end has begun, in no block of its own, and names no session. Where a hook forgets it, the warning
has the id of the hook's session, which `Correlated.hooks` tells. -/
def asked? (w : World) (a : Action) : Option Nat :=
  match a with
  | .ask request name => if request = .orphan then none else (w.session? name).toOption
  | _ => none

theorem plainRequest_ne {r : Request Empty} (h : r ≠ .orphan) : plainRequest r ≠ .orphan := by
  cases r with
  | execute e => exact e.elim
  | orphan => exact absurd rfl h
  | _ => simp [plainRequest]

theorem writes_carryOut (h : Stands t outer w.core frames) (observer : String) (a : Action) :
    Writes (fun x => x.bound = w.context ∧ ∀ s ∈ w.asked? a, x.Names w.ledger s) w
      (w.carryOut observer frames a).1 := by
  cases a with
  | raise e => exact writes_nothing rfl
  | log message level extra => exact writes_report ⟨rfl, by simp [asked?]⟩
  | see name =>
    simp only [carryOut]
    split <;> exact writes_nothing rfl
  | ask request name =>
    cases hs : w.session? name with
    | error e =>
      simp only [carryOut, hs]
      exact writes_nothing rfl
    | ok s =>
      simp only [carryOut, asked?, hs]
      refine (writes_askDetached _ s _ w).mono fun x hx => ⟨hx.1, fun s' hs' => ?_⟩
      split at hs'
      · cases hs'
      · obtain rfl : s = s' := Option.some.inj hs'
        exact hx.2 (plainRequest_ne ‹_›)
  | execute name statement =>
    simp only [carryOut, asked?]
    split
    · exact writes_nothing rfl
    · exact (writes_execute h _ _).mono fun x hx => ⟨hx, by simp⟩
  | register session observer' =>
    simp only [carryOut]
    split <;> exact writes_nothing rfl
  | enlist registry observer' =>
    simp only [carryOut]
    split
    · exact writes_nothing rfl
    · exact writes_nothing rfl
    · unfold enlistIn
      split <;> exact writes_nothing rfl

/-- The act that is due where a hook's point is passed, or an act is done. -/
def due? (w : World) (outcome : Outcome) : Frame → Option Act
  | .hook key hook =>
    match outcome, w.observers[key]? with
    | .ok _, some o => (o.acts hook).head?
    | _, _ => none
  | .act _ _ propagate rest =>
    match outcome with
    | .ok _ => rest.head?
    | .error e => if e.isOrdinary && !propagate then rest.head? else none
  | _ => none

/-- What a hook has to do with: its records, and those of a session that it asks for its end. -/
def Hooked (w : World) (due : Option Act) (x : Written) : Prop :=
  x.bound = w.context ∧ ∀ a ∈ due, ∀ s ∈ w.asked? a.action, x.Names w.ledger s

theorem writes_act (h : Stands t outer w.core frames) (hcaller : ∃ f ∈ frames.head?, f.isCaller = true)
    (observer : String) (acts : List Act) : Writes (w.Hooked acts.head?) w (w.act observer frames acts).1 := by
  cases acts with
  | nil => exact writes_nothing rfl
  | cons a rest =>
    have hcarry (f : Frame) (hf : f.job? = none) (hfits : f.Fits w.core.ledger outer frames) :
        Writes (w.Hooked (some a)) w (w.carryOut observer (f :: frames) a.action).1 := by
      refine (writes_carryOut (h.push f hf hfits) observer a.action).mono fun x hx => ⟨hx.1, ?_⟩
      rintro _ ⟨⟩
      exact hx.2
    cases hlabel : label a.action with
    | some l =>
      simp only [act, hlabel]
      exact hcarry (.act observer l a.propagate rest) rfl hcaller
    | none =>
      simp only [act, hlabel]
      exact hcarry (.act observer "" true rest) rfl hcaller

theorem writes_hooked {f : Frame} (h : Stands t outer w.core (f :: frames)) (hf : f.isHook = true) (outcome : Outcome) :
    Writes (w.Hooked (w.due? outcome f)) w (w.deliver f frames outcome).1 := by
  cases f with
  | hook key hook =>
    have hcaller := h.stacked.1
    cases outcome with
    | error e => exact writes_nothing rfl
    | ok reply =>
      simp only [deliver, due?]
      cases w.observers[key]? with
      | none => exact writes_nothing rfl
      | some o => exact writes_act (h.pop rfl) hcaller _ _
  | act observer name propagate rest =>
    have hcaller := h.stacked.1
    have hnoted (entry : String) : Writes (w.Hooked rest.head?) w ((w.note entry).act observer frames rest).1 :=
      writes_act (w := w.note entry) (h.pop rfl) hcaller observer rest
    cases outcome with
    | ok reply =>
      simp only [deliver, due?, afterAct]
      split
      · exact writes_act (h.pop rfl) hcaller observer rest
      · exact hnoted _
    | error e =>
      simp only [deliver, due?, afterAct]
      split
      · exact hnoted _
      · exact writes_nothing rfl
  | _ => cases hf

theorem writes_job (h : Stands t outer w.core (.job s j outside :: frames)) (outcome : Outcome) :
    Writes (w.Tells s outside) w (w.deliver (.job s j outside) frames outcome).1 := by
  simp only [deliver]
  split
  · exact writes_moveJob h.amid h.inside rfl
  · split
    · exact writes_moveJob h.amid h.inside rfl
    · exact writes_moveJob h.amid h.inside rfl

theorem writes_resume {task : Task} (h : Stands t outer w.core task.frames)
    (hframes : task.frames = .job s j outside :: frames) (signal : Signal) :
    Writes (w.Tells s outside) w (w.resume task signal).1 := by
  rw [hframes] at h
  cases signal with
  | freed point => exact writes_nothing rfl
  | outcome outcome => exact writes_nothing rfl
  | woken =>
    simp only [resume, hframes]
    exact writes_moveJob h.amid h.inside rfl
  | cancelled =>
    simp only [resume, hframes]
    split
    · exact writes_moveJob h.amid h.inside rfl
    · exact writes_nothing rfl

/-- Whatever a job tells, outside of its block or inside, is told of its session. -/
theorem Tells.isOf (htells : w.Tells s outside x) (h : Amid t outer s j outside w.core frames) :
    x.IsOf w.ledger s := by
  rcases htells with ⟨hown, -⟩ | ⟨hinside, hnull, hbound⟩
  · exact hown.isOf
  · obtain ⟨v, hv⟩ := Option.isSome_iff_exists.mp hinside
    exact isOf_of_bound hnull h.knows (hbound.trans (h.inside v hv))

end World

/-! Whose turn it is -/

namespace Machine

/-- The session whose job goes on with the first that is ready. -/
def resumed? (w : World) : Option Nat :=
  match w.ready with
  | .resume t _ :: _ => ((w.tasks[t]?).bind fun task => task.frames.head?.bind Frame.job?).map Prod.fst
  | _ => none

/-- The session that has the turn itself: a job of its, or the call that asks for its end. The warning of a session
that is forgotten is none of its records here, for the reason given at `World.asked?`; the records of the rollback
which then begins are. -/
def voice? (m : Machine) : Option Nat :=
  match m.turn with
  | .idle => resumed? m.world
  | .running _ (.go (.job s _ _ :: _) _) => some s
  | .running _ (.go (.start (.ask request s) :: _) _) => if request = .orphan then none else some s
  | .running _ (.go (f :: _) outcome) => (m.world.due? outcome f).bind fun a => m.world.asked? a.action
  | _ => none

/-- The session in a hook of which the turn is. -/
def hooked? (m : Machine) : Option Nat :=
  match m.turn with
  | .running _ (.go (f :: .job s _ _ :: _) _) => if f.isHook then some s else none
  | _ => none

theorem next_running {f : Frame} (h : Stands t outer w.core (f :: frames)) (outcome : Outcome) :
    (next ⟨w, .running t (.go (f :: frames) outcome)⟩ .turn).world = (w.deliver f frames outcome).1 := by
  obtain ⟨task, ht, -⟩ := World.task_of_stands h
  simp [next, World.turn, ht]

theorem next_resumed {task : Task} {signal : Signal} {rest : List Item} (hready : w.ready = .resume t signal :: rest)
    (ht : w.tasks[t]? = some task) : (next ⟨w, .idle⟩ .turn).world =
      (({ w with ready := rest, context := task.context } : World).resume task signal).1 := by
  simp [next, World.turn, hready, ht]

theorem isOf_resumed (h : Simulation.Sound w.ledger w.core.strands) (hs : s ∈ resumed? w) :
    ∀ x ∈ w.since (next ⟨w, .idle⟩ .turn).world, x.IsOf w.ledger s := by
  unfold resumed? at hs
  split at hs
  · rename_i t signal rest hready
    obtain ⟨⟨s', j⟩, hkey, rfl⟩ := Option.map_eq_some_iff.mp hs
    obtain ⟨task, ht, hjob⟩ := Option.bind_eq_some_iff.mp hkey
    obtain ⟨f, hhead, hjob⟩ := Option.bind_eq_some_iff.mp hjob
    obtain ⟨frames, hframes⟩ := List.head?_eq_some_iff.mp hhead
    cases f with
    | job s j outside =>
      cases hjob
      have hstands : Stands t task.inherited { w with ready := rest, context := task.context }.core task.frames :=
        World.stands_resumed h ht
      have hwrites := World.writes_resume hstands hframes signal
      rw [hframes] at hstands
      rw [next_resumed hready ht]
      exact fun x hx => (hwrites.since x hx).isOf hstands.amid
    | _ => cases hjob
  · cases hs

theorem isOf_voice {m : Machine} (h : m.Sound) (hs : s ∈ m.voice?) :
    ∀ x ∈ (m.step .turn).2, x.IsOf m.world.ledger s := by
  obtain ⟨w, y⟩ := m
  cases y with
  | idle => exact isOf_resumed h hs
  | running t next =>
    obtain ⟨outer, h⟩ := h
    cases next with
    | suspend wait frames => cases hs
    | go frames outcome =>
      cases frames with
      | nil => cases hs
      | cons f rest =>
        have hdue (hf : f.isHook = true) (hs : s ∈ (w.due? outcome f).bind fun a => w.asked? a.action) :
            ∀ x ∈ w.since (w.deliver f rest outcome).1, x.IsOf w.ledger s := by
          obtain ⟨a, ha, hs⟩ := Option.bind_eq_some_iff.mp hs
          have hwrites := World.writes_hooked h hf outcome
          exact fun x hx => ((hwrites.since x hx).2 a ha s hs).isOf
        simp only [step, next_running h outcome]
        cases f with
        | job s' j outside =>
          obtain rfl : s' = s := Option.some.inj hs
          have hwrites := World.writes_job h outcome
          exact fun x hx => (hwrites.since x hx).isOf h.amid
        | start work =>
          cases work with
          | ask request s' =>
            simp only [voice?] at hs
            split at hs
            · cases hs
            · obtain rfl : s' = s := Option.some.inj hs
              have hwrites := World.writes_askDetached rest s' (World.plainRequest request) w
              exact fun x hx => ((hwrites.since x hx).2 (World.plainRequest_ne ‹_›)).isOf
          | _ => cases hs
        | hook key hook => exact hdue rfl hs
        | act observer name propagate acts => exact hdue rfl hs
        | _ => cases hs

/-- What is bound in a hook is the id of the innermost session that calls it. -/
theorem context_hooked {f : Frame} (h : Stands t outer w.core (f :: .job s j outside :: frames))
    (hf : f.isHook = true) : w.context = idOf w.ledger s := by
  have hplain : f.job? = none := by
    cases f with
    | job => cases hf
    | _ => rfl
  have hcaller : outside.isSome = true := by
    have hfits := h.stacked.1
    cases f with
    | hook | act => simpa [Frame.Fits, Frame.isCaller] using hfits
    | _ => cases hf
  obtain ⟨v, rfl⟩ := Option.isSome_iff_exists.mp hcaller
  exact (h.pop hplain).context

theorem isOf_hooked {m : Machine} (h : m.Sound) (hs : s ∈ m.hooked?) :
    ∀ x ∈ (m.step .turn).2, x.record.sessionId = .null → x.IsOf m.world.ledger s := by
  obtain ⟨w, y⟩ := m
  simp only [hooked?] at hs
  split at hs
  · rename_i t f s' j outside rest outcome
    split at hs
    · rename_i hf
      obtain rfl : s' = s := Option.some.inj hs
      obtain ⟨outer, h⟩ := h
      have hwrites := World.writes_hooked h hf outcome
      simp only [step, next_running h outcome]
      intro x hx hnull
      have hknows : w.ledger.Knows s' j := h.stacked.2.1.1
      exact isOf_of_bound hnull hknows ((hwrites.since x hx).1.trans (context_hooked h hf))
    · cases hs
  · cases hs

end Machine

/-- What a task has bound can still be told later, from the blocks that it is inside of. -/
theorem bound_later {m : Machine} {y : Strand} (h : m.Sound) (hfollows : Follows m.world.core c)
    (hy : m.strand? t = some y) : y.context = bound c.ledger y.outer y.frames ∧
      (c.strands.map Strand.outer)[t]? = some y.outer := by
  obtain ⟨⟨xs, hsound, hmem⟩, houter⟩ := h.strand hy
  refine ⟨(hsound.bound y hmem).trans (bound_kept hfollows.id (hsound.stacked y hmem)).symm, ?_⟩
  obtain ⟨hlt, -⟩ := List.getElem?_eq_some_iff.mp houter
  obtain ⟨later, hlater⟩ := hfollows.outer
  rw [← hlater, List.getElem?_append_left hlt]
  exact houter

structure Correlated (h : Course) : Prop where
  /-- A session's own records and the reports of its rounds of hooks have its id. -/
  own : ∀ m ∈ h, m.input = .turn → ∀ s ∈ m.before.voice?, ∀ x ∈ m.effects, x.IsOf m.before.world.ledger s
  /-- So have the records that are written in its hooks, -/
  hooks : ∀ m ∈ h, m.input = .turn → ∀ s ∈ m.before.hooked?, ∀ x ∈ m.effects, x.record.sessionId = .null →
    x.IsOf m.before.world.ledger s
  /-- but for those that name a session themselves. -/
  named : ∀ m ∈ h, ∀ x ∈ m.effects, x.record.sessionId ≠ .null → x.heard = x.record
  /-- A job is inside its block just while its session calls the hooks. -/
  inside : ∀ a ∈ h.states, ∀ t x s j outside, a.strand? t = some x → .job s j outside ∈ x.frames →
    outside.isSome = a.world.ledger.notifies s j
  bound : ∀ a ∈ h.states, ∀ t x, a.strand? t = some x → x.context = bound a.world.ledger x.outer x.frames
  /-- A task that is inside of the same blocks as before has the same bound: whatever was entered in
  between has been left, in whichever way it ended. -/
  restored : ∀ a ∈ h.states, ∀ b ∈ h.states, ∀ t x y, a.strand? t = some x → b.strand? t = some y →
    blocks x.frames = blocks y.frames → x.context = y.context
  /-- The turns that follow a state are the world's own run from there. -/
  runs : ∀ a ∈ h.states, ∀ n, (Walk.after Machine.step a (List.replicate n .turn)).world = a.world.run n a.turn

theorem correlated (adapted : Bool) (happenings : List Happening) :
    Correlated (Walk.history Machine.step (Machine.start adapted) happenings) := by
  have hstates := (Machine.sound_course adapted happenings).2
  have hmoves : ∀ m ∈ Walk.history Machine.step (Machine.start adapted) happenings,
      m.before.Sound ∧ m.effects = (m.before.step m.input).2 := by
    intro m hm
    obtain ⟨earlier, i, later, -, rfl⟩ := Walk.mem_history hm
    exact ⟨(Machine.sound_course adapted earlier).1, rfl⟩
  constructor
  case own =>
    intro m hm hturn s hs
    obtain ⟨hsound, heffects⟩ := hmoves m hm
    rw [heffects, hturn]
    exact Machine.isOf_voice hsound hs
  case hooks =>
    intro m hm hturn s hs
    obtain ⟨hsound, heffects⟩ := hmoves m hm
    rw [heffects, hturn]
    exact Machine.isOf_hooked hsound hs
  case named => exact fun _ _ _ _ hne => heard_of_ne hne
  case inside =>
    intro a ha t x s j outside hx hjob
    obtain ⟨⟨xs, hsound, hmem⟩, -⟩ := (hstates a ha).1.strand hx
    exact (hsound.stacked x hmem).inside hjob
  case bound =>
    intro a ha t x hx
    obtain ⟨⟨xs, hsound, hmem⟩, -⟩ := (hstates a ha).1.strand hx
    exact hsound.bound x hmem
  case restored =>
    -- Both are what is bound in their blocks by the end of the course.
    intro a ha b hb t x y hx hy hblocks
    obtain ⟨hcontext, houter⟩ := bound_later (hstates a ha).1 (hstates a ha).2 hx
    obtain ⟨hcontext', houter'⟩ := bound_later (hstates b hb).1 (hstates b hb).2 hy
    have hsame : x.outer = y.outer := Option.some.inj (houter.symm.trans houter')
    rw [hcontext, hcontext', hsame]
    unfold Simulation.bound
    rw [hblocks]
  case runs => exact fun a _ n => Machine.after_turns n a

/-- One session is committed in a hook of another, where each also writes a record of its own. -/
example :
    let turns := List.replicate 60 Happening.turn
    let take := Happening.take "task"
    let inner : ObserverScript := { name := "inner", onCommit := [⟨.log "inside" 20 [], false⟩] }
    let outer : ObserverScript :=
      { name := "outer", onCommit := [⟨.ask .commit "b", false⟩, ⟨.log "outside" 20 [], false⟩] }
    let happenings := take (.begin "a") :: turns ++ take (.begin "b") :: turns ++
      [take (.observer inner), take (.register "b" "inner"), take (.observer outer), take (.register "a" "outer"),
        take (.ask .commit "a")] ++ turns
    let a := Value.text "00000000000000000000000000000001"
    let b := Value.text "00000000000000000000000000000002"
    ((Walk.history Machine.step (Machine.start false) happenings).flatMap fun m =>
        m.effects.map fun x => (x.record.template, x.heard.sessionId)) =
      [("Session %s began", a), ("Session %s began", b), ("inside", b),
        ("Session %s %s (%d observers, %d failed)", b), ("outside", a),
        ("Session %s %s (%d observers, %d failed)", a)] := by
  rfl

end Transact.Simulation
