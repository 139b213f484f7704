import Transact.Proofs.Session.Finale
import Transact.Proofs.Session.History

/-! Two sessions that differ only in who asked for the end, and in what was answered, do the same
whatever happens to them: the same calls, the same hooks, in the same order. -/
namespace Transact

variable {σ ρ ω : Type}

namespace Request

/-- An implicit end is a rollback. -/
def plain : Request σ → Request σ
  | close | orphan => rollback
  | r => r

theorem firstStage_plain (r : Request σ) : (r.plain.firstStage : Stage ρ) = r.firstStage := by
  cases r <;> rfl

theorem firstCall_plain (r : Request σ) : r.plain.firstCall = r.firstCall := by
  cases r <;> rfl

end Request

namespace Stage

/-- What a job that has ended answered is left out. -/
def mute : Stage ρ → Stage ρ
  | done _ => done (.ok .nothing)
  | st => st

theorem mute_eq {st st' : Stage ρ} (h : st.mute = st'.mute) :
    st = st' ∨ st.isDone = true ∧ st'.isDone = true := by
  cases st <;> cases st' <;> simp_all [mute, isDone]

end Stage

namespace Effect

/-- A log record or an answer. -/
def isReport : Effect σ ρ → Bool
  | log _ | hookLog _ | finish _ => true
  | _ => false

/-- What is done, in order, without what is reported of it. -/
def deeds (effects : List (Effect σ ρ)) : List (Effect σ ρ) := effects.filter fun e => !e.isReport

@[simp] theorem deeds_append (xs ys : List (Effect σ ρ)) : deeds (xs ++ ys) = deeds xs ++ deeds ys :=
  List.filter_append ..

@[simp] theorem deeds_logs (records : List Log.Record) :
    deeds (records.map (Effect.log : _ → Effect σ ρ)) = [] := by
  simp [deeds, isReport]

theorem call?_deeds (effects : List (Effect σ ρ)) :
    (deeds effects).filterMap call? = effects.filterMap call? := by
  induction effects with
  | nil => rfl
  | cons e rest ih => cases e <;> simpa [deeds, isReport, List.filterMap_cons] using ih

theorem hookCall?_deeds (effects : List (Effect σ ρ)) :
    (deeds effects).filterMap hookCall? = effects.filterMap hookCall? := by
  induction effects with
  | nil => rfl
  | cons e rest ih => cases e <;> simpa [deeds, isReport, List.filterMap_cons] using ih

end Effect

def Job.plain (j : Job σ ρ) : Job σ ρ := ⟨j.request.plain, j.stage.mute⟩

namespace Session

variable {s t : Session σ ρ} {i : Input σ ρ} {job fuel : Nat} {r r' : Request σ} {st st' : Stage ρ}
  {env : Surroundings σ ρ ω} {w : ω}

/-- The same, but for who asked for the end and what was answered. -/
structure Twins (s t : Session σ ρ) : Prop where
  id : s.id = t.id
  phase : s.phase = t.phase
  lock : s.lock = t.lock
  registry : s.registry = t.registry
  jobs : s.jobs.map Job.plain = t.jobs.map Job.plain

/-- Two moves that differ in reports only. -/
structure Alike (a b : Moved σ ρ) : Prop where
  session : a.1.Twins b.1
  deeds : Effect.deeds a.2 = Effect.deeds b.2

end Session

def History.deeds (h : History σ ρ) : List (Effect σ ρ) := h.flatMap fun m => Effect.deeds m.effects

/-- Two runs that do the same, in the same order, and lead to the same. -/
structure Run.Alike (a b : Run σ ρ ω) : Prop where
  session : a.session.Twins b.session
  deeds : Effect.deeds a.effects = Effect.deeds b.effects
  world : a.world = b.world

theorem Run.Alike.calls {a b : Run σ ρ ω} (h : a.Alike b) : a.calls = b.calls := by
  rw [Run.calls, Run.calls, ← Effect.call?_deeds, h.deeds, Effect.call?_deeds]

theorem Run.Alike.hookCalls {a b : Run σ ρ ω} (h : a.Alike b) : a.hookCalls = b.hookCalls := by
  rw [Run.hookCalls, Run.hookCalls, ← Effect.hookCall?_deeds, h.deeds, Effect.hookCall?_deeds]

namespace Session

variable {s t : Session σ ρ} {i : Input σ ρ} {job fuel : Nat} {r r' : Request σ} {st st' : Stage ρ}
  {env : Surroundings σ ρ ω} {w : ω}

namespace Twins

theorem refl (s : Session σ ρ) : s.Twins s := ⟨rfl, rfl, rfl, rfl, rfl⟩

theorem length (h : s.Twins t) : s.jobs.length = t.jobs.length := by
  simpa using congrArg List.length h.jobs

theorem withLock (h : s.Twins t) (l : Lock) : Twins { s with lock := l } { t with lock := l } :=
  ⟨h.id, h.phase, rfl, h.registry, h.jobs⟩

theorem withPhase (h : s.Twins t) (p : Phase) : Twins { s with phase := p } { t with phase := p } :=
  ⟨h.id, rfl, h.lock, h.registry, h.jobs⟩

theorem opened (h : s.Twins t) (hr : r.plain = r'.plain) :
    Twins { s with jobs := s.jobs ++ [⟨r, .ready⟩] } { t with jobs := t.jobs ++ [⟨r', .ready⟩] } := by
  refine ⟨h.id, h.phase, h.lock, h.registry, ?_⟩
  rw [List.map_append, List.map_append, h.jobs]
  simp [Job.plain, hr]

theorem setStage (h : s.Twins t) (hst : st.mute = st'.mute) :
    (s.setStage job st).Twins (t.setStage job st') := by
  have hmap (jobs : List (Job σ ρ)) (st : Stage ρ) :
      (jobs.modify job fun j => { j with stage := st }).map Job.plain =
        (jobs.map Job.plain).modify job fun j => { j with stage := st.mute } := by
    apply List.ext_getElem?
    intro k
    simp only [List.getElem?_map, List.getElem?_modify]
    cases jobs[k]? with
    | none => rfl
    | some j =>
      simp only [Option.map_some]
      split <;> rfl
  refine ⟨h.id, h.phase, h.lock, h.registry, ?_⟩
  rw [Session.setStage, Session.setStage, hmap, hmap, h.jobs, hst]

theorem idle (h : s.Twins t) : Alike (s, []) (t, []) := ⟨h, rfl⟩

theorem finish (h : s.Twins t) (answer answer' : Except Error (Answer ρ)) :
    Alike (s.finish job answer) (t.finish job answer') := ⟨h.setStage rfl, rfl⟩

theorem ask (h : s.Twins t) (st : Stage ρ) (c : Call σ) : Alike (s.ask job st c) (t.ask job st c) :=
  ⟨h.setStage rfl, rfl⟩

theorem unlock (h : s.Twins t) : Alike s.unlock t.unlock := by
  simp only [Session.unlock, h.lock]
  exact ⟨h.withLock _, rfl⟩

theorem leave (h : s.Twins t) (answer answer' : Except Error (Answer ρ)) :
    Alike (s.leave job answer) (t.leave job answer') := by
  obtain ⟨hsession, hdeeds⟩ := h.unlock
  refine ⟨(hsession.finish answer answer').session, ?_⟩
  simp only [Session.leave, Effect.deeds_append, hdeeds]
  rfl

theorem logged {a b : Moved σ ρ} (h : Alike a b) (record record' : Log.Record) :
    Alike (logged record a) (Session.logged record' b) := ⟨h.session, h.deeds⟩

theorem caught (h : s.Twins t) {a b : Moved σ ρ} (hhandle : Alike a b) (e : Error) :
    Alike (s.caught job e a) (t.caught job e b) := by
  unfold Session.caught
  split
  · exact hhandle
  · exact h.leave _ _

theorem proceed (h : s.Twins t) (job : Nat) (r r' : Request σ) (ending : Ending) (next : Round.Next) :
    Alike (s.proceed job r ending next) (t.proceed job r' ending next) := by
  simp only [proceed_eq]
  cases next with
  | call round => exact ⟨h.setStage rfl, rfl⟩
  | ended failures =>
    refine ⟨h.setStage rfl, ?_⟩
    simp only [roundEffects, Effect.deeds_append, Effect.deeds_logs]
    rfl
  | aborted e => exact ⟨h.setStage rfl, rfl⟩

theorem announce (h : s.Twins t) (r r' : Request σ) (ending : Ending) :
    Alike (s.announce job r ending) (t.announce job r' ending) := by
  obtain ⟨hsession, hdeeds⟩ := h.unlock
  have hproceed := hsession.proceed job r r' ending (Round.start ending.hook t.registry)
  have hregistry : s.unlock.1.registry = t.registry := h.registry
  simp only [Session.announce, hregistry]
  refine ⟨hproceed.session, ?_⟩
  simp only [Effect.deeds_append, hdeeds]
  exact congrArg _ hproceed.deeds

theorem granted (h : s.Twins t) (hr : r.plain = r'.plain) :
    Alike (s.granted job r) (t.granted job r') := by
  have hstage : (r.firstStage : Stage ρ) = r'.firstStage := by
    rw [← Request.firstStage_plain r, hr, Request.firstStage_plain]
  have hcall : r.firstCall = r'.firstCall := by
    rw [← Request.firstCall_plain r, hr, Request.firstCall_plain]
  rw [granted_eq, granted_eq, h.phase, hstage, hcall]
  split
  · exact h.leave _ _
  · exact h.ask _ _

theorem run (h : s.Twins t) (hr : r.plain = r'.plain) (st : Stage ρ) :
    Alike (s.run job r st) (t.run job r' st) := by
  cases st with
  | ready =>
    simp only [Session.run, Lock.request, h.lock]
    cases t.lock.isFree with
    | true => exact (h.withLock _).granted hr
    | false => exact ⟨(h.withLock _).setStage rfl, rfl⟩
  | queued =>
    simp only [Session.run, h.lock]
    split
    · exact (h.withLock _).granted hr
    · exact h.idle
  | _ => exact h.idle

theorem interrupt (h : s.Twins t) (st : Stage ρ) : Alike (s.interrupt job st) (t.interrupt job st) := by
  cases st with
  | ready => exact h.finish _ _
  | queued =>
    simp only [Session.interrupt, h.lock]
    exact ⟨(h.withLock _).setStage rfl, by simp [Session.finish]⟩
  | _ => exact h.idle

theorem settle (h : s.Twins t) (r r' : Request σ) (outcome : Except Error Unit) (st : Stage ρ) :
    Alike (s.settle job r outcome st) (t.settle job r' outcome st) := by
  cases st with
  | committing =>
    cases outcome with
    | ok => exact (h.withPhase _).ask _ _
    | error e => exact h.caught (logged (h.ask _ _) _ _) e
  | rollingBack commit =>
    cases outcome with
    | ok => exact (h.withPhase _).ask _ _
    | error e => exact h.caught (logged ((h.withPhase _).ask _ _) _ _) e
  | releasing ending =>
    cases outcome with
    | ok => exact h.announce r r' ending
    | error e => exact h.caught (logged (h.ask _ _) _ _) e
  | discarding ending =>
    cases outcome with
    | ok => exact h.announce r r' ending
    | error e => exact h.caught (logged (h.announce r r' ending) _ _) e
  | notifying ending round =>
    obtain ⟨hsession, hdeeds⟩ := h.proceed job r r' ending (round.settle outcome).2
    refine ⟨hsession, ?_⟩
    simp only [Session.settle, notifying, Effect.deeds_append, hdeeds]
  | _ => exact h.idle

/-- Whoever asks for the end of an active session, the same is opened. -/
theorem request (h : s.Twins t) (hactive : s.phase = .active) (hr : r.plain = r'.plain) :
    Alike (s.step (.request r)) (t.step (.request r')) := by
  rw [step_request hactive r, step_request (h.phase ▸ hactive) r']
  exact ⟨h.opened hr, by simp [h.length]⟩

theorem receive (h : s.Twins t) (hphase : s.phase ≠ .active) (r : Request σ) :
    Alike (s.receive r) (t.receive r) := by
  have hs : s.isActive = false := by simp [isActive, hphase]
  have ht : t.isActive = false := by simp [isActive, ← h.phase, hphase]
  simp only [Session.receive, hs, ht, Bool.false_eq_true, if_false]
  have hopened : Alike (({ s with jobs := s.jobs ++ [⟨r, .ready⟩] }, [.opened s.jobs.length]) : Moved σ ρ)
      ({ t with jobs := t.jobs ++ [⟨r, .ready⟩] }, [.opened t.jobs.length]) :=
    ⟨h.opened rfl, by rw [h.length]⟩
  cases r with
  | close | orphan => exact h.idle
  | _ => exact hopened

theorem register (h : s.Twins t) (c : Component) :
    Alike (s.step (.register c)) (t.step (.register c)) := by
  by_cases hs : s.phase = .active
  · have ht : t.phase = .active := h.phase ▸ hs
    cases ho : c.observer with
    | none =>
      simp only [Session.step, Session.register, isActive, hs, ht, ho, Registry.register, Except.map]
      exact ⟨h, rfl⟩
    | some o =>
      simp only [Session.step, Session.register, isActive, hs, ht, ho, Registry.register, Except.map]
      have hregistry := congrArg (fun r : Registry => (⟨r.observers ++ [o]⟩ : Registry)) h.registry
      exact ⟨⟨h.id, rfl, h.lock, hregistry, h.jobs⟩, rfl⟩
  · have ht : t.phase ≠ .active := h.phase ▸ hs
    simp only [Session.step, Session.register, isActive, h.phase,
      beq_eq_false_iff_ne.mpr ht]
    exact ⟨h, rfl⟩

theorem atJob (h : s.Twins t) {move move' : Job σ ρ → Moved σ ρ}
    (hmove : ∀ (r r' : Request σ) (st : Stage ρ), r.plain = r'.plain →
      Alike (move ⟨r, st⟩) (move' ⟨r', st⟩))
    (hdone : ∀ (j : Job σ ρ), j.stage.isDone = true → move j = (s, []) ∧ move' j = (t, [])) :
    Alike (s.atJob job move) (t.atJob job move') := by
  have hjobs : (s.jobs[job]?).map Job.plain = (t.jobs[job]?).map Job.plain := by
    rw [← List.getElem?_map, ← List.getElem?_map, h.jobs]
  unfold Session.atJob
  cases hs : s.jobs[job]? with
  | none =>
    cases ht : t.jobs[job]? with
    | none => exact h.idle
    | some j' => simp [hs, ht] at hjobs
  | some j =>
    cases ht : t.jobs[job]? with
    | none => simp [hs, ht] at hjobs
    | some j' =>
      obtain ⟨r, st⟩ := j
      obtain ⟨r', st'⟩ := j'
      simp only [hs, ht, Option.map_some, Option.some.injEq, Job.plain, Job.mk.injEq] at hjobs
      rcases Stage.mute_eq hjobs.2 with rfl | ⟨hst, hst'⟩
      · exact hmove r r' st hjobs.1
      · simp only [(hdone ⟨r, st⟩ hst).1, (hdone ⟨r', st'⟩ hst').2]
        exact h.idle

/-- Twins stay twins, and do the same. -/
theorem step (h : s.Twins t) (i : Input σ ρ) : Alike (s.step i) (t.step i) := by
  cases i with
  | request r =>
    by_cases hactive : s.phase = .active
    · exact h.request hactive rfl
    · exact h.receive hactive r
  | run job =>
    refine h.atJob (fun r r' st hr => h.run hr st) fun j hj => ?_
    obtain ⟨r, st⟩ := j
    cases st with
    | done => exact ⟨rfl, rfl⟩
    | _ => cases hj
  | reply job outcome =>
    refine h.atJob (fun r r' st hr => ?_) fun j hj => ?_
    · cases st with
      | forwarding => exact h.leave _ _
      | _ => exact h.idle
    · obtain ⟨r, st⟩ := j
      cases st with
      | done => exact ⟨rfl, rfl⟩
      | _ => cases hj
  | settle job outcome =>
    refine h.atJob (fun r r' st hr => h.settle r r' outcome st) fun j hj => ?_
    obtain ⟨r, st⟩ := j
    cases st with
    | done => exact ⟨rfl, rfl⟩
    | _ => cases hj
  | abandon job =>
    simp only [Session.step, h.lock]
    exact ⟨h.withLock _, rfl⟩
  | interrupt job =>
    refine h.atJob (fun r r' st hr => h.interrupt st) fun j hj => ?_
    obtain ⟨r, st⟩ := j
    cases st with
    | done => exact ⟨rfl, rfl⟩
    | _ => cases hj
  | register c => exact h.register c

/-- Whatever happens to twins, they do the same. -/
theorem run_same (h : s.Twins t) (inputs : List (Input σ ρ)) :
    (s.after inputs).Twins (t.after inputs) ∧ (s.history inputs).deeds = (t.history inputs).deeds := by
  induction inputs generalizing s t with
  | nil => exact ⟨h, rfl⟩
  | cons i rest ih =>
    obtain ⟨hsession, hdeeds⟩ := h.step i
    obtain ⟨hafter, hrest⟩ := ih hsession
    refine ⟨hafter, ?_⟩
    simp only [history, History.deeds, List.flatMap_cons] at hrest ⊢
    rw [hrest]
    exact congrArg (· ++ _) hdeeds

end Twins

/-! Alone -/

theorem respond_deeds (effects : List (Effect σ ρ)) :
    respond env job (Effect.deeds effects) w = respond env job effects w := by
  induction effects with
  | nil => rfl
  | cons e rest ih =>
    cases e with
    | call | notify => rfl
    | _ => exact ih

theorem carry_alike (env : Surroundings σ ρ ω) (job : Nat) {a b : Run σ ρ ω} (h : a.Alike b) (fuel : Nat) :
    (carry env job fuel a).Alike (carry env job fuel b) := by
  induction fuel generalizing a b with
  | zero => exact h
  | succ fuel ih =>
    have hrespond : respond env job a.effects a.world = respond env job b.effects b.world := by
      rw [← respond_deeds, h.deeds, respond_deeds, h.world]
    simp only [carry, hrespond]
    split
    · exact ⟨h.session, h.deeds, rfl⟩
    · rename_i i world _
      obtain ⟨hsession, hdeeds⟩ := h.session.step i
      have hrest := ih (a := ⟨(a.session.step i).1, (a.session.step i).2, world⟩)
        (b := ⟨(b.session.step i).1, (b.session.step i).2, world⟩) ⟨hsession, hdeeds, rfl⟩
      refine ⟨hrest.session, ?_, hrest.world⟩
      simp only [Effect.deeds_append, h.deeds, hrest.deeds]

/-- Alone, too, the same is done whoever asks for the end. -/
theorem alone_alike (hactive : s.phase = .active) (hr : r.plain = r'.plain) (env : Surroundings σ ρ ω)
    (w : ω) : (s.alone env r w).Alike (s.alone env r' w) := by
  have hs := step_request (ρ := ρ) hactive r
  have hs' := step_request (ρ := ρ) hactive r'
  have hopened := (Twins.refl s).opened hr
  have hlength (r : Request σ) : (s.jobs ++ [(⟨r, .ready⟩ : Job σ ρ)]).length ≠ s.jobs.length := by simp
  obtain ⟨hsession, hdeeds⟩ := hopened.step (.run s.jobs.length)
  have hcarry := carry_alike env s.jobs.length
    (a := ⟨_, _, w⟩) (b := ⟨_, _, w⟩) ⟨hsession, hdeeds, rfl⟩ s.steps
  simp only [alone, hs, hs', if_neg (hlength _)]
  refine ⟨hcarry.session, ?_, hcarry.world⟩
  simp only [Effect.deeds_append, Effect.deeds_logs]
  exact congrArg _ hcarry.deeds

end Session
end Transact
