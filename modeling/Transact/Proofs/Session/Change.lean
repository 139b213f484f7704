import Transact.Proofs.Session.Stage

/-! All that one step of a session can do, each with the circumstances in which it does it. What is
kept along a run is proved from these cases, not from the step itself. -/
namespace Transact

variable {σ ρ : Type}

namespace Effect

@[simp] def call? : Effect σ ρ → Option (Call σ)
  | call c => some c
  | _ => none

@[simp] def hookCall? : Effect σ ρ → Option (Hook × Observer)
  | notify hook observer => some (hook, observer)
  | _ => none

end Effect

namespace Session

variable {s t : Session σ ρ} {i : Input σ ρ} {effects : List (Effect σ ρ)}

/-- What a finalization answers after its hooks. -/
def conclusion (s : Session σ ρ) (failures : Option Notification) :
    Request σ → Ending → Except Error (Answer ρ)
  | .close, _ | .orphan, _ => .ok .nothing
  | _, .rolledBack (some e) rollback => .error (.commitFailed e rollback failures)
  | _, .rolledBack none (some e) => .error (.rollbackFailed e failures)
  | _, _ => .ok (.finalized s.phase failures)

def closingRecords (s : Session σ ρ) (failures : Option Notification) :
    Request σ → Ending → List Log.Record
  | .orphan, _ => []
  | .close, .rolledBack _ (some e) => [s.closeFailed (.rollbackFailed e failures)]
  | .close, _ => s.outcome failures :: failures.toList.map s.closeNotified
  | _, .rolledBack (some _) _ | _, .rolledBack none (some _) => []
  | _, _ => [s.outcome failures]

/-- Where a job stands after an answer of its hooks. -/
def roundStage (s : Session σ ρ) (r : Request σ) (ending : Ending) : Round.Next → Stage ρ
  | .call round => .notifying ending round
  | .ended failures => .done (s.conclusion failures r ending)
  | .aborted e => .done (.error e)

def roundEffects (s : Session σ ρ) (r : Request σ) (ending : Ending) :
    Round.Next → List (Effect σ ρ)
  | .call round => [.notify round.hook round.current]
  | .ended failures =>
    (s.closingRecords failures r ending).map .log ++ [.finish (s.conclusion failures r ending)]
  | .aborted e => [.finish (.error e)]

def wakes (woken : Option Nat) : List (Effect σ ρ) := woken.toList.map .wake

@[simp] theorem filterMap_call?_wakes (woken : Option Nat) :
    (wakes woken : List (Effect σ ρ)).filterMap Effect.call? = [] := by
  cases woken <;> rfl

@[simp] theorem filterMap_call?_roundEffects {r : Request σ} {ending : Ending} {next : Round.Next} :
    (s.roundEffects r ending next).filterMap Effect.call? = [] := by
  cases next <;> simp [roundEffects, Effect.call?]

@[simp] theorem filterMap_hookCall?_logs (records : List Log.Record) :
    (records.map (Effect.log : _ → Effect σ ρ)).filterMap Effect.hookCall? = [] := by
  simp [List.filterMap_map, Effect.hookCall?]

@[simp] theorem filterMap_hookCall?_wakes (woken : Option Nat) :
    (wakes woken : List (Effect σ ρ)).filterMap Effect.hookCall? = [] := by
  cases woken <;> rfl

theorem conclude_eq (s : Session σ ρ) (job : Nat) (r : Request σ) (ending : Ending)
    (failures : Option Notification) :
    s.conclude job r ending failures =
      (s.setStage job (.done (s.conclusion failures r ending)),
        (s.closingRecords failures r ending).map .log ++
          [.finish (s.conclusion failures r ending)]) := by
  cases r <;> rcases ending with _ | ⟨_ | _, _ | _⟩ <;>
    simp [conclude, conclusion, closingRecords, finish]

theorem proceed_eq (s : Session σ ρ) (job : Nat) (r : Request σ) (ending : Ending)
    (next : Round.Next) :
    s.proceed job r ending next =
      (s.setStage job (s.roundStage r ending next), s.roundEffects r ending next) := by
  cases next with
  | call round => rfl
  | ended failures => exact conclude_eq s job r ending failures
  | aborted e => rfl

/-- The end of the physical part: the lock is given back and the first hook is called. -/
theorem announce_eq (s : Session σ ρ) (job : Nat) (r : Request σ) (ending : Ending) :
    s.announce job r ending =
      ({ s with lock := s.lock.release.2 }.setStage job
          (s.roundStage r ending (Round.start ending.hook s.registry)),
        wakes s.lock.release.1 ++
          s.roundEffects r ending (Round.start ending.hook s.registry)) := by
  simp only [announce, unlock, proceed_eq]
  cases Round.start ending.hook s.registry <;> rfl

/-- The outcome with which a connection is handed back: nothing is left to be tried. -/
def isBack (st : Stage ρ) (outcome : Except Error Unit) : Bool :=
  match st, outcome with
  | .releasing _, .ok () => true
  | .discarding _, .ok () => true
  | .discarding _, .error e => e.isOrdinary
  | _, _ => false

theorem isPhysical_of_isBack {st : Stage ρ} {outcome : Except Error Unit} (h : isBack st outcome = true) :
    st.isPhysical = true := by
  cases st <;> simp_all [isBack, Stage.isPhysical]

inductive Change (s : Session σ ρ) : Input σ ρ → Session σ ρ → List (Effect σ ρ) → Prop
  | idle {i : Input σ ρ} : s.fits i = false → Change s i s []
  | refused {c e} : s.register c = .error e → Change s (.register c) s [.refused e]
  | registered {c : Component} {o} : s.phase = .active → c.observer = some o →
      Change s (.register c) { s with registry := ⟨s.registry.observers ++ [o]⟩ } [.accepted o]
  | opened {r} (records : List Log.Record) : (r.isImplicit = true → s.phase = .active) →
      Change s (.request r) { s with jobs := s.jobs ++ [{ request := r }] }
        (records.map .log ++ [.opened s.jobs.length])
  | abandoned {job} : Change s (.abandon job) { s with lock := s.lock.abandon job } []
  | queued {job r} : s.jobs[job]? = some ⟨r, .ready⟩ → s.lock.isFree = false →
      Change s (.run job)
        ({ s with lock := { s.lock with queue := s.lock.queue ++ [(job, Ticket.waiting)] } }.setStage job
          .queued) []
  | late {job r st l} : s.jobs[job]? = some ⟨r, st⟩ → s.grant? job = some l →
      s.phase.isTerminal = true →
      Change s (.run job) ({ s with lock := l.release.2 }.setStage job (.done (s.lateAnswer r)))
        (wakes l.release.1 ++ [.finish (s.lateAnswer r)])
  | granted {job r st l} : s.jobs[job]? = some ⟨r, st⟩ → s.grant? job = some l →
      s.phase = .active →
      Change s (.run job) ({ s with lock := l }.setStage job r.firstStage) [.call r.firstCall]
  | cancelled {job r} : s.jobs[job]? = some ⟨r, .ready⟩ →
      Change s (.interrupt job) (s.setStage job (.done (.error .cancelled)))
        [.finish (.error .cancelled)]
  | left {job r} : s.jobs[job]? = some ⟨r, .queued⟩ →
      Change s (.interrupt job)
        ({ s with lock := (s.lock.leave job).2 }.setStage job (.done (.error .cancelled)))
        (wakes (s.lock.leave job).1 ++ [.finish (.error .cancelled)])
  | replied {job r outcome} : s.jobs[job]? = some ⟨r, .forwarding⟩ →
      Change s (.reply job outcome)
        ({ s with lock := s.lock.release.2 }.setStage job (.done (outcome.map .reply)))
        (wakes s.lock.release.1 ++ [.finish (outcome.map .reply)])
  | broken {job r st e} : s.jobs[job]? = some ⟨r, st⟩ → st.isPhysical = true →
      e.isOrdinary = false →
      Change s (.settle job (.error e))
        ({ s with lock := s.lock.release.2 }.setStage job (.done (.error e)))
        (wakes s.lock.release.1 ++ [.finish (.error e)])
  | committed {job r} : s.jobs[job]? = some ⟨r, .committing⟩ →
      Change s (.settle job (.ok ()))
        ({ s with phase := .committed }.setStage job (.releasing .committed)) [.call .release]
  | commitFailed {job r e} : s.jobs[job]? = some ⟨r, .committing⟩ → e.isOrdinary = true →
      Change s (.settle job (.error e)) (s.setStage job (.rollingBack (some e)))
        [.log (s.commitFailed e), .call .rollback]
  | rolledBack {job r commit} : s.jobs[job]? = some ⟨r, .rollingBack commit⟩ →
      Change s (.settle job (.ok ()))
        ({ s with phase := .rolledBack }.setStage job (.releasing (.rolledBack commit none)))
        [.call .release]
  | rollbackFailed {job r commit e} : s.jobs[job]? = some ⟨r, .rollingBack commit⟩ →
      e.isOrdinary = true →
      Change s (.settle job (.error e))
        ({ s with phase := .rolledBack }.setStage job (.discarding (.rolledBack commit (some e))))
        [.log (s.rollbackFailed e), .call .discard]
  | releaseFailed {job r ending e} : s.jobs[job]? = some ⟨r, .releasing ending⟩ →
      e.isOrdinary = true →
      Change s (.settle job (.error e)) (s.setStage job (.discarding ending))
        [.log (s.releaseFailed e), .call .discard]
  | announced {job r st ending outcome} (records : List Log.Record) :
      s.jobs[job]? = some ⟨r, st⟩ → st.ending? = some ending → isBack st outcome = true →
      Change s (.settle job outcome)
        ({ s with lock := s.lock.release.2 }.setStage job
          (s.roundStage r ending (Round.start ending.hook s.registry)))
        (records.map .log ++ wakes s.lock.release.1 ++
          s.roundEffects r ending (Round.start ending.hook s.registry))
  | notified {job r ending round outcome} : s.jobs[job]? = some ⟨r, .notifying ending round⟩ →
      Change s (.settle job outcome)
        (s.setStage job (s.roundStage r ending (round.settle outcome).2))
        ((round.settle outcome).1.map .hookLog ++
          s.roundEffects r ending (round.settle outcome).2)

theorem granted_eq (s : Session σ ρ) (job : Nat) (r : Request σ) :
    s.granted job r =
      if s.phase.isTerminal then s.leave job (s.lateAnswer r)
      else (s.setStage job r.firstStage, [.call r.firstCall]) := by
  cases r <;> rfl

private theorem change_granted {job : Nat} {r : Request σ} {st : Stage ρ} {l : Lock}
    (hj : s.jobs[job]? = some ⟨r, st⟩) (hl : s.grant? job = some l) :
    Change s (.run job) ({ s with lock := l }.granted job r).1
      ({ s with lock := l }.granted job r).2 := by
  rw [granted_eq]
  split
  · rename_i hterminal
    exact .late hj hl hterminal
  · rename_i hactive
    apply Change.granted hj hl
    apply Phase.isTerminal_eq_false_iff.mp
    simpa using hactive

private theorem change_request (s : Session σ ρ) (r : Request σ) :
    Change s (.request r) (s.step (.request r)).1 (s.step (.request r)).2 := by
  have himplicit (hr : r.isImplicit = true) (h : s.isActive = false) : s.fits (.request r) = false := by
    simp [fits, hr, h]
  simp only [step, receive]
  cases hactive : s.isActive with
  | true =>
    have hphase : s.phase = .active := by simpa [isActive] using hactive
    cases r with
    | close => exact .opened [s.leftScope] fun _ => hphase
    | orphan => exact .opened [s.forgotten] fun _ => hphase
    | _ => exact .opened [] fun _ => hphase
  | false =>
    cases r with
    | close | orphan => exact .idle (himplicit rfl hactive)
    | _ => exact .opened [] (by simp [Request.isImplicit])

private theorem change_run (s : Session σ ρ) (job : Nat) :
    Change s (.run job) (s.step (.run job)).1 (s.step (.run job)).2 := by
  simp only [step, atJob]
  rcases hj : s.jobs[job]? with _ | ⟨r, st⟩
  · exact .idle (by simp [fits, stage?, hj])
  simp only [run]
  cases st with
  | ready =>
    cases hfree : s.lock.isFree with
    | true =>
      simp only [Lock.request, hfree, if_true]
      exact change_granted hj (by simp [grant?, stage?, hj, hfree])
    | false =>
      simp only [Lock.request, hfree, Bool.false_eq_true, if_false]
      exact .queued hj hfree
  | queued =>
    dsimp only
    split
    · rename_i hwoken
      exact change_granted hj (by simp [grant?, stage?, hj, hwoken])
    · exact .idle (by simp_all [fits, stage?])
  | _ => exact .idle (by simp [fits, stage?, hj])

private theorem change_reply (s : Session σ ρ) (job : Nat) (outcome : Except Error ρ) :
    Change s (.reply job outcome) (s.step (.reply job outcome)).1 (s.step (.reply job outcome)).2 := by
  simp only [step, atJob]
  rcases hj : s.jobs[job]? with _ | ⟨r, st⟩
  · exact .idle (by simp [fits, stage?, hj])
  cases st with
  | forwarding => exact .replied hj
  | _ => exact .idle (by simp [fits, stage?, hj])

private theorem change_interrupt (s : Session σ ρ) (job : Nat) :
    Change s (.interrupt job) (s.step (.interrupt job)).1 (s.step (.interrupt job)).2 := by
  simp only [step, atJob]
  rcases hj : s.jobs[job]? with _ | ⟨r, st⟩
  · exact .idle (by simp [fits, stage?, hj])
  cases st with
  | ready => exact .cancelled hj
  | queued => exact .left hj
  | _ => exact .idle (by simp [fits, stage?, hj])

private theorem change_caught {job : Nat} {r : Request σ} {st : Stage ρ} {e : Error}
    {handle : Moved σ ρ} (hj : s.jobs[job]? = some ⟨r, st⟩) (hst : st.isPhysical = true)
    (hhandle : e.isOrdinary = true → Change s (.settle job (.error e)) handle.1 handle.2) :
    Change s (.settle job (.error e)) (s.caught job e handle).1 (s.caught job e handle).2 := by
  unfold caught
  split
  · rename_i h
    exact hhandle h
  · rename_i h
    exact .broken hj hst (by simpa using h)

private theorem change_settle (s : Session σ ρ) (job : Nat) (outcome : Except Error Unit) :
    Change s (.settle job outcome) (s.step (.settle job outcome)).1 (s.step (.settle job outcome)).2 := by
  simp only [step, atJob]
  rcases hj : s.jobs[job]? with _ | ⟨r, st⟩
  · exact .idle (by simp [fits, stage?, hj])
  simp only [settle]
  cases st with
  | committing =>
    cases outcome with
    | ok => exact .committed hj
    | error e => exact change_caught hj rfl fun h => .commitFailed hj h
  | rollingBack commit =>
    cases outcome with
    | ok => exact .rolledBack hj
    | error e => exact change_caught hj rfl fun h => .rollbackFailed hj h
  | releasing ending =>
    cases outcome with
    | ok =>
      simp only [releasing, announce_eq]
      exact .announced [] hj rfl rfl
    | error e => exact change_caught hj rfl fun h => .releaseFailed hj h
  | discarding ending =>
    cases outcome with
    | ok =>
      simp only [discarding, announce_eq]
      exact .announced [] hj rfl rfl
    | error e =>
      apply change_caught hj rfl
      intro h
      simp only [logged, announce_eq]
      exact .announced [s.discardFailed e] hj rfl h
  | notifying ending round =>
    simp only [notifying, proceed_eq]
    exact .notified hj
  | _ => exact .idle (by simp [fits, stage?, hj])

private theorem change_register (s : Session σ ρ) (c : Component) :
    Change s (.register c) (s.step (.register c)).1 (s.step (.register c)).2 := by
  simp only [step]
  rcases hc : s.register c with e | t
  · exact .refused hc
  · simp only [register] at hc
    split at hc
    · rename_i hactive
      rcases ho : c.observer with _ | o
      · simp [Registry.register, ho, Except.map] at hc
      · simp only [Registry.register, ho, Except.map, Except.ok.injEq] at hc
        subst hc
        exact .registered (by simpa [isActive] using hactive) ho
    · cases hc

/-- Nothing else ever happens to a session. -/
theorem step_change (s : Session σ ρ) (i : Input σ ρ) : Change s i (s.step i).1 (s.step i).2 := by
  cases i with
  | request r => exact change_request s r
  | run job => exact change_run s job
  | reply job outcome => exact change_reply s job outcome
  | settle job outcome => exact change_settle s job outcome
  | abandon job => exact .abandoned
  | interrupt job => exact change_interrupt s job
  | register c => exact change_register s c

/-- A change opens a job, moves one job on, or leaves all where they are. The connection is called
by a job that moves to where it waits for that call. -/
inductive Moves (s t : Session σ ρ) (i : Input σ ρ) (effects : List (Effect σ ρ)) : Prop
  | rest : t.jobs = s.jobs → effects.filterMap Effect.call? = [] → Moves s t i effects
  | opened (r : Request σ) : i = .request r → t.jobs = s.jobs ++ [{ request := r }] →
      effects.filterMap Effect.call? = [] → Moves s t i effects
  | moved (job : Nat) (r : Request σ) (old st : Stage ρ) : i.job? = some job →
      s.jobs[job]? = some ⟨r, old⟩ → old.Goes r st →
      (∀ k, t.jobs[k]? = if k = job then some ⟨r, st⟩ else s.jobs[k]?) →
      effects.filterMap Effect.call? = (st.call? r).toList → Moves s t i effects

@[simp] theorem roundStage_call? {r : Request σ} {ending : Ending} {next : Round.Next} :
    (s.roundStage r ending next).call? r = none := by
  cases next <;> rfl

theorem goes_roundStage {r : Request σ} {old : Stage ρ} {ending : Ending} {next : Round.Next}
    (hdone : old.isDone = false) (hcall : ∀ round, old.Goes r (.notifying ending round)) :
    old.Goes r (s.roundStage r ending next) := by
  cases next with
  | call round => exact hcall round
  | ended => exact .stop hdone
  | aborted => exact .stop hdone

theorem isHandingBack_of_isBack {st : Stage ρ} {outcome : Except Error Unit} (h : isBack st outcome = true) :
    st.isHandingBack = true := by
  cases st <;> simp_all [isBack, Stage.isHandingBack]

theorem change_moves (h : Change s i t effects) : Moves s t i effects := by
  cases h with
  | idle | refused | registered | abandoned => exact .rest rfl rfl
  | opened => exact .opened _ rfl rfl (by simp)
  | queued hj => exact .moved _ _ _ _ rfl hj .wait (jobs_setStage _ hj) rfl
  | @late job r old l hj hl =>
    have hdone : old.isDone = false := by rcases grant?_waiting hl hj with rfl | rfl <;> rfl
    exact .moved _ _ _ _ rfl hj (.stop hdone) (jobs_setStage _ hj) (by simp [Stage.call?])
  | granted hj hl =>
    exact .moved _ _ _ _ rfl hj (.enter (grant?_waiting hl hj)) (jobs_setStage _ hj) (by simp)
  | cancelled hj | left hj | replied hj =>
    exact .moved _ _ _ _ rfl hj (.stop rfl) (jobs_setStage _ hj) (by simp [Stage.call?])
  | broken hj hphysical =>
    have hdone := Stage.not_done_of_isPhysical hphysical
    exact .moved _ _ _ _ rfl hj (.stop hdone) (jobs_setStage _ hj) (by simp [Stage.call?])
  | committed hj => exact .moved _ _ _ _ rfl hj .commit (jobs_setStage _ hj) rfl
  | commitFailed hj => exact .moved _ _ _ _ rfl hj .compensate (jobs_setStage _ hj) rfl
  | rolledBack hj => exact .moved _ _ _ _ rfl hj .rollBack (jobs_setStage _ hj) rfl
  | rollbackFailed hj => exact .moved _ _ _ _ rfl hj .giveUp (jobs_setStage _ hj) rfl
  | releaseFailed hj => exact .moved _ _ _ _ rfl hj .discard (jobs_setStage _ hj) rfl
  | announced records hj hending hback =>
    have hhand := isHandingBack_of_isBack hback
    have hdone := Stage.not_done_of_isPhysical (isPhysical_of_isBack hback)
    exact .moved _ _ _ _ rfl hj (goes_roundStage hdone fun _ => .announce hhand hending)
      (jobs_setStage _ hj) (by simp)
  | notified hj =>
    exact .moved _ _ _ _ rfl hj (goes_roundStage rfl fun _ => .next) (jobs_setStage _ hj) (by simp)

end Session
end Transact
