import Transact.Session.Report

/-! How a session moves. Whatever order its jobs run in and whatever its connection and its
observers answer, it changes by `step` only. An input that does not fit where its job stands
changes nothing. -/
namespace Transact.Session

variable {σ ρ : Type}

abbrev Moved (σ ρ : Type) := Session σ ρ × List (Effect σ ρ)

def finish (s : Session σ ρ) (job : Nat) (answer : Except Error (Answer ρ)) : Moved σ ρ :=
  (s.setStage job (.done answer), [.finish answer])

def unlock (s : Session σ ρ) : Moved σ ρ :=
  ({ s with lock := s.lock.release.2 }, s.lock.release.1.toList.map .wake)

def leave (s : Session σ ρ) (job : Nat) (answer : Except Error (Answer ρ)) : Moved σ ρ :=
  let (s, woken) := s.unlock
  let (s, finished) := s.finish job answer
  (s, woken ++ finished)

def ask (s : Session σ ρ) (job : Nat) (stage : Stage ρ) (call : Call σ) : Moved σ ρ :=
  (s.setStage job stage, [.call call])

/-- What a request answers that comes too late. -/
def lateAnswer (s : Session σ ρ) : Request σ → Except Error (Answer ρ)
  | .execute _ => .error (.closed s.phase)
  | .commit | .rollback => .error (.alreadyFinalized s.phase)
  | .close | .orphan => .ok .nothing

def granted (s : Session σ ρ) (job : Nat) (request : Request σ) : Moved σ ρ :=
  if s.phase.isTerminal then s.leave job (s.lateAnswer request) else
    match request with
    | .execute statement => s.ask job .forwarding (.execute statement)
    | .commit => s.ask job .committing .commit
    | .rollback | .close | .orphan => s.ask job (.rollingBack none) .rollback

/-- The end of a finalization, after its hooks. -/
def conclude (s : Session σ ρ) (job : Nat) (request : Request σ) (ending : Ending)
    (failures : Option Notification) : Moved σ ρ :=
  match request, ending with
  | .orphan, _ => s.finish job (.ok .nothing)
  | .close, .rolledBack _ (some e) =>
    let (t, effects) := s.finish job (.ok .nothing)
    (t, .log (s.closeFailed (.rollbackFailed e failures)) :: effects)
  | .close, _ =>
    let (t, effects) := s.finish job (.ok .nothing)
    (t, .log (s.outcome failures) :: (failures.toList.map fun f => .log (s.closeNotified f)) ++ effects)
  | _, .rolledBack (some e) rollback => s.finish job (.error (.commitFailed e rollback failures))
  | _, .rolledBack none (some e) => s.finish job (.error (.rollbackFailed e failures))
  | _, _ =>
    let (t, effects) := s.finish job (.ok (.finalized s.phase failures))
    (t, .log (s.outcome failures) :: effects)

def proceed (s : Session σ ρ) (job : Nat) (request : Request σ) (ending : Ending) : Round.Next → Moved σ ρ
  | .call round => (s.setStage job (.notifying ending round), [.notify round.hook round.current])
  | .ended failures => s.conclude job request ending failures
  | .aborted e => s.finish job (.error e)

/-- The connection is handed back: the lock is freed before the hooks are called. -/
def announce (s : Session σ ρ) (job : Nat) (request : Request σ) (ending : Ending) : Moved σ ρ :=
  let (s, woken) := s.unlock
  let (s, effects) := s.proceed job request ending (Round.start ending.hook s.registry)
  (s, woken ++ effects)

/-- A failure that is no ordinary error ends the job on the spot. -/
def caught (s : Session σ ρ) (job : Nat) (e : Error) (handle : Moved σ ρ) : Moved σ ρ :=
  if e.isOrdinary then handle else s.leave job (.error e)

def logged (record : Log.Record) (moved : Moved σ ρ) : Moved σ ρ := (moved.1, .log record :: moved.2)

def committing (s : Session σ ρ) (job : Nat) : Except Error Unit → Moved σ ρ
  | .ok () => { s with phase := .committed }.ask job (.releasing .committed) .release
  | .error e => s.caught job e <| logged (s.commitFailed e) (s.ask job (.rollingBack (some e)) .rollback)

def rollingBack (s : Session σ ρ) (job : Nat) (commit : Option Error) : Except Error Unit → Moved σ ρ
  | .ok () => { s with phase := .rolledBack }.ask job (.releasing (.rolledBack commit none)) .release
  | .error e => s.caught job e <| logged (s.rollbackFailed e) <|
      { s with phase := .rolledBack }.ask job (.discarding (.rolledBack commit (some e))) .discard

def releasing (s : Session σ ρ) (job : Nat) (request : Request σ) (ending : Ending) :
    Except Error Unit → Moved σ ρ
  | .ok () => s.announce job request ending
  | .error e => s.caught job e <| logged (s.releaseFailed e) (s.ask job (.discarding ending) .discard)

def discarding (s : Session σ ρ) (job : Nat) (request : Request σ) (ending : Ending) :
    Except Error Unit → Moved σ ρ
  | .ok () => s.announce job request ending
  | .error e => s.caught job e <| logged (s.discardFailed e) (s.announce job request ending)

def notifying (s : Session σ ρ) (job : Nat) (request : Request σ) (ending : Ending) (round : Round)
    (outcome : Except Error Unit) : Moved σ ρ :=
  let (records, next) := round.settle outcome
  let (s, effects) := s.proceed job request ending next
  (s, records.map .hookLog ++ effects)

/-- `close` and `orphan` ask nothing of a session that has ended. -/
def receive (s : Session σ ρ) (request : Request σ) : Moved σ ρ :=
  let opened : Moved σ ρ := ({ s with jobs := s.jobs ++ [{ request }] }, [.opened s.jobs.length])
  match request with
  | .close => if s.isActive then logged s.leftScope opened else (s, [])
  | .orphan => if s.isActive then logged s.forgotten opened else (s, [])
  | _ => opened

def run (s : Session σ ρ) (job : Nat) (request : Request σ) : Stage ρ → Moved σ ρ
  | .ready =>
    match s.lock.request job with
    | (true, lock) => { s with lock }.granted job request
    | (false, lock) => ({ s with lock }.setStage job .queued, [])
  | .queued =>
    if s.lock.isWoken job then { s with lock := s.lock.take job }.granted job request else (s, [])
  | _ => (s, [])

def interrupt (s : Session σ ρ) (job : Nat) : Stage ρ → Moved σ ρ
  | .ready => s.finish job (.error .cancelled)
  | .queued =>
    let (woken, lock) := s.lock.leave job
    let (s, effects) := { s with lock }.finish job (.error .cancelled)
    (s, woken.toList.map .wake ++ effects)
  | _ => (s, [])

def settle (s : Session σ ρ) (job : Nat) (request : Request σ) (outcome : Except Error Unit) :
    Stage ρ → Moved σ ρ
  | .committing => s.committing job outcome
  | .rollingBack commit => s.rollingBack job commit outcome
  | .releasing ending => s.releasing job request ending outcome
  | .discarding ending => s.discarding job request ending outcome
  | .notifying ending round => s.notifying job request ending round outcome
  | _ => (s, [])

def register (s : Session σ ρ) (c : Component) : Except Error (Session σ ρ) :=
  if s.isActive then (s.registry.register c).map fun registry => { s with registry }
  else .error (.registrationClosed s.phase)

/-- Hands a job's stage to the function that moves it. -/
def atJob (s : Session σ ρ) (job : Nat) (move : Job σ ρ → Moved σ ρ) : Moved σ ρ :=
  match s.jobs[job]? with
  | some j => move j
  | none => (s, [])

def step (s : Session σ ρ) : Input σ ρ → Moved σ ρ
  | .request request => s.receive request
  | .run job => s.atJob job fun j => s.run job j.request j.stage
  | .reply job outcome => s.atJob job fun j =>
      match j.stage with
      | .forwarding => s.leave job (outcome.map .reply)
      | _ => (s, [])
  | .settle job outcome => s.atJob job fun j => s.settle job j.request outcome j.stage
  | .abandon job => ({ s with lock := s.lock.abandon job }, [])
  | .interrupt job => s.atJob job fun j => s.interrupt job j.stage
  | .register c =>
    match s.register c, c.observer with
    | .ok t, some o => (t, [.accepted o])
    | .ok t, none => (t, [])
    | .error e, _ => (s, [.refused e])

def trace (s : Session σ ρ) : List (Input σ ρ) → Session σ ρ × List (Input σ ρ × List (Effect σ ρ))
  | [] => (s, [])
  | i :: rest =>
    let (t, effects) := s.step i
    let (u, tail) := t.trace rest
    (u, (i, effects) :: tail)

end Transact.Session
