import Transact.Session.Lock
import Transact.Session.Registry

/-! Sessions: one transaction on one connection, shared by any number of jobs that run in turns.
`σ` are statements and `ρ` is what the store replies to them. -/
namespace Transact

inductive Call (σ : Type) where
  | begin
  | execute (statement : σ)
  | commit
  | rollback
  | release
  | discard
deriving DecidableEq, Repr

/-- What a session is asked to do. `close` ends a session that is still active when its scope is
left; `orphan` one that is forgotten. -/
inductive Request (σ : Type) where
  | execute (statement : σ)
  | commit
  | rollback
  | close
  | orphan
deriving DecidableEq, Repr

/-- How the transaction ended physically: for a rollback, the failed commit before it, and its
own failure. -/
inductive Ending where
  | committed
  | rolledBack (commit rollback : Option Error)

def Ending.hook : Ending → Hook
  | committed => .onCommit
  | rolledBack _ _ => .onRollback

inductive Answer (ρ : Type) where
  | reply (reply : ρ)
  | finalized (phase : Phase) (failures : Option Notification)
  | nothing

/-- Where a job stands. From `forwarding` up to `discarding` it holds the lock. -/
inductive Stage (ρ : Type) where
  | ready
  | queued
  | forwarding
  | committing
  | rollingBack (commit : Option Error)
  | releasing (ending : Ending)
  | discarding (ending : Ending)
  | notifying (ending : Ending) (round : Round)
  | done (answer : Except Error (Answer ρ))

structure Job (σ ρ : Type) where
  request : Request σ
  stage : Stage ρ := .ready

structure Session (σ ρ : Type) where
  id : String
  phase : Phase := .active
  lock : Lock := {}
  registry : Registry := {}
  jobs : List (Job σ ρ) := []

/-- What happens to a session: requests open jobs, a job runs when its turn comes, a call to the
connection or a hook answers, a queued job gives up, an observer registers. -/
inductive Input (σ ρ : Type) where
  | request (request : Request σ)
  | run (job : Nat)
  | reply (job : Nat) (outcome : Except Error ρ)
  | settle (job : Nat) (outcome : Except Error Unit)
  | abandon (job : Nat)
  | interrupt (job : Nat)
  | register (component : Component)

/-- What a session wants done: the job that was moved calls its connection or a hook, or ends;
another job is woken; a record is logged. -/
inductive Effect (σ ρ : Type) where
  | opened (job : Nat)
  | call (call : Call σ)
  | notify (hook : Hook) (observer : Observer)
  | wake (job : Nat)
  | log (record : Log.Record)
  | hookLog (record : Log.Record)
  | accepted (observer : Observer)
  | refused (error : Error)
  | finish (answer : Except Error (Answer ρ))

namespace Session

variable {σ ρ : Type}

def isActive (s : Session σ ρ) : Bool := s.phase == .active

def stage? (s : Session σ ρ) (job : Nat) : Option (Stage ρ) := (s.jobs[job]?).map (·.stage)

def setStage (s : Session σ ρ) (job : Nat) (stage : Stage ρ) : Session σ ρ :=
  { s with jobs := s.jobs.modify job fun j => { j with stage } }

/-- The job is a commit, a rollback or a close. -/
def isFinalizing (s : Session σ ρ) (job : Nat) : Bool :=
  match s.jobs[job]? with
  | some { request := .commit, .. } | some { request := .rollback, .. } | some { request := .close, .. } => true
  | _ => false

/-- The job is in its round of hooks; the session's id is bound inside them. -/
def isNotifying (s : Session σ ρ) (job : Nat) : Bool :=
  match s.stage? job with
  | some (.notifying _ _) => true
  | _ => false

end Session
end Transact
