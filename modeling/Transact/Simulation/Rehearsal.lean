import Transact.Repository.Transaction
import Transact.Sql.Printer

/-! A rehearsal: one repository in one session, over a store that answers from a script. -/
namespace Transact.Simulation

/-- What the store will answer, and what it was sent. -/
structure Scripted where
  script : List (Except Error Sql.Result) := []
  sent : List Sql.Statement := []

namespace Scripted

/-- A statement that names unknown columns is not sent; with an empty script nothing is found. -/
def execute (s : Sql.Statement) (w : Scripted) : Except Error Sql.Result × Scripted :=
  match s.unknownColumns with
  | [] =>
    let w := { w with sent := w.sent ++ [s] }
    match w.script with
    | [] => (.ok {}, w)
    | outcome :: rest => (outcome, { w with script := rest })
  | names => (.error (.unknownColumns names), w)

def store : Store Scripted where
  call _ call w :=
    match call with
    | .execute s => w.execute s
    | _ => (.ok {}, w)

end Scripted

structure Rehearsal where
  transaction : Transaction
  store : Scripted := {}

namespace Rehearsal

def ofRepository (r : Repository) : Rehearsal where
  transaction := { session := { id := "" }, repositories := [r] }

inductive Step where
  | script (outcome : Except Error Sql.Result)
  | register
  | commit
  | rollback
  | perform (operation : Operation)
  /-- The repository's hook is called, with no session around it. -/
  | notify (hook : Hook)

inductive Shown where
  | nothing
  | reply (reply : Repository.Reply)
  | finalized (phase : Phase) (failures : Option Notification)

structure Entry where
  shown : Except Error Shown
  sent : List Sql.Statement
  repository : Repository

def shownAnswer : Answer Sql.Result → Shown
  | .finalized phase failures => .finalized phase failures
  | _ => .nothing

def ask (request : Request Sql.Statement) (r : Rehearsal) : Except Error Shown × Rehearsal :=
  let (answer, transaction, store) := r.transaction.ask Scripted.store 0 request r.store
  (answer.map shownAnswer, { transaction, store })

/-- The identifier of an entity that is given none: it counts the jobs. -/
def fresh (r : Rehearsal) : Uuid := .numbered r.transaction.session.jobs.length

def take (step : Step) (r : Rehearsal) : Except Error Shown × Rehearsal :=
  match step with
  | .script outcome => (.ok .nothing, { r with store := { r.store with script := r.store.script ++ [outcome] } })
  | .register =>
    let (outcome, transaction) := r.transaction.register 0
    (outcome.map fun _ => .nothing, { r with transaction })
  | .commit => r.ask .commit
  | .rollback => r.ask .rollback
  | .perform operation =>
    match (r.transaction.repositories[0]?).elim (.ok operation) (·.made r.fresh operation) with
    | .error e => (.error e, r)
    | .ok operation =>
      let (answer, transaction, store) := r.transaction.perform Scripted.store 0 0 operation r.store
      (answer.map .reply, { transaction, store })
  | .notify hook =>
    let repositories := r.transaction.repositories.modify 0 (·.notify hook)
    (.ok .nothing, { r with transaction := { r.transaction with repositories } })

/-- The steps' answers; a step that writes the script has none. -/
def play (r : Rehearsal) : List Step → List Entry
  | [] => []
  | step :: rest =>
    let (shown, after) := { r with store := { r.store with sent := [] } }.take step
    match step, after.transaction.repositories with
    | .script _, _ | _, [] => after.play rest
    | _, repository :: _ => { shown, sent := after.store.sent, repository } :: after.play rest

end Rehearsal
end Transact.Simulation
