import Transact.Database.Basic
import Transact.Database.Pool
import Transact.Repository.Sample
import Transact.Repository.Transaction
import Transact.Session.Opening
import Transact.Simulation.Basic

/-! One database shared by transactions that take turns, call by call. -/
namespace Transact.Simulation

structure Shared where
  database : Database
  pool : Pool := {}
  /-- Whether disposing closes the pool. -/
  ownsPool : Bool := true
  transactions : List Transaction := []
  connections : List Nat := []
  sessionNames : List (String × Nat) := []
  /-- Transaction, and the place in it. -/
  repositoryNames : List (String × Nat × Nat) := []

namespace Shared

inductive Step where
  | begin (name : String)
  | repository (name session : String) (repository : Repository) (register : Bool)
  | commit (session : String)
  | rollback (session : String)
  | close (session : String)
  | drop (session : String)
  | scalar (session sql : String)
  | perform (repository : String) (operation : Operation)
  | dispose

inductive Shown where
  | nothing
  | phase (phase : Phase)
  | reply (reply : Repository.Reply)
  | value (v : Value)
  | finalized (phase : Phase) (failures : Option Notification)

structure Entry where
  shown : Except Error Shown
  after : Shared

def store : Store Database := ⟨Database.call⟩

def session? (name : String) (w : Shared) : Except Error Nat :=
  match w.sessionNames.lookup name with
  | some i => .ok i
  | none => .error (.unknownName name)

def repository? (name : String) (w : Shared) : Except Error (Nat × Nat) :=
  match w.repositoryNames.lookup name with
  | some p => .ok p
  | none => .error (.unknownName name)

/-- An identifier that no entity has been given: it counts the jobs of each transaction. -/
def fresh (i : Nat) (w : Shared) : Uuid :=
  .numbered (((w.transactions[i]?).map (·.session.jobs.length)).getD 0 * Nat.pow 2 24 + i)

def isActive (i : Nat) (w : Shared) : Bool :=
  match w.transactions[i]? with
  | some t => t.session.isActive
  | none => false

def connection (i : Nat) (w : Shared) : Nat := (w.connections[i]?).getD 0

/-- A connection goes back to the pool when its session has ended. -/
def put (i : Nat) (t : Transaction) (database : Database) (w : Shared) : Shared :=
  { w with
    transactions := w.transactions.set i t
    database := database
    pool := if t.session.isActive then w.pool else w.pool.release (w.connection i) }

def ask (i : Nat) (request : Request Sql.Statement) (w : Shared) : Except Error (Answer Sql.Result) × Shared :=
  match w.transactions[i]? with
  | some t =>
    let (answer, t, database) := t.ask store (w.connection i) request w.database
    (answer, w.put i t database)
  | none => (.ok .nothing, w)

def forget (i : Nat) (w : Shared) : Shared := (w.ask i .orphan).2

/-- The connections of a database begin without fail. A name that is given anew forgets the
session that had it. -/
def begin (name : String) (w : Shared) : Except Error Shown × Shared :=
  let i := w.transactions.length
  let acquired := w.pool.acquire
  match (Opening.attempt (acquired.map fun _ => ()) fun _ => .ok ()).outcome, acquired with
  | .error e, _ | .ok (), .error e => (.error e, w)
  | .ok (), .ok (connection, pool) =>
    let session : Session Sql.Statement Sql.Result := { id := World.connectionLabel i }
    let earlier := w.sessionNames.lookup name
    let w := { w with
      pool
      transactions := w.transactions ++ [{ session }]
      connections := w.connections ++ [connection]
      sessionNames := Simulation.put name i w.sessionNames }
    (.ok (.phase .active), earlier.elim w fun old => w.forget old)

def shownAnswer : Answer Sql.Result → Except Error Shown
  | .finalized phase failures => .ok (.finalized phase failures)
  | .reply r => r.scalar.map .value
  | .nothing => .ok .nothing

def withSession (name : String) (w : Shared) (use : Nat → Except Error Shown × Shared) : Except Error Shown × Shared :=
  match w.session? name with
  | .ok i => use i
  | .error e => (.error e, w)

def askNamed (name : String) (request : Request Sql.Statement) (w : Shared) : Except Error Shown × Shared :=
  w.withSession name fun i =>
    let (answer, w) := w.ask i request
    (answer.bind shownAnswer, w)

/-- A repository whose registration fails is there all the same. -/
def addRepository (name : String) (i : Nat) (r : Repository) (register : Bool) (w : Shared) :
    Except Error Shown × Shared :=
  match w.transactions[i]? with
  | none => (.ok .nothing, w)
  | some t =>
    let place := t.repositories.length
    let t := { t with repositories := t.repositories ++ [r] }
    let (outcome, t) := if register then t.register place else (.ok (), t)
    (outcome.map fun _ => .nothing,
      { w with transactions := w.transactions.set i t, repositoryNames := Simulation.put name (i, place) w.repositoryNames })

def take (step : Step) (w : Shared) : Except Error Shown × Shared :=
  match step with
  | .begin name => w.begin name
  | .repository name session r register => w.withSession session fun i => w.addRepository name i r register
  | .commit s => w.askNamed s .commit
  | .rollback s => w.askNamed s .rollback
  | .close s => w.askNamed s .close
  | .drop s => w.withSession s fun i => (.ok .nothing, { w with sessionNames := remove s w.sessionNames }.forget i)
  | .scalar s sql => w.askNamed s (.execute (.verbatim sql))
  | .perform name operation =>
    match w.repository? name with
    | .error e => (.error e, w)
    | .ok (i, place) =>
      match w.transactions[i]? with
      | none => (.ok .nothing, w)
      | some t =>
        match (t.repositories[place]?).elim (.ok operation) (·.made (w.fresh i) operation) with
        | .error e => (.error e, w)
        | .ok operation =>
          let (answer, t, database) := t.perform store (w.connection i) place operation w.database
          (answer.map .reply, { w with transactions := w.transactions.set i t, database })
  | .dispose => (.ok .nothing, if w.ownsPool then { w with pool := w.pool.renewed, ownsPool := false } else w)

def play (w : Shared) : List Step → List Entry
  | [] => []
  | step :: rest =>
    let (shown, w) := w.take step
    { shown, after := w } :: w.play rest

def phaseOf (i : Nat) (w : Shared) : Phase := ((w.transactions[i]?).map (·.session.phase)).getD .active

def repositoryAt (i place : Nat) (w : Shared) : Option Repository :=
  (w.transactions[i]?).bind fun t => t.repositories[place]?

end Shared
end Transact.Simulation
