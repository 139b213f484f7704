import Transact.Repository.Basic
import Transact.Session.Alone

/-! A transaction: a session, the repositories that work in it, and the operations that wait for
an answer. A repository follows what the session does; it never decides anything. -/
namespace Transact

/-- An operation of repository `repository`, which waits for job `job`. -/
structure Pending where
  job : Nat
  repository : Nat
  operation : Operation

/-- A repository is known to the session by its place in the list. -/
structure Transaction where
  session : Session Sql.Statement Sql.Result
  repositories : List Repository := []
  pending : List Pending := []

namespace Transaction

abbrev Input := Transact.Input Sql.Statement Sql.Result
abbrev Effect := Transact.Effect Sql.Statement Sql.Result

def jobOf : Input → Option Nat
  | .run job | .reply job _ | .settle job _ | .abandon job | .interrupt job => some job
  | .request _ | .register _ => none

def resultOf : Except Error (Answer Sql.Result) → Except Error Sql.Result
  | .ok (.reply r) => .ok r
  | .ok _ => .ok {}
  | .error e => .error e

def pendingAt (t : Transaction) (job : Nat) : Option Pending := t.pending.find? (·.job == job)

/-- A hook that is called and a job that ends move a repository. -/
def follow (job : Option Nat) (t : Transaction) : Effect → Transaction
  | .notify hook o => { t with repositories := t.repositories.modify o.key (·.notify hook) }
  | .finish answer =>
    match job.bind t.pendingAt with
    | some p =>
      { t with repositories := t.repositories.modify p.repository (·.settle p.operation (resultOf answer)) }
    | none => t
  | _ => t

def step (t : Transaction) (i : Input) : Transaction × List Effect :=
  let (session, effects) := t.session.step i
  (effects.foldl (follow (jobOf i)) { t with session }, effects)

/-- Makes an operation's statement, and notes that the operation waits for the next job. -/
def prepare (t : Transaction) (repository : Nat) (operation : Operation) (r : Repository) :
    Except Error (Sql.Statement × Transaction) := do
  let statement ← r.statement operation
  let waiting : Pending := ⟨t.session.jobs.length, repository, operation⟩
  return (statement, { t with pending := t.pending ++ [waiting] })

/-- What happens to a transaction: an operation of a repository begins, or anything to the session. -/
inductive Event where
  | operation (repository : Nat) (operation : Operation)
  | session (input : Input)

/-- The input that an event is to the session, and the transaction that takes it. An operation whose
statement cannot be made has failed before it asks for anything. -/
def intake (t : Transaction) : Event → Option (Transaction × Input)
  | .operation repository operation =>
    match t.repositories[repository]? with
    | none => none
    | some r =>
      match t.prepare repository operation r with
      | .error _ => none
      | .ok (statement, t) => some (t, .request (.execute statement))
  | .session i => some (t, i)

def handle (t : Transaction) (event : Event) : Transaction × List Effect :=
  match t.intake event with
  | none => (t, [])
  | some (t, i) => t.step i

def observerOf (index : Nat) (r : Repository) : Component where
  typeName := r.className
  observer := some ⟨index, r.className, r.className⟩

def register (t : Transaction) (repository : Nat) : Except Error Unit × Transaction :=
  match t.repositories[repository]? with
  | none => (.ok (), t)
  | some r =>
    let (t, effects) := t.step (.register (observerOf repository r))
    (match effects with
      | .refused e :: _ => .error e
      | _ => .ok (), t)

end Transaction

/-- A store that answers at once; its connections are numbered. -/
structure Store (ω : Type) where
  call : Nat → Call Sql.Statement → ω → Except Error Sql.Result × ω

/-- A connection of a store, with observers that never fail. -/
def Store.surroundings {ω : Type} (store : Store ω) (connection : Nat) :
    Surroundings Sql.Statement Sql.Result ω where
  call := store.call connection
  hook _ _ w := (.ok (), w)

namespace Transaction

variable {ω : Type}

/-- Commit, rollback, close, or a statement, alone. -/
def ask (store : Store ω) (connection : Nat) (request : Request Sql.Statement) (t : Transaction) (w : ω) :
    Except Error (Answer Sql.Result) × Transaction × ω :=
  let job := t.session.jobs.length
  let run := t.session.alone (store.surroundings connection) request w
  (run.answer, run.effects.foldl (follow (some job)) { t with session := run.session }, run.world)

/-- An operation alone, from its call to its answer. -/
def perform (store : Store ω) (connection repository : Nat) (operation : Operation) (t : Transaction) (w : ω) :
    Except Error Repository.Reply × Transaction × ω :=
  match t.repositories[repository]? with
  | none => (.ok .added, t, w)
  | some r =>
    match t.prepare repository operation r with
    | .error e => (.error e, t, w)
    | .ok (statement, t) =>
      let (answer, t, w) := t.ask store connection (.execute statement) w
      (r.answer operation (resultOf answer), t, w)

end Transaction
end Transact
