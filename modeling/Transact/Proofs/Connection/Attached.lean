import Transact.Connection
import Transact.Proofs.Session.Return
import Transact.Proofs.Walk

/-! A session with the connection that its calls go to. A call is brought from point to point of
the store, and what it comes to is the session's next input. -/
namespace Transact

/-- The store says whether a transaction is active, whatever was tried on it. -/
def RawTransaction.turned (active : Bool) : RawTransaction → RawTransaction
  | absent => absent
  | _ => if active then .active else .inactive

def Connection.turned (c : Connection) (active : Bool) : Connection :=
  { c with transaction := c.transaction.turned active }

/-- A call under way: who waits for it, and the point that it has come to, or the failure with
which it ends before it comes to any. -/
structure Errand where
  job : Nat
  call : Call Query
  progress : Except Error Connection.Progress

def Errand.point? (e : Errand) : Option Point :=
  match e.progress with
  | .ok p => some p.point
  | .error _ => none

structure Attached (ρ : Type) where
  session : Session Query ρ
  connection : Connection
  errand : Option Errand := none

namespace Attached

variable {ρ : Type}

/-- What happens: the session's own inputs, and the store, which answers at the point that the call
under way has come to. A reply is for a statement, the rest is settled; with each answer the store
says whether the transaction is active, and it may turn at any other time. -/
inductive Input (ρ : Type) where
  | session (input : Transact.Input Query ρ)
  | reply (outcome : Except Error ρ)
  | settle (outcome : Except Error Unit) (active : Bool)
  | refuse
  | turn (active : Bool)

inductive Effect (ρ : Type) where
  | touch (point : Point)
  | session (effect : Transact.Effect Query ρ)

/-- The connection's part of a step: the point that answers and how, the point that is gone to, and
what the session gets to know. -/
structure Routed (ρ : Type) where
  connection : Connection
  errand : Option Errand
  answered : Option (Point × Except Error Unit) := none
  touched : Option Point := none
  passed : Option (Transact.Input Query ρ) := none

def route (a : Attached ρ) : Input ρ → Routed ρ
  | .session i =>
    ⟨a.connection, a.errand, none, none, if (a.session.answered i).isSome then none else some i⟩
  | .reply outcome =>
    match a.errand with
    | some ⟨job, .execute _, .ok p⟩ =>
      let settled : Except Error Unit := outcome.map fun _ => ()
      ⟨(a.connection.settle p settled).1, none, some (p.point, settled), none, some (.reply job outcome)⟩
    | _ => ⟨a.connection, a.errand, none, none, none⟩
  | .settle outcome active =>
    match a.errand with
    | some ⟨_, .execute _, _⟩ => ⟨a.connection, a.errand, none, none, none⟩
    | some ⟨job, call, .ok p⟩ =>
      match a.connection.settle p outcome with
      | (c, .touch q) =>
        ⟨c.turned active, some ⟨job, call, .ok q⟩, some (p.point, outcome), some q.point, none⟩
      | (c, .answered result) =>
        ⟨c.turned active, none, some (p.point, outcome), none, some (.settle job result)⟩
    | _ => ⟨a.connection, a.errand, none, none, none⟩
  | .refuse =>
    match a.errand with
    | some ⟨job, _, .error e⟩ => ⟨a.connection, none, none, none, some (.settle job (.error e))⟩
    | _ => ⟨a.connection, a.errand, none, none, none⟩
  | .turn active => ⟨a.connection.turned active, a.errand, none, none, none⟩

/-- The session takes an input, and the call that it makes sets out at once. -/
def take (a : Attached ρ) (i : Transact.Input Query ρ) : Attached ρ × List (Effect ρ) :=
  let (session, effects) := a.session.step i
  match i.job?, (effects.filterMap Transact.Effect.call?).head? with
  | some job, some call =>
    let errand : Errand := ⟨job, call, a.connection.start call⟩
    ({ a with session, errand := some errand },
      effects.map .session ++ errand.point?.toList.map .touch)
  | _, _ => ({ a with session }, effects.map .session)

def step (a : Attached ρ) (i : Input ρ) : Attached ρ × List (Effect ρ) :=
  let r := a.route i
  let b : Attached ρ := { a with connection := r.connection, errand := r.errand }
  match r.passed with
  | some x => b.take x
  | none => (b, r.touched.toList.map .touch)

end Attached
end Transact
