import Transact.Session.Opening
import Transact.Session.Step

/-! The sessions that are begun on the connections of one source: every call to begin one has a
slot, and what comes of it stands there. -/
namespace Transact

/-- A session and the connection that it has taken. -/
structure Lease (σ ρ : Type) where
  session : Session σ ρ
  connection : Nat

/-- What has come of one call to begin a session. -/
inductive Slot (σ ρ : Type) where
  | acquiring
  | opening (connection : Nat) (stage : Opening)
  | leased (lease : Lease σ ρ)
  | failed

structure Ledger (σ ρ : Type) where
  slots : List (Slot σ ρ) := []

def Call.plain {σ : Type} : Call Empty → Call σ
  | .begin => .begin
  | .commit => .commit
  | .rollback => .rollback
  | .release => .release
  | .discard => .discard

namespace Ledger

/-- What happens: a session is begun, the source gives a connection, what is
under way for a slot answers, a session is put on a connection as it is, something happens to a
session. A session that comes to be takes the id. -/
inductive Input (σ ρ : Type) where
  | begin
  | acquired (slot connection : Nat)
  | settle (slot : Nat) (outcome : Except Error Unit) (id : String)
  | wrap (connection : Nat) (id : String)
  | session (slot : Nat) (input : Transact.Input σ ρ)

inductive Effect (σ ρ : Type) where
  | acquire (slot : Nat)
  | call (connection : Nat) (call : Call σ)
  | log (record : Log.Record)
  | began (connection : Nat)
  | failed (error : Error)
  | session (connection : Nat) (effect : Transact.Effect σ ρ)

variable {σ ρ : Type}

abbrev Moved (σ ρ : Type) := Ledger σ ρ × List (Effect σ ρ)

def Effect.session? : Effect σ ρ → Option (Transact.Effect σ ρ)
  | session _ effect => some effect
  | _ => none

def put (l : Ledger σ ρ) (slot : Nat) (value : Slot σ ρ) : Ledger σ ρ :=
  { l with slots := l.slots.set slot value }

def lease? (l : Ledger σ ρ) (slot : Nat) : Option (Lease σ ρ) :=
  match l.slots[slot]? with
  | some (.leased lease) => some lease
  | _ => none

/-- Goes on with beginning a session, on the connection if there is one already. -/
def proceed (l : Ledger σ ρ) (slot : Nat) (connection : Option Nat) (id : String)
    (settled : List Log.Record × Opening.Next) : Moved σ ρ :=
  let logs := settled.1.map .log
  match settled.2, connection with
  | .call stage call, some c => (l.put slot (.opening c stage), logs ++ [.call c call.plain])
  | .opened, some c =>
    (l.put slot (.leased ⟨{ id }, c⟩), logs ++ [.log (Opening.began id), .began c])
  | .failed e, _ => (l.put slot .failed, logs ++ [.failed e])
  | _, none => (l, [])

def step (l : Ledger σ ρ) : Input σ ρ → Moved σ ρ
  | .begin => ({ l with slots := l.slots ++ [.acquiring] }, [.acquire l.slots.length])
  | .acquired slot c =>
    match l.slots[slot]? with
    | some .acquiring => l.proceed slot (some c) "" (Opening.acquiring.settle (.ok ()))
    | _ => (l, [])
  | .settle slot outcome id =>
    match l.slots[slot]? with
    | some .acquiring => l.proceed slot none id (Opening.acquiring.settle outcome)
    | some (.opening c stage) => l.proceed slot (some c) id (stage.settle outcome)
    | _ => (l, [])
  | .wrap c id => ({ l with slots := l.slots ++ [.leased ⟨{ id }, c⟩] }, [.began c])
  | .session slot i =>
    match l.lease? slot with
    | some lease =>
      let (session, effects) := lease.session.step i
      (l.put slot (.leased { lease with session }), effects.map (.session lease.connection))
    | none => (l, [])

end Ledger
end Transact
