import Mathlib.Logic.Function.Basic
import Transact.Proofs.Ledger.Handling
import Transact.Proofs.Walk
import Transact.Session.Alone

/-! A ledger among connections and observers that follow scripts. Each connection has a world of its
own, in which it answers its calls and the observers of its session their hooks. -/
namespace Transact

/-- What a job waits for: the call that it has made, or the hook. -/
def Session.pending {σ ρ : Type} (s : Session σ ρ) (job : Nat) : List (Effect σ ρ) :=
  match s.jobs[job]? with
  | some ⟨_, .notifying _ round⟩ => [.notify round.hook round.current]
  | some ⟨r, st⟩ => (st.call? r).toList.map .call
  | none => []

namespace Ledger

/-- What is done for one slot: the source gives a connection or fails, the connection answers the
call of a session that is beginning, and all that can happen to the session then. -/
inductive Turn (σ : Type) where
  | acquired (outcome : Except Error Nat)
  | proceed (id : String)
  | request (request : Request σ)
  | run (job : Nat)
  | answer (job : Nat)
  | abandon (job : Nat)
  | interrupt (job : Nat)
  | register (component : Component)

/-- What is done: a session is begun or put on a connection, which takes the next slot, or it is the
turn of a slot that is there. -/
inductive Cue (σ : Type) where
  | begin
  | wrap (connection : Nat) (id : String)
  | turn (slot : Nat) (turn : Turn σ)

/-- A ledger, and what each connection's world has come to. Sessions share two more things, the tasks that run in the
background and the session id that is bound. These are not in a scene: no session reads them to decide what it does,
and what is bound in each task, in the background or not, is told of the world with all its tasks
(`Simulation.Correlated`). -/
structure Scene (σ ρ ω : Type) where
  ledger : Ledger σ ρ := {}
  worlds : Nat → ω

variable {σ ρ ω : Type}

/-- What comes of a turn: an input for the slot, whichever it is, and the worlds after it. -/
def play (scripts : Nat → Surroundings σ ρ ω) (worlds : Nat → ω) :
    Slot σ ρ → Turn σ → Option (Nat → Input σ ρ) × (Nat → ω)
  | .acquiring, .acquired (.ok c) => (some fun k => .acquired k c, worlds)
  | .acquiring, .acquired (.error e) => (some fun k => .settle k (.error e) "", worlds)
  | .opening c stage, .proceed id =>
    match stage.call? with
    | some call =>
      let (outcome, w) := (scripts c).call call (worlds c)
      (some fun k => .settle k (outcome.map fun _ => ()) id, Function.update worlds c w)
    | none => (none, worlds)
  | .leased ⟨s, c⟩, .answer job =>
    let (input, w) := Session.respond (scripts c) job (s.pending job) (worlds c)
    (input.map fun i k => .session k i, Function.update worlds c w)
  | .leased _, .request r => (some fun k => .session k (.request r), worlds)
  | .leased _, .run job => (some fun k => .session k (.run job), worlds)
  | .leased _, .abandon job => (some fun k => .session k (.abandon job), worlds)
  | .leased _, .interrupt job => (some fun k => .session k (.interrupt job), worlds)
  | .leased _, .register c => (some fun k => .session k (.register c), worlds)
  | _, _ => (none, worlds)

namespace Scene

def feed (x : Scene σ ρ ω) (i : Input σ ρ) (worlds : Nat → ω) : Scene σ ρ ω × List (Effect σ ρ) :=
  (⟨(x.ledger.step i).1, worlds⟩, (x.ledger.step i).2)

def step (scripts : Nat → Surroundings σ ρ ω) (x : Scene σ ρ ω) : Cue σ → Scene σ ρ ω × List (Effect σ ρ)
  | .begin => x.feed .begin x.worlds
  | .wrap c id => x.feed (.wrap c id) x.worlds
  | .turn k turn =>
    match x.ledger.slots[k]? with
    | some slot =>
      match play scripts x.worlds slot turn with
      | (some i, worlds) => x.feed (i k) worlds
      | (none, worlds) => ({ x with worlds }, [])
    | none => (x, [])

end Scene

/-! The part of a run that is one slot's -/

/-- The connection that is brought. -/
def Turn.connection? : Turn σ → Option Nat
  | acquired (.ok c) => some c
  | _ => none

namespace Cue

/-- The slot that is meant, where so many are there. -/
def slot (count : Nat) : Cue σ → Nat
  | begin | wrap _ _ => count
  | turn k _ => k

/-- The same, where the slot is the only one. -/
def alone : Cue σ → Cue σ
  | begin => begin
  | wrap c id => wrap c id
  | turn _ t => turn 0 t

def connection? : Cue σ → Option Nat
  | begin => none
  | wrap c _ => some c
  | turn _ t => t.connection?

end Cue

namespace Effect

def alone : Effect σ ρ → Effect σ ρ
  | acquire _ => acquire 0
  | e => e

def connection? : Effect σ ρ → Option Nat
  | call c _ | began c | session c _ => some c
  | _ => none

end Effect

namespace Scene

abbrev Moment (σ ρ ω : Type) := Move (Scene σ ρ ω) (Cue σ) (Effect σ ρ)

abbrev History (σ ρ ω : Type) := List (Moment σ ρ ω)

/-- What one slot sees of a step: the cue, the effects, and how it and its connection's world are
left. -/
structure Sight (σ ρ ω : Type) where
  cue : Cue σ
  effects : List (Effect σ ρ)
  slot : Option (Slot σ ρ)
  world : Option ω

/-- The world of the connection that a slot has. -/
def world? (x : Scene σ ρ ω) (k : Nat) : Option ω :=
  ((x.ledger.slots[k]?).bind Slot.connection?).map x.worlds

namespace Moment

/-- The step is that slot's. -/
def concerns (k : Nat) (m : Moment σ ρ ω) : Bool := m.input.slot m.before.ledger.slots.length == k

def sight (k : Nat) (m : Moment σ ρ ω) : Sight σ ρ ω :=
  ⟨m.input.alone, m.effects.map Effect.alone, m.after.ledger.slots[k]?, m.after.world? k⟩

end Moment

namespace History

/-- What was done for one slot, as it is said where no other is there. -/
def own (k : Nat) (h : History σ ρ ω) : List (Cue σ) := (h.filter (Moment.concerns k)).map (·.input.alone)

def sights (k : Nat) (h : History σ ρ ω) : List (Sight σ ρ ω) :=
  (h.filter (Moment.concerns k)).map (Moment.sight k)

end History
end Scene
end Ledger
end Transact
