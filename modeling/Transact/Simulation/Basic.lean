import Transact.Connection
import Transact.Ledger

/-! A simulated world for sessions: tasks that run in turns on one ready queue, and a store each
call of which is a named point that can be held, freed and made to fail. -/
namespace Transact.Simulation

inductive Action where
  | raise (error : Error)
  | log (message : String) (level : Int) (extra : List (String × Value) := [])
  | see (session : String)
  | ask (request : Request Empty) (session : String)
  | execute (executor : String) (statement : Value)
  | register (session observer : String)
  | enlist (registry observer : String)

structure Act where
  action : Action
  /-- Whether a failure leaves the hook. -/
  propagate : Bool := false

inductive Shape where
  | both
  | commitOnly
  | rollbackOnly
  | none
  | notCallable
  | nullHooks
  | halfCallable
  /-- Hooks that answer at once with something that cannot be waited for. -/
  | immediate
deriving DecidableEq, Repr

namespace Shape

/-- Both hooks are there; whether they can be called is another matter. -/
def isAware : Shape → Bool
  | both | notCallable | halfCallable | immediate => true
  | _ => false

def isCallable : Shape → Bool
  | both | immediate => true
  | _ => false

end Shape

structure ObserverScript where
  name : String
  className : String := "Observer"
  shape : Shape := .both
  onCommit : List Act := []
  onRollback : List Act := []

namespace ObserverScript

def acts (o : ObserverScript) : Hook → List Act
  | .onCommit => o.onCommit
  | .onRollback => o.onRollback

def component (key : Nat) (o : ObserverScript) : Component where
  typeName := o.className
  observer := if o.shape.isCallable then some ⟨key, o.name, o.className⟩ else none

end ObserverScript

/-- What a task hands to the frame below when a frame is done. -/
inductive Reply where
  | nothing
  | value (v : Value)
  | finalized (phase : Phase) (failures : Option Notification)
  | connection (index : Nat)
  | session (name id : String) (phase : Phase)
  | notified (failures : Option Notification)
  | suppressed (b : Bool)

abbrev Outcome := Except Error Reply

inductive Purpose where
  | plain
  | begin (name : String)
  | enter (name : String) (closing : Bool)
  | wrap (name : String) (id : Option String)
  | exit

inductive Work where
  | acquire
  | begin
  | ask (request : Request Empty) (session : Nat)
  | execute (session : Nat) (query : Query)
  | dispatch (registry : Registry) (hook : String)
  | dispose

/-- One level of what a task is in the middle of, innermost first. A job that calls its hooks does so
in a block of its own, and has the id that was bound outside of it. -/
inductive Frame where
  | start (work : Work)
  | acquiring
  | opening (slot : Nat)
  | operation (connection : Nat) (progress : Connection.Progress)
  | job (session job : Nat) (outside : Option Value)
  | hook (observer : Nat) (hook : Hook)
  | act (observer label : String) (propagate : Bool) (rest : List Act)
  | round (round : Round)
  | result (purpose : Purpose)

inductive Wait where
  | point (name : String)
  | turn (session job : Nat)
  | task (index : Nat)
deriving DecidableEq

inductive Signal where
  | freed (point : String)
  | woken
  | outcome (outcome : Outcome)
  | cancelled

inductive State where
  | ready
  | suspended (wait : Wait)
  | finished (outcome : Outcome)

/-- On whose behalf a task runs. -/
inductive Role where
  | named (name : String)
  /-- For a session, detached from who asked for it. -/
  | detached
  /-- For a scope that was dropped. -/
  | leaving
deriving DecidableEq

namespace Role

def name? : Role → Option String
  | named name => some name
  | _ => none

end Role

structure Task where
  role : Role
  /-- The session id bound where the task was made. -/
  inherited : Value := .null
  /-- The one bound in the task, while it does not run. -/
  context : Value := .null
  frames : List Frame
  state : State := .ready

/-- What stands in the ready queue: a task that runs on, a detached task whose end is looked at,
one whose end is passed on to who waits for it, a session whose dropped scope is to close it. -/
inductive Item where
  | resume (task : Nat) (signal : Signal)
  | reap (task : Nat)
  | relay (task : Nat)
  | leave (session : Nat)

/-- Sets a key, at its place if it is there. -/
def put {α : Type} (key : String) (a : α) : List (String × α) → List (String × α)
  | [] => [(key, a)]
  | (k, b) :: rest => if k = key then (key, a) :: rest else (k, b) :: put key a rest

def remove {α : Type} (key : String) (entries : List (String × α)) : List (String × α) :=
  entries.filter (·.1 != key)

structure Plan where
  error : Option Error
  always : Bool := false

structure Plans where
  entries : List (String × List Plan) := []

namespace Plans

def add (point : String) (plan : Plan) (p : Plans) : Plans :=
  ⟨put point ((p.entries.lookup point).getD [] ++ [plan]) p.entries⟩

/-- The next planned outcome of a point; without a plan it succeeds. -/
def take (point : String) (p : Plans) : Except Error Unit × Plans :=
  match p.entries.lookup point with
  | some (next :: rest) =>
    (match next.error with | some e => .error e | none => .ok (),
      if next.always then p else ⟨put point rest p.entries⟩)
  | _ => (.ok (), p)

end Plans

structure Executor where
  key : Nat
  session : Nat

structure Scope where
  session : Nat
  /-- Whether it closes its session when it is dropped. -/
  closing : Bool := false

/-- A record as it is written, and the session id that is bound there. -/
structure Written where
  record : Log.Record
  bound : Value

def Written.heard (r : Written) : Log.Record := r.record.bind r.bound

structure World where
  adapted : Bool
  connections : List Connection := []
  ledger : Ledger Query Value := {}
  tasks : List Task := []
  ready : List Item := []
  held : List (String × List Nat) := []
  plans : Plans := {}
  journal : List String := []
  logs : List Written := []
  /-- The session id bound in what runs now. -/
  context : Value := .null
  issued : Nat := 0
  sessionNames : List (String × Nat) := []
  executorNames : List (String × Executor) := []
  observers : List ObserverScript := []
  observerNames : List (String × Nat) := []
  registries : List (String × Registry) := []
  scopes : List (String × Scope) := []
  /-- Sessions that were forgotten, which happens once to each. -/
  forgotten : List Nat := []

namespace World

def note (entry : String) (w : World) : World := { w with journal := entry :: w.journal }

def leastLevel : Int := 10

def report (r : Log.Record) (w : World) : World :=
  if r.level < leastLevel then w else { w with logs := ⟨r, w.context⟩ :: w.logs }

def enqueue (i : Item) (w : World) : World := { w with ready := w.ready ++ [i] }

def setTask (index : Nat) (f : Task → Task) (w : World) : World := { w with tasks := w.tasks.modify index f }

def addTask (t : Task) (w : World) : Nat × World :=
  (w.tasks.length, { w with tasks := w.tasks ++ [t] }.enqueue (.resume w.tasks.length .woken))

def leave (s : Nat) (w : World) : World :=
  (w.addTask { role := .leaving, frames := [.start (.ask .close s)] }).2

def connectionLabel (index : Nat) : String := "c" ++ toString (index + 1)

/-- Sessions that are given no id are numbered. -/
def issueId (w : World) : String × World :=
  (String.ofList (Text.hex 32 (w.issued + 1)), { w with issued := w.issued + 1 })

def session? (name : String) (w : World) : Except Error Nat :=
  match w.sessionNames.lookup name with
  | some i => .ok i
  | none => .error (.unknownName name)

def executor? (name : String) (w : World) : Except Error Executor :=
  match w.executorNames.lookup name with
  | some e => .ok e
  | none => .error (.unknownName name)

def observer? (name : String) (w : World) : Except Error Component :=
  match w.observerNames.lookup name with
  | some key =>
    match w.observers[key]? with
    | some o => .ok (o.component key)
    | none => .error (.unknownName name)
  | none => .error (.unknownName name)

def registry? (name : String) (w : World) : Except Error Registry :=
  match w.registries.lookup name with
  | some r => .ok r
  | none => .error (.unknownName name)

/-- Sessions are numbered with the calls to begin them. -/
def lease? (s : Nat) (w : World) : Option (Lease Query Value) := w.ledger.lease? s

/-- Opens the block in which a session calls its hooks, unless the job is in it already. -/
def enter (s : Nat) (outside : Option Value) (w : World) : Option Value × World :=
  match outside, w.lease? s with
  | none, some l => (some w.context, { w with context := .text l.session.id })
  | _, _ => (outside, w)

/-- What was bound outside of the block is bound again. -/
def exit (outside : Option Value) (w : World) : World := { w with context := outside.getD w.context }

/-- The only way in which sessions come to be and change. -/
def stepLedger (i : Ledger.Input Query Value) (w : World) :
    List (Ledger.Effect Query Value) × World :=
  let (ledger, effects) := w.ledger.step i
  (effects, { w with ledger })

def stepSession (s : Nat) (i : Input Query Value) (w : World) : List (Effect Query Value) × World :=
  let (effects, w) := w.stepLedger (.session s i)
  (effects.filterMap (·.session?), w)

def stage? (s j : Nat) (w : World) : Option (Stage Value) := (w.lease? s).bind fun l => l.session.stage? j

def waiter? (s j : Nat) (w : World) : Option Nat :=
  w.tasks.findIdx? fun t =>
    match t.state with
    | .suspended wait => wait == .turn s j
    | _ => false

def wake (s j : Nat) (w : World) : World :=
  match w.waiter? s j with
  | some t => (w.setTask t fun task => { task with state := .ready }).enqueue (.resume t .woken)
  | none => w

def takePlan (point : String) (w : World) : Except Error Unit × World :=
  let (outcome, plans) := w.plans.take point
  (outcome, { w with plans })

/-- A task that ends a session apart from whoever asked for it. -/
def detach (s j : Nat) (w : World) : Nat × World :=
  w.addTask { role := .detached, inherited := w.context, context := w.context, frames := [.job s j none] }

end World
end Transact.Simulation
