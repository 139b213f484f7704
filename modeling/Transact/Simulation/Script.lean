import Transact.Simulation.Run

/-! Scripts: steps that are taken one after another on a world, which runs in between until
nothing can go on. -/
namespace Transact.Simulation

inductive Step where
  | begin (name : String)
  | enter (name : String) (closing : Bool)
  | wrap (name : String) (id : Option String)
  | exit (session : String)
  | executor (name session : String)
  | clone (name executor : String)
  | compare (a b : String)
  | compareValue (a : String)
  | executorInfo (executor : String)
  | ensureOpen (executor : String)
  | execute (executor : String) (query : Query)
  | statements (connection : String)
  | observer (script : ObserverScript)
  | register (session observer : String)
  | registerValue (session typeName : String)
  | sessionInfo (session : String)
  | ask (request : Request Empty) (session : String)
  | dispose
  | drop (session : String) (inLoop : Bool)
  | finalizer (session : String)
  | hold (points : List String)
  | free (points : List String)
  | fail (point : String) (plan : Plan)
  | cancel (task : String)
  | registry (name : String)
  | enlist (registry observer : String)
  | enlistValue (registry typeName : String)
  | registryInfo (registry : String)
  | dispatch (registry hook : String)

inductive Shown where
  | nothing
  | failed (error : Error)
  | started (task : Nat)
  | aware (b : Bool)
  | requested (b : Bool)
  | compared (equal identical : Bool)
  | differs
  | executor (phase : Phase)
  | session (session : Session Query Value)
  | observers (names : List String)
  | registry (registry : Registry)
  | size (n : Nat)
  | statements (connection : Nat)

/-- A step's answer, and what the world did meanwhile. An answer about statements refers to the
connection, and is read when the script is over. -/
structure Entry where
  shown : Shown
  finished : List Nat
  journal : List String
  logs : List Log.Record
  world : World

namespace World

def sessionText (s : Session Query Value) : String :=
  "<Session id=" ++ s.id ++ " state=" ++ s.phase.name ++ ">"

def executorText (p : Phase) : String := "<Executor state=" ++ p.name ++ ">"

def observerNamesOf (r : Registry) : List String := r.observers.map (·.name)

def startTask (name : String) (purpose : Purpose) (work : Work) (w : World) : Shown × World :=
  let (t, w) := w.addTask { role := .named name, frames := [.start work, .result purpose] }
  (.started t, w)

def addExecutor (name : String) (session : Nat) (w : World) : World :=
  let key := w.executorNames.foldl (fun n (_, e) => max n (e.key + 1)) 0
  { w with executorNames := put name ⟨key, session⟩ w.executorNames }

def phaseOf (s : Nat) (w : World) : Phase := ((w.lease? s).map (·.session.phase)).getD .active

def statementsOf (c : Nat) (w : World) : List Query := ((w.connections[c]?).map (·.statements)).getD []

def freePoint (w : World) (point : String) : World :=
  let waiters := (w.held.lookup point).getD []
  let w := { w with held := remove point w.held }
  waiters.foldl (fun w t =>
    (w.setTask t fun task => { task with state := .ready }).enqueue (.resume t (.freed point))) w

def cancelTask (name : String) (w : World) : Bool × World :=
  let found := w.tasks.findIdx? fun t =>
    t.role == .named name && match t.state with | .finished _ => false | _ => true
  match found with
  | none => (false, w)
  | some t =>
    match (w.tasks[t]?).elim State.ready (·.state) with
    | .suspended wait =>
      let w : World := match wait with
        | .point p => { w with held := w.held.map fun (h : String × List Nat) => (h.1, if h.1 = p then h.2.filter (· != t) else h.2) }
        | .turn s j => (w.stepSession s (.abandon j)).2
        | .task _ => w
      (true, (w.setTask t fun task => { task with state := .ready }).enqueue (.resume t .cancelled))
    | _ => (true, w)

def registered (s : Nat) (outcome : Except Error Unit) (w : World) : Shown :=
  match outcome with
  | .error e => .failed e
  | .ok () => .observers (((w.lease? s).map fun l => observerNamesOf l.session.registry).getD [])

def enlisted (name : String) (outcome : Except Error Unit) (w : World) : Shown :=
  match outcome with
  | .error e => .failed e
  | .ok () => .size (((w.registries.lookup name).map Registry.size).getD 0)

def orFailed {α : Type} (found : Except Error α) (w : World) (use : α → Shown × World) : Shown × World :=
  match found with
  | .ok a => use a
  | .error e => (.failed e, w)

def take (task : String) (step : Step) (w : World) : Shown × World :=
  match step with
  | .begin name => w.startTask task (.begin name) .begin
  | .enter name closing => w.startTask task (.enter name closing) .begin
  | .wrap name id => w.startTask task (.wrap name id) .acquire
  | .exit name =>
    match w.scopes.lookup name with
    | none => (.failed (.unknownName name), w)
    | some scope => { w with scopes := remove name w.scopes }.startTask task .exit (.ask .close scope.session)
  | .executor name session => orFailed (w.session? session) w fun s => (.nothing, w.addExecutor name s)
  | .clone name executor => orFailed (w.executor? executor) w fun e => (.nothing, w.addExecutor name e.session)
  | .compare a b =>
    orFailed (w.executor? a) w fun x => orFailed (w.executor? b) w fun y =>
      (.compared (x.session == y.session) (x.key == y.key), w)
  | .compareValue a => orFailed (w.executor? a) w fun _ => (.differs, w)
  | .executorInfo e => orFailed (w.executor? e) w fun e => (.executor (w.phaseOf e.session), w)
  | .ensureOpen e =>
    orFailed (w.executor? e) w fun e =>
      let phase := w.phaseOf e.session
      (if phase.isTerminal then .failed (.closed phase) else .nothing, w)
  | .execute e q => orFailed (w.executor? e) w fun e => w.startTask task .plain (.execute e.session q)
  | .statements label =>
    match (List.range w.connections.length).find? fun i => connectionLabel i == label with
    | some c => (.statements c, w)
    | none => (.failed (.unknownName label), w)
  | .observer script =>
    (.aware script.shape.isAware,
      { w with observers := w.observers ++ [script], observerNames := put script.name w.observers.length w.observerNames })
  | .register session observer =>
    orFailed (w.session? session) w fun s => orFailed (w.observer? observer) w fun c =>
      let (outcome, w) := w.registerWith s c
      (w.registered s outcome, w)
  | .registerValue session typeName =>
    orFailed (w.session? session) w fun s =>
      let (outcome, w) := w.registerWith s { typeName, observer := none }
      (w.registered s outcome, w)
  | .sessionInfo session =>
    orFailed (w.session? session) w fun s =>
      match w.lease? s with
      | some l => (.session l.session, w)
      | none => (.failed (.unknownName session), w)
  | .ask request session => orFailed (w.session? session) w fun s => w.startTask task .plain (.ask request s)
  | .dispose => w.startTask task .plain .dispose
  | .drop session inLoop =>
    orFailed (w.session? session) w fun s =>
      (.nothing, ({ w with sessionNames := remove session w.sessionNames }.dropScope session).release s inLoop)
  | .finalizer session => orFailed (w.session? session) w fun s => (.nothing, w.forget s)
  | .hold points => (.nothing, { w with held := points.foldl (fun h p => if (h.lookup p).isSome then h else put p [] h) w.held })
  | .free points => (.nothing, points.foldl freePoint w)
  | .fail point plan => (.nothing, { w with plans := w.plans.add point plan })
  | .cancel name =>
    let (requested, w) := w.cancelTask name
    (.requested requested, w)
  | .registry name => (.nothing, { w with registries := put name {} w.registries })
  | .enlist registry observer =>
    orFailed (w.registry? registry) w fun r => orFailed (w.observer? observer) w fun c =>
      let (outcome, w) := w.enlistIn registry r c
      (w.enlisted registry outcome, w)
  | .enlistValue registry typeName =>
    orFailed (w.registry? registry) w fun r =>
      let (outcome, w) := w.enlistIn registry r { typeName, observer := none }
      (w.enlisted registry outcome, w)
  | .registryInfo registry => orFailed (w.registry? registry) w fun r => (.registry r, w)
  | .dispatch registry hook =>
    orFailed (w.registry? registry) w fun r => w.startTask task .plain (.dispatch r hook)

/-- More turns than any script of readable length takes between two steps. -/
def patience : Nat := 1000000

def isFinished (t : Task) : Bool :=
  match t.state with
  | .finished _ => true
  | _ => false

def background (w : World) : Nat := (w.tasks.filter fun t => t.role == .detached && !isFinished t).length

/-- The named tasks that ended since `before`, in order of their start. -/
def newlyFinished (before w : World) : List Nat :=
  (List.range w.tasks.length).filter fun i =>
    ((w.tasks[i]?).map fun t => t.role.name?.isSome && isFinished t).getD false
      && !((before.tasks[i]?).map isFinished).getD false

def outcome? (t : Nat) (w : World) : Option Outcome :=
  (w.tasks[t]?).bind fun task =>
    match task.state with
    | .finished outcome => some outcome
    | _ => none

/-- Runs until nothing can go on, and until every session that is lost has been forgotten, which
happens at most once to each. -/
def settle : Nat → World → World
  | 0, w => w
  | fuel + 1, w =>
    let w := w.run patience .idle
    match w.lost with
    | [] => w
    | sessions => settle fuel (sessions.foldl (fun w s => w.release s true) w)

/-- What is dropped outside the world's turns waits for the next step. Its tasks come before those
of that step. -/
def isOutside : Step → Bool
  | .drop _ inLoop => !inLoop
  | _ => false

def startWaiting (w : World) : World :=
  w.ready.foldl (fun w i => match i with | .leave s => w.leave s | i => w.enqueue i) { w with ready := [] }

/-- A step without a name for its task is numbered. -/
def stepOnce (task : String) (step : Step) (w : World) : Entry × World :=
  let before := { w with journal := [], logs := [] }.startWaiting
  let (shown, w) := before.take task step
  let w := if isOutside step then w else w.settle (w.ledger.slots.length + w.tasks.length + 1)
  let finished := newlyFinished before w
  let finished := match shown with
    | .started t => finished.filter (· != t)
    | _ => finished
  ({ shown, finished, journal := w.journal.reverse, logs := w.logs.reverse.map Written.heard, world := w }, w)

def play (w : World) : List (String × Step) → List Entry
  | [] => []
  | (task, step) :: rest =>
    let (entry, w) := w.stepOnce task step
    entry :: w.play rest

end World
end Transact.Simulation
