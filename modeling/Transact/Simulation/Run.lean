import Transact.Simulation.Holding

/-! How the world runs: the first in the ready queue runs until it suspends, then the next. -/
namespace Transact.Simulation

inductive Next where
  | go (frames : List Frame) (outcome : Outcome)
  | suspend (wait : Wait) (frames : List Frame)

abbrev Moved := World × Next

def unitReply : Except Error Unit → Outcome
  | .ok () => .ok .nothing
  | .error e => .error e

def settled : Outcome → Except Error Unit
  | .ok _ => .ok ()
  | .error e => .error e

namespace World

/-- Reaching a point is noted; a held one is waited at. -/
def reach (frames : List Frame) (point : String) (w : World) : Moved :=
  let w := w.note point
  if (w.held.lookup point).isSome then (w, .suspend (.point point) frames)
  else
    let (outcome, w) := w.takePlan point
    (w, .go frames (unitReply outcome))

def touch (frames : List Frame) (c : Nat) (p : Connection.Progress) (w : World) : Moved :=
  w.reach (.operation c p :: frames) (connectionLabel c ++ "." ++ p.point.name)

def callConnection (frames : List Frame) (c : Nat) (call : Call Query) (w : World) : Moved :=
  match w.connections[c]? with
  | none => (w, .go frames (.ok .nothing))
  | some connection =>
    match connection.start call with
    | .ok p => w.touch frames c p
    | .error e => (w, .go frames (.error e))

def acquirePoint (w : World) : String := if w.adapted then "engine.connect" else "pool.acquire"

def acquire (frames : List Frame) (w : World) : Moved := w.reach (.acquiring :: frames) w.acquirePoint

def answerReply : Answer Value → Reply
  | .reply v => .value v
  | .finalized phase failures => .finalized phase failures
  | .nothing => .nothing

def callHook (frames : List Frame) (observer : Observer) (hook : Hook) (w : World) : Moved :=
  let point := observer.name ++ "." ++ hook.name
  match w.observers[observer.key]? with
  | some o =>
    if o.shape = .immediate then (w.note point, .go frames (.error (.notAwaitable "NoneType")))
    else w.reach (.hook observer.key hook :: frames) point
  | none => (w, .go frames (.ok .nothing))

/-- Carries out what a session wants; the frames are those below the job. -/
def perform (s j : Nat) (outside : Option Value) (frames : List Frame) :
    List (Effect Query Value) → World → Moved
  | [], w => (w, .suspend (.turn s j) (.job s j outside :: frames))
  | .call call :: _, w =>
    match w.lease? s with
    | some l => w.callConnection (.job s j outside :: frames) l.connection call
    | none => (w.exit outside, .go frames (.ok .nothing))
  | .notify hook observer :: _, w =>
    let (outside, w) := w.enter s outside
    w.callHook (.job s j outside :: frames) observer hook
  | .finish answer :: _, w => (w.exit outside, .go frames (answer.map answerReply))
  | .log r :: rest, w => perform s j none frames rest ((w.exit outside).report r)
  | .hookLog r :: rest, w => perform s j outside frames rest (w.report r)
  | .wake other :: rest, w => perform s j outside frames rest (w.wake s other)
  | _ :: rest, w => perform s j outside frames rest w

def moveJob (s j : Nat) (outside : Option Value) (frames : List Frame) (i : Input Query Value) (w : World) : Moved :=
  let (effects, w) := w.stepSession s i
  w.perform s j outside frames effects

/-- A round that is not part of a session. -/
def moveRound (frames : List Frame) (next : Round.Next) (w : World) : Moved :=
  match next with
  | .call round => w.callHook (.round round :: frames) round.current round.hook
  | .ended failures => (w, .go frames (.ok (.notified failures)))
  | .aborted e => (w, .go frames (.error e))

/-- Commit, rollback and close run in a task of their own, which the asking task waits for. -/
def askDetached (frames : List Frame) (s : Nat) (request : Request Query) (w : World) : Moved :=
  match w.openJob s request with
  | (none, w) => (w, .go frames (.ok .nothing))
  | (some j, w) =>
    let (t, w) := w.detach s j
    (w, .suspend (.task t) frames)

def execute (frames : List Frame) (s : Nat) (q : Query) (w : World) : Moved :=
  match w.openJob s (.execute q) with
  | (none, w) => (w, .go frames (.ok .nothing))
  | (some j, w) => w.moveJob s j none frames (.run j)

def plainRequest : Request Empty → Request Query
  | .commit => .commit
  | .rollback => .rollback
  | .close => .close
  | _ => .orphan

def requestLabel : Request Empty → String
  | .commit => "commit"
  | .rollback => "rollback"
  | .close => "close"
  | _ => "forget"

def registerWith (s : Nat) (c : Component) (w : World) : Except Error Unit × World :=
  let (effects, w) := w.stepSession s (.register c)
  (match effects with
    | .refused e :: _ => .error e
    | _ => .ok (), w)

def enlistIn (name : String) (r : Registry) (c : Component) (w : World) : Except Error Unit × World :=
  match r.register c with
  | .ok r => (.ok (), { w with registries := put name r w.registries })
  | .error e => (.error e, w)

/-- Runs an act up to its end or to where it suspends. -/
def carryOut (observer : String) (frames : List Frame) (action : Action) (w : World) : Moved :=
  match action with
  | .raise e => (w, .go frames (.error e))
  | .log message level extra =>
    (w.report { logger := "observer", level, template := message, extra }, .go frames (.ok .nothing))
  | .see name =>
    match w.session? name with
    | .error e => (w, .go frames (.error e))
    | .ok s =>
      let phase := ((w.lease? s).map (·.session.phase.name)).getD ""
      (w.note (observer ++ ": sees " ++ phase ++ " bound=" ++ w.context.plain), .go frames (.ok .nothing))
  | .ask request name =>
    match w.session? name with
    | .error e => (w, .go frames (.error e))
    | .ok s => w.askDetached frames s (plainRequest request)
  | .execute name statement =>
    match w.executor? name with
    | .error e => (w, .go frames (.error e))
    | .ok e => w.execute frames e.session { wording := .raw statement }
  | .register session observer =>
    match w.session? session, w.observer? observer with
    | .error e, _ | _, .error e => (w, .go frames (.error e))
    | .ok s, .ok c =>
      let (outcome, w) := w.registerWith s c
      (w, .go frames (unitReply outcome))
  | .enlist registry observer =>
    match w.registry? registry, w.observer? observer with
    | .error e, _ | _, .error e => (w, .go frames (.error e))
    | .ok r, .ok c =>
      let (outcome, w) := w.enlistIn registry r c
      (w, .go frames (unitReply outcome))

def label : Action → Option String
  | .ask request _ => some (requestLabel request)
  | .execute _ _ => some "execute"
  | .register _ _ => some "register"
  | .enlist _ _ => some "registry_register"
  | _ => none

/-- Acts with a label are noted with their outcome; the others fail the hook. -/
def act (observer : String) (frames : List Frame) (acts : List Act) (w : World) : Moved :=
  match acts with
  | [] => (w, .go frames (.ok .nothing))
  | a :: rest =>
    let frame := match label a.action with
      | some l => .act observer l a.propagate rest
      | none => .act observer "" true rest
    w.carryOut observer (frame :: frames) a.action

def afterAct (observer name : String) (propagate : Bool) (rest : List Act)
    (frames : List Frame) (outcome : Outcome) (w : World) : Moved :=
  match outcome with
  | .ok _ =>
    let w := if name.isEmpty then w else w.note (observer ++ ": " ++ name ++ " -> ok")
    w.act observer frames rest
  | .error e =>
    if e.isOrdinary && !propagate then
      (w.note (observer ++ ": " ++ name ++ " -> " ++ e.name ++ ": " ++ e.text)).act observer frames rest
    else (w, .go frames (.error e))

def sessionReply (name : String) (s : Nat) (w : World) : Reply :=
  .session name (((w.lease? s).map (·.session.id)).getD "") .active

def conclude (purpose : Purpose) (outcome : Outcome) (w : World) : Outcome × World :=
  match outcome, purpose with
  | .error e, _ => (.error e, w)
  | .ok (.connection c), .begin name =>
    match w.begun? c with
    | some s => (.ok (w.sessionReply name s), w.bindSession name s)
    | none => (.ok .nothing, w)
  | .ok (.connection c), .enter name closing =>
    match w.begun? c with
    | some s => (.ok (w.sessionReply name s), (w.bindScope name ⟨s, closing⟩).bindSession name s)
    | none => (.ok .nothing, w)
  | .ok (.connection c), .wrap name id =>
    let (s, id, w) := w.wrap c id
    (.ok (.session name id .active), w.bindSession name s)
  | .ok _, .exit => (.ok (.suppressed false), w)
  | .ok r, _ => (.ok r, w)

/-- Carries out what beginning a session wants; the frames are those below it. -/
def advance (slot : Nat) (frames : List Frame) :
    List (Ledger.Effect Query Value) → World → Moved
  | [], w => (w, .go frames (.ok .nothing))
  | .acquire slot :: _, w => w.acquire (.opening slot :: frames)
  | .call c call :: _, w => w.callConnection (.opening slot :: frames) c call
  | .log r :: rest, w => advance slot frames rest (w.report r)
  | .began c :: _, w => (w.issueId.2, .go frames (.ok (.connection c)))
  | .failed e :: _, w => (w, .go frames (.error e))
  | .session _ _ :: rest, w => advance slot frames rest w

def undertake (frames : List Frame) (work : Work) (w : World) : Moved :=
  match work with
  | .acquire => w.acquire frames
  | .begin =>
    let (effects, w) := w.stepLedger .begin
    w.advance w.ledger.slots.length frames effects
  | .ask request s => w.askDetached frames s (plainRequest request)
  | .execute s q => w.execute frames s q
  | .dispatch registry hook =>
    match Hook.ofName? hook with
    | some h => w.moveRound frames (Round.start h registry)
    | none => (w, .go frames (.error (.unknownHook hook)))
  | .dispose => (w, .go frames (.ok .nothing))

def deliver (frame : Frame) (frames : List Frame) (outcome : Outcome) (w : World) : Moved :=
  match frame with
  | .start work => w.undertake frames work
  | .acquiring =>
    match outcome with
    | .ok _ =>
      ({ w with connections := w.connections ++ [{ adapted := w.adapted }] },
        .go frames (.ok (.connection w.connections.length)))
    | .error e => (w, .go frames (.error e))
  | .opening slot =>
    let input := match outcome with
      | .ok (.connection c) => .acquired slot c
      | _ => .settle slot (settled outcome) w.issueId.1
    let (effects, w) := w.stepLedger input
    w.advance slot frames effects
  | .operation c p =>
    match w.connections[c]? with
    | none => (w, .go frames outcome)
    | some connection =>
      let (connection, next) := connection.settle p (settled outcome)
      let w := { w with connections := w.connections.set c connection }
      match next with
      | .touch p => w.touch frames c p
      | .answered (.error e) => (w, .go frames (.error e))
      | .answered (.ok ()) =>
        (w, .go frames (.ok (match p.query with | some q => .value q.sent | none => .nothing)))
  | .job s j outside =>
    match outcome with
    | .ok (.value v) => w.moveJob s j outside frames (.reply j (.ok v))
    | _ =>
      match outcome, w.stage? s j with
      | .error e, some .forwarding => w.moveJob s j outside frames (.reply j (.error e))
      | _, _ => w.moveJob s j outside frames (.settle j (settled outcome))
  | .hook key hook =>
    match outcome, w.observers[key]? with
    | .ok _, some o => w.act o.name frames (o.acts hook)
    | _, _ => (w, .go frames outcome)
  | .act observer name propagate rest => w.afterAct observer name propagate rest frames outcome
  | .round round =>
    let (records, next) := round.settle (settled outcome)
    (w.reportAll records).moveRound frames next
  | .result purpose =>
    let (outcome, w) := w.conclude purpose outcome
    (w, .go frames outcome)

def isAwaited (t : Nat) (w : World) : Bool :=
  w.tasks.any fun task =>
    match task.state with
    | .suspended wait => wait == .task t
    | _ => false

/-- The end of a task. A detached one is looked at, then passed on. -/
def finishTask (t : Nat) (detached : Bool) (outcome : Outcome) (w : World) : World :=
  let w := w.setTask t fun task => { task with state := .finished outcome, frames := [], context := w.context }
  if detached then
    let w := w.enqueue (.reap t)
    if w.isAwaited t then w.enqueue (.relay t) else w
  else w

/-- What a finalization that nobody waits for leaves in the log, if it failed in a way that has
not been logged where it occurred. -/
def backgroundFailed (e : Error) : Log.Record where
  logger := Session.logger
  level := 40
  template := "Background finalization failed"
  error := some e

def isCancelled : Error → Bool
  | .given .cancelled _ _ => true
  | _ => false

/-- Nothing runs. -/
def idle (w : World) : World := { w with context := .null }

def reap (task : Task) (w : World) : World :=
  match task.state with
  | .finished (.error e) =>
    if isCancelled e || e.isTransactional then w
    else ({ w with context := task.inherited }.report (backgroundFailed e)).idle
  | _ => w

/-- Who waits for a detached task learns that it was cancelled, not with which words. -/
def passedOn : Outcome → Outcome
  | .error e => .error (if isCancelled e then .cancelled else e)
  | outcome => outcome

def relay (t : Nat) (task : Task) (w : World) : World :=
  match task.state with
  | .finished outcome =>
    match w.tasks.findIdx? fun other => match other.state with | .suspended wait => wait == .task t | _ => false with
    | some caller => (w.setTask caller fun c => { c with state := .ready }).enqueue (.resume caller (.outcome (passedOn outcome)))
    | none => w
  | _ => w

/-- A task that runs on: what its frames get to see first. -/
def resume (task : Task) (signal : Signal) (w : World) : Moved :=
  match signal with
  | .outcome outcome => (w, .go task.frames outcome)
  | .freed point =>
    let (outcome, w) := w.takePlan point
    (w, .go task.frames (unitReply outcome))
  | .woken =>
    match task.frames with
    | .job s j outside :: frames => w.moveJob s j outside frames (.run j)
    | frames => (w, .go frames (.ok .nothing))
  | .cancelled =>
    match task.frames with
    | .job s j outside :: frames =>
      match w.stage? s j with
      | some .queued => w.moveJob s j outside frames (.interrupt j)
      | _ => (w, .go task.frames (.error .cancelled))
    | frames => (w, .go frames (.error .cancelled))

/-- Either a task is running, or the next item is due. -/
inductive Turn where
  | idle
  | running (task : Nat) (next : Next)

def turn (w : World) : Turn → Option (World × Turn)
  | .idle =>
    match w.ready with
    | [] => none
    | item :: rest =>
      let w := { w with ready := rest }
      match item with
      | .resume t signal =>
        match w.tasks[t]? with
        | none => some (w, .idle)
        | some task =>
          let (w, next) := { w with context := task.context }.resume task signal
          some (w, .running t next)
      | .reap t => some ((w.tasks[t]?).elim w fun task => w.reap task, .idle)
      | .relay t => some ((w.tasks[t]?).elim w fun task => w.relay t task, .idle)
      | .leave s => some (w.leave s, .idle)
  | .running t next =>
    match w.tasks[t]? with
    | none => some (w, .idle)
    | some task =>
      match next with
      | .suspend wait frames =>
        let w := w.setTask t fun task => { task with frames, state := .suspended wait, context := w.context }
        let w : World := match wait with
          | .point name => { w with held := put name ((w.held.lookup name).getD [] ++ [t]) w.held }
          | _ => w
        some (w.idle, .idle)
      | .go [] outcome => some ((w.finishTask t (task.role == .detached) outcome).idle, .idle)
      | .go (frame :: frames) outcome =>
        let (w, next) := w.deliver frame frames outcome
        some (w, .running t next)

def run : Nat → World → Turn → World
  | 0, w, _ => w
  | fuel + 1, w, t =>
    match w.turn t with
    | some (w, t) => run fuel w t
    | none => w

end World
end Transact.Simulation
