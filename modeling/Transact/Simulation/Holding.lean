import Transact.Simulation.Basic

/-! Who holds a session: its name, a scope, or a task that is ending it. A session that nobody
holds is forgotten, and rolled back if it is still active. -/
namespace Transact.Simulation.World

def reportAll (records : List Log.Record) (w : World) : World := records.foldl (fun w r => w.report r) w

def opening (opened : Option Nat × World) : Effect Query Value → Option Nat × World
  | .log r => (opened.1, opened.2.report r)
  | .opened j => (some j, opened.2)
  | _ => opened

/-- The job that a request opened, and what else it wanted. -/
def openJob (s : Nat) (request : Request Query) (w : World) : Option Nat × World :=
  let (effects, w) := w.stepSession s (.request request)
  effects.foldl opening (none, w)

def wrap (c : Nat) (id : Option String) (w : World) : Nat × String × World :=
  let (id, w) := match id with
    | some id => if id.isEmpty then w.issueId else (id, w)
    | none => w.issueId
  (w.ledger.slots.length, id, (w.stepLedger (.wrap c id)).2)

def begun? (c : Nat) (w : World) : Option Nat :=
  (List.range w.ledger.slots.length).find? fun s => ((w.lease? s).map (·.connection)) == some c

/-- Opens the detached rollback of a session that nobody holds any more. -/
def forget (s : Nat) (w : World) : World :=
  match w.openJob s .orphan with
  | (some j, w) => (w.detach s j).2
  | (none, w) => w

/-- Outside the world's turns there is nothing to do but to say so. -/
def forgetOutside (s : Nat) (w : World) : World :=
  match w.lease? s with
  | some l => if l.session.isActive then w.report l.session.forgottenOutside else w
  | none => w

/-- A commit, rollback or close that is under way, or about to begin, holds its session; a
statement and the rollback of a forgotten session do not. -/
def isWorkedOn (s : Nat) (w : World) : Bool :=
  let isEnding (j : Nat) := ((w.lease? s).map (·.session.isFinalizing j)).getD false
  w.tasks.any fun t => t.frames.any fun f =>
    match f with
    | .start (.ask _ other) => other == s
    | .job other j _ => other == s && isEnding j
    | _ => false

/-- The session's scope was dropped and has not begun to close it. -/
def isLeft (s : Nat) (w : World) : Bool :=
  w.ready.any fun i =>
    match i with
    | .leave other => other == s
    | _ => false

def isHeld (s : Nat) (w : World) : Bool :=
  w.sessionNames.any (·.2 == s) || w.scopes.any (·.2.session == s) || w.isLeft s || w.isWorkedOn s

/-- Forgets a session that nobody holds, once. -/
def release (s : Nat) (inLoop : Bool) (w : World) : World :=
  if w.isHeld s || w.forgotten.contains s then w
  else
    let w := { w with forgotten := s :: w.forgotten }
    if inLoop then w.forget s else w.forgetOutside s

/-- A scope that closes its session will do so in a task of its own when it is dropped. -/
def dropScope (name : String) (w : World) : World :=
  match w.scopes.lookup name with
  | none => w
  | some scope =>
    let w := { w with scopes := remove name w.scopes }
    if scope.closing then w.enqueue (.leave scope.session) else w

/-- A name that is given anew lets go of the scope that had it. -/
def bindScope (name : String) (scope : Scope) (w : World) : World :=
  let earlier := w.scopes.lookup name
  let w := w.dropScope name
  let w := { w with scopes := put name scope w.scopes }
  earlier.elim w fun old => w.release old.session true

/-- A name that is given anew lets go of the session that had it. -/
def bindSession (name : String) (s : Nat) (w : World) : World :=
  let earlier := w.sessionNames.lookup name
  let w := { w with sessionNames := put name s w.sessionNames }
  earlier.elim w fun old => w.release old true

/-- The sessions that nobody holds although they are active and were never forgotten. -/
def lost (w : World) : List Nat :=
  (List.range w.ledger.slots.length).filter fun s =>
    ((w.lease? s).map (·.session.isActive)).getD false && !w.forgotten.contains s && !w.isHeld s

end Transact.Simulation.World
