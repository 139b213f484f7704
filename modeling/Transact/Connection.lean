import Transact.Session.Basic
import Transact.Text.Colon

/-! Connections, and the points of the store that they reach for what they are asked to do. A
plain connection reaches one point for each call. An adapted one keeps a transaction of the raw
connection, and to discard it invalidates first and closes in any case. -/
namespace Transact

/-- A statement: the text of a clause, or anything else, which the store takes as it is. -/
inductive Wording where
  | clause (text : String)
  | raw (statement : Value)
deriving Repr, Inhabited

/-- A statement with its parameters; null stands for none. -/
structure Query where
  wording : Wording
  params : Value := .null
deriving Repr, Inhabited

namespace Query

/-- Plain text is wrapped as a text clause. -/
def clause (q : Query) : Query :=
  match q.wording with
  | .raw (.text s) => { q with wording := .clause s }
  | _ => q

/-- The statement as the store gets it: a text clause with its colons resolved. -/
def sent (q : Query) : Value :=
  match q.wording with
  | .clause s => .object [("text", .text (String.ofList (Text.resolveColons s.toList)))]
  | .raw v => v

end Query

inductive Point where
  | begin
  | execute
  | commit
  | rollback
  | release
  | discard
  | transactionCommit
  | transactionRollback
  | invalidate
  | close
deriving DecidableEq, Repr

def Point.name : Point → String
  | begin => "begin"
  | execute => "execute"
  | commit => "commit"
  | rollback => "rollback"
  | release => "release"
  | discard => "discard"
  | transactionCommit => "txn.commit"
  | transactionRollback => "txn.rollback"
  | invalidate => "invalidate"
  | close => "close"

inductive Mark where
  | released
  | discarded
  | invalidated
  | closed
deriving DecidableEq, Repr

def Mark.name : Mark → String
  | released => "released"
  | discarded => "discarded"
  | invalidated => "invalidated"
  | closed => "closed"

/-- The raw connection's transaction; any attempt to end it makes it inactive. -/
inductive RawTransaction where
  | absent
  | active
  | inactive
deriving DecidableEq, Repr

structure Connection where
  adapted : Bool
  transaction : RawTransaction := .absent
  marks : List Mark := []
  statements : List Query := []
deriving Repr, Inhabited

namespace Connection

/-- A call under way: the point it is at, the statement it carries, and how the invalidation
before it failed. -/
structure Progress where
  point : Point
  query : Option Query := none
  failure : Option Error := none

/-- The first point that a call goes to; a commit needs a transaction. -/
def start (c : Connection) (call : Call Query) : Except Error Progress :=
  if c.adapted then
    match call with
    | .begin => .ok { point := .begin }
    | .execute q => .ok { point := .execute, query := some q.clause }
    | .commit =>
      if c.transaction = .absent then .error .commitBeforeBegin else .ok { point := .transactionCommit }
    | .rollback =>
      .ok { point := if c.transaction = .active then .transactionRollback else .rollback }
    | .release => .ok { point := .close }
    | .discard => .ok { point := .invalidate }
  else
    match call with
    | .begin => .ok { point := .begin }
    | .execute q => .ok { point := .execute, query := some q }
    | .commit => .ok { point := .commit }
    | .rollback => .ok { point := .rollback }
    | .release => .ok { point := .release }
    | .discard => .ok { point := .discard }

/-- What success at a point leaves behind. -/
def mark (c : Connection) (p : Progress) : Connection :=
  match p.point with
  | .begin => { c with transaction := if c.adapted then .active else c.transaction }
  | .execute => { c with statements := c.statements ++ p.query.toList }
  | .release => { c with marks := c.marks ++ [.released] }
  | .discard => { c with marks := c.marks ++ [.discarded] }
  | .invalidate => { c with marks := c.marks ++ [.invalidated] }
  | .close => { c with marks := c.marks ++ [.closed] }
  | _ => c

def attempted (c : Connection) (p : Progress) : Connection :=
  match p.point with
  | .transactionCommit | .transactionRollback => { c with transaction := .inactive }
  | _ => c

def failureOf : Except Error Unit → Option Error
  | .ok () => none
  | .error e => some e

/-- A failure to close hides the failure to invalidate before it. -/
def closeOutcome (earlier : Option Error) : Except Error Unit → Except Error Unit
  | .error e => .error e
  | .ok () =>
    match earlier with
    | some e => .error e
    | none => .ok ()

inductive Next where
  | touch (progress : Progress)
  | answered (outcome : Except Error Unit)

def settle (c : Connection) (p : Progress) (outcome : Except Error Unit) : Connection × Next :=
  let c := c.attempted p
  let c := if outcome.isOk then c.mark p else c
  match p.point with
  | .invalidate => (c, .touch { point := .close, failure := failureOf outcome })
  | .close => (c, .answered (closeOutcome p.failure outcome))
  | _ => (c, .answered outcome)

/-- A call goes on to another point only from an invalidation, and then closes. -/
theorem settle_touch {c d : Connection} {p q : Progress} {outcome : Except Error Unit}
    (h : c.settle p outcome = (d, .touch q)) : p.point = .invalidate ∧ q.point = .close := by
  unfold settle at h
  cases hp : p.point <;> simp [hp] at h
  simp [← h.2]

def Next.outcome : Next → Except Error Unit
  | .touch _ => .ok ()
  | .answered outcome => outcome

/-- Takes a call to its end where every point answers at once; two points are the most. -/
def finish {ω : Type} (answer : Point → ω → Except Error Unit × ω) (c : Connection) (p : Progress) (w : ω) :
    Connection × Except Error Unit × ω :=
  let (outcome, w) := answer p.point w
  match c.settle p outcome with
  | (c, .answered outcome) => (c, outcome, w)
  | (c, .touch q) =>
    let (outcome, w) := answer q.point w
    let (c, next) := c.settle q outcome
    (c, next.outcome, w)

def perform {ω : Type} (answer : Point → ω → Except Error Unit × ω) (c : Connection) (call : Call Query) (w : ω) :
    Connection × Except Error Unit × ω :=
  match c.start call with
  | .ok p => c.finish answer p w
  | .error e => (c, .error e, w)

end Connection
end Transact
