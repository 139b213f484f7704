import Transact.Log.Record
import Transact.Text.Upper

/-! The root logger: its level, its handlers, and the session ids bound around what runs. -/
namespace Transact.Log

inductive RootError where
  | unknownLevel (name : String)
  | notALevel (value : Value)
  | taken (key : String)
  | levelNotInteger
  | notALogger

def RootError.message : RootError → String
  | .unknownLevel name => "Unknown level: " ++ Text.quoted name
  | .notALevel value => "Level not an integer or a valid string: " ++ value.literal
  | .levelNotInteger => "level must be an integer"
  | .notALogger => "A logger name must be a string"
  | .taken key => Text.quoted ("Attempt to overwrite " ++ Text.quoted key ++ " in LogRecord")

def readLevel : Value → Except RootError Int
  | .int n => .ok n
  | .bool b => .ok (if b then 1 else 0)
  | .text s =>
    match levelNumbers.lookup (Text.upper s) with
    | some n => .ok n
    | none => .error (.unknownLevel (Text.upper s))
  | v => .error (.notALevel v)

inductive Handler where
  /-- Writes each record as its line. -/
  | json
  /-- Was installed by others, and writes elsewhere. -/
  | foreign
deriving DecidableEq, Repr

def Handler.prints (line : String) : Handler → List String
  | json => [line]
  | foreign => []

structure Root where
  level : Int := 30
  /-- In the order in which a record is handed to them. -/
  installed : List Handler := []
  /-- Innermost first. -/
  bound : List Value := []

namespace Root

def current (r : Root) : Value := r.bound.headD .null

def handlers (r : Root) : Nat := r.installed.length

def clear (r : Root) : Root := { r with installed := [] }

/-- The handler is a new one, so it is not among those that are installed. -/
def add (h : Handler) (r : Root) : Root := { r with installed := r.installed ++ [h] }

/-- The handlers are replaced before the level is looked at. -/
def configure (level : Value) (r : Root) : Except RootError Unit × Root :=
  let r := r.clear.add .json
  match readLevel level with
  | .ok n => (.ok (), { r with level := n })
  | .error e => (.error e, r)

def enter (id : Value) (r : Root) : Root := { r with bound := id :: r.bound }

def leave (r : Root) : Root := { r with bound := r.bound.tail }

def isEnabled (level : Int) (r : Root) : Bool := 0 < level && r.level ≤ level

def isLevel : Value → Bool
  | .int _ | .bool _ => true
  | _ => false

/-- The logger of a name; without a name it is the root itself. -/
def loggerName (v : Value) : Except RootError String :=
  if v.holds then
    match v with
    | .text s => .ok s
    | .phase p => .ok p.name
    | _ => .error .notALogger
  else .ok "root"

/-- Attributes that every record has already. -/
def reserved : List String :=
  ["message", "asctime", "name", "msg", "args", "levelname", "levelno", "pathname", "filename", "module",
    "exc_info", "exc_text", "stack_info", "lineno", "funcName", "created", "msecs", "relativeCreated",
    "thread", "threadName", "processName", "process"]

/-- The lines that a record prints. One that cannot be formatted prints none. -/
def log (stamp : Stamp) (record : Record) (r : Root) : Except RootError (List String) :=
  if record.oddLevel.any (!isLevel ·) then .error .levelNotInteger
  else if r.isEnabled record.level then
    match record.extra.find? fun (key, _) => reserved.contains key with
    | some (key, _) => .error (.taken key)
    | none =>
      match (record.bind r.current).line stamp with
      | .ok line => .ok (r.installed.flatMap (Handler.prints line))
      | .error _ => .ok []
  else .ok []

end Root
end Transact.Log
