import Transact.Json.Printer
import Transact.Log.Template
import Transact.Log.Trace

/-! Log records, and the JSON line that each becomes. -/
namespace Transact.Log

inductive RecordError where
  | template (error : TemplateError)
  | notCallable (typeName : String)
  | notSubscriptable (typeName : String)
  | noItem (message : String)
  | noKey (key : Nat)
  | noAttribute (typeName name : String)
  | unhashable (typeName : String)

def RecordError.message : RecordError → String
  | template error => error.message
  | notCallable typeName => "'" ++ typeName ++ "' object is not callable"
  | notSubscriptable typeName => "'" ++ typeName ++ "' object is not subscriptable"
  | noItem message => message
  | noKey key => toString key
  | noAttribute typeName name => "'" ++ typeName ++ "' object has no attribute '" ++ name ++ "'"
  | unhashable typeName => "unhashable type: '" ++ typeName ++ "'"

structure Record where
  logger : String
  level : Int
  /-- What was given for the level, where it was no integer. -/
  oddLevel : Option Value := none
  template : String
  args : List Value := []
  error : Option Error := none
  /-- How the error came about, which only what runs the program can tell. -/
  trace : Trace := {}
  /-- Further attributes, each key once. They go before what the record has itself. -/
  extra : List (String × Value) := []
  /-- Whether the time since the session began belongs to the record. -/
  timed : Bool := false

def levelName (level : Int) : String :=
  if level = 50 then "CRITICAL"
  else if level = 40 then "ERROR"
  else if level = 30 then "WARNING"
  else if level = 20 then "INFO"
  else if level = 10 then "DEBUG"
  else if level = 0 then "NOTSET"
  else "Level " ++ toString level

def levelNumbers : List (String × Int) :=
  [("CRITICAL", 50), ("FATAL", 50), ("ERROR", 40), ("WARN", 30), ("WARNING", 30), ("INFO", 20),
    ("DEBUG", 10), ("NOTSET", 0)]

/-- What is shown for a level of any kind: a name for a number, and a number for a name. -/
def shownLevel : Value → Except RecordError Value
  | .int n => .ok (.text (levelName n))
  | .bool b => .ok (.text (if b then "Level True" else levelName 0))
  | .float x =>
    match x.truncate? with
    | some n =>
      if (levelNumbers.any (·.2 == n)) && Double.ofDecimal (n < 0) n.natAbs 0 == x then .ok (.text (levelName n))
      else .ok (.text ("Level " ++ x.text))
    | none => .ok (.text ("Level " ++ x.text))
  | .text s =>
    match levelNumbers.lookup s with
    | some n => .ok (.int n)
    | none => .ok (.text ("Level " ++ s))
  | .list _ => .error (.unhashable "list")
  | .object _ => .error (.unhashable "dict")
  | v => .ok (.text ("Level " ++ v.plain))

structure Stamp where
  time : String
  elapsed : Value

namespace Record

def sessionKey : String := "session_id"

def attribute? (r : Record) (key : String) : Option Value := r.extra.lookup key

def sessionId (r : Record) : Value := (r.attribute? sessionKey).getD .null

/-- The template as it is given, with the arguments filled in. -/
def message (r : Record) : Except RecordError Text.Points :=
  match r.attribute? "getMessage" with
  | some v => .error (.notCallable v.typeName)
  | none =>
    let template := (r.attribute? "msg").elim r.template Value.plain
    (format template ((r.attribute? "args").elim (.ofList r.args) .single)).mapError .template

def levelShown (r : Record) : Except RecordError Value :=
  (shownLevel (r.oddLevel.getD (.int r.level))).map ((r.attribute? "levelname").getD ·)

/-- The text of an error that is given as three values: its kind, itself and its trace. Only one
that is nothing at all has a text. -/
def tripleText (error trace : Value) : Except RecordError String :=
  match error, trace with
  | .null, .null => .ok "NoneType: None"
  | error, .null => .error (.noAttribute error.typeName "__suppress_context__")
  | _, trace => .error (.noAttribute trace.typeName "tb_frame")

def tripleOf (items : List Value) (outside : String) : Except RecordError String :=
  match items with
  | _ :: error :: trace :: _ => tripleText error trace
  | _ => .error (.noItem outside)

/-- What a value tells that stands where an error's three values should. -/
def givenErrorText (v : Value) : Except RecordError String :=
  match v with
  | .list vs => tripleOf vs "list index out of range"
  | .text s => tripleOf (s.toList.map fun c => .text (String.singleton c)) "string index out of range"
  | .phase p => tripleOf (p.name.toList.map fun c => .text (String.singleton c)) "string index out of range"
  | .bytes bs => tripleOf (bs.map fun b => .int b.toNat) "index out of range"
  | .object _ => .error (.noKey 2)
  | v => .error (.notSubscriptable v.typeName)

def errorText (r : Record) : Except RecordError (Option String) :=
  match r.attribute? "exc_info" with
  | some v => if v.holds then (givenErrorText v).map some else .ok none
  | none => .ok (r.error.map r.trace.text)

/-- A record without a session of its own takes the one that is bound. -/
def bind (bound : Value) (r : Record) : Record :=
  match r.sessionId with
  | .null => { r with extra := (sessionKey, bound) :: r.extra.filter (·.1 != sessionKey) }
  | _ => r

/-- The keys shown behind the fixed ones, in this order. -/
def shownKeys : List String := ["observer", "hook", "state", "elapsed_ms"]

def shown (stamp : Stamp) (r : Record) (key : String) : Option (String × Value) :=
  match r.attribute? key with
  | some v => some (key, v)
  | none => if r.timed && key == "elapsed_ms" then some (key, stamp.elapsed) else none

def details (stamp : Stamp) (r : Record) : Except RecordError (List (String × Value)) := do
  let error ← r.errorText
  return (sessionKey, r.sessionId) :: (error.map fun text => ("exc_info", Value.text text)).toList
    ++ shownKeys.filterMap (r.shown stamp)

def line (stamp : Stamp) (r : Record) : Except RecordError String := do
  let level ← r.levelShown
  let message ← r.message
  let details ← r.details stamp
  let name := (r.attribute? "name").getD (.text r.logger)
  return String.ofList ('{' :: Json.printFields [("time", .text stamp.time), ("level", level), ("name", name)]
    ++ ", \"message\": ".toList ++ Json.quotedPoints message ++ ", ".toList ++ Json.printFields details ++ ['}'])

end Record
end Transact.Log
