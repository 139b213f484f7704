import Transact.Error.Basic
import Transact.Value.Text

/-! The texts of errors: the plain message, and the literal form with the family's name. -/
namespace Transact

def Rejection.name : Rejection → String
  | .integrity => "IntegrityError"
  | .operational => "OperationalError"

def Rejection.page : Rejection → String
  | .integrity => "gkpj"
  | .operational => "e3q8"

namespace Error

def name : Error → String
  | given family _ _ => family.name
  | rejected rejection _ _ _ _ => rejection.name
  | notification _ => "NotificationError"
  | alreadyFinalized _ => "AlreadyFinalized"
  | acquireFailed _ => "AcquireError"
  | beginFailed _ => "BeginError"
  | commitFailed _ _ _ => "CommitError"
  | rollbackFailed _ _ => "RollbackError"
  | queryFailed _ _ => "QueryError"
  | closed _ | registrationClosed _ => "ClosedTransaction"
  | notAnObserver _ | notAwaitable _ => "TypeError"
  | unknownHook _ => "ValueError"
  | commitBeforeBegin | keyNotSingle _ _ => "RuntimeError"
  | notAnInteger (.text _) | notAnInteger .notANumber => "ValueError"
  | notAnInteger .infinite | integerTooLarge => "OverflowError"
  | notAnInteger (.wrongType _) => "TypeError"
  | unknownColumns _ => "CompileError"
  | notAUuid _ => "StatementError"
  | unsupported _ _ => "ProgrammingError"
  | poolExhausted _ _ _ => "TimeoutError"
  | unknownName _ => "UnknownName"
  | noRow => "NoResultFound"
  | manyRows => "MultipleResultsFound"
  | missingColumn _ => "AttributeError"
  | noCell => "IndexError"
  | unexpectedArgument _ _ | repeatedArgument _ _ | missingArguments _ _ | tooManyArguments .. => "TypeError"
  | notMapped => "NotImplementedError"

/-- One argument is shown plainly, except as a missing key; several as a tuple. -/
def argsText : Family → List Value → String
  | .closed, [] => "Transaction is already closed"
  | family, [] => if family.isStore then "()" else ""
  | .key, [v] => v.literal
  | _, [v] => v.plain
  | _, vs => Value.tupleLiteral vs

def summary (source message : String) : String := "(" ++ source ++ ") " ++ message

def longestParams : Nat := 300

/-- Of a longer text the two ends are shown. -/
def abridged (s : String) : String :=
  if s.length ≤ longestParams then s else
    String.ofList (s.toList.take (longestParams / 2)) ++ " ... (" ++ toString (s.length - longestParams)
      ++ " characters truncated) ... " ++ String.ofList (s.toList.drop (s.length - longestParams / 2))

/-- The parameters are shown behind a statement, if there are any. -/
def details (statement : Option String) (params : Option Value) : String :=
  match statement with
  | some s =>
    if s.isEmpty then "" else
      "\n[SQL: " ++ s ++ "]" ++
        match params with
        | some p => if p.holds then "\n[parameters: " ++ abridged p.literal ++ "]" else ""
        | none => ""
  | none => ""

def page (name : String) : String := "(Background on this error at: https://sqlalche.me/e/21/" ++ name ++ ")"

def countText (n : Nat) : String := toString n ++ if n = 1 then " observer failed: " else " observers failed: "

/-- A list in words, with its size in front. -/
def missingText (quoted : List String) : String :=
  let noun (plural : String) := toString quoted.length ++ " required positional argument" ++ plural ++ ": "
  match quoted with
  | [a] => noun "" ++ a
  | [a, b] => noun "s" ++ a ++ " and " ++ b
  | _ => noun "s" ++ ", ".intercalate quoted.dropLast ++ ", and " ++ quoted.getLastD ""

def literalOf (text : String) : Error → String
  | given .closed [] _ => "ClosedTransaction(" ++ Text.quoted text ++ ")"
  | given family args _ => family.name ++ "(" ++ Value.literals args ++ ")"
  | rejected rejection source message _ _ =>
    rejection.name ++ "(" ++ Text.quoted (summary source message) ++ ")"
  | alreadyFinalized p => "AlreadyFinalized(state=" ++ (Value.phase p).literal ++ ")"
  | notMapped => "NotImplementedError()"
  | e => e.name ++ "(" ++ Text.quoted text ++ ")"

mutual
def text : Error → String
  | given family args _ => argsText family args
  | rejected rejection source message statement params =>
    summary source message ++ details statement params ++ "\n" ++ page rejection.page
  | notification failures => countText failures.length ++ failuresText failures
  | alreadyFinalized p => "Session already finalized (" ++ p.name ++ ")"
  | acquireFailed cause => "Could not acquire a connection: " ++ text cause
  | beginFailed cause => "Could not begin a transaction: " ++ text cause
  | commitFailed cause none _ => "Commit failed, transaction rolled back: " ++ text cause
  | commitFailed cause (some rollback) _ =>
    "Commit failed: " ++ text cause ++ "; compensating rollback failed too (" ++ text rollback
      ++ "), connection discarded"
  | rollbackFailed cause _ => "Rollback failed, connection discarded: " ++ text cause
  | queryFailed table cause => table ++ ": " ++ text cause
  | closed p => "Transaction is " ++ p.name ++ "; start a new session"
  | registrationClosed p => "Cannot register observers on a " ++ p.name ++ " session"
  | notAnObserver typeName => typeName ++ " does not implement on_commit()/on_rollback()"
  | unknownHook hook => "Unknown transaction hook: " ++ Text.quoted hook
  | notAwaitable typeName => "object " ++ typeName ++ " can't be used in 'await' expression"
  | commitBeforeBegin => "commit() called before begin()"
  | unknownName name => name
  | noRow => "No row was found when one was required"
  | manyRows => "Multiple rows were found when exactly one was required"
  | missingColumn name => name
  | noCell => "tuple index out of range"
  | unexpectedArgument callee argument => callee ++ "() got an unexpected keyword argument " ++ Text.quoted argument
  | repeatedArgument callee argument => callee ++ "() got multiple values for argument " ++ Text.quoted argument
  | missingArguments callee arguments => callee ++ "() missing " ++ missingText (arguments.map Text.quoted)
  | tooManyArguments callee least most count =>
    callee ++ "() takes " ++ (if least = most then toString most else "from " ++ toString least ++ " to " ++ toString most)
      ++ " positional arguments but " ++ toString count ++ " were given"
  | notMapped => ""
  | keyNotSingle repository table =>
    repository ++ " requires a single-column primary key on " ++ table
  | notAnInteger error => error.message
  | unknownColumns names => "Unconsumed column names: " ++ ", ".intercalate names
  | notAUuid typeName =>
    summary "builtins.AttributeError" ("'" ++ typeName ++ "' object has no attribute 'hex'")
  | unsupported position typeName =>
    summary "sqlite3.ProgrammingError"
      ("Error binding parameter " ++ toString position ++ ": type '" ++ typeName ++ "' is not supported")
  | integerTooLarge => "Python int too large to convert to SQLite INTEGER"
  | poolExhausted size overflow timeout =>
    "QueuePool limit of size " ++ toString size ++ " overflow " ++ toString overflow
      ++ " reached, connection timed out, timeout " ++ toString timeout ++ ".00 " ++ page "3o7r"

def failureText : HookFailure → String
  | .mk _ className hook error => className ++ "." ++ hook ++ ": " ++ literalOf (text error) error

def failuresText : List HookFailure → String
  | [] => ""
  | [f] => failureText f
  | f :: fs => failureText f ++ "; " ++ failuresText fs
end

def literal (e : Error) : String := literalOf e.text e

/-- Where a family is declared, if its name alone does not say it. -/
def origin : Error → Option String
  | given .driver _ _ => some "store"
  | given .store _ _ | given .storeTimeout _ _ | rejected .. | noRow | manyRows | unknownColumns _ | notAUuid _
  | unsupported _ _ | poolExhausted _ _ _ => some "sqlalchemy.exc"
  | given .cancelled _ _ => some "asyncio.exceptions"
  | e => if e.isTransactional then some "postgres_uow.uow.errors" else none

/-- How a log line shows an error. -/
def logText (e : Error) : String :=
  let title := (match e.origin with | some o => o ++ "." | none => "") ++ e.name
  if e.text.isEmpty then title else title ++ ": " ++ e.text

end Error

def HookFailure.text (f : HookFailure) : String := Error.failureText f

end Transact
