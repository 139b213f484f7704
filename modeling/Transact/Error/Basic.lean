import Transact.Value.Integer

/-! What can go wrong in a transaction, by cause. Errors of stores, hooks and callers come
with arguments of their own; the others are raised here. -/
namespace Transact

inductive Family where
  | driver
  | exception
  | runtime
  | value
  | key
  | type
  | lookup
  | transaction
  | acquire
  | begin
  | query
  | closed
  | commit
  | rollback
  | store
  | storeTimeout
  | fatal
  | cancelled
deriving DecidableEq, Repr

inductive Rejection where
  | integrity
  | operational
deriving DecidableEq, Repr

mutual
inductive Error where
  | given (family : Family) (args : List Value) (notification : Option (List HookFailure))
  | rejected (rejection : Rejection) (source message : String) (statement : Option String)
      (params : Option Value)
  | notification (failures : List HookFailure)
  | alreadyFinalized (phase : Phase)
  | acquireFailed (cause : Error)
  | beginFailed (cause : Error)
  | commitFailed (cause : Error) (rollback : Option Error) (failures : Option (List HookFailure))
  | rollbackFailed (cause : Error) (failures : Option (List HookFailure))
  | queryFailed (table : String) (cause : Error)
  | closed (phase : Phase)
  | registrationClosed (phase : Phase)
  | notAnObserver (typeName : String)
  | unknownHook (hook : String)
  | notAwaitable (typeName : String)
  | commitBeforeBegin
  | unknownName (name : String)
  | noRow
  | manyRows
  | missingColumn (name : String)
  | noCell
  | notMapped
  | keyNotSingle (repository table : String)
  | notAnInteger (error : Value.IntegerError)
  | unexpectedArgument (callee argument : String)
  | repeatedArgument (callee argument : String)
  | missingArguments (callee : String) (arguments : List String)
  | tooManyArguments (callee : String) (least most count : Nat)
  | unknownColumns (names : List String)
  | notAUuid (typeName : String)
  | unsupported (position : Nat) (typeName : String)
  | integerTooLarge
  | poolExhausted (size overflow : Int) (timeout : Nat)

/-- A hook that raised: the observer's name and class, the hook, what it raised. -/
inductive HookFailure where
  | mk (observer className hook : String) (error : Error)
end

instance : Inhabited Error := ⟨.noRow⟩

namespace HookFailure

def observer : HookFailure → String | mk o _ _ _ => o
def className : HookFailure → String | mk _ c _ _ => c
def hook : HookFailure → String | mk _ _ h _ => h
def error : HookFailure → Error | mk _ _ _ e => e

end HookFailure

/-- The failures of one round of hooks, in the order of the calls. -/
abbrev Notification := List HookFailure

namespace Family

def name : Family → String
  | driver => "DriverError"
  | exception => "Exception"
  | runtime => "RuntimeError"
  | value => "ValueError"
  | key => "KeyError"
  | type => "TypeError"
  | lookup => "LookupError"
  | transaction => "TransactionError"
  | acquire => "AcquireError"
  | begin => "BeginError"
  | query => "QueryError"
  | closed => "ClosedTransaction"
  | commit => "CommitError"
  | rollback => "RollbackError"
  | store => "SQLAlchemyError"
  | storeTimeout => "TimeoutError"
  | fatal => "Fatal"
  | cancelled => "CancelledError"

/-- Not caught where ordinary errors are. -/
def isOrdinary : Family → Bool
  | fatal | cancelled => false
  | _ => true

def isTransactional : Family → Bool
  | transaction | acquire | begin | query | closed | commit | rollback => true
  | _ => false

def isStore : Family → Bool
  | store | storeTimeout => true
  | _ => false

/-- How many arguments an error of the family is made with, at least and at most. -/
def arity? : Family → Option (Nat × Nat)
  | commit | rollback => some (1, 1)
  | closed => some (0, 1)
  | _ => none

end Family

namespace Error

/-- An error of a family, made with these arguments, or the error of making it. What is made
counts as an argument itself. -/
def make (family : Family) (args : List Value) (notification : Option Notification) : Except Error Error :=
  let callee := family.name ++ ".__init__"
  match family.arity? with
  | some (least, most) =>
    if args.length < least then .error (.missingArguments callee ["message"])
    else if most < args.length then .error (.tooManyArguments callee (least + 1) (most + 1) (args.length + 1))
    else .ok (.given family args notification)
  | none => .ok (.given family args notification)

def notAPhase (literal : String) : Error :=
  .given .value [.text (literal ++ " is not a valid TransactionState")] none

def cancelled : Error := .given .cancelled [] none

def isOrdinary : Error → Bool
  | given family _ _ => family.isOrdinary
  | _ => true

/-- Raised by sessions and their executors, or shaped like it. -/
def isTransactional : Error → Bool
  | given family _ _ => family.isTransactional
  | notification _ | alreadyFinalized _ | acquireFailed _ | beginFailed _ | commitFailed _ _ _
  | rollbackFailed _ _ | queryFailed _ _ | closed _ | registrationClosed _ => true
  | _ => false

/-- Raised by the store for a statement. -/
def isStore : Error → Bool
  | given family _ _ => family.isStore
  | rejected .. | noRow | manyRows | unknownColumns _ | notAUuid _ | unsupported _ _
  | poolExhausted _ _ _ => true
  | _ => false

/-- Says itself that no connection could be had. -/
def isAcquire : Error → Bool
  | given .acquire _ _ | acquireFailed _ => true
  | _ => false

def cause? : Error → Option Error
  | acquireFailed cause | beginFailed cause | commitFailed cause _ _ | rollbackFailed cause _
  | queryFailed _ cause => some cause
  | _ => none

end Error
end Transact
