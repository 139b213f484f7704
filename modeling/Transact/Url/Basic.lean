import Transact.Text.Integer

/-! Database URLs in parts. A part that is absent and one that is empty stay apart. -/
namespace Transact

structure Url where
  driverName : String
  username : Option String := none
  password : Option String := none
  host : Option String := none
  port : Option Int := none
  database : Option String := none
  /-- Each key once, in order of arrival, with its values in order. -/
  query : List (String × List String) := []
deriving DecidableEq, Repr

namespace Url

inductive Error where
  | noScheme
  | port (error : Text.Integer.Error)
  | empty
  | invalid (raw : String)
  | notText (typeName : String)
deriving DecidableEq, Repr

def Error.message : Error → String
  | .noScheme => "Could not parse SQLAlchemy URL from given URL string"
  | .port error => error.message
  | .empty => "Database URL must be a non-empty string"
  | .invalid raw => "Invalid database URL: " ++ Text.quoted raw
  | .notText typeName => "'" ++ typeName ++ "' object has no attribute 'strip'"

/-- The driver name up to its first plus sign. -/
def backend (u : Url) : String := String.ofList (u.driverName.toList.takeWhile (· != '+'))

/-- The driver name between its first and second plus sign; empty if there is none. -/
def driver (u : Url) : String :=
  String.ofList (((u.driverName.toList.dropWhile (· != '+')).drop 1).takeWhile (· != '+'))

def values (u : Url) (key : String) : List String := (u.query.lookup key).getD []

end Url
end Transact
