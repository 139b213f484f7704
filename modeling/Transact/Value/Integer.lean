import Transact.Value.Text
import Transact.Text.Integer

/-! Values taken as integers: text and bytes are read, fractions are cut off, nothing else counts. -/
namespace Transact.Value

inductive IntegerError where
  | text (error : Text.Integer.Error)
  | infinite
  | notANumber
  | wrongType (typeName : String)
deriving DecidableEq, Repr

def IntegerError.message : IntegerError → String
  | .text error => error.message
  | .infinite => "cannot convert float infinity to integer"
  | .notANumber => "cannot convert float NaN to integer"
  | .wrongType typeName =>
    "int() argument must be a string, a bytes-like object or a real number, not '" ++ typeName ++ "'"

def toInt : Value → Except IntegerError Int
  | bool b => .ok (if b then 1 else 0)
  | int n => .ok n
  | float x =>
    match x.truncate? with
    | some n => .ok n
    | none => .error (if x.isNaN then .notANumber else .infinite)
  | text s => (Text.Integer.read s).mapError .text
  | bytes b => (Text.Integer.readBytes b).mapError .text
  | uuid u => .ok u.code
  | phase p => (Text.Integer.readAs (phase p).literal p.name.toList).mapError .text
  | v => .error (.wrongType v.typeName)

end Transact.Value
