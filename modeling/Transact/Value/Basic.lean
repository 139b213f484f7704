import Transact.Decimal.Double
import Transact.Phase
import Transact.Uuid

/-! Values of statements, settings and log records. An object keeps its fields in order of
arrival. -/
namespace Transact

inductive Value where
  | null
  | bool (b : Bool)
  | int (n : Int)
  | float (x : Double)
  | text (s : String)
  | bytes (b : List UInt8)
  | uuid (u : Uuid)
  | phase (p : Phase)
  | list (vs : List Value)
  | object (fields : List (String × Value))
deriving Repr, Inhabited

namespace Value

def typeName : Value → String
  | null => "NoneType"
  | bool _ => "bool"
  | int _ => "int"
  | float _ => "float"
  | text _ => "str"
  | bytes _ => "bytes"
  | uuid _ => "UUID"
  | phase _ => "TransactionState"
  | list _ => "list"
  | object _ => "dict"

/-- Null, false, zero and everything empty do not hold. -/
def holds : Value → Bool
  | null => false
  | bool b => b
  | int n => n != 0
  | float x => !x.isZero
  | text s => !s.isEmpty
  | bytes b => !b.isEmpty
  | uuid _ => true
  | phase _ => true
  | list vs => !vs.isEmpty
  | object fields => !fields.isEmpty

def field? : Value → String → Option Value
  | object fields, key => fields.lookup key
  | _, _ => none

mutual
def same : Value → Value → Bool
  | null, null => true
  | bool a, bool b => a == b
  | int a, int b => a == b
  | float a, float b => a == b
  | text a, text b => a == b
  | bytes a, bytes b => a == b
  | uuid a, uuid b => a == b
  | phase a, phase b => a == b
  | list a, list b => sameList a b
  | object a, object b => sameFields a b
  | _, _ => false

def sameList : List Value → List Value → Bool
  | [], [] => true
  | a :: as, b :: bs => same a b && sameList as bs
  | _, _ => false

def sameFields : List (String × Value) → List (String × Value) → Bool
  | [], [] => true
  | (k, a) :: as, (l, b) :: bs => k == l && same a b && sameFields as bs
  | _, _ => false
end

instance : BEq Value := ⟨same⟩

end Value
end Transact
