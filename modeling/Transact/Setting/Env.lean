import Transact.Text.Integer

/-! Flags and integers from environment variables. -/
namespace Transact

abbrev Env := List (String × String)

namespace Env

/-- The variable that is set, and to what. -/
inductive Error where
  | notAnInteger (name value : String)
deriving DecidableEq, Repr

def Error.message : Error → String
  | .notAnInteger name value =>
    "Environment variable " ++ name ++ " must be an integer, got " ++ Text.quoted value

/-- Lower case of the letters of ASCII; no other character lowers to one of them alone, the
Kelvin sign apart, and no word compared with holds a k. -/
def plainWord (text : String) : List Char := (Text.strip text.toList).map Char.toLower

def yesWords : List String := ["1", "true", "yes", "y", "on"]

def isYes (text : String) : Bool := yesWords.any fun w => w.toList == plainWord text

def flag (value : Option String) (default : Bool) : Bool :=
  match value with
  | none => default
  | some text => isYes text

/-- A blank value counts as unset. -/
def integer (name : String) (value : Option String) (default : Int) : Except Error Int :=
  match value with
  | none => .ok default
  | some text =>
    let cs := Text.strip text.toList
    if cs.isEmpty then .ok default else
      match Text.Integer.read (String.ofList cs) with
      | .ok n => .ok n
      | .error _ => .error (.notAnInteger name text)

end Env
end Transact
