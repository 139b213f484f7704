import Transact.Url.Basic
import Transact.Text.Percent

/-! URLs as text: user and database percent-encoded, the host as it is, query keys in
ascending order. -/
namespace Transact.Url

def encodeUser (s : String) : List Char := Text.Percent.encode (fun c => c == ' ' || c == '+') s.toList

def encodeDatabase (s : String) : List Char :=
  Text.Percent.encode (fun c => c == ' ' || c == '+' || c == '/') s.toList

def encodePair (key value : String) : List Char :=
  Text.Percent.encodePlus key.toList ++ '=' :: Text.Percent.encodePlus value.toList

def joinPairs : List (List Char) → List Char
  | [] => []
  | [p] => p
  | p :: ps => p ++ '&' :: joinPairs ps

def sortedQuery (u : Url) : List (String × List String) :=
  u.query.mergeSort fun a b => !decide (b.1 < a.1)

def printUser (password : Option (List Char)) (name : String) : List Char :=
  encodeUser name ++ (match password with | some p => ':' :: p | none => []) ++ ['@']

def printHost (host : String) : List Char :=
  if host.toList.contains ':' then '[' :: host.toList ++ [']'] else host.toList

def printQuery (u : Url) : List Char :=
  if u.query.isEmpty then [] else
    '?' :: joinPairs (u.sortedQuery.flatMap fun (key, values) => values.map (encodePair key))

def printWith (showPassword : String → List Char) (u : Url) : List Char :=
  u.driverName.toList ++ "://".toList
    ++ (u.username.map (printUser (u.password.map showPassword))).getD []
    ++ (u.host.map printHost).getD []
    ++ (u.port.map fun p => ':' :: (toString p).toList).getD []
    ++ (u.database.map fun d => '/' :: encodeDatabase d).getD []
    ++ u.printQuery

def render (u : Url) : String := String.ofList (u.printWith encodeUser)

/-- The form for people: three stars in place of the password. -/
def masked (u : Url) : String := String.ofList (u.printWith fun _ => "***".toList)

end Transact.Url
