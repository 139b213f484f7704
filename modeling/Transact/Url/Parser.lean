import Transact.Url.Basic
import Transact.Text.Percent
import Transact.Text.Word

/-! Reading URLs from the left, each part as long as it can be:
`name://[user[:password]@][host][:port][/database][?query]`. What follows the last part that
fits is dropped. -/
namespace Transact.Url

def decoded (cs : List Char) : String := String.ofList (Text.Percent.decode cs)

def cut? (c : Char) (cs : List Char) : Option (List Char × List Char) :=
  match cs.span (· != c) with
  | (before, _ :: after) => some (before, after)
  | (_, []) => none

def cutLast? (c : Char) (cs : List Char) : Option (List Char × List Char) :=
  (cut? c cs.reverse).map fun (after, before) => (before.reverse, after.reverse)

def scheme? (cs : List Char) : Option (List Char × List Char) :=
  match cs.span fun c => Text.isWord c || c == '+' with
  | ([], _) => none
  | (name, ':' :: '/' :: '/' :: rest) => some (name, rest)
  | _ => none

structure User where
  name : List Char
  password : Option (List Char)

/-- A name ends before the first colon or slash. Behind a colon a password runs to the next at
sign; without one, the name runs to its own last at sign. -/
def user? (cs : List Char) : Option (User × List Char) :=
  let (name, rest) := cs.span fun c => c != ':' && c != '/'
  let alone := (cutLast? '@' name).map fun (name, after) => (⟨name, none⟩, after ++ rest)
  match rest with
  | ':' :: afterColon =>
    match cut? '@' afterColon with
    | some (password, after) => some (⟨name, some password⟩, after)
    | none => alone
  | _ => alone

/-- In brackets: up to the last closing bracket before a slash or a question mark. -/
def bracketed? (cs : List Char) : Option (List Char × List Char) :=
  match cs with
  | '[' :: rest =>
    let (run, after) := rest.span fun c => c != '/' && c != '?'
    match cutLast? ']' run with
    | some ([], _) => none
    | some (host, tail) => some (host, tail ++ after)
    | none => none
  | _ => none

def host? (cs : List Char) : Option (List Char) × List Char :=
  match bracketed? cs with
  | some (host, rest) => (some host, rest)
  | none =>
    match cs.span fun c => c != '/' && c != ':' && c != '?' with
    | ([], rest) => (none, rest)
    | (host, rest) => (some host, rest)

def part? (mark : Char) (inside : Char → Bool) (cs : List Char) : Option (List Char) × List Char :=
  match cs with
  | c :: rest => if c == mark then (some (rest.takeWhile inside), rest.dropWhile inside) else (none, cs)
  | [] => (none, [])

def split (c : Char) : List Char → List (List Char)
  | [] => [[]]
  | d :: rest =>
    if d == c then [] :: split c rest else
      match split c rest with
      | [] => [[d]]
      | part :: parts => (d :: part) :: parts

/-- A pair needs an equals sign and a value behind it. -/
def pair? (cs : List Char) : Option (String × String) :=
  match cut? '=' cs with
  | some (_, []) => none
  | some (key, value) =>
    some (String.ofList (Text.Percent.decodePlus key), String.ofList (Text.Percent.decodePlus value))
  | none => none

def addValue (key value : String) : List (String × List String) → List (String × List String)
  | [] => [(key, [value])]
  | (k, values) :: rest =>
    if k = key then (k, values ++ [value]) :: rest else (k, values) :: addValue key value rest

def parseQuery (cs : List Char) : List (String × List String) :=
  ((split '&' cs).filterMap pair?).foldl (fun query (key, value) => addValue key value query) []

def parsePort : Option (List Char) → Except Error (Option Int)
  | none => .ok none
  | some cs => ((Text.Integer.read (String.ofList cs)).map some).mapError .port

def parseList (cs : List Char) : Except Error Url := do
  match scheme? cs with
  | none => .error .noScheme
  | some (name, afterName) =>
    let (user, afterUser) := match user? afterName with
      | some (user, rest) => (some user, rest)
      | none => (none, afterName)
    let (host, afterHost) := host? afterUser
    let (port, afterPort) := part? ':' (fun c => c != '/' && c != '?') afterHost
    let (database, afterDatabase) := part? '/' (· != '?') afterPort
    let (query, _) := part? '?' (· != '\n') afterDatabase
    return {
      driverName := String.ofList name
      username := user.map fun u => decoded u.name
      password := user.bind fun u => u.password.map decoded
      host := host.map String.ofList
      port := ← parsePort port
      database := database.map decoded
      query := (query.map parseQuery).getD [] }

def parse (text : String) : Except Error Url := parseList text.toList

end Transact.Url
