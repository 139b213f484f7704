import Transact.Url.Parser
import Transact.Value.Text

/-! Several hosts in the query of a URL: in one list with their ports, `host=a:1&host=b:2`, or in
a list for each, `host=a,b&port=1,2`. -/
namespace Transact.Url

inductive HostsError where
  | mixed
  | manyParts
  | badPorts (ports : List (Option String))
  | unequal
deriving DecidableEq, Repr

/-- An absent port among others is shown as one. -/
def portLiterals (ports : List (Option String)) : List Value := ports.map fun p => (p.map Value.text).getD .null

def HostsError.message : HostsError → String
  | mixed =>
    "Can't mix 'multihost' formats together; use \"host=h1,h2,h3&port=p1,p2,p3\" or "
      ++ "\"host=h1:p1&host=h2:p2&host=h3:p3\" separately"
  | manyParts => "too many values to unpack (expected 2)"
  | badPorts ports => "Received non-integer port arguments: " ++ Value.tupleLiteral (portLiterals ports)
  | unequal => "number of hosts and ports don't match"

structure Hosts where
  names : List String
  ports : Option (List (Option String)) := none
  /-- Hosts and ports stand in one list. -/
  joined : Bool := false

def parts (c : Char) (text : String) : List String := (split c text.toList).map String.ofList

/-- A host and its port. Where every host has more than one colon nothing fits. -/
def joinedHosts (tokens : List String) : Except HostsError Hosts :=
  let split := tokens.map (parts ':')
  if split.all (2 < ·.length) then .error .manyParts
  else .ok { names := split.map (·.headD ""), ports := some (split.map (·[1]?)), joined := true }

def isHostChar (c : Char) : Bool := c.isAlphanum || c == '-' || c == '.'

/-- A plain host name with a port that may be empty. -/
def plainHost? (token : String) : Option (String × Option String) :=
  match parts ':' token with
  | [name, port] =>
    let port := if port.endsWith "\n" then String.ofList port.toList.dropLast else port
    if name.toList.all isHostChar && port.toList.all (fun c => (Text.digit? c).isSome) then
      some (name, if port.isEmpty then none else some port)
    else none
  | _ => none

def hosts? (u : Url) : Except HostsError (Option Hosts) :=
  match u.values "host" with
  | [] => .ok none
  | [text] =>
    match parts ',' text, u.values "port" with
    | [token], [] =>
      match plainHost? token with
      | some (name, port) => .ok (some { names := [name], ports := some [port], joined := true })
      | none => .ok (some { names := [token] })
    | names, _ => .ok (some { names })
  | tokens => (joinedHosts tokens).map some

/-- The ports that count: those in a list of their own, or else those beside the hosts. -/
def portTexts (u : Url) (hosts : Option Hosts) : Except HostsError (Option (List (Option String))) :=
  match u.values "port", hosts.any (·.joined) with
  | [], _ => .ok (hosts.bind (·.ports))
  | _, true => .error .mixed
  | [text], false => .ok (some ((parts ',' text).map some))
  | texts, false => .ok (some (texts.map some))

def isPort : Option String → Bool
  | some text => text.isEmpty || (Text.Integer.read text).toOption.isSome
  | none => true

/-- As many ports as hosts; one port, where no hosts are named. -/
def fit (hosts : Option Hosts) (ports : List (Option String)) : Bool :=
  ports.length = (hosts.map (·.names.length)).getD 1

def checkHosts (u : Url) : Except HostsError Unit := do
  let hosts ← u.hosts?
  match ← u.portTexts hosts with
  | none => return
  | some ports =>
    if !ports.all isPort then throw (.badPorts ports)
    if !fit hosts ports then throw .unequal

end Transact.Url
