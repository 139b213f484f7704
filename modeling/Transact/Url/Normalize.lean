import Transact.Url.Parser
import Transact.Url.Printer
import Transact.Value.Basic

/-! URLs brought to a driver that runs without blocking. -/
namespace Transact.Url

def aliasScheme : List Char := "postgres://".toList

def fullScheme : List Char := "postgresql://".toList

/-- `postgres://` is another spelling of `postgresql://`. -/
def expandAlias (cs : List Char) : List Char :=
  if aliasScheme.isPrefixOf cs then fullScheme ++ cs.drop aliasScheme.length else cs

/-- The driver that is used for a backend and a driver asked for. -/
def asyncDriver (u : Url) : String :=
  if u.backend = "postgresql" ∧ u.driver ∈ ["", "psycopg2", "psycopg"] then "postgresql+psycopg"
  else if u.backend = "sqlite" ∧ u.driver ∈ ["", "pysqlite"] then "sqlite+aiosqlite"
  else u.driverName

def read (raw : String) : Except Error Url :=
  let cs := Text.strip raw.toList
  if cs.isEmpty then .error .empty else
    match parseList (expandAlias cs) with
    | .error .noScheme => .error (.invalid raw)
    | result => result

def normalize (raw : String) : Except Error String :=
  (read raw).map fun u => { u with driverName := u.asyncDriver }.render

/-- What does not hold counts as empty. -/
def normalizeValue : Value → Except Error String
  | .text raw => normalize raw
  | v => .error (if v.holds then .notText v.typeName else .empty)

end Transact.Url
