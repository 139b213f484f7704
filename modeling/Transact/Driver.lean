import Transact.Decimal.Numeral
import Transact.Text.Lower
import Transact.Url.Hosts
import Transact.Url.Printer
import Transact.Value.Integer

/-! Drivers: what speaks to a kind of database, and what it wants of a URL before it connects. -/
namespace Transact

inductive Driver where
  | server
  | file
  /-- A driver for files that blocks while it waits. -/
  | blockingFile
  /-- A driver over a library that is not there. -/
  | absent (library : String)
deriving DecidableEq, Repr

inductive DriverError where
  | noPlugin (name : String)
  | noDialect (name : String)
  | manyParts
  | noLibrary (name : String)
  | blocking (name : String)
  | notAFile (url : Url)
  | noFileName
  | notAFlag (text : String)
  | notADecimal (text : String)
  | manyDecimals
  | integer (error : Value.IntegerError)
  | hosts (error : Url.HostsError)
deriving DecidableEq, Repr

def DriverError.message : DriverError → String
  | noPlugin name => "Can't load plugin: sqlalchemy.plugins:" ++ name
  | noDialect name => "Can't load plugin: sqlalchemy.dialects:" ++ name
  | manyParts => "too many values to unpack (expected 2)"
  | noLibrary name => "No module named " ++ Text.quoted name
  | blocking name =>
    "The asyncio extension requires an async driver to be used. The loaded " ++ Text.quoted name ++ " is not async."
  | notAFile url =>
    "Invalid SQLite URL: " ++ url.masked ++ "\nValid SQLite URL forms are:\n sqlite:///:memory: (or, sqlite://)\n"
      ++ " sqlite:///relative/path/to/file.db\n sqlite:////absolute/path/to/file.db"
  | noFileName => "unsupported operand type(s) for +=: 'NoneType' and 'str'"
  | notAFlag text => "String is not true/false: " ++ Text.quoted text
  | notADecimal text => "could not convert string to float: " ++ Text.quoted text
  | manyDecimals => "float() argument must be a string or a real number, not 'tuple'"
  | integer error => error.message
  | hosts error => error.message

namespace Driver

/-- Drivers by their backend and name; `base` is what a backend takes by itself. -/
def known : List (List String × Driver) :=
  [(["postgresql", "psycopg"], .server), (["postgresql", "psycopg_async"], .server),
   (["postgresql", "base"], .server), (["postgresql", "psycopg2"], .absent "psycopg2"),
   (["postgresql", "asyncpg"], .absent "asyncpg"), (["postgresql", "pg8000"], .absent "pg8000"),
   (["postgresql", "psycopg2cffi"], .absent "psycopg2cffi"),
   (["sqlite", "aiosqlite"], .file), (["sqlite", "base"], .blockingFile), (["sqlite", "pysqlite"], .blockingFile),
   (["sqlite", "pysqlcipher"], .absent "pysqlcipher3"),
   (["oracle", "base"], .absent "oracledb"), (["oracle", "oracledb"], .absent "oracledb"),
   (["oracle", "oracledb_async"], .absent "oracledb"), (["oracle", "cx_oracle"], .absent "cx_Oracle"),
   (["mssql", "base"], .absent "pyodbc"), (["mssql", "pyodbc"], .absent "pyodbc"),
   (["mssql", "pymssql"], .absent "pymssql"), (["mssql", "aioodbc"], .absent "aioodbc"),
   (["mssql", "mssqlpython"], .absent "mssql_python")]

/-- The drivers of two backends that speak the same language. -/
def knownTwice : List (String × Driver) :=
  [("base", .absent "MySQLdb"), ("mysqldb", .absent "MySQLdb"), ("pymysql", .absent "pymysql"),
   ("aiomysql", .absent "aiomysql"), ("asyncmy", .absent "asyncmy"), ("cymysql", .absent "cymysql"),
   ("mysqlconnector", .absent "mysql"), ("mariadbconnector", .absent "mariadb"), ("pyodbc", .absent "pyodbc")]

def find? (backend driver : String) : Option Driver :=
  if backend = "mysql" || backend = "mariadb" then knownTwice.lookup driver
  else known.lookup [backend, driver]

def ofUrl (u : Url) : Except DriverError Driver := do
  let parts := Url.parts '+' u.driverName
  let found ← match parts with
    | [backend] => pure (find? backend "base")
    | [backend, driver] => pure (find? backend driver)
    | _ => .error .manyParts
  match found with
  | some driver => .ok driver
  | none => .error (.noDialect (".".intercalate parts))

/-! Files -/

def yesWords : List String := ["true", "yes", "on", "y", "t", "1"]

def noWords : List String := ["false", "no", "off", "n", "f", "0"]

/-- Several values are a yes, whatever they say. -/
def flag : List String → Except DriverError Bool
  | [text] =>
    let word := Text.lower (String.ofList (Text.strip text.toList))
    if yesWords.contains word then .ok true
    else if noWords.contains word then .ok false
    else .error (.notAFlag word)
  | values => .ok !values.isEmpty

def checkDecimal : List String → Except DriverError Unit
  | [] => .ok ()
  | [text] => if Decimal.isNumeral text then .ok () else .error (.notADecimal text)
  | _ => .error .manyDecimals

def checkInteger : List String → Except DriverError Unit
  | [] => .ok ()
  | [text] => ((Value.text text).toInt.map fun _ => ()).mapError .integer
  | _ => .error (.integer (.wrongType "tuple"))

/-- The query keys that are for the driver; all others are for the file. -/
def fileKeys : List String :=
  ["uri", "timeout", "isolation_level", "detect_types", "check_same_thread", "cached_statements"]

def isSet : Option String → Bool
  | some text => !text.isEmpty
  | none => false

/-- A file has a path and nothing else of a URL's parts. -/
def checkFile (u : Url) : Except DriverError Unit := do
  if isSet u.username || isSet u.host || isSet u.password || u.port.any (· != 0) then throw (.notAFile u)
  let named ← flag (u.values "uri")
  checkDecimal (u.values "timeout")
  checkInteger (u.values "detect_types")
  let _ ← flag (u.values "check_same_thread")
  checkInteger (u.values "cached_statements")
  if named && u.database.isNone && u.query.any (fun (key, _) => !fileKeys.contains key) then throw .noFileName

/-- What a URL has to be before its driver would connect. -/
def check (u : Url) : Except DriverError Unit := do
  match u.values "plugin" with
  | name :: _ => throw (.noPlugin name)
  | [] => pure ()
  match ← ofUrl u with
  | .server => u.checkHosts.mapError .hosts
  | .file => checkFile u
  | .blockingFile => do
    checkFile u
    throw (.blocking "pysqlite")
  | .absent library => throw (.noLibrary library)

end Driver
end Transact
