import Transact.Driver
import Transact.Setting.Profile
import Transact.Url.Normalize

/-! Engines: where connections come from, and who has to close them. -/
namespace Transact

/-- How many connections a server is given; files need no pool. -/
structure PoolLimits where
  size : Int
  overflow : Int
  timeout : Int
deriving DecidableEq, Repr

structure EngineOptions where
  echo : Bool
  prePing : Bool
  pool : Option PoolLimits
deriving DecidableEq, Repr

inductive EngineError where
  | setting (error : Env.Error)
  | url (error : Url.Error)
  | integer (error : Value.IntegerError)
  | driver (error : DriverError)
deriving DecidableEq, Repr

def EngineError.message : EngineError → String
  | .setting error => error.message
  | .url error => error.message
  | .integer error => error.message
  | .driver error => error.message

namespace EngineOptions

def integer (v : Value) : Except EngineError Int := v.toInt.mapError .integer

def ofSettings (s : Settings) : Except EngineError EngineOptions := do
  let url ← ((Url.normalizeValue s.databaseUrl).bind Url.parse).mapError .url
  let pool ←
    if url.backend = "sqlite" then pure none
    else pure (some ⟨← integer s.poolSize, ← integer s.maxOverflow, ← integer s.poolTimeout⟩)
  return { echo := s.echo.holds, prePing := s.poolPrePing.holds, pool }

def fields (o : EngineOptions) : List (String × Value) :=
  [("echo", .bool o.echo), ("pool_pre_ping", .bool o.prePing)] ++
    match o.pool with
    | some p => [("pool_size", .int p.size), ("max_overflow", .int p.overflow), ("pool_timeout", .int p.timeout)]
    | none => []

end EngineOptions

structure Engine where
  url : Url
  options : EngineOptions

namespace Engine

def ofSettings (s : Settings) : Except EngineError Engine := do
  let url ← ((Url.normalizeValue s.databaseUrl).bind Url.parse).mapError .url
  let options ← EngineOptions.ofSettings s
  (Driver.check url).mapError .driver
  return { url, options }

/-- A pool of size zero has no limit, whatever overflow is asked for. -/
def overflow (p : PoolLimits) : Int := if p.size = 0 then -1 else p.overflow

end Engine

/-- Begins sessions on an engine's connections; owns the engine that it built itself. -/
structure UnitOfWork where
  owned : Option Engine

namespace UnitOfWork

def ofSettings (s : Settings) : Except EngineError UnitOfWork := return ⟨some (← Engine.ofSettings s)⟩

def ownsEngine (u : UnitOfWork) : Bool := u.owned.isSome

/-- Closes the pool of an engine of its own, once. -/
def dispose (_ : UnitOfWork) : UnitOfWork := ⟨none⟩

end UnitOfWork
end Transact
