import Transact.Session.Basic

/-! The log records of a session. -/
namespace Transact.Session

variable {σ ρ : Type}

def logger : String := "postgres_uow.uow.session"

def own (s : Session σ ρ) (level : Int) (template : String) (error : Option Error) : Log.Record where
  logger := logger
  level := level
  template := template
  args := [.text s.id]
  error := error
  extra := [(Log.Record.sessionKey, .text s.id)]

def commitFailed (s : Session σ ρ) (e : Error) : Log.Record :=
  s.own 40 "Commit failed, rolling back session %s" (some e)

def rollbackFailed (s : Session σ ρ) (e : Error) : Log.Record :=
  s.own 40 "Rollback of session %s failed; discarding connection" (some e)

def releaseFailed (s : Session σ ρ) (e : Error) : Log.Record :=
  s.own 30 "Releasing connection of session %s failed; discarding it" (some e)

def discardFailed (s : Session σ ρ) (e : Error) : Log.Record :=
  s.own 40 "Discarding connection of session %s failed" (some e)

def leftScope (s : Session σ ρ) : Log.Record :=
  s.own 30 "Session %s left scope without commit/rollback; rolling back" none

def closeFailed (s : Session σ ρ) (e : Error) : Log.Record :=
  s.own 40 "Implicit rollback of session %s failed" (some e)

def closeNotified (s : Session σ ρ) (failures : Notification) : Log.Record :=
  { s.own 30 "Implicit rollback of session %s: %s" none with
    args := [.text s.id, .text (Error.notification failures).text] }

/-- A forgotten session has nobody to speak for it: its records carry no id of their own. -/
def forgotten (s : Session σ ρ) : Log.Record :=
  { s.own 30 "Session %s garbage collected while active; rolling back" none with extra := [] }

def forgottenOutside (s : Session σ ρ) : Log.Record :=
  { s.own 30 "Session %s garbage collected while active outside an event loop; the pool resets its connection" none with
    extra := [] }

def outcome (s : Session σ ρ) (failures : Option Notification) : Log.Record where
  logger := logger
  level := 20
  template := "Session %s %s (%d observers, %d failed)"
  args := [.text s.id, .text s.phase.name, .int s.registry.size, .int (failures.getD []).length]
  extra := [(Log.Record.sessionKey, .text s.id), ("state", .text s.phase.name)]
  timed := true

end Transact.Session
