import Transact.Session.Step

/-! A session that runs alone: a request is carried from its start to its end with nothing else
in between, by surroundings that answer at once. -/
namespace Transact

/-- A connection and observers over a world `ω`; what a call other than a statement returns
means nothing. -/
structure Surroundings (σ ρ ω : Type) where
  call : Call σ → ω → Except Error ρ × ω
  hook : Hook → Observer → ω → Except Error Unit × ω

/-- A run of one request: the session after it, all effects in order, the world after it. -/
structure Run (σ ρ ω : Type) where
  session : Session σ ρ
  effects : List (Effect σ ρ)
  world : ω

namespace Run

variable {σ ρ ω : Type}

def answerIn : List (Effect σ ρ) → Option (Except Error (Answer ρ))
  | [] => none
  | .finish answer :: _ => some answer
  | _ :: rest => answerIn rest

/-- A request that opens no job is answered at once. -/
def answer (r : Run σ ρ ω) : Except Error (Answer ρ) := (answerIn r.effects).getD (.ok .nothing)

end Run

namespace Session

variable {σ ρ ω : Type}

/-- What the session gets to know of a call's outcome. -/
def outcomeOf (job : Nat) (call : Call σ) (outcome : Except Error ρ) : Input σ ρ :=
  match call with
  | .execute _ => .reply job outcome
  | _ => .settle job (outcome.map fun _ => ())

def respond (env : Surroundings σ ρ ω) (job : Nat) : List (Effect σ ρ) → ω → Option (Input σ ρ) × ω
  | [], w => (none, w)
  | .call call :: _, w =>
    let (outcome, w) := env.call call w
    (some (outcomeOf job call outcome), w)
  | .notify hook observer :: _, w =>
    let (outcome, w) := env.hook hook observer w
    (some (.settle job outcome), w)
  | _ :: rest, w => respond env job rest w

/-- Goes on from a job's latest effects until nothing is asked for. -/
def carry (env : Surroundings σ ρ ω) (job : Nat) : Nat → Run σ ρ ω → Run σ ρ ω
  | 0, run => run
  | fuel + 1, run =>
    match respond env job run.effects run.world with
    | (none, world) => { run with world }
    | (some i, world) =>
      let (session, effects) := run.session.step i
      let rest := carry env job fuel { session, effects, world }
      { rest with effects := run.effects ++ rest.effects }

/-- A job asks for four calls at most, and for one hook of each observer. -/
def steps (s : Session σ ρ) : Nat := s.registry.size + 5

def alone (env : Surroundings σ ρ ω) (s : Session σ ρ) (request : Request σ) (world : ω) : Run σ ρ ω :=
  let job := s.jobs.length
  let (s, opening) := s.step (.request request)
  if s.jobs.length = job then ⟨s, opening, world⟩ else
    let (session, effects) := s.step (.run job)
    let rest := carry env job s.steps { session, effects, world }
    { rest with effects := opening ++ rest.effects }

end Session
end Transact
