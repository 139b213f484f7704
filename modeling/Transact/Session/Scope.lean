import Transact.Session.Alone
import Transact.Session.Opening

/-! Scopes: a session is begun for a block, and closed when the block is left, however it ended. -/
namespace Transact

/-- A block with a session, by what it brings about: all that happens to the session until the block
ends, in order, and how it ends. -/
structure Block (σ ρ α : Type) where
  inputs : List (Input σ ρ)
  outcome : Except Error α

/-- What comes of a scope: the closing of its session, if one was begun, and what the caller sees. -/
structure Scope (σ ρ ω α : Type) where
  closing : Option (Run σ ρ ω)
  outcome : Except Error α

variable {σ ρ ω α : Type}

/-- The end of the block is passed on, unless closing the session fails. -/
def Session.exit (env : Surroundings σ ρ ω) (s : Session σ ρ) (outcome : Except Error α) (world : ω) :
    Run σ ρ ω × Except Error α :=
  let run := s.alone env .close world
  (run, run.answer.bind fun _ => outcome)

/-- The block runs if its session could be begun; `world` is how it leaves the surroundings. -/
def Block.scope (block : Block σ ρ α) (opening : Opening.Attempt) (env : Surroundings σ ρ ω) (id : String)
    (world : ω) : Scope σ ρ ω α :=
  match opening.outcome with
  | .error e => ⟨none, .error e⟩
  | .ok () =>
    let s := (({ id } : Session σ ρ).trace block.inputs).1
    let (run, outcome) := s.exit env block.outcome world
    ⟨some run, outcome⟩

end Transact
