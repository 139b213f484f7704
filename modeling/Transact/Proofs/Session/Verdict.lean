import Transact.Proofs.Session.Implicit

/-! What comes of a commit or a rollback that runs alone, for every way in which its calls and the hooks
can fail: the calls that it makes, whom it tells then, and what it answers. -/
namespace Transact

variable {σ ρ ω : Type}

/-- A connection is released, and discarded only if that fails. -/
inductive GivenBack : List (Call σ × Except Error Unit) → Prop
  | released : GivenBack [(.release, .ok ())]
  | discarded (e : Error) (outcome : Except Error Unit) :
      GivenBack [(.release, .error e), (.discard, outcome)]

/-- The ways of an explicit end: the calls with their outcomes, where the transaction stands then, and
the answer to one who is told of these failures of the hooks. -/
inductive Verdict (failures : Option Notification) : Request σ → List (Call σ × Except Error Unit) →
    Phase → Except Error (Answer ρ) → Prop
  | committed {back : List (Call σ × Except Error Unit)} : GivenBack back →
      Verdict failures .commit ((.commit, .ok ()) :: back) .committed
        (.ok (.finalized .committed failures))
  | commitFailed {e : Error} {back : List (Call σ × Except Error Unit)} : GivenBack back →
      Verdict failures .commit ((.commit, .error e) :: (.rollback, .ok ()) :: back) .rolledBack
        (.error (.commitFailed e none failures))
  | bothFailed {e e' : Error} {outcome : Except Error Unit} :
      Verdict failures .commit [(.commit, .error e), (.rollback, .error e'), (.discard, outcome)]
        .rolledBack (.error (.commitFailed e (some e') failures))
  | rolledBack {back : List (Call σ × Except Error Unit)} : GivenBack back →
      Verdict failures .rollback ((.rollback, .ok ()) :: back) .rolledBack
        (.ok (.finalized .rolledBack failures))
  | rollbackFailed {e : Error} {outcome : Except Error Unit} :
      Verdict failures .rollback [(.rollback, .error e), (.discard, outcome)] .rolledBack
        (.error (.rollbackFailed e failures))

namespace Request

/-- The phase that an explicit end is meant to reach. -/
def goal : Request σ → Phase
  | commit => .committed
  | _ => .rolledBack

/-- What is raised where the end is not reached. -/
def failureName : Request σ → String
  | commit => "CommitError"
  | _ => "RollbackError"

end Request

theorem GivenBack.not_end {back : List (Call σ × Except Error Unit)} (hback : GivenBack back)
    {c : Call σ} (hc : c = .commit ∨ c = .rollback) (outcome : Except Error Unit) : (c, outcome) ∉ back := by
  cases hback <;> rcases hc with rfl | rfl <;> simp

namespace Verdict

variable {failures : Option Notification} {r : Request σ} {log : List (Call σ × Except Error Unit)}
  {p : Phase} {answer : Except Error (Answer ρ)} {e e' : Error}

/-- It answers with a result just where its own call went well. -/
theorem returned_iff (h : Verdict failures r log p answer) (n : Option Notification) :
    answer = .ok (.finalized r.goal n) ↔ (r.firstCall, .ok ()) ∈ log ∧ n = failures := by
  cases h with
  | committed hback | rolledBack hback =>
    simp [Request.goal, Request.firstCall, eq_comm]
  | commitFailed hback =>
    simp [Request.firstCall, hback.not_end (.inl rfl)]
  | bothFailed | rollbackFailed => simp [Request.firstCall]

/-- Where its own call failed, that is the cause of what is raised. -/
theorem raised (h : Verdict failures r log p answer) (hfailed : (r.firstCall, .ok ()) ∉ log) :
    ∃ e raised : Error, (r.firstCall, .error e) ∈ log ∧ answer = .error raised ∧
      raised.cause? = some e ∧ raised.name = r.failureName := by
  cases h with
  | committed hback | rolledBack hback => exact absurd List.mem_cons_self hfailed
  | commitFailed | bothFailed | rollbackFailed => exact ⟨_, _, List.mem_cons_self, rfl, rfl, rfl⟩

/-- Where the rollback that makes up for a commit fails too, the message tells both. -/
theorem told_both (h : Verdict failures .commit log p answer) (he : (.commit, .error e) ∈ log)
    (he' : (.rollback, .error e') ∈ log) : ∃ raised : Error, answer = .error raised ∧ raised.text =
      "Commit failed: " ++ e.text ++ "; compensating rollback failed too (" ++ e'.text ++
        "), connection discarded" := by
  cases h with
  | committed hback | commitFailed hback => simp [hback.not_end] at he'
  | bothFailed =>
    obtain rfl : e = _ := by simpa using he
    obtain rfl : e' = _ := by simpa using he'
    exact ⟨_, rfl, rfl⟩

end Verdict

namespace Surroundings

variable (env : Surroundings σ ρ ω)

/-- Calls made one after the other, each with its outcome. -/
def tellAll : List (Call σ) → ω → List (Call σ × Except Error Unit) × ω
  | [], w => ([], w)
  | c :: rest, w =>
    let told := env.tell c w
    let others := tellAll rest told.2
    ((c, told.1) :: others.1, others.2)

/-- Hooks called one after the other, each with its outcome. -/
def hookAll (hook : Hook) : List Observer → ω → List (Observer × Except Error Unit) × ω
  | [], w => ([], w)
  | o :: rest, w =>
    let told := env.hook hook o w
    let others := hookAll hook rest told.2
    ((o, told.1) :: others.1, others.2)

end Surroundings

/-- The failures of hooks, in the order of the calls. -/
def failuresOf (hook : Hook) (told : List (Observer × Except Error Unit)) : Notification :=
  told.filterMap fun
    | (o, .error e) => some (.mk o.name o.className hook.name e)
    | (_, .ok ()) => none

namespace Surroundings

variable {env : Surroundings σ ρ ω} {w w' : ω} {ending : Ending}

/-- The outcomes of a finale are those that the calls have when they are made in its order. -/
def Plays (env : Surroundings σ ρ ω) (w : ω) (f : Finale σ ω) : Prop :=
  env.tellAll (f.log.map Prod.fst) w = (f.log, f.world)

theorem plays_after {c : Call σ} {outcome : Except Error Unit} {f : Finale σ ω}
    (houtcome : env.tell c w = (outcome, w')) (hf : env.Plays w' f) : env.Plays w (f.after (c, outcome)) := by
  simp only [Plays, Finale.after, List.map_cons, tellAll, houtcome]
  rw [show env.tellAll (f.log.map Prod.fst) w' = (f.log, f.world) from hf]

theorem plays_discard : env.Plays w (env.discard ending w) := rfl

theorem plays_release : env.Plays w (env.release ending w) := by
  unfold release
  split
  case h_1 houtcome => exact plays_after (f := ⟨[], ending, _⟩) houtcome rfl
  case h_2 houtcome => exact plays_after houtcome plays_discard

theorem plays_rollBack (commit : Option Error) : env.Plays w (env.rollBack commit w) := by
  unfold rollBack
  split
  case h_1 houtcome => exact plays_after houtcome plays_release
  case h_2 houtcome => exact plays_after houtcome plays_discard

theorem plays_finale (r : Request σ) : env.Plays w (env.finale w r) := by
  cases r with
  | commit =>
    simp only [finale]
    split
    case h_1 houtcome => exact plays_after houtcome plays_release
    case h_2 houtcome => exact plays_after houtcome (plays_rollBack _)
  | _ => exact plays_rollBack none

theorem announce_eq (hook : Hook) (failures : Notification) (observers : List Observer) (w : ω) :
    env.announce hook failures observers w =
      (failures ++ failuresOf hook (env.hookAll hook observers w).1, (env.hookAll hook observers w).2) := by
  induction observers generalizing failures w with
  | nil => simp [announce, hookAll, failuresOf]
  | cons o rest ih =>
    rcases houtcome : env.hook hook o w with ⟨outcome, w'⟩
    cases outcome <;> simp [announce, hookAll, houtcome, ih, failuresOf]

theorem release_log : GivenBack (env.release ending w).log := by
  unfold release
  split
  · exact .released
  · exact .discarded _ _

end Surroundings

namespace Session

variable {env : Surroundings σ ρ ω} {s : Session σ ρ} {r : Request σ} {w : ω}

theorem verdict_finale (hr : r = .commit ∨ r = .rollback) (failures : Option Notification) :
    Verdict failures r (env.finale w r).log (env.finale w r).ending.phase
      (({ s with phase := (env.finale w r).ending.phase } : Session σ ρ).conclusion failures r
        (env.finale w r).ending) := by
  rcases hr with rfl | rfl
  case inl =>
    rcases hcommit : env.tell .commit w with ⟨e | _, w'⟩
    case error =>
      rcases hrollback : env.tell .rollback w' with ⟨e' | _, w''⟩
      case error =>
        simp only [Surroundings.finale, Surroundings.rollBack, hcommit, hrollback]
        exact .bothFailed
      case ok =>
        simp only [Surroundings.finale, Surroundings.rollBack, hcommit, hrollback, Finale.after,
          release_ending]
        exact .commitFailed Surroundings.release_log
    case ok =>
      simp only [Surroundings.finale, hcommit, Finale.after, release_ending]
      exact .committed Surroundings.release_log
  case inr =>
    rcases hrollback : env.tell .rollback w with ⟨e | _, w'⟩
    case error =>
      simp only [Surroundings.finale, Surroundings.rollBack, hrollback]
      exact .rollbackFailed
    case ok =>
      simp only [Surroundings.finale, Surroundings.rollBack, hrollback, Finale.after, release_ending]
      exact .rolledBack Surroundings.release_log

/-- What a commit or a rollback that runs alone comes to: `log` are its calls with their outcomes, and
`told` are the observers with what came of telling them. -/
structure Concludes (env : Surroundings σ ρ ω) (s : Session σ ρ) (r : Request σ) (w : ω)
    (log : List (Call σ × Except Error Unit)) (told : List (Observer × Except Error Unit))
    (run : Run σ ρ ω) : Prop where
  calls : run.calls = log.map Prod.fst
  /-- Each call is answered in the world that the one before has left. -/
  outcomes : (env.tellAll run.calls w).1 = log
  /-- The observers are told in the world that the calls have left, and theirs is what remains. -/
  hooks : env.hookAll run.session.phase.hook s.registry.observers (env.tellAll run.calls w).2 =
    (told, run.world)
  hookCalls : run.hookCalls = s.registry.observers.map (run.session.phase.hook, ·)
  session : run.session = s.joined run.session.phase s.lock r (.done run.answer)
  verdict : Verdict (noted (failuresOf run.session.phase.hook told)) r log run.session.phase run.answer
  /-- It returns just if its own call went well, with all failures of the hooks. -/
  returned : ∀ n, run.answer = .ok (.finalized r.goal n) ↔
    (r.firstCall, .ok ()) ∈ log ∧ n = noted (failuresOf run.session.phase.hook told)
  /-- Otherwise it raises what its own call failed by. -/
  raised : (r.firstCall, .ok ()) ∉ log → ∃ e raised : Error, (r.firstCall, .error e) ∈ log ∧
    run.answer = .error raised ∧ raised.cause? = some e ∧ raised.name = r.failureName
  /-- A rollback that fails after a failed commit is told of as well. -/
  told_both : ∀ e e', r = .commit → (.commit, .error e) ∈ log → (.rollback, .error e') ∈ log →
    ∃ raised : Error, run.answer = .error raised ∧ raised.text =
      "Commit failed: " ++ e.text ++ "; compensating rollback failed too (" ++ e'.text ++
        "), connection discarded"

theorem explicit_outcome (env : Surroundings σ ρ ω) (henv : env.IsOrdinary) (s : Session σ ρ)
    (hactive : s.phase = .active) (hfree : s.lock.isFree = true) (r : Request σ)
    (hr : r = .commit ∨ r = .rollback) (w : ω) :
    ∃ log told, s.Concludes env r w log told (s.alone env r w) := by
  have hending : r.isEnding = true := by rcases hr with rfl | rfl <;> rfl
  have hrun := alone_finale (w := w) henv hactive hfree hending
  let f := env.finale w r
  have hplays : env.tellAll (f.log.map Prod.fst) w = (f.log, f.world) := Surroundings.plays_finale r
  have hphase : (s.alone env r w).session.phase = f.ending.phase := congrArg Session.phase hrun.session
  have hhook : (s.alone env r w).session.phase.hook = f.ending.hook := by rw [hphase, Ending.phase_hook]
  have hcalls : (s.alone env r w).calls = f.log.map Prod.fst := hrun.calls
  let told := (env.hookAll f.ending.hook s.registry.observers f.world).1
  have hannounce : env.announce f.ending.hook [] s.registry.observers f.world =
      (failuresOf f.ending.hook told, (env.hookAll f.ending.hook s.registry.observers f.world).2) := by
    simp [Surroundings.announce_eq, told]
  have hanswer : (s.alone env r w).answer = ({ s with phase := f.ending.phase } : Session σ ρ).conclusion
      (noted (failuresOf f.ending.hook told)) r f.ending := by
    rw [hrun.answer, hannounce]
  have hverdict : Verdict (noted (failuresOf f.ending.hook told)) r f.log f.ending.phase
      (s.alone env r w).answer := hanswer ▸ verdict_finale hr _
  refine ⟨f.log, told, ?_⟩
  constructor
  case calls => exact hcalls
  case outcomes => rw [hcalls, hplays]
  case hooks =>
    rw [hhook, hcalls, hplays, hrun.world, hannounce]
  case hookCalls => rw [hhook]; exact hrun.hookCalls
  case session =>
    rw [hphase, hrun.answer]
    exact hrun.session
  case verdict => rw [hhook, hphase]; exact hverdict
  case returned => rw [hhook]; exact hverdict.returned_iff
  case raised => exact hverdict.raised
  case told_both =>
    rintro e e' rfl he he'
    exact hverdict.told_both he he'

/-- The commit fails, the rollback that makes up for it, the discard, and the first hook. -/
def ruin : Surroundings Unit Unit Nat where
  call c n := (match c with
    | .commit => .error (.given .driver [.text "lost"] none)
    | .rollback | .discard => .error (.given .driver [.text "gone"] none)
    | _ => .ok (), n + 1)
  hook _ o n := (if o.key = 0 then .error (.given .value [] none) else .ok (), n + 1)

theorem ruin_isOrdinary : ruin.IsOrdinary := by
  refine ⟨fun c n e _ he => ?_, fun hook o n e he => ?_⟩
  · cases c <;> cases he <;> rfl
  · simp only [ruin] at he
    split at he <;> cases he
    rfl

theorem explicit_outcome_ruin :
    ruin.IsOrdinary ∧ watched.phase = .active ∧ watched.lock.isFree = true ∧
      (∃ log told, watched.Concludes ruin .commit 0 log told (watched.alone ruin .commit 0)) ∧
      (watched.alone ruin .commit 0).calls = [.commit, .rollback, .discard] ∧
      (watched.alone ruin .commit 0).world = 5 ∧
      (watched.alone ruin .commit 0).answer = .error (.commitFailed (.given .driver [.text "lost"] none)
        (some (.given .driver [.text "gone"] none))
        (some [.mk "a" "A" "on_rollback" (.given .value [] none)])) :=
  ⟨ruin_isOrdinary, rfl, rfl, explicit_outcome ruin ruin_isOrdinary watched rfl rfl .commit (.inl rfl) 0,
    rfl, rfl, rfl⟩

end Session
end Transact
