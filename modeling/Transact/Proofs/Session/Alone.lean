import Transact.Proofs.Session.Implicit

/-! Statements that run alone, and requests that come to a session alone after its end. -/
namespace Transact.Session

variable {σ ρ ω : Type} {env : Surroundings σ ρ ω} {s t : Session σ ρ} {r : Request σ} {w : ω} {l : Lock}
  {p : Phase} {job fuel : Nat}

theorem carry_finish (answer : Except Error (Answer ρ)) :
    carry env job fuel ⟨s, [.finish answer], w⟩ = ⟨s, [.finish answer], w⟩ := by
  cases fuel <;> rfl

theorem carry_statement (fuel : Nat) (statement : σ) {answer : Except Error (Answer ρ)}
    (hstep : s.step (.reply job (env.call (.execute statement) w).1) = (t, [.finish answer])) :
    carry env job (fuel + 1) ⟨s, [.call (.execute statement)], w⟩ =
      ⟨t, [.call (.execute statement), .finish answer], (env.call (.execute statement) w).2⟩ := by
  have hrespond : respond env job [(.call (.execute statement) : Effect σ ρ)] w =
      (some (.reply job (env.call (.execute statement) w).1), (env.call (.execute statement) w).2) := rfl
  rw [carry, hrespond]
  simp only [hstep, carry_finish]
  rfl

/-- The reply ends the job, and gives the lock back as it was. -/
theorem step_reply (hfree : l.isFree = true) (outcome : Except Error ρ) :
    (s.joined p { l with holder := some s.jobs.length } r .forwarding).step (.reply s.jobs.length outcome) =
      (s.joined p l r (.done (outcome.map .reply)), [.finish (outcome.map .reply)]) := by
  have hrelease : ({ l with holder := some s.jobs.length } : Lock).release = (none, l) := release_held hfree
  simp only [step, atJob, joined_job]
  simp only [leave, unlock, finish, joined, hrelease, setStage, modify_last]
  rfl

/-- A statement that runs alone is one call, and answers what the call answers. -/
theorem alone_execute (hactive : s.phase = .active) (hfree : s.lock.isFree = true) (statement : σ) (w : ω) :
    s.alone env (.execute statement) w =
      ⟨s.joined s.phase s.lock (.execute statement) (.done ((env.call (.execute statement) w).1.map .reply)),
        [.opened s.jobs.length, .call (.execute statement),
          .finish ((env.call (.execute statement) w).1.map .reply)],
        (env.call (.execute statement) w).2⟩ := by
  have hrequest : s.step (.request (.execute statement)) =
      ({ s with jobs := s.jobs ++ [⟨.execute statement, .ready⟩] }, [.opened s.jobs.length]) := rfl
  have hlength : (s.jobs ++ [(⟨.execute statement, .ready⟩ : Job σ ρ)]).length ≠ s.jobs.length := by simp
  have hreply := carry_statement (s.registry.size + 4) statement
    (step_reply (s := s) (p := s.phase) (r := .execute statement) hfree (env.call (.execute statement) w).1)
  simp only [alone, hrequest, if_neg hlength, step_first hactive hfree (.execute statement)]
  simp only [Request.firstStage, Request.firstCall, steps, hreply]
  rfl

/-- Who comes too late is told so, and the connection is not asked. -/
theorem alone_late (env : Surroundings σ ρ ω) (hphase : s.phase.isTerminal = true) (hfree : s.lock.isFree = true)
    (hr : r.isImplicit = false) (w : ω) : s.alone env r w =
      ⟨s.joined s.phase s.lock r (.done (s.lateAnswer r)),
        [.opened s.jobs.length, .finish (s.lateAnswer r)], w⟩ := by
  have hrequest : s.step (.request r) =
      ({ s with jobs := s.jobs ++ [⟨r, .ready⟩] }, [.opened s.jobs.length]) := by
    cases r with
    | close | orphan => cases hr
    | _ => rfl
  have hlength : (s.jobs ++ [(⟨r, .ready⟩ : Job σ ρ)]).length ≠ s.jobs.length := by simp
  have hrelease : ({ s.lock with holder := some s.jobs.length } : Lock).release = (none, s.lock) :=
    release_held hfree
  have hrun : ({ s with jobs := s.jobs ++ [⟨r, .ready⟩] } : Session σ ρ).step (.run s.jobs.length) =
      (s.joined s.phase s.lock r (.done (s.lateAnswer r)), [.finish (s.lateAnswer r)]) := by
    simp only [step, atJob, List.getElem?_concat_length, run, Lock.request, hfree, if_true, granted_eq,
      hphase]
    simp only [leave, unlock, finish, hrelease, setStage, modify_last, joined]
    cases r <;> rfl
  simp only [alone, hrequest, if_neg hlength, hrun, carry_finish]
  rfl

end Transact.Session
