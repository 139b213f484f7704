import Transact.Proofs.Session.Jobs
import Transact.Proofs.Session.Rounds
import Transact.Proofs.Session.Twins
import Transact.Session.Scope

/-! A session that is left or forgotten ends as one that is rolled back: the same calls and hooks,
whatever they answer and whatever comes between. Only what is reported of it differs. -/
namespace Transact

variable {σ ρ ω : Type}

/-- No statement is under way, and what has ended has ended well. -/
def Stage.IsCalm : Stage ρ → Prop
  | .forwarding => False
  | .done answer => answer = .ok .nothing
  | _ => True

namespace Session

variable {s t : Session σ ρ} {i : Input σ ρ} {effects : List (Effect σ ρ)} {k : Nat} {r : Request σ}
  {old : Stage ρ} {env : Surroundings σ ρ ω} {w : ω}

/-! What an implicit end answers -/

theorem eq_of_isImplicit (hr : r.isImplicit = true) : r = .close ∨ r = .orphan := by
  cases r with
  | close => exact .inl rfl
  | orphan => exact .inr rfl
  | _ => cases hr

theorem roundStage_calm {ending : Ending} {next : Round.Next} (hr : r.isImplicit = true)
    (hnext : ∀ e, next ≠ .aborted e) : (s.roundStage r ending next).IsCalm := by
  cases next with
  | call round => trivial
  | ended failures => rcases eq_of_isImplicit hr with rfl | rfl <;> rfl
  | aborted e => exact absurd rfl (hnext e)

theorem lateAnswer_of_isImplicit (hr : r.isImplicit = true) : s.lateAnswer r = .ok .nothing := by
  rcases eq_of_isImplicit hr with rfl | rfl <;> rfl

theorem firstStage_of_isImplicit (hr : r.isImplicit = true) :
    (r.firstStage : Stage ρ) = .rollingBack none := by
  rcases eq_of_isImplicit hr with rfl | rfl <;> rfl

/-- Nothing but the loss of its own task keeps an implicit end from ending well. -/
theorem calm_change (hchange : Change s i t effects) (hordinary : i.isOrdinary = true)
    (hkept : i ≠ .interrupt k) (hr : r.isImplicit = true) (hk : s.jobs[k]? = some ⟨r, old⟩)
    (hold : old.IsCalm) : ∃ st, t.jobs[k]? = some ⟨r, st⟩ ∧ st.IsCalm := by
  by_cases hi : i.job? = some k
  swap
  · exact ⟨old, job_stays hchange hk hi, hold⟩
  have hone {r' : Request σ} {st : Stage ρ} (hj : s.jobs[k]? = some ⟨r', st⟩) : r' = r ∧ st = old := by
    rw [hk] at hj
    cases hj
    exact ⟨rfl, rfl⟩
  cases hchange with
  | idle => exact ⟨old, hk, hold⟩
  | queued hj | committed hj | commitFailed hj | rolledBack hj | rollbackFailed hj | releaseFailed hj =>
    cases hi
    obtain ⟨rfl, -⟩ := hone hj
    exact ⟨_, job_moved hj, trivial⟩
  | late hj hl =>
    cases hi
    obtain ⟨rfl, -⟩ := hone hj
    exact ⟨_, job_moved hj, lateAnswer_of_isImplicit hr⟩
  | granted hj hl =>
    cases hi
    obtain ⟨rfl, -⟩ := hone hj
    exact ⟨_, job_moved hj, by rw [firstStage_of_isImplicit hr]; trivial⟩
  | cancelled hj | left hj =>
    cases hi
    exact absurd rfl hkept
  | replied hj =>
    cases hi
    obtain ⟨-, rfl⟩ := hone hj
    exact hold.elim
  | broken hj hphysical he =>
    rw [Input.isOrdinary, he] at hordinary
    cases hordinary
  | announced records hj =>
    cases hi
    obtain ⟨rfl, -⟩ := hone hj
    exact ⟨_, job_moved hj, roundStage_calm hr (start_ne_aborted _ _)⟩
  | notified hj =>
    cases hi
    obtain ⟨rfl, -⟩ := hone hj
    exact ⟨_, job_moved hj, roundStage_calm hr (settle_ne_aborted hordinary)⟩
  | _ => cases hi

theorem calm_run {inputs : List (Input σ ρ)}
    (hordinary : ∀ i ∈ inputs, i.isOrdinary = true ∧ i ≠ .interrupt k) (hr : r.isImplicit = true)
    (hk : s.jobs[k]? = some ⟨r, old⟩) (hold : old.IsCalm) :
    ∃ st, (s.after inputs).jobs[k]? = some ⟨r, st⟩ ∧ st.IsCalm := by
  induction inputs generalizing s old with
  | nil => exact ⟨old, hk, hold⟩
  | cons i rest ih =>
    obtain ⟨hi, hkept⟩ := hordinary i List.mem_cons_self
    obtain ⟨st, hst, hcalm⟩ := calm_change (step_change s i) hi hkept hr hk hold
    exact ih (fun i hi => hordinary i (List.mem_cons_of_mem _ hi)) hst hcalm

/-! A session that has ended -/

theorem step_ended (hphase : s.phase.isTerminal = true) (hr : r.isImplicit = true) :
    s.step (.request r) = (s, []) := by
  have hactive : s.isActive = false := by
    simpa [isActive] using Phase.isTerminal_iff.mp hphase
  rcases eq_of_isImplicit hr with rfl | rfl <;> simp [step, receive, hactive]

theorem alone_ended (hphase : s.phase.isTerminal = true) (hr : r.isImplicit = true)
    (env : Surroundings σ ρ ω) (w : ω) : s.alone env r w = ⟨s, [], w⟩ := by
  simp only [alone, step_ended hphase hr, if_true]

theorem after_ended (hphase : s.phase.isTerminal = true) {requests : List (Request σ)}
    (hrequests : ∀ r ∈ requests, r.isImplicit = true) :
    s.after (requests.map .request) = s ∧ ∀ m ∈ s.history (requests.map .request), m.effects = [] := by
  induction requests with
  | nil => exact ⟨rfl, by simp [history]⟩
  | cons r rest ih =>
    have hstep := step_ended hphase (hrequests r List.mem_cons_self)
    obtain ⟨hafter, heffects⟩ := ih fun r hr => hrequests r (List.mem_cons_of_mem _ hr)
    simp only [List.map_cons, after, history, moment, hstep]
    refine ⟨hafter, fun m hm => ?_⟩
    rcases List.mem_cons.mp hm with rfl | hm
    · rfl
    · exact heffects m hm

/-! The end that a rollback reaches -/

theorem release_ending (ending : Ending) : (env.release ending w).ending = ending := by
  unfold Surroundings.release
  split <;> rfl

theorem rollBack_phase (commit : Option Error) : (env.rollBack commit w).ending.phase = .rolledBack := by
  unfold Surroundings.rollBack
  split
  · simp only [Finale.after, release_ending]
    rfl
  · rfl

theorem finale_of_isImplicit (hr : r.isImplicit = true) : env.finale w r = env.rollBack none w := by
  rcases eq_of_isImplicit hr with rfl | rfl <;> rfl

theorem conclusion_of_isImplicit (hr : r.isImplicit = true) (failures : Option Notification)
    (ending : Ending) : s.conclusion failures r ending = .ok .nothing := by
  rcases eq_of_isImplicit hr with rfl | rfl <;> rfl

/-- An implicit end against an explicit rollback of the same session. -/
structure AsRollback (env : Surroundings σ ρ ω) (s : Session σ ρ) (r : Request σ) : Prop where
  /-- Whatever else is asked of the session, and whatever fails, the two do the same. -/
  anytime : s.phase = .active → ∀ more : List (Input σ ρ),
    (s.after (.request r :: more)).Twins (s.after (.request .rollback :: more)) ∧
      (s.history (.request r :: more)).deeds = (s.history (.request .rollback :: more)).deeds
  calm : s.phase = .active → ∀ (more : List (Input σ ρ)) (answer : Except Error (Answer ρ)),
    (∀ i ∈ more, i.isOrdinary = true ∧ i ≠ .interrupt s.jobs.length) →
      (s.after (.request r :: more)).stage? s.jobs.length = some (.done answer) → answer = .ok .nothing
  alone : s.phase = .active → ∀ w, (s.alone env r w).Alike (s.alone env .rollback w) ∧
    (s.alone env r w).calls = (s.alone env .rollback w).calls ∧
    (s.alone env r w).hookCalls = (s.alone env .rollback w).hookCalls
  /-- Alone it comes to its end. -/
  ends : s.phase = .active → s.lock.isFree = true → ∀ w,
    (s.alone env r w).session = s.joined .rolledBack s.lock r (.done (.ok .nothing)) ∧
      (s.alone env r w).calls = (env.rollBack none w).log.map Prod.fst ∧
      (s.alone env r w).hookCalls = s.registry.observers.map (.onRollback, ·) ∧
      (s.alone env r w).answer = .ok .nothing
  ended : s.phase.isTerminal = true → (∀ w, s.alone env r w = ⟨s, [], w⟩) ∧
    ∀ requests : List (Request σ), (∀ q ∈ requests, q.isImplicit = true) →
      s.after (requests.map .request) = s ∧ ∀ m ∈ s.history (requests.map .request), m.effects = []
  /-- Leaving the scope closes the session and passes on how the block ended. -/
  exit : s.phase.isTerminal = true ∨ s.lock.isFree = true → ∀ (α : Type) (outcome : Except Error α) (w : ω),
    s.exit env outcome w = (s.alone env .close w, outcome)

theorem ends_alone (henv : env.IsOrdinary) (hactive : s.phase = .active) (hfree : s.lock.isFree = true)
    (hr : r.isImplicit = true) (w : ω) :
    (s.alone env r w).Ends (s.joined .rolledBack s.lock r (.done (.ok .nothing)))
      ((env.rollBack none w).log.map Prod.fst) (s.registry.observers.map (.onRollback, ·))
      (env.announce .onRollback [] s.registry.observers (env.rollBack none w).world).2 (.ok .nothing) := by
  have hending : r.isEnding = true := by rcases eq_of_isImplicit hr with rfl | rfl <;> rfl
  have hrun := alone_finale (w := w) henv hactive hfree hending
  have hphase : (env.rollBack none w).ending.phase = .rolledBack := rollBack_phase none
  have hhook : (env.rollBack none w).ending.hook = .onRollback := by
    rw [← Ending.phase_hook, hphase]
    rfl
  simp only [Performs, finale_of_isImplicit hr, conclusion_of_isImplicit hr, hphase, hhook] at hrun
  exact hrun

/-- Closing never fails, so the end of the block is passed on. -/
theorem exit_eq {α : Type} (henv : env.IsOrdinary)
    (hstands : s.phase.isTerminal = true ∨ s.lock.isFree = true) (outcome : Except Error α) (w : ω) :
    s.exit env outcome w = (s.alone env .close w, outcome) := by
  have hanswer : (s.alone env .close w).answer = .ok .nothing := by
    by_cases hactive : s.phase = .active
    · have hfree := hstands.resolve_left (by simp [hactive, Phase.isTerminal])
      exact (ends_alone henv hactive hfree rfl w).answer
    · rw [alone_ended (Phase.isTerminal_iff.mpr hactive) rfl]
      rfl
  simp only [Session.exit, hanswer]
  rfl

theorem implicit_as_rollback (env : Surroundings σ ρ ω) (henv : env.IsOrdinary) (s : Session σ ρ)
    (r : Request σ) (hr : r.isImplicit = true) : s.AsRollback env r := by
  have hplain : r.plain = (Request.rollback : Request σ).plain := by
    rcases eq_of_isImplicit hr with rfl | rfl <;> rfl
  constructor
  case anytime =>
    intro hactive more
    obtain ⟨hsession, hdeeds⟩ := (Twins.refl s).request hactive hplain
    obtain ⟨hafter, hrest⟩ := hsession.run_same more
    exact ⟨hafter, congrArg₂ (· ++ ·) hdeeds hrest⟩
  case calm =>
    intro hactive more answer hordinary hdone
    have hrequest := step_request (ρ := ρ) hactive r
    have hk : (s.step (.request r)).1.jobs[s.jobs.length]? = some ⟨r, .ready⟩ := by simp [hrequest]
    obtain ⟨st, hst, hcalm⟩ := calm_run hordinary hr hk trivial
    have hsame := (stage?_eq hst).symm.trans hdone
    cases hsame
    exact hcalm
  case alone =>
    intro hactive w
    have hsame := alone_alike hactive hplain env w
    exact ⟨hsame, hsame.calls, hsame.hookCalls⟩
  case ends =>
    intro hactive hfree w
    have hrun := ends_alone henv hactive hfree hr w
    exact ⟨hrun.session, hrun.calls, hrun.hookCalls, hrun.answer⟩
  case ended =>
    intro hphase
    exact ⟨alone_ended hphase hr env, fun requests hrequests => after_ended hphase hrequests⟩
  case exit => exact fun hstands α outcome w => exit_eq henv hstands outcome w

/-- The rollback fails, the discard that follows fails, and so does the first hook. -/
def wreck : Surroundings Unit Unit Unit where
  call c w := (match c with
    | .rollback | .discard => .error (.given .driver [] none)
    | _ => .ok (), w)
  hook _ o w := (if o.key = 0 then .error (.given .driver [] none) else .ok (), w)

def watched : Session Unit Unit where
  id := "s"
  registry := ⟨[⟨0, "a", "A"⟩, ⟨1, "b", "B"⟩]⟩

theorem wreck_isOrdinary : wreck.IsOrdinary := by
  refine ⟨fun c w e _ he => ?_, fun hook o w e he => ?_⟩
  · cases c <;> cases he <;> rfl
  · simp only [wreck] at he
    split at he <;> cases he
    rfl

theorem implicit_as_rollback_wreck :
    wreck.IsOrdinary ∧ (Request.close : Request Unit).isImplicit = true ∧
      watched.AsRollback wreck .close ∧
      (watched.alone wreck .close ()).calls = [.rollback, .discard] ∧
      (watched.alone wreck .close ()).answer = .ok .nothing ∧
      (watched.alone wreck .rollback ()).answer = .error (.rollbackFailed (.given .driver [] none)
        (some [.mk "a" "A" "on_rollback" (.given .driver [] none)])) :=
  ⟨wreck_isOrdinary, rfl, implicit_as_rollback wreck wreck_isOrdinary watched .close rfl, rfl, rfl, rfl⟩

end Session
end Transact
