import Mathlib.Data.List.Induction
import Transact.Proofs.Session.Sound

/-! Runs of a session as lists of history, and what they tell: the calls made, the answers to them,
the hooks called. What a moment adds to each follows from what a step can do. -/
namespace Transact

variable {σ ρ : Type}

/-- Nothing fails but by an ordinary error. -/
def Input.isOrdinary : Input σ ρ → Bool
  | .settle _ (.error e) => e.isOrdinary
  | _ => true

/-- One input of a run, between the session that it met and the session that it left. -/
structure Moment (σ ρ : Type) where
  before : Session σ ρ
  input : Input σ ρ
  effects : List (Effect σ ρ)
  after : Session σ ρ

namespace Moment

/-- The job that the input moves. -/
def job? (m : Moment σ ρ) : Option Nat := m.input.job?

def calls (m : Moment σ ρ) : List (Call σ) := m.effects.filterMap Effect.call?

def hookCalls (m : Moment σ ρ) : List (Hook × Observer) := m.effects.filterMap Effect.hookCall?

/-- The call that ends, and how. -/
def answered (m : Moment σ ρ) : Option (Call σ × Except Error Unit) := m.before.answered m.input

/-- The job that gets the lock, with its request. -/
def granted? (m : Moment σ ρ) : Option (Nat × Request σ) := m.before.granted? m.input

end Moment

abbrev History (σ ρ : Type) := List (Moment σ ρ)

namespace History

def calls (h : History σ ρ) : List (Call σ) := h.flatMap Moment.calls

/-- The calls that have ended, in order, each with its outcome. -/
def log (h : History σ ρ) : List (Call σ × Except Error Unit) := h.filterMap Moment.answered

def hookCalls (h : History σ ρ) : List (Hook × Observer) := h.flatMap Moment.hookCalls

variable {h : History σ ρ} {m : Moment σ ρ}

@[simp] theorem calls_nil : calls ([] : History σ ρ) = [] := rfl
@[simp] theorem log_nil : log ([] : History σ ρ) = [] := rfl
@[simp] theorem hookCalls_nil : hookCalls ([] : History σ ρ) = [] := rfl

theorem calls_concat : (h ++ [m] : History σ ρ).calls = h.calls ++ m.calls := by
  simp [calls]

theorem log_concat : (h ++ [m] : History σ ρ).log = h.log ++ m.answered.toList := by
  cases hm : m.answered <;> simp [log, hm]

theorem hookCalls_concat : (h ++ [m] : History σ ρ).hookCalls = h.hookCalls ++ m.hookCalls := by
  simp [hookCalls]

end History

/-- Where a transaction stands after a call on its connection has ended. -/
def Phase.next (p : Phase) : Option (Call σ × Except Error Unit) → Phase
  | some (.commit, .ok ()) => .committed
  | some (.rollback, .ok ()) => .rolledBack
  | some (.rollback, .error e) => if e.isOrdinary then .rolledBack else p
  | _ => p

namespace Session

variable {s t : Session σ ρ} {i : Input σ ρ} {effects : List (Effect σ ρ)}
  {job : Nat} {r : Request σ} {st old : Stage ρ} {l : Lock}

def moment (s : Session σ ρ) (i : Input σ ρ) : Moment σ ρ := ⟨s, i, (s.step i).2, (s.step i).1⟩

def after (s : Session σ ρ) : List (Input σ ρ) → Session σ ρ
  | [] => s
  | i :: rest => (s.step i).1.after rest

def history (s : Session σ ρ) : List (Input σ ρ) → History σ ρ
  | [] => []
  | i :: rest => s.moment i :: (s.step i).1.history rest

theorem trace_eq (s : Session σ ρ) (inputs : List (Input σ ρ)) :
    s.trace inputs = (s.after inputs, (s.history inputs).map fun m => (m.input, m.effects)) := by
  induction inputs generalizing s with
  | nil => rfl
  | cons i rest ih => simp [trace, after, history, moment, ih]

theorem after_append (s : Session σ ρ) (xs ys : List (Input σ ρ)) :
    s.after (xs ++ ys) = (s.after xs).after ys := by
  induction xs generalizing s with
  | nil => rfl
  | cons i rest ih => exact ih _

theorem history_append (s : Session σ ρ) (xs ys : List (Input σ ρ)) :
    s.history (xs ++ ys) = s.history xs ++ (s.after xs).history ys := by
  induction xs generalizing s with
  | nil => rfl
  | cons i rest ih => exact congrArg (s.moment i :: ·) (ih _)

/-- Every moment of a run comes after a shorter run. -/
theorem history_split {inputs : List (Input σ ρ)} {pre post : History σ ρ} {m : Moment σ ρ}
    (h : s.history inputs = pre ++ m :: post) :
    ∃ xs i ys, inputs = xs ++ i :: ys ∧ pre = s.history xs ∧ m = (s.after xs).moment i := by
  induction inputs generalizing s pre with
  | nil => simp [history] at h
  | cons i rest ih =>
    cases pre with
    | nil =>
      rw [history, List.nil_append, List.cons.injEq] at h
      exact ⟨[], i, rest, rfl, rfl, h.1.symm⟩
    | cons n pre =>
      rw [history, List.cons_append, List.cons.injEq] at h
      obtain ⟨xs, j, ys, hinputs, hpre, hm⟩ := ih h.2
      refine ⟨i :: xs, j, ys, ?_, ?_, hm⟩
      · rw [hinputs, List.cons_append]
      · rw [history, ← hpre, h.1]

theorem mem_history {inputs : List (Input σ ρ)} {m : Moment σ ρ} (h : m ∈ s.history inputs) :
    ∃ xs i ys, inputs = xs ++ i :: ys ∧ m = (s.after xs).moment i := by
  obtain ⟨pre, post, hsplit⟩ := List.append_of_mem h
  obtain ⟨xs, i, ys, hinputs, -, hm⟩ := history_split hsplit
  exact ⟨xs, i, ys, hinputs, hm⟩

/-- What holds at the start and is kept by every change of a sound session holds of every run. -/
theorem run_induction {P : History σ ρ → Session σ ρ → Prop} {Q : Input σ ρ → Prop}
    (hs : s.Sound) (start : P [] s)
    (step : ∀ {h s i t effects}, s.Sound → Q i → Change s i t effects → P h s →
      P (h ++ [⟨s, i, effects, t⟩]) t)
    (inputs : List (Input σ ρ)) (hok : ∀ i ∈ inputs, Q i) :
    (s.after inputs).Sound ∧ P (s.history inputs) (s.after inputs) := by
  induction inputs using List.reverseRecOn with
  | nil => exact ⟨hs, start⟩
  | append_singleton rest i ih =>
    obtain ⟨hsound, hP⟩ := ih fun i hi => hok i (List.mem_append_left _ hi)
    rw [after_append, history_append]
    have hchange := step_change (s.after rest) i
    exact ⟨sound_change hchange hsound, step hsound (hok i (by simp)) hchange hP⟩

theorem sound_after (hs : s.Sound) (inputs : List (Input σ ρ)) : (s.after inputs).Sound := by
  have hrun := run_induction (P := fun _ _ => True) (Q := fun _ => True) hs trivial
    (fun _ _ _ _ => trivial) inputs fun _ _ => trivial
  exact hrun.1

/-! What one change adds -/

theorem calling_eq (hs : s.Sound) (hj : s.jobs[job]? = some ⟨r, st⟩) (h : st.holdsLock = true) :
    s.calling = st.call? r := by
  have hholder : s.lock.holder = some job := by rw [hs.holder, has_eq hj, h]
  simp [calling, awaited, hholder, hj]

theorem calling_eq_none (h : s.lock.holder = none) : s.calling = none := by
  simp [calling, h]

/-- A job outside the critical part moves without touching the call that is under way. -/
theorem calling_outside (hs : s.Sound) (hj : s.jobs[job]? = some ⟨r, old⟩)
    (hold : old.holdsLock = false) (hl : l.holder = s.lock.holder) :
    ({ s with lock := l }.setStage job st).calling = s.calling := by
  simp only [calling, setStage_lock, hl]
  cases hholder : s.lock.holder with
  | none => rfl
  | some k =>
    have hne : k ≠ job := by
      rintro rfl
      exact hs.not_holder hj hold hholder
    simp only [Option.bind_some, awaited]
    rw [jobs_setStage (s := { s with lock := l }) old hj, if_neg hne]

theorem calling_opened (hs : s.Sound) (r : Request σ) :
    ({ s with jobs := s.jobs ++ [{ request := r }] } : Session σ ρ).calling = s.calling := by
  simp only [calling]
  cases hholder : s.lock.holder with
  | none => rfl
  | some k =>
    obtain ⟨r', st', hk, -⟩ := has_eq_true_iff.mp ((hs.holder k).mp hholder)
    have hlt := (List.getElem?_eq_some_iff.mp hk).1
    simp [awaited, List.getElem?_append_left hlt]

/-- A call begins only when the one before it has ended: what was under way and what begins is what
ends and what is under way then. -/
theorem calls_change (hs : s.Sound) (h : Change s i t effects) :
    s.calling.toList ++ effects.filterMap Effect.call? =
      ((s.answered i).map Prod.fst).toList ++ t.calling.toList := by
  have ht : t.Sound := sound_change h hs
  cases h with
  | idle hfits => simp [answered_eq_none_of_not_fits hfits]
  | refused => simp [answered]
  | @registered c o =>
    have hcalling : ({ s with registry := ⟨s.registry.observers ++ [o]⟩ } : Session σ ρ).calling =
        s.calling := rfl
    simp [answered, hcalling]
  | opened records => simp [answered, calling_opened hs]
  | @abandoned job =>
    have hcalling : ({ s with lock := s.lock.abandon job } : Session σ ρ).calling = s.calling := rfl
    simp [answered, hcalling]
  | @queued job r hj hbusy =>
    have hcalling : ({ s with lock := { s.lock with queue := s.lock.queue ++ [(job, Ticket.waiting)] }
        }.setStage job .queued).calling = s.calling := calling_outside hs hj rfl rfl
    simp [answered, hcalling]
  | late hj hl =>
    simp [answered, calling_eq_none (hs.grant_holder hl), calling_eq_none]
  | granted hj hl =>
    have hcalling := calling_eq ht (job_moved hj) (Stage.firstStage_holdsLock _)
    simp [answered, calling_eq_none (hs.grant_holder hl), hcalling]
  | @cancelled job r hj =>
    have hcalling : (s.setStage job (.done (.error .cancelled))).calling = s.calling :=
      calling_outside hs hj rfl rfl
    simp [answered, hcalling]
  | @left job r hj =>
    have hcalling : ({ s with lock := (s.lock.leave job).2 }.setStage job
        (.done (.error .cancelled))).calling = s.calling :=
      calling_outside hs hj rfl (Lock.leave_holder _ _)
    simp [answered, hcalling]
  | replied hj =>
    simp [answered, hj, calling_eq hs hj rfl, calling_eq_none, Stage.call?]
  | broken hj hphysical =>
    have hcalling := calling_eq hs hj (Stage.holdsLock_of_isPhysical hphysical)
    simp [answered_settle hj hphysical, hcalling, calling_eq_none, Function.comp_def]
  | committed hj | commitFailed hj | rolledBack hj | rollbackFailed hj | releaseFailed hj =>
    have hcalling := calling_eq ht (job_moved hj) rfl
    simp [answered, hj, calling_eq hs hj rfl, hcalling, Stage.call?, List.filterMap_cons]
  | announced records hj hending hback =>
    have hphysical := isPhysical_of_isBack hback
    have hcalling := calling_eq hs hj (Stage.holdsLock_of_isPhysical hphysical)
    simp [answered_settle hj hphysical, hcalling, calling_eq_none, Function.comp_def]
  | @notified job r ending round outcome hj =>
    have hcalling : (s.setStage job (s.roundStage r ending (round.settle outcome).2)).calling =
        s.calling := calling_outside hs hj rfl rfl
    simp [answered, hj, hcalling, Stage.call?]

/-- The phase follows the calls that end. -/
theorem phase_change (hs : s.Sound) (h : Change s i t effects) : t.phase = s.phase.next (s.answered i) := by
  cases h with
  | idle hfits => simp [answered_eq_none_of_not_fits hfits, Phase.next]
  | @replied job r outcome hj =>
    have hr := (hs.fits _ _ _ hj).2
    cases r <;> simp_all [answered, Phase.next, Request.firstCall, Request.isEnding]
  | @broken job r st e hj hphysical he =>
    rw [answered_settle hj hphysical]
    cases st <;> simp_all [Stage.call?, Phase.next, Stage.isPhysical]
  | @announced job r st ending outcome records hj hending hback =>
    rw [answered_settle hj (isPhysical_of_isBack hback)]
    cases st <;> simp_all [Stage.call?, Phase.next, Stage.ending?, isBack]
  | _ => simp_all [answered, Phase.next, Stage.call?]

theorem exists_of_answered {c : Call σ} {outcome : Except Error Unit}
    (h : s.answered i = some (c, outcome)) :
    ∃ (job : Nat) (r : Request σ) (st : Stage ρ), i.job? = some job ∧ s.jobs[job]? = some ⟨r, st⟩ ∧
      st.call? r = some c := by
  cases i with
  | reply job result =>
    rcases hj : s.jobs[job]? with _ | ⟨r, st⟩
    · simp [answered, hj] at h
    · cases st <;> simp [answered, hj] at h
      exact ⟨job, r, .forwarding, rfl, hj, congrArg some h.1⟩
  | settle job result =>
    rcases hj : s.jobs[job]? with _ | ⟨r, st⟩
    · simp [answered, hj] at h
    · refine ⟨job, r, st, rfl, hj, ?_⟩
      cases st <;> simp_all [answered, Stage.call?]
  | _ => cases h

theorem calling_of_answered (hs : s.Sound) {c : Call σ} {outcome : Except Error Unit}
    (h : s.answered i = some (c, outcome)) : s.calling = some c := by
  obtain ⟨job, r, st, -, hj, hcall⟩ := exists_of_answered h
  have hhold : st.holdsLock = true := by rw [Stage.holdsLock_eq_isSome_call? r, hcall]; rfl
  rw [calling_eq hs hj hhold, hcall]

/-- Statements and the physical end are asked of an active session only, and the connection is
handed back only after. -/
theorem answered_phase (hs : s.Sound) {c : Call σ} {outcome : Except Error Unit}
    (h : s.answered i = some (c, outcome)) : s.phase = .active ↔ c ≠ .release ∧ c ≠ .discard := by
  obtain ⟨job, r, st, -, hj, hcall⟩ := exists_of_answered h
  exact (hs.fits _ _ _ hj).active_iff hcall

theorem phase_stays (hs : s.Sound) (h : Change s i t effects) (hphase : s.phase ≠ .active) :
    t.phase = s.phase := by
  rw [phase_change hs h]
  cases hanswered : s.answered i with
  | none => rfl
  | some entry =>
    obtain ⟨c, outcome⟩ := entry
    have hcall := (answered_phase hs hanswered).not.mp hphase
    cases c <;> simp_all [Phase.next]

/-- At any time the calls that were begun are those that have ended and the one under way. -/
theorem calls_history (hs : s.Sound) (hnone : s.calling = none) (inputs : List (Input σ ρ)) :
    (s.history inputs).calls =
      (s.history inputs).log.map Prod.fst ++ (s.after inputs).calling.toList := by
  refine (run_induction (P := fun h s => h.calls = h.log.map Prod.fst ++ s.calling.toList)
    (Q := fun _ => True) hs (by simp [hnone]) ?_ inputs fun _ _ => trivial).2
  intro h s i t effects hs _ hchange ih
  rw [History.calls_concat, History.log_concat, ih, List.map_append, List.append_assoc,
    List.append_assoc]
  congr 1
  have hmap : (s.answered i).toList.map Prod.fst = ((s.answered i).map Prod.fst).toList := by
    cases s.answered i <;> rfl
  rw [Moment.calls, Moment.answered, hmap]
  exact calls_change hs hchange

/-- Once ended, a session asks its connection only to be handed back. -/
theorem calls_ended (hs : s.Sound) (hchange : Change s i t effects) (hphase : s.phase ≠ .active)
    {c : Call σ} (hc : c ∈ effects.filterMap Effect.call?) : c = .release ∨ c = .discard := by
  cases hchange with
  | granted hj hl hactive => exact absurd hactive hphase
  | committed => simp_all
  | commitFailed hj => exact absurd (hs.fits _ _ _ hj).1 hphase
  | rolledBack => simp_all
  | rollbackFailed hj => exact absurd (hs.fits _ _ _ hj).1 hphase
  | releaseFailed => simp_all
  | _ => simp at hc

/-- What has ended stays as it is. -/
theorem ended_run (hs : s.Sound) (hphase : s.phase.isTerminal = true) (more : List (Input σ ρ)) :
    (s.after more).phase = s.phase ∧ ∀ c ∈ (s.history more).calls, c = .release ∨ c = .discard := by
  have hstart := Phase.isTerminal_iff.mp hphase
  refine (run_induction (Q := fun _ => True)
    (P := fun h t => t.phase = s.phase ∧ ∀ c ∈ h.calls, c = .release ∨ c = .discard)
    hs ⟨rfl, by simp⟩ ?_ more fun _ _ => trivial).2
  intro h u i t effects hu _ hchange ih
  have hended : u.phase ≠ .active := ih.1 ▸ hstart
  refine ⟨(phase_stays hu hchange hended).trans ih.1, fun c hc => ?_⟩
  rw [History.calls_concat, List.mem_append] at hc
  rcases hc with hc | hc
  · exact ih.2 c hc
  · exact calls_ended hu hchange hended hc

end Session
end Transact
