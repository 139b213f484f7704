import Transact.Proofs.Session.Queue
import Transact.Session.Step

/-! What a job's stage says: whether it holds the lock, which call it waits for, which end of the
transaction it has brought about. -/
namespace Transact

variable {σ ρ : Type}

namespace Call

def statement? : Call σ → Option σ
  | execute statement => some statement
  | _ => none

/-- Ends the transaction physically. -/
def isEnd : Call σ → Bool
  | commit | rollback => true
  | _ => false

end Call

namespace Request

/-- Asks for the end of the session. -/
def isEnding : Request σ → Bool
  | execute _ => false
  | _ => true

/-- Made when a session is left or forgotten. -/
def isImplicit : Request σ → Bool
  | close | orphan => true
  | _ => false

/-- Where a job goes that gets the lock of an active session. -/
def firstStage : Request σ → Stage ρ
  | execute _ => .forwarding
  | commit => .committing
  | _ => .rollingBack none

def firstCall : Request σ → Call σ
  | execute statement => .execute statement
  | commit => .commit
  | _ => .rollback

end Request

def Input.job? : Input σ ρ → Option Nat
  | .run job | .reply job _ | .settle job _ | .interrupt job => some job
  | _ => none

/-- The hook by which observers are told of a phase. -/
def Phase.hook : Phase → Hook
  | .committed => .onCommit
  | _ => .onRollback

namespace Ending

def phase : Ending → Phase
  | committed => .committed
  | rolledBack _ _ => .rolledBack

/-- Only a commit ends in one, or rolls back for having failed. -/
def Suits (r : Request σ) : Ending → Prop
  | committed => r = .commit
  | rolledBack commit _ => r.isEnding ∧ (commit.isSome ↔ r = .commit)

@[simp] theorem phase_hook (e : Ending) : e.phase.hook = e.hook := by cases e <;> rfl

theorem phase_ne_active (e : Ending) : e.phase ≠ .active := by cases e <;> simp [phase]

end Ending

namespace Stage

def holdsLock : Stage ρ → Bool
  | forwarding | committing | rollingBack _ | releasing _ | discarding _ => true
  | _ => false

def isPhysical : Stage ρ → Bool
  | committing | rollingBack _ | releasing _ | discarding _ => true
  | _ => false

def isQueued : Stage ρ → Bool
  | queued => true
  | _ => false

def ending? : Stage ρ → Option Ending
  | releasing e | discarding e | notifying e _ => some e
  | _ => none

def hasEnded (st : Stage ρ) : Bool := st.ending?.isSome

/-- The physical end is reached and the connection is being handed back. -/
def isHandingBack : Stage ρ → Bool
  | releasing _ | discarding _ => true
  | _ => false

/-- From the first call for the end of the session to the last hook. -/
def isWinning (st : Stage ρ) : Bool := st.isPhysical || st.hasEnded

/-- The call to the connection that a job waits for. -/
def call? (r : Request σ) : Stage ρ → Option (Call σ)
  | forwarding => some r.firstCall
  | committing => some .commit
  | rollingBack _ => some .rollback
  | releasing _ => some .release
  | discarding _ => some .discard
  | _ => none

/-- What a stage says of its request and of where the transaction stands. -/
def Fits (r : Request σ) (phase : Phase) : Stage ρ → Prop
  | ready | queued | done _ => True
  | forwarding => phase = .active ∧ r.isEnding = false
  | committing => phase = .active ∧ r = .commit
  | rollingBack commit => phase = .active ∧ r.isEnding ∧ (commit.isSome ↔ r = .commit)
  | releasing e | discarding e => phase = e.phase ∧ e.Suits r
  | notifying e round => phase = e.phase ∧ e.Suits r ∧ round.hook = e.hook

def isDone : Stage ρ → Bool
  | done _ => true
  | _ => false

theorem hasEnded_of_ending? {st : Stage ρ} {e : Ending} (h : st.ending? = some e) :
    st.hasEnded = true := by
  simp [hasEnded, h]

/-- From where to where a job can go. -/
inductive Goes (r : Request σ) : Stage ρ → Stage ρ → Prop
  | wait : Goes r .ready .queued
  | enter {old : Stage ρ} : old = .ready ∨ old = .queued → Goes r old r.firstStage
  | commit : Goes r .committing (.releasing .committed)
  | compensate {e : Error} : Goes r .committing (.rollingBack (some e))
  | rollBack {commit : Option Error} :
      Goes r (.rollingBack commit) (.releasing (.rolledBack commit none))
  | giveUp {commit : Option Error} {e : Error} :
      Goes r (.rollingBack commit) (.discarding (.rolledBack commit (some e)))
  | discard {ending : Ending} : Goes r (.releasing ending) (.discarding ending)
  | announce {old : Stage ρ} {ending : Ending} {round : Round} :
      old.isHandingBack = true → old.ending? = some ending → Goes r old (.notifying ending round)
  | next {ending : Ending} {round next : Round} :
      Goes r (.notifying ending round) (.notifying ending next)
  | stop {old : Stage ρ} {answer : Except Error (Answer ρ)} :
      old.isDone = false → Goes r old (.done answer)

theorem Goes.not_done {r : Request σ} {old st : Stage ρ} (h : Goes r old st) : old.isDone = false := by
  cases h with
  | enter hold => rcases hold with rfl | rfl <;> rfl
  | announce hback => cases old <;> simp_all [isHandingBack, isDone]
  | stop hdone => exact hdone
  | _ => rfl

/-- The connection is handed back by who brought the end about, under the lock until then. -/
theorem Goes.handingBack {r : Request σ} {old st : Stage ρ} {p : Phase} (h : Goes r old st)
    (hst : st.isHandingBack = true) (hfits : old.Fits r p) : old.isHandingBack = true ∨ p = .active := by
  cases h with
  | enter => cases r <;> cases hst
  | commit => exact .inr hfits.1
  | rollBack => exact .inr hfits.1
  | giveUp => exact .inr hfits.1
  | discard => exact .inl rfl
  | _ => cases hst

/-- The end is brought about while the session is active. -/
theorem Goes.ended {r : Request σ} {old st : Stage ρ} {p : Phase} (h : Goes r old st)
    (hst : st.hasEnded = true) (hfits : old.Fits r p) : old.hasEnded = true ∨ p = .active := by
  cases h with
  | enter => cases r <;> cases hst
  | commit | rollBack | giveUp => exact .inr hfits.1
  | discard | next => exact .inl rfl
  | announce hback hending => exact .inl (hasEnded_of_ending? hending)
  | _ => cases hst

theorem isWinning_of_isHandingBack {st : Stage ρ} (h : st.isHandingBack = true) :
    st.isWinning = true := by
  cases st <;> simp_all [isHandingBack, isWinning, isPhysical]

/-- One who comes to end the session calls for its end on the way. -/
theorem Goes.winning {r : Request σ} {old st : Stage ρ} (h : Goes r old st)
    (hst : st.isWinning = true) :
    old.isWinning = true ∨ ∃ c, st.call? r = some c ∧ c.isEnd = true := by
  cases h with
  | enter =>
    cases r with
    | execute => cases hst
    | _ => exact .inr ⟨_, rfl, rfl⟩
  | announce hback => exact .inl (isWinning_of_isHandingBack hback)
  | wait => cases hst
  | stop => cases hst
  | _ => exact .inl rfl

theorem holdsLock_eq_isSome_call? (r : Request σ) (st : Stage ρ) :
    st.holdsLock = (st.call? r).isSome := by
  cases st <;> rfl

theorem Fits.phase_eq {r : Request σ} {p : Phase} {st : Stage ρ} {e : Ending} (h : st.Fits r p)
    (he : st.ending? = some e) : p = e.phase := by
  cases st <;> simp_all [Fits, ending?]

theorem Fits.suits {r : Request σ} {p : Phase} {st : Stage ρ} {e : Ending} (h : st.Fits r p)
    (he : st.ending? = some e) : e.Suits r := by
  cases st <;> simp_all [Fits, ending?]

/-- Only an active session waits for anything but handing its connection back. -/
theorem Fits.active_iff {r : Request σ} {p : Phase} {st : Stage ρ} {c : Call σ} (h : st.Fits r p)
    (hc : st.call? r = some c) : p = .active ↔ c ≠ .release ∧ c ≠ .discard := by
  cases st <;> simp only [call?, Option.some.injEq, reduceCtorEq] at hc <;> subst hc
  case forwarding => cases r <;> simp_all [Fits, Request.firstCall]
  case releasing e => simp [h.1, e.phase_ne_active]
  case discarding e => simp [h.1, e.phase_ne_active]
  all_goals simp [h.1]

theorem holdsLock_of_isPhysical {st : Stage ρ} (h : st.isPhysical = true) : st.holdsLock = true := by
  cases st <;> simp_all [isPhysical, holdsLock]

theorem not_done_of_isPhysical {st : Stage ρ} (h : st.isPhysical = true) : st.isDone = false := by
  cases st <;> simp_all [isPhysical, isDone]

theorem fits_of_outside {r : Request σ} {p : Phase} {st : Stage ρ} (hhold : st.holdsLock = false)
    (hended : st.hasEnded = false) : st.Fits r p := by
  cases st <;> simp_all [Fits, holdsLock, hasEnded, ending?]

theorem firstStage_fits (r : Request σ) : (r.firstStage : Stage ρ).Fits r .active := by
  cases r <;> simp [Request.firstStage, Fits, Request.isEnding]

@[simp] theorem firstStage_holdsLock (r : Request σ) : (r.firstStage : Stage ρ).holdsLock = true := by
  cases r <;> rfl

@[simp] theorem firstStage_isQueued (r : Request σ) : (r.firstStage : Stage ρ).isQueued = false := by
  cases r <;> rfl

@[simp] theorem firstStage_ending? (r : Request σ) : (r.firstStage : Stage ρ).ending? = none := by
  cases r <;> rfl

@[simp] theorem firstStage_call? (r : Request σ) :
    (r.firstStage : Stage ρ).call? r = some r.firstCall := by
  cases r <;> rfl

end Stage

namespace Session

variable {s : Session σ ρ} {job k : Nat} {r : Request σ} {st old : Stage ρ}

@[simp] theorem setStage_id : (s.setStage job st).id = s.id := rfl
@[simp] theorem setStage_phase : (s.setStage job st).phase = s.phase := rfl
@[simp] theorem setStage_lock : (s.setStage job st).lock = s.lock := rfl
@[simp] theorem setStage_registry : (s.setStage job st).registry = s.registry := rfl

theorem jobs_setStage (old : Stage ρ) (h : s.jobs[job]? = some ⟨r, old⟩) (k : Nat) :
    (s.setStage job st).jobs[k]? = if k = job then some ⟨r, st⟩ else s.jobs[k]? := by
  simp only [setStage, List.getElem?_modify]
  by_cases hk : k = job
  · subst hk; simp [h]
  · cases s.jobs[k]? <;> simp [hk, Ne.symm hk]

theorem job_moved (h : s.jobs[job]? = some ⟨r, old⟩) {p : Phase} {l : Lock} :
    ({ s with phase := p, lock := l }.setStage job st).jobs[job]? = some ⟨r, st⟩ := by
  rw [jobs_setStage (s := { s with phase := p, lock := l }) old h, if_pos rfl]

theorem stage?_eq (h : s.jobs[job]? = some ⟨r, st⟩) : s.stage? job = some st := by
  simp [stage?, h]

theorem stage?_eq_some_iff : s.stage? job = some st ↔ ∃ r, s.jobs[job]? = some ⟨r, st⟩ := by
  simp only [stage?, Option.map_eq_some_iff]
  constructor
  · rintro ⟨⟨r, st⟩, h, rfl⟩
    exact ⟨r, h⟩
  · rintro ⟨r, h⟩
    exact ⟨_, h, rfl⟩

def awaited (s : Session σ ρ) (job : Nat) : Option (Call σ) :=
  (s.jobs[job]?).bind fun j => j.stage.call? j.request

/-- The call that is under way, if one is: that of the job with the lock. -/
def calling (s : Session σ ρ) : Option (Call σ) := s.lock.holder.bind s.awaited

/-- The lock as it is when the job has it, if it gets it when it runs. -/
def grant? (s : Session σ ρ) (job : Nat) : Option Lock :=
  match s.stage? job with
  | some .ready => if s.lock.isFree then some { s.lock with holder := some job } else none
  | some .queued => if s.lock.isWoken job then some (s.lock.take job) else none
  | _ => none

theorem grant?_cases {l : Lock} (h : s.grant? job = some l) :
    (s.stage? job = some .ready ∧ s.lock.isFree = true ∧ l = { s.lock with holder := some job }) ∨
      (s.stage? job = some .queued ∧ s.lock.isWoken job = true ∧ l = s.lock.take job) := by
  unfold grant? at h
  split at h
  · rename_i hst
    by_cases hfree : s.lock.isFree = true
    · simp only [hfree, if_true, Option.some.injEq] at h
      exact .inl ⟨hst, hfree, h.symm⟩
    · simp [hfree] at h
  · rename_i hst
    by_cases hwoken : s.lock.isWoken job = true
    · simp only [hwoken, if_true, Option.some.injEq] at h
      exact .inr ⟨hst, hwoken, h.symm⟩
    · simp [hwoken] at h
  · cases h

/-- One who gets the lock has waited for it outside. -/
theorem grant?_waiting {l : Lock} (h : s.grant? job = some l) (hj : s.jobs[job]? = some ⟨r, st⟩) :
    st = .ready ∨ st = .queued := by
  have hst := stage?_eq hj
  rcases grant?_cases h with ⟨hready, -⟩ | ⟨hqueued, -⟩
  · exact .inl (Option.some.inj (hst.symm.trans hready))
  · exact .inr (Option.some.inj (hst.symm.trans hqueued))

/-- The job that gets the lock by an input, with its request. -/
def granted? (s : Session σ ρ) : Input σ ρ → Option (Nat × Request σ)
  | .run job => if (s.grant? job).isSome then (s.jobs[job]?).map fun j => (job, j.request) else none
  | _ => none

/-- The call that an input answers, and how. -/
def answered (s : Session σ ρ) : Input σ ρ → Option (Call σ × Except Error Unit)
  | .reply job outcome =>
    match s.jobs[job]? with
    | some ⟨r, .forwarding⟩ => some (r.firstCall, outcome.map fun _ => ())
    | _ => none
  | .settle job outcome =>
    match s.jobs[job]? with
    | some ⟨_, .forwarding⟩ => none
    | some ⟨r, st⟩ => (st.call? r).map (·, outcome)
    | none => none
  | _ => none

theorem answered_settle (hj : s.jobs[job]? = some ⟨r, st⟩) (h : st.isPhysical = true)
    (outcome : Except Error Unit) :
    s.answered (.settle job outcome) = (st.call? r).map (·, outcome) := by
  cases st <;> simp_all [answered, Stage.isPhysical]

/-- Whether an input finds a job that waits for it. -/
def fits (s : Session σ ρ) : Input σ ρ → Bool
  | .run job =>
    match s.stage? job with
    | some .ready => true
    | some .queued => s.lock.isWoken job
    | _ => false
  | .reply job _ =>
    match s.stage? job with
    | some .forwarding => true
    | _ => false
  | .settle job _ =>
    match s.stage? job with
    | some .committing | some (.rollingBack _) | some (.releasing _) | some (.discarding _)
    | some (.notifying _ _) => true
    | _ => false
  | .interrupt job =>
    match s.stage? job with
    | some .ready | some .queued => true
    | _ => false
  | .request r => !r.isImplicit || s.isActive
  | .abandon _ | .register _ => true

theorem granted?_eq_none_of_not_fits {i : Input σ ρ} (h : s.fits i = false) : s.granted? i = none := by
  cases i <;> simp_all [granted?, grant?, fits]
  split <;> simp_all

theorem answered_eq_none_of_not_fits {i : Input σ ρ} (h : s.fits i = false) : s.answered i = none := by
  unfold fits at h
  unfold answered
  cases i <;> simp only [stage?] at h ⊢
  all_goals
    rename_i job _
    rcases hj : s.jobs[job]? with _ | ⟨r, st⟩
    · rfl
    · cases st <;> simp_all [Stage.call?]

end Session
end Transact
