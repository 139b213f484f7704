import Transact.Proofs.Session.Alone
import Transact.Proofs.Session.Records
import Transact.Proofs.Session.Winner

/-! What has gone on in a session before leaves no trace in what is asked of it alone, as long as it
stands where it stood: two sessions that differ in their earlier jobs only do the same for a new one. -/
namespace Transact

variable {σ ρ ω : Type}

theorem Lock.release_cancelled {l : Lock} (hqueue : ∀ w ∈ l.queue, w.2 = .cancelled) :
    l.release = (none, { l with holder := none }) := by
  obtain ⟨holder, queue⟩ := l
  rcases queue with _ | ⟨⟨job, ticket⟩, rest⟩
  · rfl
  · obtain rfl : ticket = .cancelled := hqueue (job, ticket) List.mem_cons_self
    rfl

namespace Session

variable {s t : Session σ ρ} {k l fuel : Nat} {r : Request σ} {env : Surroundings σ ρ ω} {w : ω}

/-- Two sessions with a job in common, at the places `k` and `l`. Nobody else has the lock or waits. -/
structure Peers (k l : Nat) (s t : Session σ ρ) : Prop where
  id : s.id = t.id
  phase : s.phase = t.phase
  registry : s.registry = t.registry
  queue : s.lock.queue = t.lock.queue
  cancelled : ∀ w ∈ t.lock.queue, w.2 = .cancelled
  job : s.jobs[k]? = t.jobs[l]?

/-- Two moves that come to the same. -/
structure Matched (k l : Nat) (a b : Moved σ ρ) : Prop where
  session : a.1.Peers k l b.1
  effects : a.2 = b.2

namespace Peers

theorem setStage (h : s.Peers k l t) (st : Stage ρ) : (s.setStage k st).Peers k l (t.setStage l st) where
  id := h.id
  phase := h.phase
  registry := h.registry
  queue := h.queue
  cancelled := h.cancelled
  job := by simp [Session.setStage, h.job]

theorem withPhase (h : s.Peers k l t) (p : Phase) :
    Peers k l { s with phase := p } { t with phase := p } :=
  ⟨h.id, rfl, h.registry, h.queue, h.cancelled, h.job⟩

theorem unlock (h : s.Peers k l t) : Matched k l s.unlock t.unlock := by
  have hs := Lock.release_cancelled (h.queue ▸ h.cancelled)
  have ht := Lock.release_cancelled h.cancelled
  simp only [Session.unlock, hs, ht]
  exact ⟨⟨h.id, h.phase, h.registry, h.queue, h.cancelled, h.job⟩, rfl⟩

theorem idle (h : s.Peers k l t) : Matched k l (s, []) (t, []) := ⟨h, rfl⟩

theorem ask (h : s.Peers k l t) (st : Stage ρ) (c : Call σ) : Matched k l (s.ask k st c) (t.ask l st c) :=
  ⟨h.setStage st, rfl⟩

theorem leave (h : s.Peers k l t) (answer : Except Error (Answer ρ)) :
    Matched k l (s.leave k answer) (t.leave l answer) := by
  obtain ⟨hsession, heffects⟩ := h.unlock
  refine ⟨hsession.setStage _, ?_⟩
  simp only [Session.leave, heffects]
  rfl

theorem logged {a b : Moved σ ρ} (h : Matched k l a b) {record record' : Log.Record}
    (hrecord : record = record') : Matched k l (logged record a) (Session.logged record' b) :=
  ⟨h.session, by simp only [Session.logged, h.effects, hrecord]⟩

theorem caught (h : s.Peers k l t) {a b : Moved σ ρ} (hhandle : Matched k l a b) (e : Error) :
    Matched k l (s.caught k e a) (t.caught l e b) := by
  unfold Session.caught
  split
  · exact hhandle
  · exact h.leave _

/-- What is said at the end of a session depends on nothing that has gone on in it before. -/
theorem round_eq (h : s.Peers k l t) (r : Request σ) (ending : Ending) (next : Round.Next) :
    s.roundStage r ending next = t.roundStage r ending next ∧
      s.roundEffects r ending next = t.roundEffects r ending next := by
  obtain ⟨id, phase, lock, registry, jobs⟩ := s
  obtain ⟨id', phase', lock', registry', jobs'⟩ := t
  obtain rfl : id = id' := h.id
  obtain rfl : phase = phase' := h.phase
  obtain rfl : registry = registry' := h.registry
  exact ⟨rfl, rfl⟩

theorem proceed (h : s.Peers k l t) (r : Request σ) (ending : Ending) (next : Round.Next) :
    Matched k l (s.proceed k r ending next) (t.proceed l r ending next) := by
  obtain ⟨hstage, heffects⟩ := h.round_eq r ending next
  rw [proceed_eq, proceed_eq, hstage, heffects]
  exact ⟨h.setStage _, rfl⟩

theorem announce (h : s.Peers k l t) (r : Request σ) (ending : Ending) :
    Matched k l (s.announce k r ending) (t.announce l r ending) := by
  obtain ⟨hsession, heffects⟩ := h.unlock
  have hproceed := hsession.proceed r ending (Round.start ending.hook t.registry)
  have hregistry : s.unlock.1.registry = t.registry := h.registry
  simp only [Session.announce, hregistry]
  exact ⟨hproceed.session, congrArg₂ (· ++ ·) heffects hproceed.effects⟩

theorem record_eq (h : s.Peers k l t) (level : Int) (template : String) (error : Option Error) :
    s.own level template error = t.own level template error := by
  simp only [own, h.id]

theorem settle (h : s.Peers k l t) (r : Request σ) (outcome : Except Error Unit) (st : Stage ρ) :
    Matched k l (s.settle k r outcome st) (t.settle l r outcome st) := by
  cases st with
  | committing =>
    cases outcome with
    | ok => exact (h.withPhase _).ask _ _
    | error e => exact h.caught (logged (h.ask _ _) (h.record_eq _ _ _)) e
  | rollingBack commit =>
    cases outcome with
    | ok => exact (h.withPhase _).ask _ _
    | error e => exact h.caught (logged ((h.withPhase _).ask _ _) (h.record_eq _ _ _)) e
  | releasing ending =>
    cases outcome with
    | ok => exact h.announce r ending
    | error e => exact h.caught (logged (h.ask _ _) (h.record_eq _ _ _)) e
  | discarding ending =>
    cases outcome with
    | ok => exact h.announce r ending
    | error e => exact h.caught (logged (h.announce r ending) (h.record_eq _ _ _)) e
  | notifying ending round =>
    obtain ⟨hsession, heffects⟩ := h.proceed r ending (round.settle outcome).2
    exact ⟨hsession, congrArg ((round.settle outcome).1.map Effect.hookLog ++ ·) heffects⟩
  | _ => exact h.idle

end Peers

/-- Answers for the job that the two have in common. -/
inductive Addressed (k l : Nat) : Input σ ρ → Input σ ρ → Prop
  | reply (outcome : Except Error ρ) : Addressed k l (.reply k outcome) (.reply l outcome)
  | settle (outcome : Except Error Unit) : Addressed k l (.settle k outcome) (.settle l outcome)

theorem Peers.step (h : s.Peers k l t) {i j : Input σ ρ} (hij : Addressed k l i j) :
    Matched k l (s.step i) (t.step j) := by
  have hatJob {move move' : Job σ ρ → Moved σ ρ} (hmove : ∀ j, Matched k l (move j) (move' j)) :
      Matched k l (s.atJob k move) (t.atJob l move') := by
    unfold atJob
    rw [h.job]
    cases t.jobs[l]? with
    | none => exact h.idle
    | some j => exact hmove j
  cases hij with
  | reply outcome =>
    refine hatJob fun ⟨r, st⟩ => ?_
    cases st with
    | forwarding => exact h.leave _
    | _ => exact h.idle
  | settle outcome => exact hatJob fun ⟨r, st⟩ => h.settle r outcome st

theorem respond_addressed (env : Surroundings σ ρ ω) (k l : Nat) (effects : List (Effect σ ρ)) (w : ω) :
    (∃ w', respond env k effects w = (none, w') ∧ respond env l effects w = (none, w')) ∨
      ∃ i j w', respond env k effects w = (some i, w') ∧ respond env l effects w = (some j, w') ∧
        Addressed k l i j := by
  induction effects with
  | nil => exact .inl ⟨w, rfl, rfl⟩
  | cons e rest ih =>
    cases e with
    | call c =>
      refine .inr ⟨_, _, _, rfl, rfl, ?_⟩
      cases c <;> first | exact .reply _ | exact .settle _
    | notify hook o => exact .inr ⟨_, _, _, rfl, rfl, .settle _⟩
    | _ => exact ih

/-- Two runs that come to the same for the job in common. -/
structure Abreast (k l : Nat) (a b : Run σ ρ ω) : Prop where
  session : a.session.Peers k l b.session
  effects : a.effects = b.effects
  world : a.world = b.world

theorem carry_abreast (env : Surroundings σ ρ ω) {a b : Run σ ρ ω} (h : Abreast k l a b) (fuel : Nat) :
    Abreast k l (carry env k fuel a) (carry env l fuel b) := by
  induction fuel generalizing a b with
  | zero => exact h
  | succ fuel ih =>
    rw [carry, carry, h.effects, h.world]
    rcases respond_addressed env k l b.effects b.world with ⟨w', hk, hl⟩ | ⟨i, j, w', hk, hl, hij⟩
    · rw [hk, hl]
      exact ⟨h.session, rfl, rfl⟩
    · rw [hk, hl]
      obtain ⟨hsession, heffects⟩ := h.session.step hij
      have hrest := ih (a := ⟨(a.session.step i).1, (a.session.step i).2, w'⟩)
        (b := ⟨(b.session.step j).1, (b.session.step j).2, w'⟩) ⟨hsession, heffects, rfl⟩
      exact ⟨hrest.session, congrArg (b.effects ++ ·) hrest.effects, hrest.world⟩

end Session

namespace Run

def records (run : Run σ ρ ω) : List Log.Record := run.effects.filterMap Effect.record?

/-- Two runs that ask for the same and lead to the same, whatever was before them. -/
structure Equals (a b : Run σ ρ ω) : Prop where
  phase : a.session.phase = b.session.phase
  registry : a.session.registry = b.session.registry
  calls : a.calls = b.calls
  hookCalls : a.hookCalls = b.hookCalls
  records : a.records = b.records
  answer : a.answer = b.answer
  world : a.world = b.world

end Run

namespace Session

variable {s t : Session σ ρ} {r : Request σ} {env : Surroundings σ ρ ω} {w : ω}

/-- Effects before and after, of which the first are silent. -/
theorem Abreast.equals {k l : Nat} {a b : Run σ ρ ω} (h : Abreast k l a b) {before before' : List (Effect σ ρ)}
    (hbefore : ∀ e ∈ before, e.isSilent = true) (hbefore' : ∀ e ∈ before', e.isSilent = true)
    (hrecords : before.filterMap Effect.record? = before'.filterMap Effect.record?) :
    Run.Equals { a with effects := before ++ a.effects } { b with effects := before' ++ b.effects } where
  phase := h.session.phase
  registry := h.session.registry
  calls := by
    simp only [Run.calls, List.filterMap_append, filterMap_silent silent_call? hbefore,
      filterMap_silent silent_call? hbefore', h.effects]
  hookCalls := by
    simp only [Run.hookCalls, List.filterMap_append, filterMap_silent silent_hookCall? hbefore,
      filterMap_silent silent_hookCall? hbefore', h.effects]
  records := by simp only [Run.records, List.filterMap_append, hrecords, h.effects]
  answer := by simp only [Run.answer, answerIn_append hbefore, answerIn_append hbefore', h.effects]
  world := h.world

theorem openingRecords_eq (hid : s.id = t.id) (r : Request σ) : s.openingRecords r = t.openingRecords r := by
  cases r with
  | close | orphan => simp only [openingRecords, leftScope, forgotten, own, hid]
  | _ => rfl

theorem alone_equals_active (hid : s.id = t.id) (hphase : s.phase = t.phase) (hregistry : s.registry = t.registry)
    (hlock : s.lock = t.lock) (hfree : t.lock.isFree = true) (hactive : t.phase = .active) :
    (s.alone env r w).Equals (t.alone env r w) := by
  have hs := step_request (ρ := ρ) (hphase.trans hactive) r
  have ht := step_request (ρ := ρ) hactive r
  have hrecords := openingRecords_eq hid r
  have hlength (jobs : List (Job σ ρ)) : (jobs ++ [(⟨r, .ready⟩ : Job σ ρ)]).length ≠ jobs.length := by simp
  have hqueue : ∀ w ∈ t.lock.queue, w.2 = .cancelled := by
    simp only [Lock.isFree, Bool.and_eq_true, List.all_eq_true, beq_iff_eq] at hfree
    exact hfree.2
  have hstart : Peers s.jobs.length t.jobs.length
      (s.joined s.phase { s.lock with holder := some s.jobs.length } r r.firstStage)
      (t.joined t.phase { t.lock with holder := some t.jobs.length } r r.firstStage) :=
    ⟨hid, hphase, hregistry, by simp only [joined, hlock], hqueue, joined_job.trans joined_job.symm⟩
  have hsteps : steps { s with jobs := s.jobs ++ [⟨r, .ready⟩] } =
      steps { t with jobs := t.jobs ++ [⟨r, .ready⟩] } := by simp only [steps, hregistry]
  have hcarry := carry_abreast env (a := ⟨_, [.call r.firstCall], w⟩) (b := ⟨_, [.call r.firstCall], w⟩)
    ⟨hstart, rfl, rfl⟩ (steps { t with jobs := t.jobs ++ [⟨r, .ready⟩] })
  simp only [alone, hs, ht, if_neg (hlength _), step_first (hphase.trans hactive) (hlock ▸ hfree),
    step_first hactive hfree, hsteps]
  apply hcarry.equals (silent_opening _ _) (silent_opening _ _)
  rw [List.filterMap_append, List.filterMap_append, hrecords]
  rfl

/-- What is asked alone of a session with its lock free is answered without regard to earlier jobs. -/
theorem alone_equals (hid : s.id = t.id) (hphase : s.phase = t.phase) (hregistry : s.registry = t.registry)
    (hlock : s.lock = t.lock) (hfree : t.lock.isFree = true) (env : Surroundings σ ρ ω) (r : Request σ) (w : ω) :
    (s.alone env r w).Equals (t.alone env r w) := by
  by_cases hactive : t.phase = .active
  · exact alone_equals_active hid hphase hregistry hlock hfree hactive
  · have ht : t.phase.isTerminal = true := Phase.isTerminal_iff.mpr hactive
    have hs : s.phase.isTerminal = true := hphase ▸ ht
    cases himplicit : r.isImplicit with
    | true =>
      rw [alone_ended hs himplicit, alone_ended ht himplicit]
      exact ⟨hphase, hregistry, rfl, rfl, rfl, rfl, rfl⟩
    | false =>
      rw [alone_late env hs (hlock ▸ hfree) himplicit, alone_late env ht hfree himplicit,
        lateAnswer_eq hphase]
      exact ⟨hphase, hregistry, rfl, rfl, rfl, rfl, rfl⟩

end Session
end Transact
