import Transact.Proofs.Session.Implicit
import Transact.Proofs.Session.Observers

/-! The lock of a session is with the job in its critical part and with nobody else, so nobody has it
while hooks run. What a hook asks of its own session ends by the turns of the jobs before it in the
queue, each of which comes too late as well. -/
namespace Transact

variable {σ ρ : Type}

/-- Where a request stands that was made after the end: it waits for its turn, or has the answer of
one who comes too late, or its own task was cancelled. -/
def Session.Behind (h : History σ ρ) (s : Session σ ρ) (job : Nat) (r : Request σ)
    (late : Except Error (Answer ρ)) : Prop :=
  ∃ st : Stage ρ, s.jobs[job]? = some ⟨r, st⟩ ∧
    (st = .ready ∨ st = .queued ∨ st = .done late ∨ st = .done (.error .cancelled) ∧ h.Interrupted job)

namespace Lock

variable {l : Lock} {k job : Nat} {ticket : Ticket} {rest : List (Nat × Ticket)}

theorem drop_first (hl : l.Sound) (hq : l.queue = (k, ticket) :: rest) : (l.drop k).queue = rest := by
  have hdistinct := hl.distinct
  simp only [names, hq, List.map_cons, List.nodup_cons, List.mem_map, not_exists, not_and] at hdistinct
  simp only [drop, hq, List.filter_cons, bne_self_eq_false, Bool.false_eq_true, if_false,
    List.filter_eq_self, bne_iff_ne]
  exact fun w hw hk => hdistinct.1 w hw hk

theorem wakeFirst_length : l.wakeFirst.2.queue.length = l.queue.length := by
  have hnames := congrArg List.length (wakeFirst_names (l := l))
  simpa only [names, List.length_map] using hnames

/-- Nobody gives up by being woken. -/
theorem mem_wakeFirst (h : (job, .cancelled) ∈ l.wakeFirst.2.queue) : (job, .cancelled) ∈ l.queue := by
  unfold wakeFirst at h
  split at h
  · simp_all
  · exact h

end Lock

namespace Session

variable {s t : Session σ ρ} {i : Input σ ρ} {effects : List (Effect σ ρ)} {job k : Nat}
  {r : Request σ} {st : Stage ρ} {h : History σ ρ} {late : Except Error (Answer ρ)}
  {ticket : Ticket} {rest : List (Nat × Ticket)}

/-! Who holds the lock -/

/-- The lock is held for a statement that is under way, or for the physical end. -/
theorem holdsLock_iff {p : Phase} (hfits : st.Fits r p) : st.holdsLock = true ↔
    st = .forwarding ∧ r.isEnding = false ∨ st.isPhysical = true ∧ r.isEnding = true := by
  have hending {ending : Ending} (hsuits : ending.Suits r) : r.isEnding = true := by
    cases ending with
    | committed => rw [show r = .commit from hsuits]; rfl
    | rolledBack => exact hsuits.1
  cases st with
  | forwarding => simp [Stage.holdsLock, Stage.isPhysical, hfits.2]
  | committing => simp [Stage.holdsLock, Stage.isPhysical, hfits.2, Request.isEnding]
  | rollingBack => simp [Stage.holdsLock, Stage.isPhysical, hfits.2.1]
  | releasing => simp [Stage.holdsLock, Stage.isPhysical, hending hfits.2]
  | discarding => simp [Stage.holdsLock, Stage.isPhysical, hending hfits.2]
  | _ => simp [Stage.holdsLock, Stage.isPhysical]

theorem not_holder_of_done (hs : s.Sound) {answer : Except Error (Answer ρ)}
    (hj : s.jobs[job]? = some ⟨r, .done answer⟩) : s.lock.holder ≠ some job :=
  hs.not_holder hj rfl

theorem exists_of_isNotifying (hj : s.isNotifying job = true) :
    ∃ (r : Request σ) (ending : Ending) (round : Round),
      s.jobs[job]? = some ⟨r, .notifying ending round⟩ := by
  unfold isNotifying at hj
  split at hj
  · rename_i ending round hst
    obtain ⟨r, hr⟩ := stage?_eq_some_iff.mp hst
    exact ⟨r, ending, round, hr⟩
  · cases hj

theorem settled_of_isNotifying (hs : s.Sound) (hj : s.isNotifying job = true) : s.Settled := by
  obtain ⟨r, ending, round, hj⟩ := exists_of_isNotifying hj
  exact settled_of_notifying hs hj

/-- Once the connection is handed back nobody takes the lock but to leave it in the same turn. -/
theorem holder_of_settled (hs : s.Sound) (hset : s.Settled) : s.lock.holder = none := by
  by_contra hsome
  obtain ⟨k, hk⟩ := Option.ne_none_iff_exists'.mp hsome
  obtain ⟨r, st, hj, hhold⟩ := has_eq_true_iff.mp ((hs.holder k).mp hk)
  have hcalling := calling_eq hs hj hhold
  rw [calling_of_settled hs hset] at hcalling
  rw [Stage.holdsLock_eq_isSome_call? r, ← hcalling] at hhold
  cases hhold

/-! One who comes too late -/

theorem behind_change (hchange : Change s i t effects) (hphase : s.phase ≠ .active)
    (hlate : late = s.lateAnswer r) (hbehind : Behind h s job r late) :
    Behind (h ++ [⟨s, i, effects, t⟩]) t job r late := by
  obtain ⟨st, hj, hst⟩ := hbehind
  have hstill : st = .ready ∨ st = .queued ∨ st = .done late ∨
      st = .done (.error .cancelled) ∧ History.Interrupted (h ++ [⟨s, i, effects, t⟩]) job := by
    rw [History.interrupted_concat]
    tauto
  by_cases hi : i.job? = some job
  swap
  · exact ⟨st, job_stays hchange hj hi, hstill⟩
  have hsame {r' : Request σ} {st' : Stage ρ} (hj' : s.jobs[job]? = some ⟨r', st'⟩) :
      r' = r ∧ st' = st := by
    rw [hj] at hj'
    cases hj'
    exact ⟨rfl, rfl⟩
  cases hchange with
  | idle => exact ⟨st, hj, hstill⟩
  | queued hj' =>
    cases hi
    obtain ⟨rfl, -⟩ := hsame hj'
    exact ⟨.queued, job_moved hj', .inr (.inl rfl)⟩
  | late hj' =>
    cases hi
    obtain ⟨rfl, -⟩ := hsame hj'
    exact ⟨_, job_moved hj', .inr (.inr (.inl (by rw [hlate])))⟩
  | granted hj' hl hactive => exact absurd hactive hphase
  | cancelled hj' | left hj' =>
    cases hi
    obtain ⟨rfl, -⟩ := hsame hj'
    exact ⟨_, job_moved hj', .inr (.inr (.inr ⟨rfl, History.interrupted_concat.mpr (.inr rfl)⟩))⟩
  | announced records hj' hending =>
    cases hi
    obtain ⟨-, rfl⟩ := hsame hj'
    rcases hst with rfl | rfl | rfl | ⟨rfl, -⟩ <;> cases hending
  | broken hj' hphysical =>
    cases hi
    obtain ⟨-, rfl⟩ := hsame hj'
    rcases hst with rfl | rfl | rfl | ⟨rfl, -⟩ <;> cases hphysical
  | replied hj' | committed hj' | commitFailed hj' | rolledBack hj' | rollbackFailed hj'
  | releaseFailed hj' | notified hj' =>
    cases hi
    obtain ⟨-, rfl⟩ := hsame hj'
    rcases hst with hst | hst | hst | ⟨hst, -⟩ <;> cases hst
  | _ => cases hi

theorem behind_run (hs : s.Sound) (hphase : s.phase ≠ .active) (hlate : late = s.lateAnswer r)
    (hj : s.jobs[job]? = some ⟨r, .ready⟩) (inputs : List (Input σ ρ)) :
    Behind (s.history inputs) (s.after inputs) job r late := by
  have hrun := run_induction (Q := fun _ => True)
    (P := fun h t => t.phase = s.phase ∧ Behind h t job r late) hs
    ⟨rfl, .ready, hj, .inl rfl⟩ ?_ inputs fun _ _ => trivial
  · exact hrun.2.2
  · intro h u i t effects hu _ hchange ⟨hsame, hbehind⟩
    have hended : u.phase ≠ .active := by rwa [hsame]
    exact ⟨(phase_stays hu hchange hended).trans hsame,
      behind_change hchange hended (hlate.trans (lateAnswer_eq hsame r).symm) hbehind⟩

/-! The turns that bring it there -/

/-- The first in the queue has its turn: woken it is told that it comes too late, and one that has
given up leaves. -/
theorem first_turn (hs : s.Sound) (hphase : s.phase.isTerminal = true) (hfree : s.lock.holder = none)
    (hq : s.lock.queue = (k, ticket) :: rest) :
    ∃ (i : Input σ ρ) (r : Request σ) (answer : Except Error (Answer ρ)),
      (i = .run k ∧ answer = s.lateAnswer r ∨ i = .interrupt k ∧ ticket = .cancelled) ∧
        s.jobs[k]? = some ⟨r, .queued⟩ ∧
          (s.step i).1 = { s with lock := (s.lock.drop k).wakeFirst.2 }.setStage k (.done answer) := by
  have hmem : k ∈ s.lock.names := by simp [Lock.names, hq]
  obtain ⟨r, st, hk, hst⟩ := has_eq_true_iff.mp ((hs.queue k).mp hmem)
  have hqueued : st = .queued := by cases st <;> first | rfl | cases hst
  subst hqueued
  cases ticket with
  | waiting => exact absurd rfl (hs.lock.awake hfree (k, .waiting) (by rw [hq]; rfl))
  | woken =>
    refine ⟨.run k, r, s.lateAnswer r, .inl ⟨rfl, rfl⟩, hk, ?_⟩
    have hwoken : s.lock.isWoken k = true := by simp [Lock.isWoken, hq]
    have hlock : (s.lock.take k).release = (s.lock.drop k).wakeFirst := by
      simp only [Lock.release, Lock.take]
      congr 1
      rw [← hfree]
      rfl
    simp only [step, atJob, hk, run, hwoken, if_true, granted, hphase, leave, unlock, finish, hlock]
    rfl
  | cancelled =>
    refine ⟨.interrupt k, r, .error .cancelled, .inr ⟨rfl, rfl⟩, hk, ?_⟩
    have hnone : (s.lock.drop k).holder = none := hfree
    simp only [step, atJob, hk, interrupt, Lock.leave, hnone, Option.isNone_none, if_true, finish]

/-- An input by which a job has its turn that is in no hook. -/
def IsTurn (s : Session σ ρ) (i : Input σ ρ) : Prop :=
  ∃ j, (i = .run j ∨ i = .interrupt j) ∧ s.isNotifying j = false

theorem isNotifying_eq_false (hj : s.jobs[job]? = some ⟨r, st⟩)
    (hst : ∀ ending round, st ≠ .notifying ending round) : s.isNotifying job = false := by
  unfold isNotifying
  rw [stage?_eq hj]
  split
  · rename_i heq
    exact absurd (Option.some.inj heq) (hst _ _)
  · rfl

/-- No hook comes to its end by the turn of a job that is in none. -/
theorem IsTurn.before {x : Input σ ρ} (hx : t.IsTurn x) (hchange : Change s i t effects)
    (hi : ∀ j, i.job? = some j → s.isNotifying j = false) : s.IsTurn x := by
  obtain ⟨j, hx, hnot⟩ := hx
  refine ⟨j, hx, ?_⟩
  by_contra hnotifying
  have hnotifying : s.isNotifying j = true := by simpa using hnotifying
  obtain ⟨r, ending, round, hj⟩ := exists_of_isNotifying hnotifying
  have hother : i.job? ≠ some j := by
    intro hmoved
    rw [hi j hmoved] at hnotifying
    cases hnotifying
  have hstays := job_stays hchange hj hother
  simp [isNotifying, stage?_eq hstays] at hnot

/-- Every turn shortens the queue, so the turn of each in it comes. -/
theorem drained (n : Nat) (hs : s.Sound) (hphase : s.phase.isTerminal = true)
    (hfree : s.lock.holder = none) (hj : s.jobs[job]? = some ⟨r, .queued⟩)
    (hkept : (job, .cancelled) ∉ s.lock.queue) (hn : s.lock.queue.length = n) :
    ∃ turns : List (Input σ ρ), (∀ i ∈ turns, s.IsTurn i) ∧
      (s.after turns).jobs[job]? = some ⟨r, .done (s.lateAnswer r)⟩ := by
  induction n generalizing s with
  | zero =>
    have hmem : job ∈ s.lock.names := by rw [hs.queue, has_eq hj]; rfl
    simp [Lock.names, List.eq_nil_of_length_eq_zero hn] at hmem
  | succ n ih =>
    obtain ⟨⟨k, ticket⟩, rest, hq⟩ := List.exists_cons_of_length_eq_add_one hn
    obtain ⟨i, r', answer, hi, hk, hstep⟩ := first_turn hs hphase hfree hq
    have hwaiting : s.isNotifying k = false := isNotifying_eq_false hk (by simp)
    have hmoved : i.job? = some k := by rcases hi with ⟨rfl, -⟩ | ⟨rfl, -⟩ <;> rfl
    have hturn : s.IsTurn i := ⟨k, hi.imp And.left And.left, hwaiting⟩
    by_cases hkj : k = job
    · subst k
      rw [hj] at hk
      cases hk
      rcases hi with ⟨rfl, rfl⟩ | ⟨-, rfl⟩
      · refine ⟨[.run job], by simpa using hturn, ?_⟩
        rw [after, after, hstep]
        exact job_moved hj
      · exact absurd (by simp [hq]) hkept
    · have hchange := step_change s i
      have hdrop := Lock.drop_first hs.lock hq
      have hlock : (s.step i).1.lock = (s.lock.drop k).wakeFirst.2 := by rw [hstep]; rfl
      have hsame : (s.step i).1.phase = s.phase := by rw [hstep]; rfl
      have hother : i.job? ≠ some job := by simpa [hmoved] using hkj
      have hfree' : (s.step i).1.lock.holder = none := by
        rw [hlock, Lock.wakeFirst_holder]
        exact hfree
      have hlength : (s.step i).1.lock.queue.length = n := by
        rw [hlock, Lock.wakeFirst_length, hdrop]
        simpa [hq] using hn
      have hkept' : (job, .cancelled) ∉ (s.step i).1.lock.queue := by
        rw [hlock]
        intro hmem
        have hmem := Lock.mem_wakeFirst hmem
        rw [hdrop] at hmem
        exact hkept (by rw [hq]; exact List.mem_cons_of_mem _ hmem)
      obtain ⟨turns, hturns, hdone⟩ := ih (sound_change hchange hs) (by rwa [hsame]) hfree'
        (job_stays hchange hj hother) hkept' hlength
      refine ⟨i :: turns, fun x hx => ?_, ?_⟩
      · rcases List.mem_cons.mp hx with rfl | hx
        · exact hturn
        · refine (hturns x hx).before hchange fun j hj => ?_
          rw [hmoved] at hj
          cases hj
          exact hwaiting
      · rw [after, hdone, lateAnswer_eq hsame]

/-- What becomes of a request that is made of a session now, whatever happens from then on. -/
structure Ends (s : Session σ ρ) (r : Request σ) (answer : Except Error (Answer ρ)) : Prop where
  /-- Neither the request nor anybody else calls the connection. -/
  silent : ∀ (more : List (Input σ ρ)), ∀ m ∈ s.history (.request r :: more), m.calls = []
  /-- It has ended when no turn is due, with the answer unless its own task was cancelled. -/
  ended : ∀ more : List (Input σ ρ), ∃ st,
    (s.after (.request r :: more)).jobs[s.jobs.length]? = some ⟨r, st⟩ ∧
      ((s.after (.request r :: more)).Quiet → st.isDone = true) ∧
        ∀ other, st = .done other → .interrupt s.jobs.length ∉ more → other = answer
  /-- The turns of jobs that are in no hook are enough. -/
  reached : ∃ turns : List (Input σ ρ), (∀ i ∈ turns, s.IsTurn i) ∧
    (s.after (.request r :: turns)).jobs[s.jobs.length]? = some ⟨r, .done answer⟩

theorem step_explicit (hr : r.isImplicit = false) :
    (s.step (.request r)).1 = { s with jobs := s.jobs ++ [{ request := r }] } := by
  cases r <;> first | rfl | cases hr

/-- A request that is made after the end is brought to its answer by turns alone. -/
theorem reached_late (hs : s.Sound) (hset : s.Settled) (hr : r.isImplicit = false) :
    ∃ turns : List (Input σ ρ), (∀ i ∈ turns, s.IsTurn i) ∧
      (s.after (.request r :: turns)).jobs[s.jobs.length]? = some ⟨r, .done (s.lateAnswer r)⟩ := by
  have hopening := step_change s (.request r)
  have hopened := step_explicit (s := s) hr
  rw [hopened] at hopening
  simp only [after, hopened]
  generalize hu : ({ s with jobs := s.jobs ++ [{ request := r }] } : Session σ ρ) = u at hopening ⊢
  have hsound : u.Sound := sound_change hopening hs
  have hj : u.jobs[s.jobs.length]? = some ⟨r, .ready⟩ := by simp [← hu]
  have hsame : u.phase = s.phase := by rw [← hu]
  have hlate : u.lateAnswer r = (s.lateAnswer r : Except Error (Answer ρ)) := lateAnswer_eq hsame r
  have hphase : u.phase.isTerminal = true := hsame ▸ Phase.isTerminal_iff.mpr hset.1
  have hlock : u.lock = s.lock := by rw [← hu]
  have hfree : u.lock.holder = none := hlock ▸ holder_of_settled hs hset
  have hready : u.isNotifying s.jobs.length = false := isNotifying_eq_false hj (by simp)
  have hturn : u.IsTurn (.run s.jobs.length) := ⟨_, .inl rfl, hready⟩
  have hback {x : Input σ ρ} (hx : u.IsTurn x) : s.IsTurn x := hx.before hopening (by simp [Input.job?])
  cases hfirst : u.lock.isFree with
  | true =>
    refine ⟨[.run s.jobs.length], by simpa using hback hturn, ?_⟩
    simp only [after, step, atJob, hj, run, Lock.request, hfirst, if_true, granted, hphase, leave,
      unlock, finish]
    rw [← hlate]
    exact job_moved hj
  | false =>
    -- it queues behind those that are on their way
    have hchange := step_change u (.run s.jobs.length)
    have hstep : (u.step (.run s.jobs.length)).1 =
        { u with lock := { u.lock with queue := u.lock.queue ++ [(s.jobs.length, Ticket.waiting)] }
          }.setStage s.jobs.length .queued := by
      simp [step, atJob, hj, run, Lock.request, hfirst]
    rw [hstep] at hchange
    have hkept : (s.jobs.length, Ticket.cancelled) ∉
        u.lock.queue ++ [(s.jobs.length, Ticket.waiting)] := by
      intro hmem
      have hmem : (s.jobs.length, Ticket.cancelled) ∈ u.lock.queue := by simpa using hmem
      exact hsound.not_queued hj rfl (List.mem_map.mpr ⟨_, hmem, rfl⟩)
    obtain ⟨turns, hturns, hdone⟩ :=
      drained _ (sound_change hchange hsound) hphase hfree (job_moved hj) hkept rfl
    refine ⟨.run s.jobs.length :: turns, fun x hx => ?_, ?_⟩
    · rcases List.mem_cons.mp hx with rfl | hx
      · exact hback hturn
      · refine hback ((hturns x hx).before hchange fun j hj => ?_)
        cases hj
        exact hready
    · rw [after, hstep, hdone, ← hlate]
      exact congrArg (fun answer => some (⟨r, .done answer⟩ : Job σ ρ)) (lateAnswer_eq rfl r)

theorem ends_late (hs : s.Sound) (hset : s.Settled) (hr : r.isImplicit = false) :
    Ends s r (s.lateAnswer r) where
  silent more m hm := calls_settled_run hs hset _ m hm
  ended more := by
    have hopened := step_explicit (s := s) hr
    have hsound := sound_opened hs r
    have hphase : ({ s with jobs := s.jobs ++ [{ request := r }] } : Session σ ρ).phase ≠ .active := hset.1
    have hj : ({ s with jobs := s.jobs ++ [{ request := r }] } : Session σ ρ).jobs[s.jobs.length]? =
        some ⟨r, .ready⟩ := by simp
    have hlate := (lateAnswer_eq (ρ := ρ) (s := s)
      (t := { s with jobs := s.jobs ++ [{ request := r }] }) rfl r).symm
    obtain ⟨st, hst, hwhere⟩ := behind_run hsound hphase hlate hj more
    have hafter : s.after (.request r :: more) =
        ({ s with jobs := s.jobs ++ [{ request := r }] } : Session σ ρ).after more := by
      rw [after, hopened]
    rw [hafter]
    refine ⟨st, hst, fun hquiet => ?_, fun other hdone hkept => ?_⟩
    · rcases hquiet.all_done (sound_after hsound more) hst with hdone | hnotifying
      · exact hdone
      · rw [isNotifying_eq_false hst] at hnotifying
        · cases hnotifying
        · rcases hwhere with rfl | rfl | rfl | ⟨rfl, -⟩ <;> simp
    · subst hdone
      rcases hwhere with hwhere | hwhere | hwhere | ⟨-, m, hm, hinput⟩
      · cases hwhere
      · cases hwhere
      · exact Stage.done.inj hwhere
      · obtain ⟨xs, i, ys, hinputs, rfl⟩ := mem_history hm
        have hinput : i = .interrupt s.jobs.length := hinput
        exact absurd (by simp [hinputs, hinput]) hkept
  reached := reached_late hs hset hr

/-- What a hook gets that turns to its own session while it runs. -/
structure Reentrant (s : Session σ ρ) : Prop where
  commit : Ends s .commit (.error (.alreadyFinalized s.phase))
  rollback : Ends s .rollback (.error (.alreadyFinalized s.phase))
  execute : ∀ statement : σ, Ends s (.execute statement) (.error (.closed s.phase))
  close : s.step (.request .close) = (s, [])
  register : ∀ c : Component, s.step (.register c) = (s, [.refused (.registrationClosed s.phase)])

/-- Where the lock of a session is, at the end of any run. -/
structure Freed (s : Session σ ρ) : Prop where
  holder : ∀ j : Nat, s.lock.holder = some j ↔
    ∃ (r : Request σ) (st : Stage ρ), s.jobs[j]? = some ⟨r, st⟩ ∧
      (st = .forwarding ∧ r.isEnding = false ∨ st.isPhysical = true ∧ r.isEnding = true)
  one : ∀ j k : Nat, s.has Stage.holdsLock j = true → s.has Stage.holdsLock k = true → j = k
  ended : ∀ (j : Nat) (r : Request σ) (answer : Except Error (Answer ρ)),
    s.jobs[j]? = some ⟨r, .done answer⟩ → s.lock.holder ≠ some j
  /-- A lock that is free is on its way to the first who still waits for it. -/
  passed : s.lock.holder = none → ∀ w, s.lock.queue.head? = some w → w.2 ≠ .waiting
  /-- Nobody is left waiting when no turn is due and no call is under way. -/
  nobody_waits : s.Quiet → ∀ (j : Nat) (r : Request σ) (st : Stage ρ), s.jobs[j]? = some ⟨r, st⟩ →
    st.isDone = true ∨ s.isNotifying j = true
  hooks : ∀ j : Nat, s.isNotifying j = true → s.lock.holder = none ∧ Reentrant s

theorem reentrant (hs : s.Sound) (hset : s.Settled) : Reentrant s where
  commit := ends_late hs hset rfl
  rollback := ends_late hs hset rfl
  execute _ := ends_late hs hset rfl
  close := step_ended (Phase.isTerminal_iff.mpr hset.1) rfl
  register c := by
    have hactive : s.isActive = false := by simpa [isActive] using hset.1
    simp [step, Session.register, hactive]

/-- Whatever is asked, whatever fails and however, and whoever is cancelled. -/
theorem freed (id : String) (inputs : List (Input σ ρ)) : Freed (({ id } : Session σ ρ).after inputs) := by
  have hs := sound_after (sound_fresh (ρ := ρ) (σ := σ) id) inputs
  constructor
  case holder =>
    intro j
    rw [hs.holder, has_eq_true_iff]
    constructor
    · rintro ⟨r, st, hj, hhold⟩
      exact ⟨r, st, hj, (holdsLock_iff (hs.fits _ _ _ hj)).mp hhold⟩
    · rintro ⟨r, st, hj, hcritical⟩
      exact ⟨r, st, hj, (holdsLock_iff (hs.fits _ _ _ hj)).mpr hcritical⟩
  case one => exact fun j k hj hk => hs.holder_unique hk hj
  case ended => exact fun j r answer => not_holder_of_done hs
  case passed => exact hs.lock.awake
  case nobody_waits => exact fun hquiet j r st => hquiet.all_done hs
  case hooks =>
    intro j hj
    have hset := settled_of_isNotifying hs hj
    exact ⟨holder_of_settled hs hset, reentrant hs hset⟩

/-- A release that is cancelled frees the lock for the statement that waits for it. -/
example : (({ id := "s" } : Session Unit Unit).after
    [.request .commit, .request (.execute ()), .run 0, .run 1, .settle 0 (.ok ()),
      .settle 0 (.error .cancelled)]).lock = { queue := [(1, .woken)] } := rfl

end Session
end Transact
