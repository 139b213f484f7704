import Transact.Proofs.Repository.Following
import Transact.Proofs.Session.Observers

/-! What a repository has staged, and what it publishes: the entities of its own inserts that were
executed, in the order in which they reached the connection, once the commit is known and never else. -/
namespace Transact

variable {σ ρ : Type}

/-- Only a statement is forwarded. -/
theorem Stage.Goes.statement {r : Request σ} {old : Stage ρ} (hgoes : Goes r old .forwarding) :
    ∃ statement, r = .execute statement := by
  generalize hst : (Stage.forwarding : Stage ρ) = st at hgoes
  cases hgoes with
  | enter =>
    cases r with
    | execute statement => exact ⟨statement, rfl⟩
    | _ => cases hst
  | _ => cases hst

namespace Session

variable {s t : Session σ ρ} {i : Input σ ρ} {effects : List (Effect σ ρ)} {h : History σ ρ}
  {job : Nat} {r : Request σ}

/-- A statement that is under way is the last that was sent, and one that was answered was sent. -/
structure Sent (h : History σ ρ) (s : Session σ ρ) : Prop where
  grants : Grants h s
  last : ∀ (job : Nat) (r : Request σ), s.jobs[job]? = some ⟨r, .forwarding⟩ →
    ∃ (pre : List (Nat × σ)) (statement : σ), h.admitted = pre ++ [(job, statement)]
  replied : ∀ (job : Nat) (statement : σ) (st : Stage ρ),
    s.jobs[job]? = some ⟨.execute statement, st⟩ → s.isReplied job = true →
      (job, statement) ∈ h.admitted

theorem sent_fresh (id : String) : Sent [] ({ id } : Session σ ρ) where
  grants := ⟨by simp [History.admitted], by simp [History.admitted], by simp⟩
  last := by simp
  replied := by simp

/-- One who has just come to send its statement was let in by this input. -/
theorem forwarding_before (hchange : Change s i t effects) (ht : t.jobs[job]? = some ⟨r, .forwarding⟩)
    (hnone : (⟨s, i, effects, t⟩ : Moment σ ρ).admitted = none) :
    s.jobs[job]? = some ⟨r, .forwarding⟩ := by
  have hstatements := statements_change hchange
  rw [hnone] at hstatements
  cases change_moves hchange with
  | rest hjobs _ => rwa [hjobs] at ht
  | opened r' _ hjobs _ =>
    rw [hjobs, List.getElem?_append] at ht
    split at ht
    · exact ht
    · obtain ⟨_, hjob⟩ := List.getElem?_eq_some_iff.mp ht
      rw [List.getElem_singleton] at hjob
      cases hjob
  | moved k r' old st _ _ hgoes hjobs hcalls =>
    rw [hjobs] at ht
    split at ht
    · cases ht
      obtain ⟨statement, rfl⟩ := hgoes.statement
      rw [hcalls] at hstatements
      simp [Stage.call?, Request.firstCall, Call.statement?] at hstatements
    · exact ht

theorem isReplied_iff : s.isReplied job = true ↔
    ∃ r x, s.jobs[job]? = some ⟨r, .done (.ok (.reply x))⟩ := by
  unfold isReplied
  constructor
  · intro hreplied
    split at hreplied
    · rename_i x hst
      obtain ⟨r, hj⟩ := stage?_eq_some_iff.mp hst
      exact ⟨r, x, hj⟩
    · cases hreplied
  · rintro ⟨r, x, hj⟩
    rw [stage?_eq hj]

/-- A statement counts as answered from its reply on. -/
theorem replied_before (hs : s.Sound) (hchange : Change s i t effects) {statement : σ} {old : Stage ρ}
    (hj : s.jobs[job]? = some ⟨.execute statement, old⟩) (ht : t.isReplied job = true) :
    s.isReplied job = true ∨ ∃ x, s.Replies i job x := by
  obtain ⟨r, x, hdone⟩ := isReplied_iff.mp ht
  obtain ⟨st, hst, -⟩ := job_change hchange hj
  rw [hdone] at hst
  cases hst
  cases hold : old.isDone with
  | true =>
    cases old <;> cases hold
    rw [done_stays hchange hj] at hdone
    cases hdone
    exact .inl (isReplied_iff.mpr ⟨_, x, hj⟩)
  | false =>
    rcases statement_ended hs hchange hj hold hdone with ⟨e, he⟩ | ⟨y, hi, rfl, -⟩
    · cases he
    · exact .inr ⟨y, hi, _, hj⟩

theorem replied_stays (hchange : Change s i t effects) (hreplied : s.isReplied job = true) :
    t.isReplied job = true := by
  obtain ⟨r, x, hj⟩ := isReplied_iff.mp hreplied
  exact isReplied_iff.mpr ⟨r, x, done_stays hchange hj⟩

theorem Sent.request (hsent : Sent h s) {statement : σ} (hmem : (job, statement) ∈ h.admitted) :
    ∃ st : Stage ρ, s.jobs[job]? = some ⟨.execute statement, st⟩ := by
  rcases hsent.grants.served job statement hmem with hj | ⟨outcome, hj, -⟩
  · exact ⟨_, hj⟩
  · exact ⟨_, hj⟩

/-- The statement under way, as it was sent. -/
theorem Sent.under_way (hsent : Sent h s) {statement : σ}
    (hj : s.jobs[job]? = some ⟨.execute statement, .forwarding⟩) :
    ∃ pre, h.admitted = pre ++ [(job, statement)] := by
  obtain ⟨pre, statement', hlast⟩ := hsent.last job _ hj
  have hmem : (job, statement') ∈ h.admitted := by simp [hlast]
  obtain ⟨st, hst⟩ := hsent.request hmem
  rw [hj] at hst
  cases hst
  exact ⟨pre, hlast⟩

theorem sent_step (hs : s.Sound) (hchange : Change s i t effects) (hsent : Sent h s) :
    Sent (h ++ [⟨s, i, effects, t⟩]) t where
  grants := grants_change hchange hsent.grants
  last job r hj := by
    rw [History.admitted_concat]
    cases hadmitted : (⟨s, i, effects, t⟩ : Moment σ ρ).admitted with
    | none =>
      obtain ⟨pre, statement, hlast⟩ := hsent.last job r (forwarding_before hchange hj hadmitted)
      exact ⟨pre, statement, by simp [hlast]⟩
    | some entry =>
      -- the lock is with the one who was let in
      obtain ⟨other, statement⟩ := entry
      have hin := admitted_forwarding hchange hadmitted
      have hheld : t.has Stage.holdsLock other = true := by rw [has_eq hin]; rfl
      have hheld' : t.has Stage.holdsLock job = true := by rw [has_eq hj]; rfl
      have hsame := (sound_change hchange hs).holder_unique hheld hheld'
      subst hsame
      exact ⟨h.admitted, statement, rfl⟩
  replied job statement st hj hreplied := by
    rw [History.admitted_concat]
    apply List.mem_append_left
    cases hold : s.jobs[job]? with
    | none =>
      obtain ⟨-, rfl, -⟩ := job_opened hchange hj hold
      obtain ⟨r, x, hdone⟩ := isReplied_iff.mp hreplied
      rw [hj] at hdone
      cases hdone
    | some old =>
      obtain ⟨rq, old⟩ := old
      obtain ⟨st', hst', -⟩ := job_change hchange hold
      rw [hj] at hst'
      cases hst'
      rcases replied_before hs hchange hold hreplied with hbefore | ⟨x, -, r, hforwarding⟩
      · exact hsent.replied job statement _ hold hbefore
      · rw [hold] at hforwarding
        cases hforwarding
        obtain ⟨pre, hlast⟩ := hsent.under_way hold
        rw [hlast]
        simp

end Session

namespace Repository

variable {r : Repository} {entities : List Entity}

/-- What was written waits for the end. -/
structure Staging (r : Repository) (entities : List Entity) : Prop where
  staged : r.staged = entities
  committedEntities : r.committedEntities = []
  committed : r.committed = false
  rolledBack : r.rolledBack = false

/-- What was written is told to be there for good. -/
structure Published (r : Repository) (entities : List Entity) : Prop where
  staged : r.staged = []
  committedEntities : r.committedEntities = entities
  committed : r.committed = true
  rolledBack : r.rolledBack = false

/-- What was written is forgotten. -/
structure Dropped (r : Repository) : Prop where
  staged : r.staged = []
  committedEntities : r.committedEntities = []
  committed : r.committed = false
  rolledBack : r.rolledBack = true

theorem Staging.append (h : r.Staging entities) (more : List Entity) :
    ({ r with staged := r.staged ++ more } : Repository).Staging (entities ++ more) where
  staged := by simp only [h.staged]
  committedEntities := h.committedEntities
  committed := h.committed
  rolledBack := h.rolledBack

theorem Staging.commit (h : r.Staging entities) : (r.notify .onCommit).Published entities where
  staged := rfl
  committedEntities := by simp only [notify, h.staged, h.committedEntities, List.nil_append]
  committed := rfl
  rolledBack := h.rolledBack

/-- One who is told again of the commit publishes nothing twice. -/
theorem Published.commit (h : r.Published entities) : (r.notify .onCommit).Published entities where
  staged := rfl
  committedEntities := by simp only [notify, h.staged, h.committedEntities, List.append_nil]
  committed := rfl
  rolledBack := h.rolledBack

theorem Staging.rollback (h : r.Staging entities) : (r.notify .onRollback).Dropped where
  staged := rfl
  committedEntities := h.committedEntities
  committed := h.committed
  rolledBack := rfl

theorem Dropped.rollback (h : r.Dropped) : (r.notify .onRollback).Dropped where
  staged := rfl
  committedEntities := h.committedEntities
  committed := h.committed
  rolledBack := rfl

end Repository

namespace Transaction

variable {t : Transaction} {i : Input} {k job : Nat} {r : Repository}
  {h : History Sql.Statement Sql.Result}

/-- The entities that repository `k` has added by statements that were executed, by the order of
their jobs. -/
def written (t : Transaction) (jobs : List Nat) (k : Nat) : List Entity :=
  jobs.filterMap fun job => if t.session.isReplied job then t.adds k job else none

theorem adds_step : (t.step i).1.adds k job = t.adds k job := by
  simp only [adds, pendingAt, step_pending]

theorem written_append (xs ys : List Nat) :
    t.written (xs ++ ys) k = t.written xs k ++ t.written ys k :=
  List.filterMap_append ..

theorem written_singleton :
    t.written [job] k = (if t.session.isReplied job then t.adds k job else none).toList := by
  rw [written, List.filterMap_eq_flatMap_toList]
  simp

theorem written_congr {u : Transaction} {jobs : List Nat}
    (hadds : ∀ job ∈ jobs, u.adds k job = t.adds k job)
    (hreplied : ∀ job ∈ jobs, u.session.isReplied job = t.session.isReplied job) :
    u.written jobs k = t.written jobs k := by
  apply List.filterMap_congr
  intro job hjob
  rw [hadds job hjob, hreplied job hjob]

theorem isReplied_step (hs : t.session.Sound) (hsent : Session.Sent h t.session)
    (hmem : job ∈ h.admitted.map Prod.fst) (hother : ∀ x, ¬ t.session.Replies i job x) :
    (t.step i).1.session.isReplied job = t.session.isReplied job := by
  obtain ⟨⟨_, statement⟩, hentry, rfl⟩ := List.mem_map.mp hmem
  obtain ⟨st, hj⟩ := hsent.request hentry
  have hchange := Session.step_change t.session i
  rw [step_session, Bool.eq_iff_iff]
  refine ⟨fun hreplied => ?_, Session.replied_stays hchange⟩
  rcases Session.replied_before hs hchange hj hreplied with hbefore | ⟨x, hreplies⟩
  · exact hbefore
  · exact absurd hreplies (hother x)

/-- Without an answer to an insert nothing is added to what was written. -/
theorem written_unreplied (hs : t.session.Sound) (hsent : Session.Sent h t.session)
    (hother : ∀ job x, ¬ t.session.Replies i job x) :
    (t.step i).1.written (((h ++ [t.session.moment i]).admitted).map Prod.fst) k =
      t.written (h.admitted.map Prod.fst) k := by
  have hnew : (t.step i).1.written ((t.session.moment i).admitted.toList.map Prod.fst) k = [] := by
    rw [written, List.filterMap_eq_nil_iff]
    intro job hjob
    obtain ⟨⟨_, statement⟩, hentry, rfl⟩ := List.mem_map.mp hjob
    have hin := Session.admitted_forwarding (Session.step_change t.session i) (Option.mem_toList.mp hentry)
    simp only [step_session, Session.isReplied, Session.stage?_eq hin]
    rfl
  rw [History.admitted_concat, List.map_append, written_append, hnew, List.append_nil]
  apply written_congr
  · exact fun job _ => adds_step
  · exact fun job hmem => isReplied_step hs hsent hmem (hother job)

/-- The answer to an insert adds its entity to the end. -/
theorem written_replied (hs : t.session.Sound) (hsent : Session.Sent h t.session) {x : Sql.Result}
    (hreplies : t.session.Replies i job x) :
    (t.step i).1.written (((h ++ [t.session.moment i]).admitted).map Prod.fst) k =
      t.written (h.admitted.map Prod.fst) k ++ (t.adds k job).toList := by
  have hnow := (Session.step_replies hreplies).2
  obtain ⟨rfl, rq, hj⟩ := hreplies
  obtain ⟨pre, statement, hlast⟩ := hsent.last job rq hj
  have hnone : (t.session.moment (.reply job (.ok x))).admitted = none := rfl
  have hbefore : t.session.isReplied job = false := by
    simp [Session.isReplied, Session.stage?_eq hj]
  have honce := hsent.grants.once
  rw [hlast, List.map_append, List.nodup_append] at honce
  have hpre : (t.step (.reply job (.ok x))).1.written (pre.map Prod.fst) k =
      t.written (pre.map Prod.fst) k := by
    apply written_congr
    · exact fun _ _ => adds_step
    · intro other hmem
      have hmem' : other ∈ h.admitted.map Prod.fst := by simp [hlast, hmem]
      apply isReplied_step hs hsent hmem'
      rintro y ⟨hi, -⟩
      cases hi
      exact honce.2.2 job hmem job (by simp) rfl
  rw [History.admitted_concat, hnone, Option.toList_none, List.append_nil, hlast, List.map_append,
    written_append, written_append, hpre, List.append_assoc]
  congr 1
  rw [← step_session] at hnow
  simp only [List.map_cons, List.map_nil, written_singleton, hnow, hbefore, adds_step, if_true,
    Bool.false_eq_true, if_false, Option.toList_none, List.nil_append]

/-- How the books of repository `k` stand: no hook of its own was called yet, or the commit was
published, or all was dropped. -/
inductive Books (h : History Sql.Statement Sql.Result) (t : Transaction) (k : Nat) (r : Repository) : Prop
  | staging : (∀ call ∈ h.hookCalls, call.2.key ≠ k) →
      r.Staging (t.written (h.admitted.map Prod.fst) k) → Books h t k r
  | published : t.session.phase = .committed → (∃ call ∈ h.hookCalls, call.2.key = k) →
      r.Published (t.written (h.admitted.map Prod.fst) k) → Books h t k r
  | dropped : t.session.phase = .rolledBack → (∃ call ∈ h.hookCalls, call.2.key = k) →
      r.Dropped → Books h t k r

theorem books_replied (hs : t.session.Sound) (hsent : Session.Sent h t.session) {x : Sql.Result}
    (hreplies : t.session.Replies i job x) (hbooks : Books h t k r) :
    Books (h ++ [t.session.moment i]) (t.step i).1 k
      { r with staged := r.staged ++ (t.adds k job).toList } := by
  have hwritten := written_replied (k := k) hs hsent hreplies
  have hcalls : (t.session.moment i).hookCalls = [] := by
    have heffects := (Session.step_replies hreplies).1
    simp [Moment.hookCalls, Session.moment, heffects]
  have hactive : t.session.phase = .active := by
    obtain ⟨-, rq, hj⟩ := hreplies
    exact (hs.fits _ _ _ hj).1
  cases hbooks with
  | staging huncalled hstaging =>
    refine .staging ?_ ?_
    · rw [History.hookCalls_concat, hcalls, List.append_nil]
      exact huncalled
    · rw [hwritten]
      exact hstaging.append _
  | published hphase => simp [hphase] at hactive
  | dropped hphase => simp [hphase] at hactive

theorem books_still (hs : t.session.Sound) (hsent : Session.Sent h t.session)
    (hother : ∀ job x, ¬ t.session.Replies i job x)
    (hcalls : ∀ call ∈ (t.session.moment i).hookCalls, call.2.key ≠ k) (hbooks : Books h t k r) :
    Books (h ++ [t.session.moment i]) (t.step i).1 k r := by
  have hwritten := written_unreplied (k := k) hs hsent hother
  have hstays (hphase : t.session.phase ≠ .active) : (t.step i).1.session.phase = t.session.phase := by
    rw [step_session]
    exact Session.phase_stays hs (Session.step_change _ i) hphase
  have hcalled (hbefore : ∃ call ∈ h.hookCalls, call.2.key = k) :
      ∃ call ∈ (h ++ [t.session.moment i] : History _ _).hookCalls, call.2.key = k := by
    obtain ⟨call, hcall, hk⟩ := hbefore
    rw [History.hookCalls_concat]
    exact ⟨call, List.mem_append_left _ hcall, hk⟩
  cases hbooks with
  | staging huncalled hstaging =>
    refine .staging ?_ (by rwa [hwritten])
    rw [History.hookCalls_concat]
    intro call hcall
    rcases List.mem_append.mp hcall with hcall | hcall
    · exact huncalled call hcall
    · exact hcalls call hcall
  | published hphase hbefore hpublished =>
    exact .published ((hstays (by simp [hphase])).trans hphase) (hcalled hbefore) (by rwa [hwritten])
  | dropped hphase hbefore hdropped =>
    exact .dropped ((hstays (by simp [hphase])).trans hphase) (hcalled hbefore) hdropped

/-- What is told to a repository is the end that was reached. -/
theorem books_notified (hs : t.session.Sound) (hsent : Session.Sent h t.session)
    (hother : ∀ job x, ¬ t.session.Replies i job x) {hook : Hook} {o : Observer} (hk : o.key = k)
    (hcalls : (t.session.moment i).hookCalls = [(hook, o)]) (hbooks : Books h t k r) :
    Books (h ++ [t.session.moment i]) (t.step i).1 k (r.notify hook) := by
  have hwritten := written_unreplied (k := k) hs hsent hother
  have hchange := Session.step_change t.session i
  have hmem : (hook, o) ∈ (t.session.moment i).hookCalls := by rw [hcalls]; exact List.mem_singleton_self _
  obtain ⟨hended, hhook⟩ := Session.hookCalls_ended hs hchange hmem
  have hphase : (t.step i).1.session.phase = t.session.phase := by
    rw [step_session]
    exact Session.phase_stays hs hchange hended
  have hcalled : ∃ call ∈ (h ++ [t.session.moment i] : History _ _).hookCalls, call.2.key = k := by
    rw [History.hookCalls_concat]
    exact ⟨_, List.mem_append_right _ hmem, hk⟩
  cases hp : t.session.phase with
  | active => exact absurd hp hended
  | committed =>
    have honCommit : hook = .onCommit := by simpa [hp, Phase.hook] using hhook
    subst honCommit
    refine .published (hphase.trans hp) hcalled ?_
    rw [hwritten]
    cases hbooks with
    | staging _ hstaging => exact hstaging.commit
    | published _ _ hpublished => exact hpublished.commit
    | dropped hdropped => simp [hp] at hdropped
  | rolledBack =>
    have honRollback : hook = .onRollback := by simpa [hp, Phase.hook] using hhook
    subst honRollback
    refine .dropped (hphase.trans hp) hcalled ?_
    cases hbooks with
    | staging _ hstaging => exact hstaging.rollback
    | published hpublished => simp [hp] at hpublished
    | dropped _ _ hdropped => exact hdropped.rollback

theorem books_step (hs : t.session.Sound) (hsent : Session.Sent h t.session)
    (htracked : ∀ p ∈ t.pending, t.Tracks p) (hr : t.repositories[k]? = some r) (hbooks : Books h t k r) :
    ∃ r', (t.step i).1.repositories[k]? = some r' ∧ r'.statement = r.statement ∧
      Books (h ++ [t.session.moment i]) (t.step i).1 k r' := by
  by_cases hreplies : ∃ job x, t.session.Replies i job x
  · obtain ⟨job, x, hreplies⟩ := hreplies
    refine ⟨{ r with staged := r.staged ++ (t.adds k job).toList }, ?_, rfl,
      books_replied hs hsent hreplies hbooks⟩
    rw [step_replied hreplies, hr]
    rfl
  · have hother : ∀ job x, ¬ t.session.Replies i job x := fun job x hj => hreplies ⟨job, x, hj⟩
    rcases step_unreplied hs htracked hother hr with ⟨hstays, hcalls⟩ | ⟨hook, o, hk, hcalls, hnotified⟩
    · exact ⟨r, hstays, rfl, books_still hs hsent hother hcalls hbooks⟩
    · exact ⟨_, hnotified, Repository.statement_notify hook, books_notified hs hsent hother hk hcalls hbooks⟩

end Transaction
end Transact
