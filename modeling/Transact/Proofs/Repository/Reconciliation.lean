import Transact.Proofs.Repository.Bookkeeping
import Transact.Proofs.Repository.Runs
import Transact.Repository.Sample

/-! What the repositories of a transaction hold along any of its runs. They agree with the end of the
transaction, and what comes after the end changes none of them. -/
namespace Transact

variable {σ ρ : Type} {s t : Session σ ρ} {i : Input σ ρ} {effects : List (Effect σ ρ)} {h : History σ ρ}

/-- The one who called for the end has ended. -/
def History.Over (h : History σ ρ) (s : Session σ ρ) : Prop :=
  ∃ (j : Nat) (r : Request σ) (answer : Except Error (Answer ρ)), h.Reaches j ∧
    s.jobs[j]? = some ⟨r, .done answer⟩

namespace Session

/-- A statement is answered by an error or by a reply, and by nothing else. -/
def Answering (s : Session σ ρ) : Prop :=
  ∀ (job : Nat) (statement : σ) (answer : Except Error (Answer ρ)),
    s.jobs[job]? = some ⟨.execute statement, .done answer⟩ →
      (∃ e, answer = .error e) ∨ ∃ x, answer = .ok (.reply x)

theorem answering_change (hs : s.Sound) (hchange : Change s i t effects) (hanswering : s.Answering) :
    t.Answering := by
  intro job statement answer ht
  cases hold : s.jobs[job]? with
  | none =>
    obtain ⟨-, hready, -⟩ := job_opened hchange ht hold
    cases hready
  | some old =>
    obtain ⟨r, old⟩ := old
    obtain ⟨st, hst, -⟩ := job_change hchange hold
    rw [ht] at hst
    cases hst
    cases hdone : old.isDone with
    | true =>
      cases old <;> cases hdone
      rw [done_stays hchange hold] at ht
      cases ht
      exact hanswering job statement answer hold
    | false =>
      rcases statement_ended hs hchange hold hdone ht with he | ⟨x, -, -, hx⟩
      · exact .inl he
      · exact .inr ⟨x, hx⟩

theorem answering_after (id : String) (inputs : List (Input σ ρ)) :
    (({ id } : Session σ ρ).after inputs).Answering :=
  (run_induction (P := fun _ s => s.Answering) (Q := fun _ => True) (sound_fresh id)
    (fun _ _ _ hj => by simp at hj) (fun hs _ hchange => answering_change hs hchange) inputs
    fun _ _ => trivial).2

/-- An ended session keeps its phase and those who are told of it. -/
theorem end_stays (hs : s.Sound) (hphase : s.phase ≠ .active) (inputs : List (Input σ ρ)) :
    (s.after inputs).phase = s.phase ∧ (s.after inputs).registry = s.registry := by
  refine (run_induction (P := fun _ t => t.phase = s.phase ∧ t.registry = s.registry)
    (Q := fun _ => True) hs ⟨rfl, rfl⟩ ?_ inputs fun _ _ => trivial).2
  rintro h u i t effects hu - hchange ⟨hp, hregistry⟩
  have hended : u.phase ≠ .active := hp ▸ hphase
  exact ⟨(phase_stays hu hchange hended).trans hp, (registry_stays hchange hended).trans hregistry⟩

/-- Once all have been told nobody is told again. -/
theorem hookCalls_over (id : String) (inputs more : List (Input σ ρ))
    (hordinary : ∀ i ∈ inputs, i.isOrdinary = true)
    (hover : History.Over (({ id } : Session σ ρ).history inputs) (({ id } : Session σ ρ).after inputs)) :
    ((({ id } : Session σ ρ).after inputs).history more).hookCalls = [] := by
  obtain ⟨j, r, answer, hj, hdone⟩ := hover
  obtain ⟨hphase, hcalls⟩ := complete_history id inputs hordinary j r answer hj hdone
  have hstays := end_stays (sound_after (sound_fresh id) inputs) hphase more
  have hordered := (told_history id (inputs ++ more)).ordered
  rw [after_append, history_append, hstays.1, hstays.2, ← hcalls, History.hookCalls,
    List.flatMap_append] at hordered
  have hlength := hordered.length_le
  rw [List.length_append] at hlength
  refine List.eq_nil_of_length_eq_zero ?_
  simp only [History.hookCalls] at hlength ⊢
  omega

end Session

namespace Transaction

variable {t u : Transaction} {i : Input} {k job : Nat} {r : Repository} {event : Event} {p : Pending}
  {h : History Sql.Statement Sql.Result}

/-- Where an operation waits: for a job that is there, or for the one that this input opens with its
own statement. -/
inductive Placed (t : Transaction) (i : Input) (p : Pending) : Prop
  | present : p.job < t.session.jobs.length → Placed t i p
  | opening (r : Repository) (statement : Sql.Statement) : p.job = t.session.jobs.length →
      t.repositories[p.repository]? = some r → r.statement p.operation = .ok statement →
      i = .request (.execute statement) → Placed t i p

/-- What an input meets in a run of a transaction. -/
structure Ready (h : History Sql.Statement Sql.Result) (t : Transaction) (i : Input) : Prop where
  tracked : ∀ p ∈ t.pending, t.Tracks p
  placed : ∀ p ∈ t.pending, t.Placed i p
  apart : (t.pending.map Pending.job).Nodup
  books : ∀ (k : Nat) (r : Repository), t.repositories[k]? = some r → Books h t k r

/-- What is kept along a run of a transaction. -/
structure Kept (h : History Sql.Statement Sql.Result) (t : Transaction) : Prop where
  tracked : ∀ p ∈ t.pending, t.Tracks p
  placed : ∀ p ∈ t.pending, p.job < t.session.jobs.length
  apart : (t.pending.map Pending.job).Nodup
  books : ∀ (k : Nat) (r : Repository), t.repositories[k]? = some r → Books h t k r

theorem tracks_step (htracks : t.Tracks p) (hplaced : t.Placed i p)
    (hstatements : ∀ r, t.repositories[p.repository]? = some r →
      ∃ r', (t.step i).1.repositories[p.repository]? = some r' ∧ r'.statement = r.statement) :
    (t.step i).1.Tracks p ∧ p.job < (t.step i).1.session.jobs.length := by
  obtain ⟨r, statement, hr, hstatement, hrequest⟩ := htracks
  obtain ⟨r', hr', hsame⟩ := hstatements r hr
  -- whether it was there or is opened now, the job has the operation's statement
  have hjob : ∃ st, (t.step i).1.session.jobs[p.job]? = some ⟨.execute statement, st⟩ := by
    cases hplaced with
    | present hlt =>
      obtain ⟨⟨rq, old⟩, hj⟩ : ∃ j, t.session.jobs[p.job]? = some j := ⟨_, List.getElem?_eq_getElem hlt⟩
      obtain ⟨st, hst, -⟩ := Session.job_change (Session.step_change t.session i) hj
      have hrq : rq = .execute statement := hrequest _ hj
      rw [step_session, ← hrq]
      exact ⟨st, hst⟩
    | opening r₀ statement₀ hlast hr₀ hstatement₀ hi =>
      rw [hr] at hr₀
      cases hr₀
      rw [hstatement] at hstatement₀
      cases hstatement₀
      refine ⟨.ready, ?_⟩
      rw [step_session, hi, hlast]
      exact List.getElem?_concat_length
  obtain ⟨st, hst⟩ := hjob
  refine ⟨⟨r', statement, hr', by rw [hsame, hstatement], fun j hj => ?_⟩, ?_⟩
  · rw [hst] at hj
    cases hj
    rfl
  · exact (List.getElem?_eq_some_iff.mp hst).1

theorem kept_step (hs : t.session.Sound) (hsent : Session.Sent h t.session) (hready : Ready h t i) :
    Kept (h ++ [t.session.moment i]) (t.step i).1 := by
  have hstep {k : Nat} {r : Repository} (hr : t.repositories[k]? = some r) :=
    books_step (i := i) hs hsent hready.tracked hr (hready.books k r hr)
  have htracks {p : Pending} (hp : p ∈ t.pending) := tracks_step (hready.tracked p hp)
    (hready.placed p hp) fun r hr => by
      obtain ⟨r', hr', hsame, -⟩ := hstep hr
      exact ⟨r', hr', hsame⟩
  constructor
  case tracked =>
    rw [step_pending]
    exact fun p hp => (htracks hp).1
  case placed =>
    rw [step_pending]
    exact fun p hp => (htracks hp).2
  case apart =>
    rw [step_pending]
    exact hready.apart
  case books =>
    intro k r' hr'
    have hlt := (List.getElem?_eq_some_iff.mp hr').1
    rw [step_length] at hlt
    obtain ⟨r'', hr'', -, hbooks⟩ := hstep (List.getElem?_eq_getElem hlt)
    rw [hr'] at hr''
    cases hr''
    exact hbooks

theorem adds_awaiting {repository : Nat} {operation : Operation} (hjob : job < t.session.jobs.length) :
    (t.awaiting repository operation).adds k job = t.adds k job := by
  have hat : (t.awaiting repository operation).pendingAt job = t.pendingAt job := by
    have hne : t.session.jobs.length ≠ job := by omega
    simp [pendingAt, awaiting, List.find?_append, hne]
  simp only [adds, hat]

theorem books_awaiting (hsent : Session.Sent h t.session) (hbooks : Books h t k r) (repository : Nat)
    (operation : Operation) : Books h (t.awaiting repository operation) k r := by
  have hwritten : (t.awaiting repository operation).written (h.admitted.map Prod.fst) k =
      t.written (h.admitted.map Prod.fst) k := by
    apply written_congr
    · intro job hmem
      obtain ⟨⟨_, statement⟩, hentry, rfl⟩ := List.mem_map.mp hmem
      obtain ⟨st, hj⟩ := hsent.request hentry
      exact adds_awaiting (List.getElem?_eq_some_iff.mp hj).1
    · exact fun _ _ => rfl
  cases hbooks with
  | staging huncalled hstaging => exact .staging huncalled (by rwa [hwritten])
  | published hphase hcalled hpublished => exact .published hphase hcalled (by rwa [hwritten])
  | dropped hphase hcalled hdropped => exact .dropped hphase hcalled hdropped

theorem ready_awaiting (hsent : Session.Sent h t.session) (hkept : Kept h t) {operation : Operation}
    {statement : Sql.Statement} (hr : t.repositories[k]? = some r)
    (hstatement : r.statement operation = .ok statement) :
    Ready h (t.awaiting k operation) (.request (.execute statement)) where
  tracked p hp := by
    rcases List.mem_append.mp hp with hp | hp
    · exact hkept.tracked p hp
    · rw [List.mem_singleton.mp hp]
      exact ⟨r, statement, hr, hstatement, by simp [awaiting]⟩
  placed p hp := by
    rcases List.mem_append.mp hp with hp | hp
    · exact .present (hkept.placed p hp)
    · rw [List.mem_singleton.mp hp]
      exact .opening r statement rfl hr hstatement rfl
  apart := by
    rw [awaiting, List.map_append, List.nodup_append]
    refine ⟨hkept.apart, by simp, fun job hjob other hother => ?_⟩
    obtain ⟨p, hp, rfl⟩ := List.mem_map.mp hjob
    have hlt := hkept.placed p hp
    simp only [List.map_cons, List.map_nil, List.mem_singleton] at hother
    omega
  books k' r' hr' := books_awaiting hsent (hkept.books k' r' hr') k operation

theorem ready_taken (hsent : Session.Sent h t.session) (hkept : Kept h t)
    (hintake : t.intake event = some (u, i)) : Ready h u i := by
  rcases intake_cases hintake with ⟨rfl, -⟩ | ⟨k, operation, r, statement, hr, hstatement, rfl, rfl⟩
  · exact ⟨hkept.tracked, fun p hp => .present (hkept.placed p hp), hkept.apart, hkept.books⟩
  · exact ready_awaiting hsent hkept hr hstatement

/-! Runs -/

def start (id : String) (repositories : List Repository) : Transaction :=
  { session := { id }, repositories }

/-- A session with repositories runs like any session. -/
theorem start_run {P : History Sql.Statement Sql.Result → Session Sql.Statement Sql.Result → Prop}
    (id : String) (repositories : List Repository) (events : List Event)
    (h : P (({ id } : Session _ _).history ((start id repositories).inputs events))
      (({ id } : Session _ _).after ((start id repositories).inputs events))) :
    P ((start id repositories).history events) ((start id repositories).after events).session := by
  rw [session_after]
  exact h

theorem kept_start (id : String) {repositories : List Repository}
    (hfresh : ∀ r ∈ repositories, r.Staging []) : Kept [] (start id repositories) where
  tracked := by simp [start]
  placed := by simp [start]
  apart := by simp [start]
  books _ r hr := .staging (by simp) (hfresh r (List.mem_of_getElem? hr))

theorem kept_run (hs : t.session.Sound) (hsent : Session.Sent h t.session) (hkept : Kept h t)
    (events : List Event) : Session.Sent (h ++ t.history events) (t.after events).session ∧
      Kept (h ++ t.history events) (t.after events) := by
  refine run_induction (P := fun more u => Session.Sent (h ++ more) u.session ∧ Kept (h ++ more) u) hs
    ⟨by rwa [List.append_nil], by rwa [List.append_nil]⟩ ?_ events
  rintro more t u event i hs hintake ⟨hsent, hkept⟩
  have hready := ready_taken hsent hkept hintake
  rw [← intake_session hintake] at hs hsent ⊢
  rw [← List.append_assoc]
  refine ⟨?_, kept_step hs hsent hready⟩
  rw [step_session]
  exact Session.sent_step hs (Session.step_change u.session i) hsent

/-- In an ended session a repository is moved by its hook only. -/
theorem repositories_stay (hs : t.session.Sound) (htracked : ∀ p ∈ t.pending, t.Tracks p)
    (hphase : t.session.phase ≠ .active) (hcalls : (t.session.moment i).hookCalls = []) :
    (t.step i).1.repositories = t.repositories := by
  have hother (job : Nat) (x : Sql.Result) : ¬ t.session.Replies i job x := by
    rintro ⟨-, rq, hj⟩
    exact hphase (hs.fits _ _ _ hj).1
  apply List.ext_getElem?
  intro k
  cases hr : t.repositories[k]? with
  | none => rwa [List.getElem?_eq_none_iff, step_length, ← List.getElem?_eq_none_iff]
  | some r =>
    rcases step_unreplied hs htracked hother hr with ⟨hstays, -⟩ | ⟨hook, o, -, hcall, -⟩
    · exact hstays
    · rw [show (t.step i).2.filterMap Effect.hookCall? = [] from hcalls] at hcall
      cases hcall

theorem repositories_after (hs : t.session.Sound) (hsent : Session.Sent h t.session) (hkept : Kept h t)
    (hphase : t.session.phase ≠ .active) (events : List Event)
    (hcalls : (t.history events).hookCalls = []) : (t.after events).repositories = t.repositories := by
  induction events using List.reverseRecOn with
  | nil => rfl
  | append_singleton rest event ih =>
    have hkept' := kept_run hs hsent hkept rest
    have hs' : (t.after rest).session.Sound := by
      rw [session_after]
      exact Session.sound_after hs _
    have hphase' : (t.after rest).session.phase ≠ .active := by
      rw [session_after, (Session.end_stays hs hphase _).1]
      exact hphase
    rw [history_append, History.hookCalls, List.flatMap_append, List.append_eq_nil_iff] at hcalls
    rw [after_append, ← ih hcalls.1]
    cases hintake : (t.after rest).intake event with
    | none => rw [after, after, handle_refused hintake]
    | some admitted =>
      obtain ⟨u, i⟩ := admitted
      have hquiet := hcalls.2
      rw [history_taken hintake, List.flatMap_singleton] at hquiet
      rw [after, after, handle_taken hintake, ← intake_repositories hintake]
      rw [← intake_session hintake] at hs' hphase' hquiet
      exact repositories_stay hs' (ready_taken hkept'.1 hkept'.2 hintake).tracked hphase' hquiet

/-- The operation has come back to its caller, and raised nothing. -/
def Returned (t : Transaction) (p : Pending) : Prop :=
  ∃ (r : Repository) (answer : Except Error (Answer Sql.Result)) (reply : Repository.Reply),
    t.repositories[p.repository]? = some r ∧ t.session.stage? p.job = some (.done answer) ∧
      r.answer p.operation (resultOf answer) = .ok reply

theorem pendingAt_eq (hapart : (t.pending.map Pending.job).Nodup) (hp : p ∈ t.pending) :
    t.pendingAt p.job = some p := by
  obtain ⟨pre, post, hsplit⟩ := List.append_of_mem hp
  rw [hsplit, List.map_append, List.map_cons, List.nodup_append] at hapart
  have hbefore : pre.find? (·.job == p.job) = none := by
    rw [List.find?_eq_none]
    intro q hq heq
    exact hapart.2.2 q.job (List.mem_map_of_mem hq) p.job List.mem_cons_self (by simpa using heq)
  rw [pendingAt, hsplit, List.find?_append, hbefore]
  simp

theorem isReplied_iff_returned (hanswering : t.session.Answering) (htracks : t.Tracks p)
    {entity : Entity} (hadd : p.operation = .add entity) :
    t.session.isReplied p.job = true ↔ t.Returned p := by
  obtain ⟨r, statement, hr, hstatement, hrequest⟩ := htracks
  constructor
  · intro hreplied
    obtain ⟨rq, x, hj⟩ := Session.isReplied_iff.mp hreplied
    exact ⟨r, _, .added, hr, Session.stage?_eq hj, by rw [hadd]; rfl⟩
  · rintro ⟨r', answer, reply, -, hstage, hreply⟩
    obtain ⟨rq, hj⟩ := Session.stage?_eq_some_iff.mp hstage
    have hrq : rq = .execute statement := hrequest _ hj
    subst hrq
    rcases hanswering p.job statement answer hj with ⟨e, rfl⟩ | ⟨x, rfl⟩
    · cases hreply
    · exact Session.isReplied_iff.mpr ⟨_, x, hj⟩

/-- The entities counted as written are those of the additions that have returned. -/
theorem adds_iff (hkept : Kept h t) (hanswering : t.session.Answering) {entity : Entity} :
    (t.session.isReplied job = true ∧ t.adds k job = some entity) ↔
      ∃ p ∈ t.pending, p.job = job ∧ p.repository = k ∧ p.operation = .add entity ∧ t.Returned p := by
  constructor
  · rintro ⟨hreplied, hadds⟩
    unfold adds at hadds
    split at hadds
    · rename_i job' repository entity' hp
      obtain ⟨hmem, hjob⟩ := pendingAt_mem hp
      split at hadds
      · rename_i hk
        cases hadds
        refine ⟨_, hmem, hjob, hk, rfl, ?_⟩
        rw [← isReplied_iff_returned hanswering (hkept.tracked _ hmem) rfl, hjob]
        exact hreplied
      · cases hadds
    · cases hadds
  · rintro ⟨p, hmem, rfl, rfl, hadd, hreturned⟩
    rw [isReplied_iff_returned hanswering (hkept.tracked p hmem) hadd]
    refine ⟨hreturned, ?_⟩
    obtain ⟨_, repository, operation⟩ := p
    cases hadd
    simp only [adds, pendingAt_eq hkept.apart hmem, if_true]

theorem Kept.inserted (hkept : Kept h t) (hsent : Session.Sent h t.session)
    (hanswering : t.session.Answering) (hp : p ∈ t.pending) {entity : Entity}
    (hadd : p.operation = .add entity) (hreturned : t.Returned p) :
    ∃ (r : Repository) (statement : Sql.Statement), t.repositories[p.repository]? = some r ∧
      r.statement p.operation = .ok statement ∧ (p.job, statement) ∈ h.admitted := by
  have htracks := hkept.tracked p hp
  have hreplied := (isReplied_iff_returned hanswering htracks hadd).mpr hreturned
  obtain ⟨r, statement, hr, hstatement, hrequest⟩ := htracks
  obtain ⟨rq, x, hj⟩ := Session.isReplied_iff.mp hreplied
  have hrq : rq = .execute statement := hrequest _ hj
  subst hrq
  exact ⟨r, statement, hr, hstatement, hsent.replied p.job statement _ hj hreplied⟩

theorem Kept.waiting (hkept : Kept h t) (htold : Session.Told h t.session)
    (hr : t.repositories[k]? = some r)
    (huncalled : t.session.phase = .active ∨ ∀ call ∈ h.hookCalls, call.2.key ≠ k) :
    r.Staging (t.written (h.admitted.map Prod.fst) k) := by
  have hnone : ∀ call ∈ h.hookCalls, call.2.key ≠ k := by
    rcases huncalled with hactive | huncalled
    · simp [(htold.early fun hset => hset.1 hactive).2]
    · exact huncalled
  cases hkept.books k r hr with
  | staging _ hstaging => exact hstaging
  | published _ hcalled | dropped _ hcalled =>
    obtain ⟨call, hcall, hk⟩ := hcalled
    exact absurd hk (hnone call hcall)

theorem Kept.told (hkept : Kept h t) (hdecided : Session.Decided h t.session)
    {call : Hook × Observer} (hcall : call ∈ h.hookCalls) (hr : t.repositories[call.2.key]? = some r) :
    ((.commit, .ok ()) ∈ h.log ∧ r.Published (t.written (h.admitted.map Prod.fst) call.2.key)) ∨
      ((.commit, .ok ()) ∉ h.log ∧ r.Dropped) := by
  have hcommitted : t.session.phase = .committed ↔ (.commit, .ok ()) ∈ h.log := by
    simp [hdecided .committed nofun, Session.next_eq_committed]
  rw [← hcommitted]
  cases hkept.books call.2.key r hr with
  | staging huncalled => exact absurd rfl (huncalled call hcall)
  | published hphase _ hpublished => exact .inl ⟨hphase, hpublished⟩
  | dropped hphase _ hdropped => exact .inr ⟨by simp [hphase], hdropped⟩

/-- How the repositories of a transaction stand at the end of a run. What repository `k` has written
is listed in the order in which the statements reached the connection. -/
structure Reconciled (h : History Sql.Statement Sql.Result) (t : Transaction) : Prop where
  once : (h.sent.map Prod.fst).Nodup
  apart : (t.pending.map Pending.job).Nodup
  /-- An addition that has returned has sent its own insert. -/
  inserted : ∀ (p : Pending) (entity : Entity), p ∈ t.pending → p.operation = .add entity →
    t.Returned p → ∃ (r : Repository) (statement : Sql.Statement),
      t.repositories[p.repository]? = some r ∧ r.statement p.operation = .ok statement ∧
        (p.job, statement) ∈ h.sent
  /-- The entities that count as written are those of the additions that have returned. -/
  counted : ∀ (k job : Nat) (entity : Entity),
    (t.session.isReplied job = true ∧ t.adds k job = some entity) ↔
      ∃ p ∈ t.pending, p.job = job ∧ p.repository = k ∧ p.operation = .add entity ∧ t.Returned p
  /-- A repository waits for the end until it is told. -/
  waiting : ∀ (k : Nat) (r : Repository), t.repositories[k]? = some r →
    (t.session.phase = .active ∨ ∀ call ∈ h.hookCalls, call.2.key ≠ k) →
      r.Staging (t.written (h.sent.map Prod.fst) k)
  ended : h.Over t.session → ∀ (o : Observer) (r : Repository), o ∈ h.accepted →
    t.repositories[o.key]? = some r →
      ((.commit, .ok ()) ∈ h.log ∧ r.Published (t.written (h.sent.map Prod.fst) o.key)) ∨
        ((.commit, .ok ()) ∉ h.log ∧ r.Dropped)
  later : h.Over t.session → ∀ more : List Event, (t.after more).repositories = t.repositories

theorem reconciled (id : String) (repositories : List Repository) (events : List Event)
    (hfresh : ∀ r ∈ repositories, r.Staging [])
    (hordinary : ∀ i ∈ (start id repositories).inputs events, i.isOrdinary = true) :
    Reconciled ((start id repositories).history events) ((start id repositories).after events) := by
  obtain ⟨hsent, hkept⟩ :=
    kept_run (Session.sound_fresh id) (Session.sent_fresh id) (kept_start id hfresh) events
  rw [List.nil_append] at hsent hkept
  have hrun {P : History Sql.Statement Sql.Result → Session Sql.Statement Sql.Result → Prop} :=
    start_run (P := P) id repositories events
  have hsound := hrun (P := fun _ s => s.Sound) (Session.sound_after (Session.sound_fresh id) _)
  have hanswering := hrun (P := fun _ s => s.Answering) (Session.answering_after id _)
  have horder := hrun (P := fun h _ => h.sent = h.admitted) (Session.sent_history _ _)
  have hcomplete := hrun (P := Session.Complete) (Session.complete_history id _ hordinary)
  constructor
  case once =>
    rw [horder]
    exact hsent.grants.once
  case apart => exact hkept.apart
  case inserted =>
    rw [horder]
    exact fun p entity hp => hkept.inserted hsent hanswering hp
  case counted => exact fun k job entity => adds_iff hkept hanswering
  case waiting =>
    rw [horder]
    exact fun k r => hkept.waiting (hrun (Session.told_history id _))
  case ended =>
    rintro ⟨j, rq, answer, hj, hdone⟩ o r ho hr
    have hregistry := hrun (P := fun h s => s.registry.observers = h.accepted)
      (Session.registry_history id _)
    have hcalls := (hcomplete j rq answer hj hdone).2
    rw [hregistry] at hcalls
    rw [horder]
    exact hkept.told (hrun (Session.decided_history id _)) (hcalls ▸ List.mem_map_of_mem ho) hr
  case later =>
    intro hover more
    let rest := ((start id repositories).after events).inputs more
    have hquiet := hrun (P := fun h s => h.Over s → (s.history rest).hookCalls = [])
      (Session.hookCalls_over id _ rest hordinary) hover
    obtain ⟨j, rq, answer, hj, hdone⟩ := hover
    exact repositories_after hsound hsent hkept (hcomplete j rq answer hj hdone).1 more hquiet

def alice : Entity := [("id", .int 1), ("username", .text "alice"), ("email", .text "a@x.org")]

def bob : Entity := [("id", .int 2), ("username", .text "bob"), ("email", .text "b@x.org")]

/-- Two are added and a third cannot be inserted; an order lacks its fields. The users are registered
twice, and the hook of another observer fails. -/
def dealings : List Event :=
  let users : Component := observerOf 0 Repository.users
  let orders : Component := observerOf 1 Repository.orders
  let broken : Error := .given .driver [] none
  [.session (.register users), .session (.register ⟨"A", some ⟨2, "a", "A"⟩⟩), .operation 0 (.add bob),
    .operation 0 (.add bob), .operation 1 (.add alice), .operation 0 (.add alice), .session (.run 0),
    .session (.run 1), .session (.register users), .session (.run 2), .session (.request .commit),
    .session (.reply 0 (.ok {})), .session (.run 3), .session (.run 1), .session (.reply 1 (.error broken)),
    .session (.run 2), .session (.register orders), .session (.reply 2 (.ok {})), .session (.run 3),
    .session (.settle 3 (.ok ())), .session (.settle 3 (.ok ())), .session (.settle 3 (.ok ())),
    .session (.settle 3 (.error broken)), .session (.settle 3 (.ok ())), .session (.settle 3 (.ok ()))]

theorem reconciled_dealings :
    let t := start "s" [Repository.users, Repository.orders]
    (∀ r ∈ t.repositories, r.Staging []) ∧ (∀ i ∈ t.inputs dealings, i.isOrdinary = true) ∧
      Reconciled (t.history dealings) (t.after dealings) ∧
      (t.history dealings).Over (t.after dealings).session ∧
      (t.after dealings).repositories.map (·.committedEntities) = [[bob, alice], []] := by
  have hfresh : ∀ r ∈ [Repository.users, Repository.orders], r.Staging [] := by
    simp only [List.forall_mem_cons, List.not_mem_nil]
    exact ⟨⟨rfl, rfl, rfl, rfl⟩, ⟨rfl, rfl, rfl, rfl⟩, nofun⟩
  have hordinary : ∀ i ∈ (start "s" [Repository.users, Repository.orders]).inputs dealings,
      i.isOrdinary = true := by decide
  refine ⟨hfresh, hordinary, reconciled "s" _ dealings hfresh hordinary, ?_, rfl⟩
  refine ⟨3, .commit, _, ?_, rfl⟩
  simp only [History.Reaches]
  decide

end Transaction
end Transact
