import Transact.Proofs.Session.Serial
import Transact.Repository.Transaction

/-! How the repositories of a transaction follow its session: one is moved when an insert of its own
has been answered, and when its hook is called. -/
namespace Transact

variable {σ ρ : Type}

/-- Neither calls a hook nor ends a job. -/
def Effect.isStill : Effect σ ρ → Bool
  | notify _ _ | finish _ => false
  | _ => true

namespace Session

variable {s t : Session σ ρ} {i : Input σ ρ} {effects : List (Effect σ ρ)}
  {job : Nat} {r : Request σ} {old : Stage ρ}

theorem still_nil : ∀ e ∈ ([] : List (Effect σ ρ)), e.isStill = true := by simp

theorem still_logs (records : List Log.Record) :
    ∀ e ∈ records.map (Effect.log : _ → Effect σ ρ), e.isStill = true := by simp [Effect.isStill]

theorem still_hookLogs (records : List Log.Record) :
    ∀ e ∈ records.map (Effect.hookLog : _ → Effect σ ρ), e.isStill = true := by simp [Effect.isStill]

theorem still_wakes (woken : Option Nat) :
    ∀ e ∈ (wakes woken : List (Effect σ ρ)), e.isStill = true := by
  simp [wakes, Effect.isStill]

theorem still_append {xs ys : List (Effect σ ρ)} (hxs : ∀ e ∈ xs, e.isStill = true)
    (hys : ∀ e ∈ ys, e.isStill = true) : ∀ e ∈ xs ++ ys, e.isStill = true := by
  intro e he
  rcases List.mem_append.mp he with he | he
  · exact hxs e he
  · exact hys e he

/-- What a change says last: nothing, that a hook is called, or that a job has ended. -/
inductive Says (s t : Session σ ρ) (i : Input σ ρ) : List (Effect σ ρ) → Prop
  | nothing {effects : List (Effect σ ρ)} : (∀ e ∈ effects, e.isStill = true) → Says s t i effects
  | hook {before : List (Effect σ ρ)} (hook : Hook) (o : Observer) :
      (∀ e ∈ before, e.isStill = true) → Says s t i (before ++ [.notify hook o])
  | ended {before : List (Effect σ ρ)} (answer : Except Error (Answer ρ)) (job : Nat) (r : Request σ)
      (old : Stage ρ) : (∀ e ∈ before, e.isStill = true) → i.job? = some job →
      s.jobs[job]? = some ⟨r, old⟩ → old.isDone = false → t.jobs[job]? = some ⟨r, .done answer⟩ →
      Says s t i (before ++ [.finish answer])

theorem says_round {ending : Ending} {next : Round.Next} {before : List (Effect σ ρ)}
    (hbefore : ∀ e ∈ before, e.isStill = true) (hi : i.job? = some job)
    (hj : s.jobs[job]? = some ⟨r, old⟩) (hold : old.isDone = false)
    (ht : t.jobs[job]? = some ⟨r, s.roundStage r ending next⟩) :
    Says s t i (before ++ s.roundEffects r ending next) := by
  cases next with
  | call round => exact .hook _ _ hbefore
  | ended failures =>
    rw [roundEffects, ← List.append_assoc]
    exact .ended _ job r old (still_append hbefore (still_logs _)) hi hj hold ht
  | aborted e => exact .ended _ job r old hbefore hi hj hold ht

theorem change_says (hchange : Change s i t effects) : Says s t i effects := by
  cases hchange with
  | late hj hl =>
    have hwaiting := grant?_waiting hl hj
    refine .ended _ _ _ _ (still_wakes _) rfl hj ?_ (job_moved hj)
    rcases hwaiting with rfl | rfl <;> rfl
  | cancelled hj => exact .ended _ _ _ _ still_nil rfl hj rfl (job_moved hj)
  | left hj | replied hj => exact .ended _ _ _ _ (still_wakes _) rfl hj rfl (job_moved hj)
  | broken hj hphysical =>
    exact .ended _ _ _ _ (still_wakes _) rfl hj (Stage.not_done_of_isPhysical hphysical) (job_moved hj)
  | announced records hj hending hback =>
    have hdone := Stage.not_done_of_isPhysical (isPhysical_of_isBack hback)
    exact says_round (still_append (still_logs _) (still_wakes _)) rfl hj hdone (job_moved hj)
  | notified hj => exact says_round (still_hookLogs _) rfl hj rfl (job_moved hj)
  | opened records => exact .nothing (still_append (still_logs _) (by simp [Effect.isStill]))
  | _ => exact .nothing (by simp [Effect.isStill])

theorem statement_stage {p : Phase} {statement : σ} (hfits : old.Fits (.execute statement) p)
    (hold : old.isDone = false) : old = .ready ∨ old = .queued ∨ old = .forwarding := by
  cases old with
  | ready => exact .inl rfl
  | queued => exact .inr (.inl rfl)
  | forwarding => exact .inr (.inr rfl)
  | committing => cases hfits.2
  | rollingBack commit => cases hfits.2.1
  | releasing ending | discarding ending =>
    have hsuits := hfits.2
    cases ending with
    | committed => cases hsuits
    | rolledBack => cases hsuits.1
  | notifying ending round =>
    have hsuits := hfits.2.1
    cases ending with
    | committed => cases hsuits
    | rolledBack => cases hsuits.1
  | done => cases hold

/-- Why the store was not asked for a statement: it was given up, or came too late. -/
inductive Refuses (s : Session σ ρ) (i : Input σ ρ) (job : Nat) : Error → Prop
  | cancelled : i = .interrupt job → Refuses s i job .cancelled
  | late : i = .run job → s.phase.isTerminal = true → Refuses s i job (.closed s.phase)

/-- A statement that was never sent is refused, or given up. -/
theorem waiting_ended (hchange : Change s i t effects) {statement : σ}
    {answer : Except Error (Answer ρ)} (hj : s.jobs[job]? = some ⟨.execute statement, old⟩)
    (hold : old = .ready ∨ old = .queued) (ht : t.jobs[job]? = some ⟨.execute statement, .done answer⟩) :
    ∃ e, answer = .error e ∧ s.Refuses i job e := by
  have hi : i.job? = some job := by
    by_contra hi
    rw [job_stays hchange hj hi] at ht
    cases ht
    rcases hold with hold | hold <;> cases hold
  have hone {r : Request σ} {st : Stage ρ} (hst : s.jobs[job]? = some ⟨r, st⟩) :
      r = .execute statement ∧ (st = .ready ∨ st = .queued) := by
    rw [hj] at hst
    cases hst
    exact ⟨rfl, hold⟩
  cases hchange with
  | idle =>
    rw [hj] at ht
    cases ht
    rcases hold with hold | hold <;> cases hold
  | late hst _ hterminal =>
    cases hi
    obtain ⟨rfl, -⟩ := hone hst
    rw [job_moved hst] at ht
    cases ht
    exact ⟨_, rfl, .late rfl hterminal⟩
  | cancelled hst | left hst =>
    cases hi
    obtain ⟨rfl, -⟩ := hone hst
    rw [job_moved hst] at ht
    cases ht
    exact ⟨_, rfl, .cancelled rfl⟩
  | queued hst | granted hst =>
    cases hi
    obtain ⟨rfl, -⟩ := hone hst
    rw [job_moved hst] at ht
    cases ht
  | replied hst | committed hst | commitFailed hst | rolledBack hst | rollbackFailed hst
  | releaseFailed hst | notified hst =>
    cases hi
    rcases (hone hst).2 with hst | hst <;> cases hst
  | broken hst hphysical =>
    cases hi
    rcases (hone hst).2 with rfl | rfl <;> cases hphysical
  | announced records hst hending =>
    cases hi
    rcases (hone hst).2 with rfl | rfl <;> cases hending
  | _ => cases hi

/-- A statement ends when it is answered, or when it is refused. -/
theorem statement_done (hs : s.Sound) (hchange : Change s i t effects) {statement : σ}
    {answer : Except Error (Answer ρ)} (hj : s.jobs[job]? = some ⟨.execute statement, old⟩)
    (hold : old.isDone = false) (ht : t.jobs[job]? = some ⟨.execute statement, .done answer⟩) :
    (∃ e, answer = .error e ∧ s.Refuses i job e) ∨
      ∃ outcome, i = .reply job outcome ∧ old = .forwarding ∧ answer = outcome.map .reply := by
  rcases statement_stage (hs.fits _ _ _ hj) hold with hold | hold | hold
  · exact .inl (waiting_ended hchange hj (.inl hold) ht)
  · exact .inl (waiting_ended hchange hj (.inr hold) ht)
  · subst hold
    rcases forwarding_change hchange hj with hstill | ⟨outcome, rfl, -, hdone⟩
    · rw [ht] at hstill
      cases hstill
    · rw [ht] at hdone
      cases hdone
      exact .inr ⟨outcome, rfl, rfl, rfl⟩

/-- A statement's job ends with an error, or with the reply that it was waiting for. -/
theorem statement_ended (hs : s.Sound) (hchange : Change s i t effects) {statement : σ}
    {answer : Except Error (Answer ρ)} (hj : s.jobs[job]? = some ⟨.execute statement, old⟩)
    (hold : old.isDone = false) (ht : t.jobs[job]? = some ⟨.execute statement, .done answer⟩) :
    (∃ e, answer = .error e) ∨ ∃ x, i = .reply job (.ok x) ∧ old = .forwarding ∧
      answer = .ok (.reply x) := by
  rcases statement_done hs hchange hj hold ht with ⟨e, rfl, -⟩ | ⟨outcome, rfl, rfl, rfl⟩
  · exact .inl ⟨e, rfl⟩
  · cases outcome with
    | ok x => exact .inr ⟨x, rfl, rfl, rfl⟩
    | error e => exact .inl ⟨e, rfl⟩

/-- The input is the reply that a statement under way was waiting for. -/
def Replies (s : Session σ ρ) (i : Input σ ρ) (job : Nat) (x : ρ) : Prop :=
  i = .reply job (.ok x) ∧ ∃ r, s.jobs[job]? = some ⟨r, .forwarding⟩

/-- The statement was executed, and its reply returned. -/
def isReplied (s : Session σ ρ) (job : Nat) : Bool :=
  match s.stage? job with
  | some (.done (.ok (.reply _))) => true
  | _ => false

theorem step_replies {x : ρ} (hreplies : s.Replies i job x) :
    (s.step i).2 = wakes s.lock.release.1 ++ [.finish (.ok (.reply x))] ∧
      (s.step i).1.isReplied job = true := by
  obtain ⟨rfl, r, hj⟩ := hreplies
  simp only [step, atJob, hj]
  refine ⟨rfl, ?_⟩
  simp only [isReplied, leave, unlock, finish, Except.map]
  rw [stage?_eq (job_moved hj)]

end Session

namespace Repository

variable {r : Repository}

@[simp] theorem statement_notify (hook : Hook) : (r.notify hook).statement = r.statement := by
  cases hook <;> rfl

end Repository

namespace Transaction

variable {t : Transaction} {i : Input} {k job : Nat} {r : Repository} {effects : List Effect}

/-- The entity that repository `k` adds by the statement of a job. -/
def adds (t : Transaction) (k job : Nat) : Option Entity :=
  match t.pendingAt job with
  | some ⟨_, repository, .add entity⟩ => if repository = k then some entity else none
  | _ => none

/-- An operation that waits for a job has its own statement there. -/
def Tracks (t : Transaction) (p : Pending) : Prop :=
  ∃ (r : Repository) (statement : Sql.Statement), t.repositories[p.repository]? = some r ∧
    r.statement p.operation = .ok statement ∧
      ∀ j, t.session.jobs[p.job]? = some j → j.request = .execute statement

theorem follow_still {e : Effect} (he : e.isStill = true) (job : Option Nat) : t.follow job e = t := by
  cases e with
  | notify | finish => cases he
  | _ => rfl

theorem foldl_still (heffects : ∀ e ∈ effects, e.isStill = true) (job : Option Nat) :
    effects.foldl (follow job) t = t := by
  induction effects with
  | nil => rfl
  | cons e rest ih =>
    rw [List.foldl_cons, follow_still (heffects e List.mem_cons_self)]
    exact ih fun e he => heffects e (List.mem_cons_of_mem _ he)

/-- A repository decides nothing: the session moves as if it were not there. -/
theorem follow_frame (job : Option Nat) (e : Effect) :
    (t.follow job e).session = t.session ∧ (t.follow job e).pending = t.pending ∧
      (t.follow job e).repositories.length = t.repositories.length := by
  unfold follow
  split
  · exact ⟨rfl, rfl, List.length_modify ..⟩
  · split
    · exact ⟨rfl, rfl, List.length_modify ..⟩
    · exact ⟨rfl, rfl, rfl⟩
  · exact ⟨rfl, rfl, rfl⟩

theorem foldl_frame (job : Option Nat) (effects : List Effect) :
    (effects.foldl (follow job) t).session = t.session ∧
      (effects.foldl (follow job) t).pending = t.pending ∧
        (effects.foldl (follow job) t).repositories.length = t.repositories.length := by
  induction effects generalizing t with
  | nil => exact ⟨rfl, rfl, rfl⟩
  | cons e rest ih =>
    obtain ⟨hsession, hpending, hlength⟩ := ih (t := t.follow job e)
    obtain ⟨hsession', hpending', hlength'⟩ := follow_frame (t := t) job e
    exact ⟨hsession.trans hsession', hpending.trans hpending', hlength.trans hlength'⟩

theorem step_session (t : Transaction) (i : Input) : (t.step i).1.session = (t.session.step i).1 :=
  (foldl_frame _ _).1

theorem step_pending (t : Transaction) (i : Input) : (t.step i).1.pending = t.pending :=
  (foldl_frame _ _).2.1

theorem step_length (t : Transaction) (i : Input) :
    (t.step i).1.repositories.length = t.repositories.length :=
  (foldl_frame _ _).2.2

theorem foldl_last {before : List Effect} (hbefore : ∀ e ∈ before, e.isStill = true) (e : Effect)
    (job : Option Nat) : (before ++ [e]).foldl (follow job) t = t.follow job e := by
  rw [List.foldl_append, foldl_still hbefore]
  rfl

theorem pendingAt_mem {p : Pending} (hp : t.pendingAt job = some p) : p ∈ t.pending ∧ p.job = job := by
  refine ⟨List.mem_of_find?_eq_some hp, ?_⟩
  simpa using List.find?_some hp

/-- The reply to an insert stages its entity, in its repository alone. -/
theorem step_replied {x : Sql.Result} (hreplies : t.session.Replies i job x) :
    (t.step i).1.repositories[k]? =
      (t.repositories[k]?).map fun r => { r with staged := r.staged ++ (t.adds k job).toList } := by
  have heffects := (Session.step_replies hreplies).1
  obtain ⟨rfl, -⟩ := hreplies
  simp only [step, heffects, foldl_last (Session.still_wakes _), jobOf, follow, Option.bind_some]
  have hat : ({ t with session := (t.session.step (.reply job (.ok x))).1 } : Transaction).pendingAt job =
    t.pendingAt job := rfl
  rw [hat]
  cases hp : t.pendingAt job with
  | none => simp [adds, hp]
  | some p =>
    obtain ⟨_, repository, operation⟩ := p
    rw [List.getElem?_modify]
    by_cases hk : repository = k
    · cases operation <;> simp [adds, hp, hk, resultOf, Repository.settle]
    · cases operation <;> simp [adds, hp, hk]

/-- Any other input leaves a repository as it is, or calls its hook. -/
theorem step_unreplied (hs : t.session.Sound) (htracked : ∀ p ∈ t.pending, t.Tracks p)
    (hother : ∀ job x, ¬ t.session.Replies i job x) (hr : t.repositories[k]? = some r) :
    ((t.step i).1.repositories[k]? = some r ∧
      ∀ call ∈ (t.step i).2.filterMap Effect.hookCall?, call.2.key ≠ k) ∨
    ∃ hook o, o.key = k ∧ (t.step i).2.filterMap Effect.hookCall? = [(hook, o)] ∧
      (t.step i).1.repositories[k]? = some (r.notify hook) := by
  have hchange := Session.step_change t.session i
  have hsays := Session.change_says hchange
  have hsilent {before : List Effect} (hbefore : ∀ e ∈ before, e.isStill = true) :
      before.filterMap Effect.hookCall? = [] := by
    rw [List.filterMap_eq_nil_iff]
    intro e he
    have hstill := hbefore e he
    cases e with
    | notify => cases hstill
    | _ => rfl
  have hjob {job : Nat} (hi : i.job? = some job) : jobOf i = some job := by
    cases i with
    | request | register | abandon => cases hi
    | _ => exact hi
  simp only [step]
  generalize (t.session.step i).2 = effects at hchange hsays ⊢
  generalize (t.session.step i).1 = s at hchange hsays ⊢
  cases hsays with
  | nothing hstill =>
    rw [foldl_still hstill]
    exact .inl ⟨hr, by simp [hsilent hstill]⟩
  | hook hook o hbefore =>
    rw [foldl_last hbefore, List.filterMap_append, hsilent hbefore]
    simp only [follow, List.getElem?_modify, hr]
    by_cases hk : o.key = k
    · exact .inr ⟨hook, o, hk, rfl, by simp [hk]⟩
    · exact .inl ⟨by simp [hk], by simp [hk]⟩
  | ended answer job rq old hbefore hi hj hold ht =>
    rw [foldl_last hbefore, List.filterMap_append, hsilent hbefore, hjob hi]
    refine .inl ⟨?_, by simp⟩
    simp only [follow, Option.bind_some]
    cases hp : ({ t with session := s } : Transaction).pendingAt job with
    | none => exact hr
    | some p =>
      -- the operation's statement was not answered, so it has failed
      obtain ⟨hmem, rfl⟩ := pendingAt_mem hp
      obtain ⟨_, statement, -, -, hrequest⟩ := htracked p hmem
      have hrq : rq = .execute statement := hrequest _ hj
      subst hrq
      rcases Session.statement_ended hs hchange hj hold ht with ⟨e, rfl⟩ | ⟨x, rfl, rfl, -⟩
      · simp only [resultOf, List.getElem?_modify, hr]
        split <;> rfl
      · exact absurd ⟨rfl, _, hj⟩ (hother p.job x)

end Transaction
end Transact
