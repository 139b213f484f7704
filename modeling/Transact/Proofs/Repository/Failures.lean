import Transact.Proofs.Repository.FiniteMap
import Transact.Proofs.Session.Peers

/-! An operation that fails tells exactly why, and leaves nothing behind: the repositories, the phase and
the observers are what they were, and the end of the transaction is what it would have been without it. -/
namespace Transact

variable {ω : Type}

theorem Error.text_queryFailed (table : String) (e : Error) :
    (queryFailed table e).text = table ++ ": " ++ e.text := rfl

/-- Finds its rows by the key of the table, or lists them in its order. -/
def Operation.isKeyed : Operation → Bool
  | get _ | .exists _ | list _ _ | delete _ => true
  | _ => false

namespace Repository

variable {r : Repository} {operation : Operation} {e : Error}

/-- The key of the table is one column, where the operation goes by it. -/
def HasKeyFor (r : Repository) (operation : Operation) : Prop :=
  operation.isKeyed = true → (r.table.columns.filter (·.primaryKey)).length = 1

/-- What the operation is given makes up a statement, apart from the key of the table. -/
def Accepts (r : Repository) : Operation → Prop
  | .add entity => ∃ values, r.mapping.convert (.ofEntity entity) = .ok values ∧ values.lookup "self" = none
  | .list limit offset => (∃ n, bound limit = .ok n) ∧ ∃ n, bound offset = .ok n
  | _ => True

theorem key_made (hone : (r.table.columns.filter (·.primaryKey)).length = 1) : ∃ name, r.key = .ok name := by
  obtain ⟨c, hc⟩ := List.length_eq_one_iff.mp hone
  exact ⟨c.name, by simp [key, Table.keyColumn?, hc]⟩

theorem key_unmade (hnot : (r.table.columns.filter (·.primaryKey)).length ≠ 1) :
    r.key = .error (.keyNotSingle r.className r.table.name) := by
  have hnone : r.table.keyColumn? = none := by
    rw [Table.keyColumn?]
    split
    · rename_i hc
      exact absurd (congrArg List.length hc) hnot
    · rfl
  simp [key, hnone]

/-- Without such a key nothing else is looked at. -/
theorem statement_keyless (hkey : ¬ r.HasKeyFor operation) :
    r.statement operation = .error (.keyNotSingle r.className r.table.name) := by
  rw [HasKeyFor, Classical.not_imp] at hkey
  have hname := key_unmade hkey.2
  cases operation with
  | get | «exists» | list | delete =>
    simp only [statement, hname]
    rfl
  | _ => cases hkey.1

/-- A statement is made of what is accepted, and of nothing else. -/
theorem statement_made (hkey : r.HasKeyFor operation) (haccepts : r.Accepts operation) :
    ∃ statement, r.statement operation = .ok statement := by
  cases operation with
  | add entity =>
    obtain ⟨values, hvalues, hself⟩ := haccepts
    exact ⟨_, (Makes.add hvalues hself).statement_eq⟩
  | get key =>
    obtain ⟨name, hname⟩ := key_made (hkey rfl)
    exact ⟨_, (Makes.get key hname).statement_eq⟩
  | «exists» key =>
    obtain ⟨name, hname⟩ := key_made (hkey rfl)
    exact ⟨_, (Makes.exists key hname).statement_eq⟩
  | delete key =>
    obtain ⟨name, hname⟩ := key_made (hkey rfl)
    exact ⟨_, (Makes.delete key hname).statement_eq⟩
  | list limit offset =>
    obtain ⟨name, hname⟩ := key_made (hkey rfl)
    obtain ⟨⟨n, hn⟩, m, hm⟩ := haccepts
    exact ⟨_, (Makes.list hname hn hm).statement_eq⟩
  | count | find | findAll => exact ⟨_, rfl⟩

theorem accepts_of_made {statement : Sql.Statement} (h : r.statement operation = .ok statement) :
    r.Accepts operation := by
  cases makes h with
  | add hvalues hself => exact ⟨_, hvalues, hself⟩
  | list _ hn hm => exact ⟨⟨_, hn⟩, _, hm⟩
  | _ => trivial

theorem statement_unmade (haccepts : ¬ r.Accepts operation) : ∃ e, r.statement operation = .error e := by
  cases h : r.statement operation with
  | error e => exact ⟨e, rfl⟩
  | ok statement => exact absurd (accepts_of_made h) haccepts

/-- How an operation tells what the store has raised. -/
structure Tells (r : Repository) (e e' : Error) : Prop where
  wrapped : e.isStore = true →
    e'.name = "QueryError" ∧ e'.cause? = some e ∧ e'.text = r.table.name ++ ": " ++ e.text
  same : e.isStore = false → e' = e

theorem tells_told (r : Repository) (e : Error) : r.Tells e (r.told e) := by
  cases hstore : e.isStore with
  | true =>
    have htold : r.told e = .queryFailed r.table.name e := by simp [told, hstore]
    rw [htold]
    refine ⟨fun _ => ⟨rfl, rfl, Error.text_queryFailed _ _⟩, fun hother => ?_⟩
    rw [hstore] at hother
    cases hother
  | false =>
    have htold : r.told e = e := by simp [told, hstore]
    refine ⟨fun hwrapped => ?_, fun _ => htold⟩
    rw [hstore] at hwrapped
    cases hwrapped

/-- What fails is not staged, nor is what an operation answers that is none of an insert. -/
theorem settle_of_error {outcome : Except Error Sql.Result} (he : r.answer operation outcome = .error e) :
    r.settle operation outcome = r := by
  cases outcome with
  | error => rfl
  | ok result =>
    cases operation with
    | add => cases he
    | _ => rfl

end Repository

namespace Session

variable {s t : Session Sql.Statement Sql.Result} {i : Transaction.Input} {effects : List Transaction.Effect}
  {job : Nat} {old : Stage Sql.Result} {statement : Sql.Statement} {outcome : Except Error Sql.Result}

/-- A statement's job is never on the way to the end of its session. -/
theorem statement_mover (hs : s.Sound) (hj : s.jobs[job]? = some ⟨.execute statement, old⟩)
    (hi : Transaction.jobOf i = some job) : ¬ ∃ k, i.job? = some k ∧ s.has Stage.isWinning k = true := by
  rintro ⟨k, hk, hwinning⟩
  obtain rfl : k = job := by
    cases i with
    | request | register | abandon => cases hk
    | _ =>
      cases hk
      exact Option.some.inj hi
  rw [has_eq hj] at hwinning
  cases hdone : old.isDone with
  | true =>
    cases old with
    | done => cases hwinning
    | _ => cases hdone
  | false => rcases statement_stage (hs.fits _ _ _ hj) hdone with rfl | rfl | rfl <;> cases hwinning

/-- Nobody is registered by what is said to a job. -/
theorem registry_kept (hchange : Change s i t effects) (hi : Transaction.jobOf i = some job) :
    t.registry = s.registry := by
  cases hchange with
  | registered => cases hi
  | _ => rfl

theorem reply_change (hchange : Change s (.reply job outcome) t effects)
    (hforwarding : s.stage? job = some .forwarding) :
    t.stage? job = some (.done (outcome.map .reply)) := by
  cases hchange with
  | idle hidle => simp [fits, hforwarding] at hidle
  | replied hj => exact stage?_eq (job_moved hj)

/-- After the end only those who brought it about have something to ask. -/
theorem unasked_change (hchange : Change s i t effects)
    (hmover : ¬ ∃ k, i.job? = some k ∧ s.has Stage.isWinning k = true) (hterminal : s.phase.isTerminal = true) :
    effects.filterMap Effect.call? = [] := by
  have hwins {k : Nat} {r : Request Sql.Statement} {st : Stage Sql.Result} (hk : s.jobs[k]? = some ⟨r, st⟩)
      (hi : i.job? = some k) (hwinning : st.isWinning = true) : False :=
    hmover ⟨k, hi, by rw [has_eq hk, hwinning]⟩
  cases hchange with
  | granted _ _ hactive => exact absurd hactive (Phase.isTerminal_iff.mp hterminal)
  | committed hj | commitFailed hj | rolledBack hj | rollbackFailed hj | releaseFailed hj =>
    exact (hwins hj rfl rfl).elim
  | _ => simp [Effect.call?]

/-- Why a statement's job ended as it did. -/
inductive Explains (h : History Sql.Statement Sql.Result) (job : Nat) :
    Except Error (Answer Sql.Result) → Prop
  | replied (m : Moment Sql.Statement Sql.Result) (outcome : Except Error Sql.Result) : m ∈ h →
      m.before.stage? job = some .forwarding → m.input = .reply job outcome →
      Explains h job (outcome.map .reply)
  | refused (m : Moment Sql.Statement Sql.Result) (e : Error) : m ∈ h → m.before.Refuses m.input job e →
      Explains h job (.error e)

theorem Explains.append {h : History Sql.Statement Sql.Result} {answer : Except Error (Answer Sql.Result)}
    (hexplains : Explains h job answer) (more : History Sql.Statement Sql.Result) :
    Explains (h ++ more) job answer := by
  cases hexplains with
  | replied m outcome hm hforwarding hinput =>
    exact .replied m outcome (List.mem_append_left _ hm) hforwarding hinput
  | refused m e hm hrefuses => exact .refused m e (List.mem_append_left _ hm) hrefuses

/-- Every statement that has ended is explained by what has happened. -/
def Explained (h : History Sql.Statement Sql.Result) (s : Session Sql.Statement Sql.Result) : Prop :=
  ∀ (job : Nat) (statement : Sql.Statement) (answer : Except Error (Answer Sql.Result)),
    s.jobs[job]? = some ⟨.execute statement, .done answer⟩ → Explains h job answer

theorem explained_step {h : History Sql.Statement Sql.Result} (hs : s.Sound) (hchange : Change s i t effects)
    (hexplained : Explained h s) : Explained (h ++ [⟨s, i, effects, t⟩]) t := by
  intro job statement answer ht
  cases hold : s.jobs[job]? with
  | none =>
    obtain ⟨-, hready, -⟩ := job_opened hchange ht hold
    cases hready
  | some j =>
    obtain ⟨r, old⟩ := j
    obtain ⟨st, hst, -⟩ := job_change hchange hold
    obtain rfl : .execute statement = r := congrArg Job.request (Option.some.inj (ht.symm.trans hst))
    cases hdone : old.isDone with
    | true =>
      cases old <;> cases hdone
      rw [done_stays hchange hold] at ht
      cases ht
      exact (hexplained job statement answer hold).append _
    | false =>
      have hlast : (⟨s, i, effects, t⟩ : Moment _ _) ∈ h ++ [⟨s, i, effects, t⟩] := by simp
      rcases statement_done hs hchange hold hdone ht with ⟨e, rfl, hrefuses⟩ | ⟨outcome, rfl, rfl, rfl⟩
      · exact .refused _ e hlast hrefuses
      · exact .replied _ outcome hlast (stage?_eq hold) rfl

theorem explained_history (id : String) (inputs : List Transaction.Input) :
    Explained (({ id } : Session _ _).history inputs) (({ id } : Session _ _).after inputs) :=
  (run_induction (Q := fun _ => True) (sound_fresh id) (fun _ _ _ hj => by simp at hj)
    (fun hs _ hchange hexplained => explained_step hs hchange hexplained) inputs fun _ _ => trivial).2

end Session

namespace Transaction

variable {store : Store ω} {c k job : Nat} {t u : Transaction} {w : ω} {r : Repository} {operation : Operation}
  {statement : Sql.Statement} {e : Error} {request : Request Sql.Statement}

/-- All is as it was, but for jobs that have come to nothing. -/
structure Spared (t u : Transaction) : Prop extends Unmoved t u where
  id : u.session.id = t.session.id
  lock : u.session.lock = t.session.lock

theorem Spared.refl (hcalm : t.Calm) : t.Spared t := ⟨.refl hcalm, rfl, rfl⟩

theorem Spared.trans {v : Transaction} (h : t.Spared u) (h' : u.Spared v) : t.Spared v :=
  ⟨⟨h'.calm, h'.phase.trans h.phase, h'.registry.trans h.registry, h'.repositories.trans h.repositories⟩,
    h'.id.trans h.id, h'.lock.trans h.lock⟩

theorem spared_settled (hcalm : t.Calm) (hr : t.repositories[k]? = some r) {outcome : Except Error Sql.Result}
    (he : r.answer operation outcome = .error e) :
    t.Spared (t.settled k operation statement outcome) := by
  refine ⟨⟨hcalm.settled k operation statement outcome, rfl, rfl, ?_⟩, rfl, rfl⟩
  apply List.ext_getElem?
  intro place
  rw [settled, List.getElem?_modify]
  by_cases hplace : k = place
  · subst hplace
    simp [hr, Repository.settle_of_error he]
  · simp [hplace]

/-- Whatever an operation fails by, it leaves all as it was. -/
theorem perform_spared (store : Store ω) (c : Nat) (w : ω) (hcalm : t.Calm)
    (he : (t.perform store c k operation w).1 = .error e) : t.Spared (t.perform store c k operation w).2.1 := by
  cases hr : t.repositories[k]? with
  | none => simp [perform, hr] at he
  | some r =>
    cases hstatement : r.statement operation with
    | error e' =>
      rw [perform_unmade hr hstatement]
      exact .refl hcalm
    | ok statement =>
      by_cases hactive : t.session.phase = .active
      · rw [perform_active store c w hcalm hactive hr hstatement] at he ⊢
        exact spared_settled hcalm hr he
      · rw [perform_dismissed store c w hcalm (Phase.isTerminal_iff.mpr hactive) hr hstatement]
        exact ⟨⟨hcalm.dismissed k operation statement, rfl, rfl, rfl⟩, rfl, rfl⟩

theorem performAll_spared (store : Store ω) (c : Nat) (asked : List (Nat × Operation)) (w : ω) (hcalm : t.Calm)
    (hfailed : ∀ answer ∈ (performAll store c asked t w).1, ∃ e, answer = .error e) :
    t.Spared (performAll store c asked t w).2.1 := by
  induction asked generalizing t w with
  | nil => exact .refl hcalm
  | cons p asked ih =>
    obtain ⟨k, operation⟩ := p
    rw [performAll_cons] at hfailed ⊢
    obtain ⟨e, he⟩ := hfailed _ List.mem_cons_self
    have hfirst := perform_spared store c w hcalm he
    exact hfirst.trans (ih _ hfirst.calm fun answer h => hfailed answer (List.mem_cons_of_mem _ h))

/-- Two requests that are answered alike, and leave alike what they were made to. -/
structure AnsweredAlike (a b : Except Error (Answer Sql.Result) × Transaction × ω) : Prop where
  answer : a.1 = b.1
  repositories : a.2.1.repositories = b.2.1.repositories
  phase : a.2.1.session.phase = b.2.1.session.phase
  registry : a.2.1.session.registry = b.2.1.session.registry
  world : a.2.2 = b.2.2

theorem Spared.alone (h : t.Spared u) (hcalm : t.Calm) (env : Surroundings Sql.Statement Sql.Result ω)
    (request : Request Sql.Statement) (w : ω) :
    (u.session.alone env request w).Equals (t.session.alone env request w) :=
  Session.alone_equals h.id h.phase h.registry h.lock hcalm.free env request w

/-- What is asked of a transaction alone, from the run of its session. -/
theorem ask_eq (hcalm : t.Calm) (store : Store ω) (c : Nat) (request : Request Sql.Statement) (w : ω) :
    let run := t.session.alone (store.surroundings c) request w
    t.ask store c request w =
      (run.answer, { t with session := run.session, repositories := run.hookCalls.foldl tell t.repositories },
        run.world) := by
  intro run
  have hnone : (t.withSession run.session).pendingAt t.session.jobs.length = none := hcalm.unwaited
  have hfollow := foldl_unwaited hnone run.effects
  exact congrArg (Prod.mk _) (congrArg (Prod.mk · _) hfollow)

theorem Spared.ask (h : t.Spared u) (hcalm : t.Calm) (store : Store ω) (c : Nat)
    (request : Request Sql.Statement) (w : ω) :
    AnsweredAlike (u.ask store c request w) (t.ask store c request w) := by
  have hrun := h.alone hcalm (store.surroundings c) request w
  rw [ask_eq h.calm, ask_eq hcalm]
  refine ⟨hrun.answer, ?_, hrun.phase, hrun.registry, hrun.world⟩
  simp only [hrun.hookCalls, h.repositories]

/-- Answers that are the same, from transactions that differ in what has come to nothing. -/
structure Alike {α : Type} (a b : α × Transaction × ω) : Prop where
  calm : a.2.1.Calm
  answer : b.1 = a.1
  spared : a.2.1.Spared b.2.1
  world : b.2.2 = a.2.2

theorem Spared.perform (h : t.Spared u) (hcalm : t.Calm) (store : Store ω) (c k : Nat) (operation : Operation)
    (w : ω) : Alike (t.perform store c k operation w) (u.perform store c k operation w) := by
  cases hr : t.repositories[k]? with
  | none =>
    have hr' : u.repositories[k]? = none := h.repositories ▸ hr
    simp only [Transaction.perform, hr, hr']
    exact ⟨hcalm, rfl, h, rfl⟩
  | some r =>
    have hr' : u.repositories[k]? = some r := h.repositories ▸ hr
    cases hstatement : r.statement operation with
    | error e =>
      rw [perform_unmade hr hstatement, perform_unmade hr' hstatement]
      exact ⟨hcalm, rfl, h, rfl⟩
    | ok statement =>
      by_cases hactive : t.session.phase = .active
      · rw [perform_active store c w hcalm hactive hr hstatement,
          perform_active store c w h.calm (h.phase.trans hactive) hr' hstatement]
        refine ⟨hcalm.settled .., rfl, ⟨⟨h.calm.settled .., h.phase, h.registry, ?_⟩, h.id, h.lock⟩, rfl⟩
        simp only [settled, h.repositories]
      · have hterminal := Phase.isTerminal_iff.mpr hactive
        rw [perform_dismissed store c w hcalm hterminal hr hstatement,
          perform_dismissed store c w h.calm (h.phase ▸ hterminal) hr' hstatement]
        exact ⟨hcalm.dismissed .., by rw [h.phase],
          ⟨⟨h.calm.dismissed .., h.phase, h.registry, h.repositories⟩, h.id, h.lock⟩, rfl⟩

theorem Spared.performAll (h : t.Spared u) (hcalm : t.Calm) (store : Store ω) (c : Nat)
    (asked : List (Nat × Operation)) (w : ω) :
    Alike (performAll store c asked t w) (performAll store c asked u w) := by
  induction asked generalizing t u w with
  | nil => exact ⟨hcalm, rfl, h, rfl⟩
  | cons p asked ih =>
    obtain ⟨k, operation⟩ := p
    have hfirst := h.perform hcalm store c k operation w
    have hrest := ih hfirst.spared hfirst.calm (t.perform store c k operation w).2.2
    simp only [performAll_cons, hfirst.answer, hfirst.world]
    exact ⟨hrest.calm, congrArg (_ :: ·) hrest.answer, hrest.spared, hrest.world⟩

/-- Whatever operations are asked for next, and whatever request after them, nothing shows in which of
the two transactions it was. -/
structure Interchangeable (store : Store ω) (c : Nat) (t u : Transaction) : Prop where
  operations : ∀ (asked : List (Nat × Operation)) (w : ω),
    Alike (performAll store c asked t w) (performAll store c asked u w)
  alone : ∀ (asked : List (Nat × Operation)) (w : ω) (request : Request Sql.Statement)
    (env : Surroundings Sql.Statement Sql.Result ω) (w' : ω),
      ((performAll store c asked u w).2.1.session.alone env request w').Equals
        ((performAll store c asked t w).2.1.session.alone env request w')
  ask : ∀ (asked : List (Nat × Operation)) (w : ω) (request : Request Sql.Statement) (w' : ω),
    AnsweredAlike ((performAll store c asked u w).2.1.ask store c request w')
      ((performAll store c asked t w).2.1.ask store c request w')

theorem Spared.interchangeable (h : t.Spared u) (hcalm : t.Calm) (store : Store ω) (c : Nat) :
    Interchangeable store c t u where
  operations := h.performAll hcalm store c
  alone asked w request env w' :=
    have hasked := h.performAll hcalm store c asked w
    hasked.spared.alone hasked.calm env request w'
  ask asked w request w' :=
    have hasked := h.performAll hcalm store c asked w
    hasked.spared.ask hasked.calm store c request w'

/-- How an operation of repository `r` fails when it is asked for alone. -/
structure Fails (store : Store ω) (c k : Nat) (t : Transaction) (w : ω) (r : Repository)
    (operation : Operation) : Prop where
  keyless : ¬ r.HasKeyFor operation → ∃ e, t.perform store c k operation w = (.error e, t, w) ∧
    e.name = "RuntimeError" ∧
      e.text = r.className ++ " requires a single-column primary key on " ++ r.table.name
  unmade : r.HasKeyFor operation → ¬ r.Accepts operation →
    ∃ e, r.statement operation = .error e ∧ t.perform store c k operation w = (.error e, t, w)
  late : r.HasKeyFor operation → r.Accepts operation → t.session.phase.isTerminal = true →
    ∃ e u, t.perform store c k operation w = (.error e, u, w) ∧ e.name = "ClosedTransaction" ∧
      e.text = "Transaction is " ++ t.session.phase.name ++ "; start a new session"
  raised : r.HasKeyFor operation → r.Accepts operation → t.session.phase = .active →
    ∃ statement, r.statement operation = .ok statement ∧
      ∀ e w', store.call c (.execute statement) w = (.error e, w') →
        ∃ e' u, t.perform store c k operation w = (.error e', u, w') ∧ r.Tells e e'
  spared : ∀ e, (t.perform store c k operation w).1 = .error e →
    t.Spared (t.perform store c k operation w).2.1

theorem fails (store : Store ω) (c : Nat) (w : ω) (hcalm : t.Calm) (hr : t.repositories[k]? = some r)
    (operation : Operation) : Fails store c k t w r operation where
  keyless hkey := ⟨_, perform_unmade hr (Repository.statement_keyless hkey), rfl, rfl⟩
  unmade _ haccepts := by
    obtain ⟨e, he⟩ := Repository.statement_unmade haccepts
    exact ⟨e, he, perform_unmade hr he⟩
  late hkey haccepts hterminal := by
    obtain ⟨statement, hstatement⟩ := Repository.statement_made hkey haccepts
    exact ⟨_, _, perform_dismissed store c w hcalm hterminal hr hstatement, rfl, rfl⟩
  raised hkey haccepts hactive := by
    obtain ⟨statement, hstatement⟩ := Repository.statement_made hkey haccepts
    refine ⟨statement, hstatement, fun e w' hcall => ?_⟩
    have hperform := perform_active store c w hcalm hactive hr hstatement
    rw [hcall] at hperform
    exact ⟨_, _, hperform, r.tells_told e⟩
  spared _ he := perform_spared store c w hcalm he

/-! Whatever comes in between -/

/-- All that a failure must not touch. -/
structure Untouched (t u : Transaction) : Prop where
  repositories : u.repositories = t.repositories
  phase : u.session.phase = t.session.phase
  registry : u.session.registry = t.session.registry

/-- The operation has come back to its caller with an error. -/
def Raised (t : Transaction) (p : Pending) (e : Error) : Prop :=
  ∃ (r : Repository) (answer : Except Error (Answer Sql.Result)), t.repositories[p.repository]? = some r ∧
    t.session.stage? p.job = some (.done answer) ∧ r.answer p.operation (resultOf answer) = .error e

/-- A step of an operation on its way to its failure. -/
structure Harmless (t : Transaction) (i : Input) (p : Pending) : Prop extends Untouched t (t.step i).1 where
  /-- What the store raises is what the caller is told. -/
  raised : ∀ e, i = .reply p.job (.error e) → t.session.stage? p.job = some .forwarding →
    ∃ r e', t.repositories[p.repository]? = some r ∧ r.Tells e e' ∧ (t.step i).1.Raised p e'
  /-- In a session that has ended the store is not asked. -/
  unasked : t.session.phase.isTerminal = true → (t.step i).2.filterMap Effect.call? = []
  late : t.session.phase.isTerminal = true → i = .run p.job → (t.session.grant? p.job).isSome = true →
    (t.step i).1.Raised p (.closed t.session.phase)

variable {i : Input} {p : Pending}

/-- Where the store takes nothing and no hook is called, the repositories are as they were. -/
theorem repositories_kept (hs : t.session.Sound) (htracked : ∀ p ∈ t.pending, t.Tracks p)
    (hhooks : (t.session.step i).2.filterMap Effect.hookCall? = [])
    (hreplies : ∀ job x, t.session.Replies i job x → ∀ k, t.adds k job = none) :
    (t.step i).1.repositories = t.repositories := by
  apply List.ext_getElem?
  intro k
  cases hr : t.repositories[k]? with
  | none =>
    rw [List.getElem?_eq_none_iff] at hr ⊢
    rwa [step_length]
  | some r =>
    by_cases hreply : ∃ job x, t.session.Replies i job x
    · obtain ⟨job, x, hreply⟩ := hreply
      rw [step_replied hreply, hr, hreplies job x hreply k]
      simp
    · have hother : ∀ job x, ¬ t.session.Replies i job x := fun job x h => hreply ⟨job, x, h⟩
      rcases step_unreplied hs htracked hother hr with ⟨hsame, -⟩ | ⟨hook, o, -, hcalls, -⟩
      · exact hsame
      · cases hhooks.symm.trans hcalls

theorem adds_eq_none (hapart : (t.pending.map Pending.job).Nodup) (hp : p ∈ t.pending)
    (hother : ¬ ∃ entity, p.operation = .add entity) (k : Nat) : t.adds k p.job = none := by
  rw [adds, pendingAt_eq hapart hp]
  obtain ⟨job, repository, operation⟩ := p
  cases operation with
  | add entity => exact absurd ⟨entity, rfl⟩ hother
  | _ => rfl

theorem harmless {h : History Sql.Statement Sql.Result} (hs : t.session.Sound) (hkept : Kept h t)
    (hp : p ∈ t.pending) (hi : jobOf i = some p.job)
    (hnot : (∃ entity, p.operation = .add entity) → ∀ x, i ≠ .reply p.job (.ok x)) : t.Harmless i p := by
  obtain ⟨r, statement, hr, -, hrequest⟩ := hkept.tracked p hp
  obtain ⟨⟨rq, old⟩, hj⟩ : ∃ j, t.session.jobs[p.job]? = some j :=
    ⟨_, List.getElem?_eq_getElem (hkept.placed p hp)⟩
  obtain rfl : rq = .execute statement := hrequest _ hj
  have hchange := Session.step_change t.session i
  have hmover := Session.statement_mover hs hj hi
  have hhooks : (t.session.step i).2.filterMap Effect.hookCall? = [] := by
    by_contra hcalls
    exact hmover (Session.hook_mover hchange hcalls)
  have hphase : (t.session.step i).1.phase = t.session.phase := by
    by_contra hphase
    exact hmover (Session.phase_mover hs hchange hphase)
  have hrepositories : (t.step i).1.repositories = t.repositories := by
    apply repositories_kept hs hkept.tracked hhooks
    rintro job x ⟨rfl, -⟩ k
    obtain rfl : job = p.job := Option.some.inj hi
    exact adds_eq_none hkept.apart hp (fun hadd => hnot hadd x rfl) k
  have hraised {e : Error} (hdone : (t.session.step i).1.stage? p.job = some (.done (.error e))) :
      (t.step i).1.Raised p (r.told e) :=
    ⟨r, .error e, hrepositories ▸ hr, by rw [step_session, hdone], rfl⟩
  constructor
  case toUntouched =>
    refine ⟨hrepositories, by rw [step_session, hphase], ?_⟩
    rw [step_session]
    exact Session.registry_kept hchange hi
  case raised =>
    rintro e rfl hforwarding
    exact ⟨r, _, hr, r.tells_told e, hraised (Session.reply_change hchange hforwarding)⟩
  case unasked => exact fun hterminal => Session.unasked_change hchange hmover hterminal
  case late =>
    rintro hterminal rfl hgrant
    have hgranted : t.session.granted? (.run p.job) = some (p.job, .execute statement) := by
      simp [Session.granted?, hgrant, hj]
    exact hraised (Session.stage?_eq (Session.granted_late hchange hterminal hgranted).2)

/-- Where the error comes from that an operation has come back with. -/
inductive Comes (h : History Sql.Statement Sql.Result) (r : Repository) (p : Pending) : Error → Prop
  | store (m : Moment Sql.Statement Sql.Result) (e e' : Error) : m ∈ h →
      m.before.stage? p.job = some .forwarding → m.input = .reply p.job (.error e) → r.Tells e e' →
      Comes h r p e'
  | reply (m : Moment Sql.Statement Sql.Result) (x : Sql.Result) (e : Error) : m ∈ h →
      m.before.stage? p.job = some .forwarding → m.input = .reply p.job (.ok x) →
      r.reply x p.operation = .error e → Comes h r p e
  | refused (m : Moment Sql.Statement Sql.Result) (e : Error) : m ∈ h → m.before.Refuses m.input p.job e →
      Comes h r p e

theorem comes_of_explains {h : History Sql.Statement Sql.Result} {answer : Except Error (Answer Sql.Result)}
    (hexplains : Session.Explains h p.job answer) (he : r.answer p.operation (resultOf answer) = .error e) :
    Comes h r p e := by
  cases hexplains with
  | replied m outcome hm hforwarding hinput =>
    rw [resultOf_reply] at he
    cases outcome with
    | ok x => exact .reply m x e hm hforwarding hinput he
    | error e' =>
      cases he
      exact .store m e' _ hm hforwarding hinput (r.tells_told e')
  | refused m e' hm hrefuses =>
    -- what the session itself raises is told as it is
    have hsame : r.told e' = e' := by cases hrefuses <;> rfl
    obtain rfl : r.told e' = e := Except.error.inj he
    rw [hsame]
    exact .refused m e' hm hrefuses

/-- An operation that begins asks nothing of the store yet. -/
theorem begun (t : Transaction) (k : Nat) (operation : Operation) :
    t.Untouched (t.handle (.operation k operation)).1 ∧
      (t.handle (.operation k operation)).2.filterMap Effect.call? = [] := by
  cases hintake : t.intake (.operation k operation) with
  | none =>
    rw [handle_refused hintake]
    exact ⟨⟨rfl, rfl, rfl⟩, rfl⟩
  | some taken =>
    obtain ⟨u, i⟩ := taken
    rw [handle_taken hintake]
    rcases intake_cases hintake with ⟨-, hsession⟩ | ⟨_, _, _, statement, -, -, rfl, rfl⟩
    · cases hsession
    · exact ⟨⟨rfl, rfl, rfl⟩, rfl⟩

/-- How operations fail from here on, and what is left of them. -/
structure ErrorPaths (store : Store ω) (h : History Sql.Statement Sql.Result) (t : Transaction) : Prop where
  /-- An operation that is asked for while nobody has the session's lock. -/
  alone : t.session.lock.isFree = true → ∀ (c k : Nat) (w : ω) (r : Repository) (operation : Operation),
    t.repositories[k]? = some r → Fails store c k t w r operation
  /-- After any number of failures whatever is asked for next is as it would have been without them. -/
  series : t.session.lock.isFree = true → ∀ (c : Nat) (asked : List (Nat × Operation)) (w : ω),
    (∀ answer ∈ (performAll store c asked t w).1, ∃ e, answer = .error e) →
      t.Spared (performAll store c asked t w).2.1 ∧
        Interchangeable store c t (performAll store c asked t w).2.1
  begun : ∀ (k : Nat) (operation : Operation), t.Untouched (t.handle (.operation k operation)).1 ∧
    (t.handle (.operation k operation)).2.filterMap Effect.call? = []
  /-- Whatever else goes on, every step of an operation is harmless, unless the store takes an entity. -/
  harmless : ∀ (p : Pending) (i : Input), p ∈ t.pending → jobOf i = some p.job →
    ((∃ entity, p.operation = .add entity) → ∀ x, i ≠ .reply p.job (.ok x)) → t.Harmless i p
  comes : ∀ (p : Pending) (e : Error), p ∈ t.pending → t.Raised p e →
    ∃ r, t.repositories[p.repository]? = some r ∧ Comes h r p e

/-- Every operation fails as it should, at any time, and leaves nothing behind. -/
theorem error_paths (store : Store ω) (id : String) {repositories : List Repository}
    (hfresh : ∀ r ∈ repositories, r.Staging []) (events : List Event) :
    ErrorPaths store ((start id repositories).history events) ((start id repositories).after events) := by
  have hrun := kept_run (Session.sound_fresh id) (Session.sent_fresh id) (kept_start id hfresh) events
  rw [List.nil_append] at hrun
  have hkept := hrun.2
  have hs : ((start id repositories).after events).session.Sound := by
    rw [session_after]
    exact Session.sound_after (Session.sound_fresh id) _
  constructor
  case alone => exact fun hfree c k w r operation hr => fails store c w ⟨hfree, hkept.placed⟩ hr operation
  case series =>
    intro hfree c asked w hfailed
    have hcalm : ((start id repositories).after events).Calm := ⟨hfree, hkept.placed⟩
    have hspared := performAll_spared store c asked w hcalm hfailed
    exact ⟨hspared, hspared.interchangeable hcalm store c⟩
  case begun => exact begun _
  case harmless => exact fun p i hp hi hnot => Transaction.harmless hs hkept hp hi hnot
  case comes =>
    rintro p e hp ⟨r, answer, hr, hdone, he⟩
    obtain ⟨-, statement, -, -, hrequest⟩ := hkept.tracked p hp
    obtain ⟨rq, hj⟩ := Session.stage?_eq_some_iff.mp hdone
    obtain rfl : rq = .execute statement := hrequest _ hj
    rw [session_after] at hj
    exact ⟨r, hr, comes_of_explains (Session.explained_history id _ _ _ _ hj) he⟩

/-- Rows with a key of one column, and rows with a key of two. -/
def notes : Repository where
  className := "NoteRepository"
  table := { name := "notes", columns := [{ name := "id", primaryKey := true }, { name := "v" }] }
  mapping := .whole

def pairs : Repository where
  className := "PairRepository"
  table := { name := "pairs", columns := [{ name := "a", primaryKey := true }, { name := "b", primaryKey := true }] }
  mapping := .whole

/-- A store in which nothing is to be had any more. -/
def downStore : Store Unit where
  call _ _ w := (.error (.given .store [.text "down"] none), w)

/-- The rollback goes well, and so does the release. -/
def abandonment : List Event :=
  [.session (.request .rollback), .session (.run 0), .session (.settle 0 (.ok ())),
    .session (.settle 0 (.ok ()))]

/-- While the transaction is open three operations fail, each in its own way; after the end one more. -/
theorem error_paths_outage :
    (∀ r ∈ [notes, pairs], r.Staging []) ∧
      ((start "s" [notes, pairs]).performAll downStore 1
          [(0, .add [("id", .int 1)]), (1, .get (.int 1)), (1, .count)] ()).1 =
        [.error (.queryFailed "notes" (.given .store [.text "down"] none)),
          .error (.keyNotSingle "PairRepository" "pairs"),
          .error (.queryFailed "pairs" (.given .store [.text "down"] none))] ∧
      (((start "s" [notes, pairs]).after abandonment).perform downStore 1 0 .count ()).1 =
        .error (.closed .rolledBack) ∧
      ErrorPaths downStore ((start "s" [notes, pairs]).history []) (start "s" [notes, pairs]) ∧
      ErrorPaths downStore ((start "s" [notes, pairs]).history abandonment)
        ((start "s" [notes, pairs]).after abandonment) := by
  have hfresh : ∀ r ∈ [notes, pairs], r.Staging [] := by
    intro r hr
    rcases List.mem_cons.mp hr with rfl | hr
    · exact ⟨rfl, rfl, rfl, rfl⟩
    · rw [List.mem_singleton.mp hr]
      exact ⟨rfl, rfl, rfl, rfl⟩
  exact ⟨hfresh, rfl, rfl, error_paths downStore "s" hfresh [], error_paths downStore "s" hfresh abandonment⟩

/-- What makes no statement is refused as such, though the transaction has ended. -/
theorem unclosed_misfits :
    (¬ ∀ (operation : Operation), notes.HasKeyFor operation → ∃ e,
        (((start "s" [notes]).after abandonment).perform downStore 1 0 operation ()).1 = .error e ∧
          e.name = "ClosedTransaction") ∧
      ((start "s" [notes]).after abandonment).session.phase = .rolledBack ∧
      (((start "s" [notes]).after abandonment).perform downStore 1 0 (.list (.text "x") .null) ()).1 =
        .error (.notAnInteger (.text (.malformed (Text.quoted "x")))) ∧
      (((start "s" [notes]).after abandonment).perform downStore 1 0
          (.add [("id", .int 1), ("self", .int 2)]) ()).1 =
        .error (.repeatedArgument "ValuesBase.values" "self") := by
  have hlist : (((start "s" [notes]).after abandonment).perform downStore 1 0 (.list (.text "x") .null) ()).1 =
      .error (.notAnInteger (.text (.malformed (Text.quoted "x")))) := rfl
  refine ⟨fun hall => ?_, rfl, hlist, rfl⟩
  obtain ⟨e, he, hname⟩ := hall (.list (.text "x") .null) fun _ => rfl
  obtain rfl := Except.error.inj (hlist.symm.trans he)
  exact absurd hname (by decide)

end Transaction
end Transact
