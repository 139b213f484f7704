import Transact.Proofs.Repository.Reconciliation
import Transact.Proofs.Session.Alone
import Transact.Proofs.Traversal

/-! What is asked of a transaction alone, one after the other: an operation is its statement, the end
is a finale and the hooks, and nothing is asked of the store once it has ended. -/
namespace Transact

variable {ω : Type}

namespace Store

variable (store : Store ω) (connection : Nat)

/-- Nothing that ends a session fails but by an ordinary error. -/
def IsOrdinary : Prop :=
  ∀ (connection : Nat) (c : Call Sql.Statement) (w : ω) (e : Error), c.statement? = none →
    (store.call connection c w).1 = .error e → e.isOrdinary = true

variable {store}

theorem IsOrdinary.surroundings (h : store.IsOrdinary) : (store.surroundings connection).IsOrdinary where
  call c w e hc he := h connection c w e hc he
  hook hook o w e he := by cases he

theorem announce_surroundings (hook : Hook) (failures : Notification) (observers : List Observer) (w : ω) :
    (store.surroundings connection).announce hook failures observers w = (failures, w) := by
  induction observers with
  | nil => rfl
  | cons o rest ih => exact ih

end Store

namespace Repository

/-- A repository as it is before anything is written through it. -/
def blank (r : Repository) : Repository :=
  { r with staged := [], committedEntities := [], committed := false, rolledBack := false }

theorem blank_notify (r : Repository) (hook : Hook) : (r.notify hook).blank = r.blank := by
  cases hook <;> rfl

theorem blank_settle (r : Repository) (operation : Operation) (outcome : Except Error Sql.Result) :
    (r.settle operation outcome).blank = r.blank := by
  cases outcome with
  | error => rfl
  | ok => cases operation <;> rfl

theorem statement_blank (r : Repository) (operation : Operation) :
    r.blank.statement operation = r.statement operation := by
  cases operation <;> rfl

variable {r : Repository} {operation : Operation} {statement : Sql.Statement}

/-- The statement that each operation makes, and of what. -/
inductive Makes (r : Repository) : Operation → Sql.Statement → Prop
  | add {entity values : Entity} : r.mapping.convert (.ofEntity entity) = .ok values →
      values.lookup "self" = none → Makes r (.add entity) (.insert r.table values)
  | get {name : String} (key : Value) : r.key = .ok name →
      Makes r (.get key) (.select r.table { condition := some ⟨name, key⟩ })
  | exists {name : String} (key : Value) : r.key = .ok name →
      Makes r (.exists key) (.count r.table (some ⟨name, key⟩))
  | list {name : String} {limit offset : Value} {n m : Option Int} : r.key = .ok name →
      bound limit = .ok n → bound offset = .ok m →
      Makes r (.list limit offset)
        (.select r.table { order := some { column := name, spelled := true }, limit := n, offset := m })
  | count : Makes r .count (.count r.table none)
  | delete {name : String} (key : Value) : r.key = .ok name →
      Makes r (.delete key) (.delete r.table ⟨name, key⟩)
  | find (column : String) (value : Value) :
      Makes r (.find column value) (.select r.table { condition := some ⟨column, value⟩ })
  | findAll (column : String) (value : Value) (order : String) :
      Makes r (.findAll column value order)
        (.select r.table { condition := some ⟨column, value⟩, order := some { column := order } })

theorem makes (h : r.statement operation = .ok statement) : r.Makes operation statement := by
  cases operation with
  | add entity =>
    obtain ⟨values, hvalues, h⟩ := made_of_bind h
    obtain ⟨_, hnames, h⟩ := made_of_bind h
    cases h
    refine .add hvalues ?_
    cases hself : values.lookup "self" with
    | none => rfl
    | some v => simp [checkNames, hself] at hnames
  | get key | «exists» key | delete key =>
    obtain ⟨name, hname, h⟩ := made_of_bind h
    cases h
    constructor
    exact hname
  | list limit offset =>
    obtain ⟨name, hname, h⟩ := made_of_bind h
    obtain ⟨n, hn, h⟩ := made_of_bind h
    obtain ⟨m, hm, h⟩ := made_of_bind h
    cases h
    exact .list hname hn hm
  | count | find | findAll =>
    cases h
    constructor

theorem Makes.statement_eq (h : r.Makes operation statement) : r.statement operation = .ok statement := by
  cases h with
  | @add _ values hvalues hself =>
    have hnames : checkNames values = .ok () := by simp [checkNames, hself]
    simp only [Repository.statement, hvalues, Bind.bind, Except.bind, hnames]
    rfl
  | get key hname | «exists» key hname | delete key hname =>
    simp only [Repository.statement, hname]
    rfl
  | list hname hn hm =>
    simp only [Repository.statement, hname, hn, hm]
    rfl
  | count | find | findAll => rfl

end Repository

namespace Transaction

variable {store : Store ω} {connection k job : Nat} {operation : Operation} {t : Transaction} {w : ω}
  {r : Repository} {statement : Sql.Statement} {request : Request Sql.Statement} {e : Error}

/-- Nobody has the session's lock, and every operation has its job. -/
structure Calm (t : Transaction) : Prop where
  free : t.session.lock.isFree = true
  placed : ∀ p ∈ t.pending, p.job < t.session.jobs.length

theorem calm_start (id : String) (repositories : List Repository) : (start id repositories).Calm where
  free := rfl
  placed := by simp [start]

/-- Nothing has happened but that somebody was told so. -/
structure Unmoved (t u : Transaction) : Prop where
  calm : u.Calm
  phase : u.session.phase = t.session.phase
  registry : u.session.registry = t.session.registry
  repositories : u.repositories = t.repositories

theorem Unmoved.refl (hcalm : t.Calm) : t.Unmoved t := ⟨hcalm, rfl, rfl, rfl⟩

theorem Calm.unwaited (hcalm : t.Calm) : t.pendingAt t.session.jobs.length = none := by
  rw [pendingAt, List.find?_eq_none]
  intro p hp heq
  have hlt := hcalm.placed p hp
  have hjob : p.job = t.session.jobs.length := by simpa using heq
  omega

theorem Calm.pendingAt_awaiting (hcalm : t.Calm) (k : Nat) (operation : Operation) :
    (t.awaiting k operation).pendingAt t.session.jobs.length =
      some ⟨t.session.jobs.length, k, operation⟩ := by
  have hbefore : t.pending.find? (·.job == t.session.jobs.length) = none := hcalm.unwaited
  simp [pendingAt, awaiting, List.find?_append, hbefore]

/-- One job more, with the lock as it was. -/
theorem Calm.joined (hcalm : t.Calm) {pending : List Pending} {p : Phase} {st : Stage Sql.Result}
    {repositories : List Repository}
    (hpending : ∀ q ∈ pending, q ∈ t.pending ∨ q.job = t.session.jobs.length) :
    Calm ⟨t.session.joined p t.session.lock request st, repositories, pending⟩ where
  free := hcalm.free
  placed q hq := by
    simp only [Session.joined, List.length_append, List.length_singleton]
    rcases hpending q hq with hq | hq
    · have hlt := hcalm.placed q hq
      omega
    · omega

/-! Operations -/

@[simp] theorem resultOf_reply (outcome : Except Error Sql.Result) :
    resultOf (outcome.map .reply) = outcome := by
  cases outcome <;> rfl

theorem perform_unmade (hr : t.repositories[k]? = some r) (he : r.statement operation = .error e) :
    t.perform store connection k operation w = (.error e, t, w) := by
  simp only [perform, hr, prepare, he, bind, Except.bind]

theorem perform_made (hr : t.repositories[k]? = some r) (hstatement : r.statement operation = .ok statement) :
    t.perform store connection k operation w =
      (r.answer operation (resultOf ((t.awaiting k operation).ask store connection (.execute statement) w).1),
        ((t.awaiting k operation).ask store connection (.execute statement) w).2) := by
  simp only [perform, hr, prepare, hstatement, bind, Except.bind]
  rfl

/-- The transaction after an operation whose statement was executed. -/
def settled (t : Transaction) (k : Nat) (operation : Operation) (statement : Sql.Statement)
    (outcome : Except Error Sql.Result) : Transaction where
  session := t.session.joined t.session.phase t.session.lock (.execute statement) (.done (outcome.map .reply))
  repositories := t.repositories.modify k (·.settle operation outcome)
  pending := t.pending ++ [⟨t.session.jobs.length, k, operation⟩]

theorem Calm.settled (hcalm : t.Calm) (k : Nat) (operation : Operation) (statement : Sql.Statement)
    (outcome : Except Error Sql.Result) : (t.settled k operation statement outcome).Calm := by
  apply hcalm.joined
  intro q hq
  rcases List.mem_append.mp hq with hq | hq
  · exact .inl hq
  · exact .inr (by rw [List.mem_singleton.mp hq])

theorem follow_waited {p : Pending} (hat : t.pendingAt job = some p) (answer : Except Error (Answer Sql.Result)) :
    t.follow (some job) (.finish answer) =
      { t with repositories := t.repositories.modify p.repository (·.settle p.operation (resultOf answer)) } := by
  simp only [follow, Option.bind_some, hat]

theorem ask_execute (store : Store ω) (connection : Nat) (hactive : t.session.phase = .active)
    (hfree : t.session.lock.isFree = true) (statement : Sql.Statement) (w : ω) :
    t.ask store connection (.execute statement) w =
      ((store.call connection (.execute statement) w).1.map .reply,
        (t.withSession (t.session.joined t.session.phase t.session.lock (.execute statement)
          (.done ((store.call connection (.execute statement) w).1.map .reply)))).follow
            (some t.session.jobs.length)
            (.finish ((store.call connection (.execute statement) w).1.map .reply)),
        (store.call connection (.execute statement) w).2) := by
  rw [ask, Session.alone_execute hactive hfree]
  rfl

/-- An operation is its statement, and its repository hears of the reply. -/
theorem perform_active (store : Store ω) (connection : Nat) (w : ω) (hcalm : t.Calm)
    (hactive : t.session.phase = .active) (hr : t.repositories[k]? = some r)
    (hstatement : r.statement operation = .ok statement) :
    t.perform store connection k operation w =
      (r.answer operation (store.call connection (.execute statement) w).1,
        t.settled k operation statement (store.call connection (.execute statement) w).1,
        (store.call connection (.execute statement) w).2) := by
  have hask := ask_execute store connection (t := t.awaiting k operation) hactive hcalm.free statement w
  have hat : ((t.awaiting k operation).withSession (t.session.joined t.session.phase t.session.lock
      (.execute statement) (.done ((store.call connection (.execute statement) w).1.map .reply)))).pendingAt
        t.session.jobs.length = some ⟨t.session.jobs.length, k, operation⟩ := hcalm.pendingAt_awaiting k operation
  rw [perform_made hr hstatement, hask, resultOf_reply]
  refine congrArg (Prod.mk _) (congrArg (Prod.mk · _) ?_)
  refine (follow_waited hat _).trans ?_
  rw [resultOf_reply]
  rfl

theorem modify_settle_error (repositories : List Repository) (k : Nat) (operation : Operation) (e : Error) :
    repositories.modify k (·.settle operation (.error e)) = repositories := by
  have hsettle : (fun r : Repository => r.settle operation (.error e)) = id := rfl
  rw [hsettle, List.modify_id]

/-- The transaction after an operation that came too late. -/
def dismissed (t : Transaction) (k : Nat) (operation : Operation) (statement : Sql.Statement) : Transaction where
  session := t.session.joined t.session.phase t.session.lock (.execute statement)
    (.done (.error (.closed t.session.phase)))
  repositories := t.repositories
  pending := t.pending ++ [⟨t.session.jobs.length, k, operation⟩]

theorem Calm.dismissed (hcalm : t.Calm) (k : Nat) (operation : Operation) (statement : Sql.Statement) :
    (t.dismissed k operation statement).Calm := by
  apply hcalm.joined
  intro q hq
  rcases List.mem_append.mp hq with hq | hq
  · exact .inl hq
  · exact .inr (by rw [List.mem_singleton.mp hq])

theorem perform_dismissed (store : Store ω) (connection : Nat) (w : ω) (hcalm : t.Calm)
    (hterminal : t.session.phase.isTerminal = true) (hr : t.repositories[k]? = some r)
    (hstatement : r.statement operation = .ok statement) :
    t.perform store connection k operation w =
      (.error (.closed t.session.phase), t.dismissed k operation statement, w) := by
  have hlate := Session.alone_late (store.surroundings connection) (s := t.session)
    (r := .execute statement) hterminal hcalm.free rfl w
  have hat : ((t.awaiting k operation).withSession (t.session.joined t.session.phase t.session.lock
      (.execute statement) (.done (.error (.closed t.session.phase))))).pendingAt
        t.session.jobs.length = some ⟨t.session.jobs.length, k, operation⟩ := hcalm.pendingAt_awaiting k operation
  rw [perform_made hr hstatement, ask]
  simp only [awaiting] at hat ⊢
  rw [hlate]
  refine congrArg (Prod.mk _) (congrArg (Prod.mk · _) ?_)
  refine (follow_waited hat _).trans ?_
  exact congrArg (Transaction.mk _ · _)
    (modify_settle_error t.repositories k operation (.closed t.session.phase))

/-- After the end an operation asks nothing of the store, and no repository hears of it. -/
theorem perform_late (store : Store ω) (connection : Nat) (w : ω) (hcalm : t.Calm)
    (hterminal : t.session.phase.isTerminal = true) (hr : t.repositories[k]? = some r)
    (hstatement : r.statement operation = .ok statement) :
    ∃ u, t.Unmoved u ∧
      t.perform store connection k operation w = (.error (.closed t.session.phase), u, w) :=
  ⟨t.dismissed k operation statement, ⟨hcalm.dismissed k operation statement, rfl, rfl, rfl⟩,
    perform_dismissed store connection w hcalm hterminal hr hstatement⟩

theorem map_modify_blank {f : Repository → Repository} (hf : ∀ r, (f r).blank = r.blank)
    (repositories : List Repository) (k : Nat) :
    (repositories.modify k f).map Repository.blank = repositories.map Repository.blank := by
  apply List.ext_getElem?
  intro place
  rw [List.getElem?_map, List.getElem?_map, List.getElem?_modify]
  cases repositories[place]? with
  | none => rfl
  | some r =>
    by_cases hplace : k = place <;> simp [hplace, hf]

/-! The end -/

def tell (repositories : List Repository) (call : Hook × Observer) : List Repository :=
  repositories.modify call.2.key (·.notify call.1)

/-- Where no operation waits for the job, repositories hear of hooks only. -/
theorem foldl_unwaited (hnone : t.pendingAt job = none) (effects : List Effect) :
    effects.foldl (follow (some job)) t =
      { t with repositories := (effects.filterMap Effect.hookCall?).foldl tell t.repositories } := by
  induction effects generalizing t with
  | nil => rfl
  | cons e rest ih =>
    cases e with
    | notify hook o => exact ih (t := { t with repositories := tell t.repositories (hook, o) }) hnone
    | finish answer =>
      have hfollow : t.follow (some job) (.finish answer) = t := by
        simp only [follow, Option.bind_some, hnone]
      rw [List.foldl_cons, hfollow]
      exact ih hnone
    | _ => exact ih hnone

/-- The repositories when their hooks have been called. -/
def informed (t : Transaction) (ending : Ending) : List Repository :=
  (t.session.registry.observers.map (ending.hook, ·)).foldl tell t.repositories

/-- The end of a transaction is a finale, told to its repositories. -/
structure Finished (t : Transaction) (request : Request Sql.Statement) (f : Finale Sql.Statement ω)
    (answer : Except Error (Answer Sql.Result)) (u : Transaction) (w : ω) : Prop where
  session : u.session = t.session.joined f.ending.phase t.session.lock request (.done answer)
  repositories : u.repositories = t.informed f.ending
  pending : u.pending = t.pending
  world : w = f.world

theorem ask_active (hordinary : store.IsOrdinary) (connection : Nat) (w : ω) (hcalm : t.Calm)
    (hactive : t.session.phase = .active) (hr : request.isEnding = true) :
    t.Finished request ((store.surroundings connection).finale w request)
      (t.ask store connection request w).1 (t.ask store connection request w).2.1
      (t.ask store connection request w).2.2 := by
  have hperforms := Session.alone_finale (w := w) (hordinary.surroundings connection) hactive hcalm.free hr
  simp only [Session.Performs, Store.announce_surroundings] at hperforms
  have hfollow := foldl_unwaited
    (t := t.withSession (t.session.alone (store.surroundings connection) request w).session)
    hcalm.unwaited (t.session.alone (store.surroundings connection) request w).effects
  have hask : (t.ask store connection request w).2.1 = _ := hfollow
  constructor
  · rw [hask]
    exact hperforms.session.trans (congrArg _ (congrArg _ hperforms.answer.symm))
  · rw [hask]
    exact congrArg (List.foldl tell t.repositories) hperforms.hookCalls
  · rw [hask]
    rfl
  · exact hperforms.world

theorem Finished.calm {f : Finale Sql.Statement ω} {answer : Except Error (Answer Sql.Result)}
    {u : Transaction} (hfinished : t.Finished request f answer u w) (hcalm : t.Calm) : u.Calm := by
  obtain ⟨session, repositories, pending⟩ := u
  obtain ⟨hsession, -, hpending, -⟩ := hfinished
  simp only at hsession hpending
  rw [hsession, hpending]
  exact hcalm.joined fun q hq => .inl hq

/-- Once a transaction has ended, nothing comes of asking for anything. -/
theorem ask_late (store : Store ω) (connection : Nat) (request : Request Sql.Statement) (w : ω)
    (hcalm : t.Calm) (hterminal : t.session.phase.isTerminal = true) :
    t.Unmoved (t.ask store connection request w).2.1 ∧ (t.ask store connection request w).2.2 = w := by
  cases himplicit : request.isImplicit with
  | true =>
    have hask : t.ask store connection request w = (.ok .nothing, t, w) := by
      rw [ask, Session.alone_ended hterminal himplicit]
      rfl
    rw [hask]
    exact ⟨.refl hcalm, rfl⟩
  | false =>
    have hask : (t.ask store connection request w).2 =
        (t.withSession (t.session.joined t.session.phase t.session.lock request
          (.done (t.session.lateAnswer request))), w) := by
      have hfollow := foldl_unwaited (t := t.withSession (t.session.joined t.session.phase t.session.lock
        request (.done (t.session.lateAnswer request)))) hcalm.unwaited
        [.opened t.session.jobs.length, .finish (t.session.lateAnswer request)]
      rw [ask, Session.alone_late _ hterminal hcalm.free himplicit]
      exact congrArg (Prod.mk · w) hfollow
    rw [hask]
    exact ⟨⟨hcalm.joined fun q hq => .inl hq, rfl, rfl, rfl⟩, rfl⟩

end Transaction
end Transact
