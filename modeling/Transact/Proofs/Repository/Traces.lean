import Transact.Proofs.Connection.Adapted
import Transact.Proofs.Repository.Deeds
import Transact.Repository.Sample

/-! One session after the other on one store: who comes after them reads what those have done that
committed, and nothing else. -/
namespace Transact

variable {ω : Type}

/-- A session from its begin to its end, on a connection that it is handed. -/
structure Visit where
  id : String
  connection : Nat
  repositories : List Repository
  deeds : List Deed
  exit : Exit

/-- What is left of a visit: how its session ended, and in what it had succeeded. -/
structure Visit.Trace where
  phase : Phase
  acts : List Act

namespace Visit

variable {store : Store ω} {a : Account ω} {v : Visit} {w : ω}

def run (store : Store ω) (v : Visit) (w : ω) : Trace × ω :=
  let (acts, t, w) := (Transaction.start v.id v.repositories).actAll store v.connection
    (store.call v.connection .begin w).2 (v.deeds ++ [.finish v.exit])
  (⟨t.session.phase, acts⟩, w)

def runAll (store : Store ω) : List Visit → ω → List Trace × ω
  | [], w => ([], w)
  | v :: rest, w =>
    let (trace, w) := v.run store w
    let (more, w) := runAll store rest w
    (trace :: more, w)

/-- Each session is handed a connection that may be handed out. -/
def Admitted (store : Store ω) (a : Account ω) : List Visit → ω → Prop
  | [], _ => True
  | v :: rest, w => a.isAvailable w v.connection ∧ Admitted store a rest (v.run store w).2

/-- The statements of those that committed. -/
def Trace.committed (traces : List Trace) : List Sql.Statement :=
  (traces.filter (·.phase == .committed)).flatMap fun trace => trace.acts.map Act.statement

theorem committed_cons (trace : Trace) (rest : List Trace) :
    Trace.committed (trace :: rest) = Trace.committed [trace] ++ Trace.committed rest := by
  cases h : trace.phase == .committed <;> simp [Trace.committed, h]

theorem run_standing (hstore : store.Reliable a) (hnone : a.pending w v.connection = none) :
    ∃ (acts : List Act) (t : Transaction) (w' : ω), v.run store w = (⟨t.session.phase, acts⟩, w') ∧
      t.session.phase.isTerminal = true ∧ t.Standing a v.connection (a.committed w) acts w' ∧
        a.Beside v.connection w w' := by
  have hbegun := Transaction.standing_start hstore v.id v.repositories hnone
  obtain ⟨hbefore, hbeside⟩ := hbegun.actAll hstore v.deeds
  obtain ⟨hafter, hbeside', hterminal⟩ := hbefore.finish hstore v.exit
  refine ⟨_, _, _, ?_, hterminal, hafter,
    (hstore.beside v.connection .begin w).trans (hbeside.trans hbeside')⟩
  simp only [run, Transaction.actAll_append, Transaction.actAll, List.append_nil, List.nil_append]

/-- What a session was for the store. -/
structure Past (store : Store ω) (a : Account ω) (v : Visit) (w : ω) : Prop where
  ended : (v.run store w).1.phase.isTerminal = true
  accepted : Sql.Statement.Accepted (Trace.committed [(v.run store w).1]) (a.committed w)
  committed : a.committed (v.run store w).2 =
    Sql.Statement.replay (Trace.committed [(v.run store w).1]) (a.committed w)
  clear : a.isAvailable (v.run store w).2 v.connection → a.pending (v.run store w).2 v.connection = none
  beside : a.Beside v.connection w (v.run store w).2

theorem past (hstore : store.Reliable a) (hnone : a.pending w v.connection = none) : v.Past store a w := by
  obtain ⟨acts, t, w', hrun, hterminal, hstanding, hbeside⟩ := run_standing hstore hnone
  have hcommitted : Sql.Statement.Accepted (Trace.committed [⟨t.session.phase, acts⟩]) (a.committed w) ∧
      a.committed w' =
        Sql.Statement.replay (Trace.committed [⟨t.session.phase, acts⟩]) (a.committed w) := by
    cases hphase : t.session.phase with
    | active => simp [hphase, Phase.isTerminal] at hterminal
    | committed =>
      have hall : Trace.committed [⟨.committed, acts⟩] = acts.map Act.statement := by simp [Trace.committed]
      rw [hall]
      exact ⟨hstanding.accepted, hstanding.committed hphase⟩
    | rolledBack => exact ⟨trivial, hstanding.rolledBack hphase⟩
  constructor
  · rwa [hrun]
  · rw [hrun]
    exact hcommitted.1
  · rw [hrun]
    exact hcommitted.2
  · rw [hrun]
    exact hstanding.ended hterminal
  · rwa [hrun]

theorem Past.clearing (hpast : v.Past store a w) (hclear : a.IsClear w) : a.IsClear (v.run store w).2 := by
  intro c havailable
  by_cases hc : c = v.connection
  · subst hc
    exact hpast.clear havailable
  · obtain ⟨hpending, hstays⟩ := hpast.beside c hc
    rw [hpending]
    exact hclear c (hstays havailable)

theorem past_all (hstore : store.Reliable a) (visits : List Visit) :
    ∀ {w : ω}, a.IsClear w → Admitted store a visits w →
      (∀ trace ∈ (runAll store visits w).1, trace.phase.isTerminal = true) ∧
        Sql.Statement.Accepted (Trace.committed (runAll store visits w).1) (a.committed w) ∧
        a.committed (runAll store visits w).2 =
          Sql.Statement.replay (Trace.committed (runAll store visits w).1) (a.committed w) ∧
        a.IsClear (runAll store visits w).2 := by
  induction visits with
  | nil =>
    intro w hclear hadmitted
    exact ⟨by simp [runAll], trivial, rfl, hclear⟩
  | cons v rest ih =>
    intro w hclear ⟨havailable, hrest⟩
    have hpast := past (v := v) hstore (hclear v.connection havailable)
    obtain ⟨hended, haccepted, hcommitted, hclear'⟩ := ih (hpast.clearing hclear) hrest
    have hcons : (runAll store (v :: rest) w).1 =
        (v.run store w).1 :: (runAll store rest (v.run store w).2).1 := rfl
    refine ⟨?_, ?_, ?_, hclear'⟩
    · intro trace htrace
      rcases List.mem_cons.mp htrace with rfl | htrace
      · exact hpast.ended
      · exact hended trace htrace
    · rw [hcons, committed_cons]
      exact Sql.Statement.accepted_append hpast.accepted (hpast.committed ▸ haccepted)
    · rw [hcons, committed_cons, Sql.Statement.replay_append, ← hpast.committed]
      exact hcommitted

/-- What is read by a session that has just begun. -/
def reads (store : Store ω) (id : String) (c : Nat) (t : Table) (selection : Sql.Selection) (w : ω) :
    Except Error (Answer Sql.Result) :=
  ((Transaction.start id []).ask store c (.execute (.select t selection)) (store.call c .begin w).2).1

theorem reads_eq (hstore : store.Reliable a) (id : String) {c : Nat} (hnone : a.pending w c = none) {t : Table}
    {selection : Sql.Selection} (hbound : (Sql.Statement.select t selection).IsBound) :
    reads store id c t selection w =
      .ok (.reply { rows := (Database.selected t selection (a.committed w)).map .ofEntity }) := by
  have hbegun := Transaction.standing_start hstore id [] hnone
  have hseen : a.seen (store.call c .begin w).2 c = a.committed w := (hbegun.active rfl).2
  obtain ⟨result, hresult⟩ := hstore.answers c (.select t selection) (store.call c .begin w).2 rfl hbound
  have happly := hstore.executed c _ _ result hresult
  rw [hseen, Sql.Statement.apply, Except.ok.injEq, Prod.mk.injEq] at happly
  rw [reads, Transaction.ask_execute store c rfl rfl, hresult, ← happly.1]
  rfl

/-- What sessions leave behind that came one after the other. -/
structure Leave (store : Store ω) (a : Account ω) (visits : List Visit) (w : ω) : Prop where
  ended : ∀ trace ∈ (runAll store visits w).1, trace.phase = .committed ∨ trace.phase = .rolledBack
  /-- The successful operations of those that committed, in order, and nothing else. They would succeed
  again. -/
  accepted : Sql.Statement.Accepted (Trace.committed (runAll store visits w).1) (a.committed w)
  content : a.committed (runAll store visits w).2 =
    Sql.Statement.replay (Trace.committed (runAll store visits w).1) (a.committed w)
  /-- A session that comes after them reads just that, whatever it asks for. -/
  reads : ∀ (id : String) (c : Nat) (t : Table) (selection : Sql.Selection),
    a.isAvailable (runAll store visits w).2 c → (Sql.Statement.select t selection).IsBound →
      Visit.reads store id c t selection (runAll store visits w).2 =
        .ok (.reply { rows := (Database.selected t selection (Sql.Statement.replay
          (Trace.committed (runAll store visits w).1) (a.committed w))).map .ofEntity })

theorem traces_left (hstore : store.Reliable a) (visits : List Visit) (hclear : a.IsClear w)
    (hadmitted : Admitted store a visits w) : Leave store a visits w := by
  obtain ⟨hended, haccepted, hcommitted, hclear'⟩ := past_all hstore visits hclear hadmitted
  constructor
  case ended =>
    intro trace htrace
    have hterminal := hended trace htrace
    cases hphase : trace.phase with
    | active => simp [hphase, Phase.isTerminal] at hterminal
    | committed => exact .inl rfl
    | rolledBack => exact .inr rfl
  case accepted => exact haccepted
  case content => exact hcommitted
  case reads =>
    intro id c t selection havailable hbound
    rw [← hcommitted]
    exact reads_eq hstore id (hclear' c havailable) hbound

def alice : Entity :=
  [("id", .uuid ⟨1⟩), ("username", .text "alice"), ("email", .text "a@x.org")]

def bob : Entity :=
  [("id", .uuid ⟨2⟩), ("username", .text "bob"), ("email", .text "b@x.org")]

def tea : Entity :=
  [("id", .uuid ⟨3⟩), ("user_id", .uuid ⟨1⟩), ("product_name", .text "tea"), ("amount", .int 5)]

/-- One commits, one fails at its second user and closes, one deletes and is forgotten, and one commits
what is left of it. -/
def visits : List Visit :=
  let repositories := [Repository.users, Repository.orders]
  [⟨"a", 0, repositories, [.register 0, .operate 0 (.add alice)], .commit⟩,
    ⟨"b", 0, repositories, [.operate 0 (.add bob), .operate 0 (.add alice)], .close⟩,
    ⟨"c", 1, repositories, [.operate 0 (.delete (.uuid ⟨1⟩))], .orphan⟩,
    ⟨"d", 1, repositories, [.operate 1 (.add tea), .operate 0 (.add alice)], .commit⟩]

theorem traces_left_visits :
    let store := Database.raw.adapted fun s => { wording := .clause s.text }
    let account := Database.account.adapted
    let empty : Database × (Nat → RawTransaction) := ({ schema := [Schema.users, Schema.orders] }, fun _ => .absent)
    let traces := (runAll store visits empty).1
    store.Reliable account ∧ account.IsClear empty ∧ Admitted store account visits empty ∧
      Leave store account visits empty ∧ traces.map (·.phase) = [.committed, .rolledBack, .rolledBack, .committed] ∧
      traces.map (·.acts.length) = [1, 1, 1, 1] := by
  intro store account empty traces
  have hreliable : store.Reliable account := Database.lawful.reliable _
  have hclear : account.IsClear empty := fun c _ => rfl
  have hadmitted : Admitted store account visits empty := ⟨trivial, trivial, trivial, trivial, trivial⟩
  exact ⟨hreliable, hclear, hadmitted, traces_left hreliable visits hclear hadmitted, by decide +kernel,
    by decide +kernel⟩

end Visit
end Transact
