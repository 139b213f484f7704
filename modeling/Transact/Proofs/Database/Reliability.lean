import Transact.Proofs.Repository.Alone
import Transact.Simulation.Shared

/-! What a store must keep for its transactions to mean anything: statements are executed on what the
connection sees, a commit publishes that, a rollback drops it. The database keeps it. -/
namespace Transact

variable {ω : Type}

namespace Sql.Statement

open Database

/-- What a statement answers on a content, and what it makes of it. -/
def apply (content : Content) : Statement → Except Error (Result × Content)
  | .insert t values => (Database.insert t values content).map fun after => ({ rowCount := .int 1 }, after)
  | .delete t c =>
    .ok ({ rowCount := .int (Database.delete t c content).1 }, (Database.delete t c content).2)
  | .select t s => .ok ({ rows := (selected t s content).map .ofEntity }, content)
  | .count t condition =>
    .ok ({ rows := [⟨["count_1"], [.int (filtered t condition (content t.name)).length]⟩] }, content)
  | .verbatim sql =>
    if sql = "SELECT 1" then .ok ({ rows := [⟨["1"], [.int 1]⟩] }, content) else .error (syntaxError sql)

def isQuestion : Statement → Bool
  | .select _ _ | .count _ _ => true
  | _ => false

/-- The columns take every value of the statement, and each can be bound. -/
def IsBound (s : Statement) : Prop := checkStatement s = .ok () ∧ ∀ b ∈ bindings s, b = .ok ()

end Sql.Statement

/-- What is told of a store: the content that was committed last, what a connection has changed and not
committed, and which connections may be handed out. -/
structure Account (ω : Type) where
  committed : ω → Content
  pending : ω → Nat → Option Content
  isAvailable : ω → Nat → Prop

def Account.seen (a : Account ω) (w : ω) (c : Nat) : Content := (a.pending w c).getD (a.committed w)

/-- Nothing is said of a connection whose rollback has failed, but that it is not handed out again
when it has been discarded. One that is released is handed out as it is. -/
structure Store.Reliable (store : Store ω) (a : Account ω) : Prop where
  ordinary : store.IsOrdinary
  executed : ∀ (c : Nat) (s : Sql.Statement) (w : ω) (result : Sql.Result),
    (store.call c (.execute s) w).1 = .ok result →
      s.apply (a.seen w c) = .ok (result, a.seen (store.call c (.execute s) w).2 c)
  refused : ∀ (c : Nat) (s : Sql.Statement) (w : ω) (e : Error),
    (store.call c (.execute s) w).1 = .error e → a.seen (store.call c (.execute s) w).2 c = a.seen w c
  answers : ∀ (c : Nat) (s : Sql.Statement) (w : ω), s.isQuestion = true → s.IsBound →
    ∃ result, (store.call c (.execute s) w).1 = .ok result
  unpublished : ∀ (c : Nat) (call : Call Sql.Statement) (w : ω), call ≠ .commit →
    a.committed (store.call c call w).2 = a.committed w
  commits : ∀ (c : Nat) (w : ω) (result : Sql.Result), (store.call c .commit w).1 = .ok result →
    a.committed (store.call c .commit w).2 = a.seen w c ∧ a.pending (store.call c .commit w).2 c = none
  refuses : ∀ (c : Nat) (w : ω) (e : Error), (store.call c .commit w).1 = .error e →
    a.committed (store.call c .commit w).2 = a.committed w
  rollsBack : ∀ (c : Nat) (w : ω) (result : Sql.Result), (store.call c .rollback w).1 = .ok result →
    a.pending (store.call c .rollback w).2 c = none
  hands : ∀ (c : Nat) (call : Call Sql.Statement) (w : ω), call = .begin ∨ call = .release →
    a.pending w c = none → a.pending (store.call c call w).2 c = none
  discards : ∀ (c : Nat) (w : ω), a.isAvailable (store.call c .discard w).2 c →
    a.pending (store.call c .discard w).2 c = none
  others : ∀ (c other : Nat) (call : Call Sql.Statement) (w : ω), other ≠ c →
    a.pending (store.call c call w).2 other = a.pending w other ∧
      (a.isAvailable (store.call c call w).2 other → a.isAvailable w other)

/-- A connection that may write is told of each statement what it comes to on the content that the connection
sees, and may write after it. -/
structure Store.Faithful (store : Store ω) (a : Account ω) (writes : ω → Nat → Prop) : Prop where
  performed : ∀ (c : Nat) (s : Sql.Statement) (w : ω) (result : Sql.Result) (content : Content),
    writes w c → s.IsBound → s.apply (a.seen w c) = .ok (result, content) →
      (store.call c (.execute s) w).1 = .ok result ∧ a.seen (store.call c (.execute s) w).2 c = content
  declined : ∀ (c : Nat) (s : Sql.Statement) (w : ω) (e : Error),
    writes w c → s.IsBound → s.apply (a.seen w c) = .error e →
      (store.call c (.execute s) w).1 = .error e ∧ a.seen (store.call c (.execute s) w).2 c = a.seen w c
  keeps : ∀ (c : Nat) (s : Sql.Statement) (w : ω),
    writes w c → s.IsBound → writes (store.call c (.execute s) w).2 c

namespace Database

variable {d : Database} {c other : Nat} {s : Sql.Statement} {result : Sql.Result} {e : Error}

/-- What the connection has changed and not committed. -/
def pending (d : Database) (c : Nat) : Option Content :=
  match d.writer with
  | some (w, content) => if w = c then some content else none
  | none => none

def account : Account Database where
  committed d := d.committed
  pending := pending
  isAvailable _ _ := True

theorem seen_eq (d : Database) (c : Nat) : account.seen d c = d.view c := by
  rcases hwriter : d.writer with _ | ⟨w, content⟩
  · simp [Account.seen, account, view, pending, hwriter]
  · by_cases hw : w = c <;> simp [Account.seen, account, view, pending, hwriter, hw]

@[simp] theorem committed_setLink (l : Link) : (d.setLink c l).committed = d.committed := rfl

theorem pending_finish : (d.finish c).pending c = none := by
  rcases hwriter : d.writer with _ | ⟨w, content⟩
  · simp [pending, finish, hwriter]
  · by_cases hw : w = c <;> simp [pending, finish, hwriter, Option.filter, hw]

theorem pending_finish_other (hne : other ≠ c) : (d.finish c).pending other = d.pending other := by
  rcases hwriter : d.writer with _ | ⟨w, content⟩
  · simp [pending, finish, hwriter]
  · by_cases hw : w = c <;> simp [pending, finish, hwriter, Option.filter, hw, Ne.symm hne]

@[simp] theorem view_written (content : Content) :
    ({ d with writer := some (c, content) } : Database).view c = content := by
  simp [view]

theorem pending_written (hwrite : d.canWrite c = true) (content : Content) (hne : other ≠ c) :
    ({ d with writer := some (c, content) } : Database).pending other = d.pending other := by
  rcases hwriter : d.writer with _ | ⟨w, before⟩
  · simp [pending, hwriter, Ne.symm hne]
  · have hw : w = c := by simpa [canWrite, hwriter] using hwrite
    simp [pending, hwriter, hw, Ne.symm hne]

/-! Statements -/

theorem write_ok {change : Content → Except Error (Nat × Content)} (h : (d.write c change).1 = .ok result) :
    ∃ count after, change (d.view c) = .ok (count, after) ∧ result = { rowCount := .int count } ∧
      (d.write c change).2.view c = after := by
  unfold write at h ⊢
  split at h
  · rename_i hwrite
    rw [if_pos hwrite]
    split at h
    · rename_i count content hchange
      rw [hchange]
      cases h
      exact ⟨count, content, rfl, rfl, view_written content⟩
    · cases h
  · cases h

theorem write_error {change : Content → Except Error (Nat × Content)} (h : (d.write c change).1 = .error e) :
    (d.write c change).2.view c = d.view c := by
  unfold write at h ⊢
  split
  · rename_i hwrite
    rw [if_pos hwrite] at h
    split at h
    · cases h
    · exact view_written _
  · rfl

theorem write_frame (change : Content → Except Error (Nat × Content)) :
    (d.write c change).2.committed = d.committed ∧
      ∀ other, other ≠ c → (d.write c change).2.pending other = d.pending other := by
  unfold write
  split
  · rename_i hwrite
    split
    · exact ⟨rfl, fun other hne => pending_written hwrite _ hne⟩
    · exact ⟨rfl, fun other hne => pending_written hwrite _ hne⟩
  · exact ⟨rfl, fun _ _ => rfl⟩

theorem perform_ok (h : (d.perform c s).1 = .ok result) :
    s.apply (d.view c) = .ok (result, (d.perform c s).2.view c) := by
  cases s with
  | insert t values =>
    obtain ⟨count, after, hchange, rfl, hview⟩ := write_ok h
    rw [perform, hview, Sql.Statement.apply]
    cases hinsert : insert t values (d.view c) with
    | error e =>
      rw [hinsert] at hchange
      cases hchange
    | ok content =>
      rw [hinsert] at hchange
      cases hchange
      rfl
  | delete t condition =>
    obtain ⟨count, after, hchange, rfl, hview⟩ := write_ok h
    rw [perform, hview, Sql.Statement.apply]
    simp only [Except.ok.injEq] at hchange
    rw [hchange]
  | select t selection =>
    cases h
    rfl
  | count t condition =>
    cases h
    rfl
  | verbatim sql =>
    simp only [perform] at h ⊢
    simp only [Sql.Statement.apply]
    split at h
    · rename_i hsql
      cases h
      rw [if_pos hsql]
    · cases h

theorem perform_error (h : (d.perform c s).1 = .error e) : (d.perform c s).2.view c = d.view c := by
  cases s with
  | insert | delete => exact write_error h
  | select | count | verbatim => rfl

theorem perform_frame (d : Database) (c : Nat) (s : Sql.Statement) : (d.perform c s).2.committed = d.committed ∧
    ∀ other, other ≠ c → (d.perform c s).2.pending other = d.pending other := by
  cases s with
  | insert | delete => exact write_frame _
  | select | count | verbatim => exact ⟨rfl, fun _ _ => rfl⟩

/-- What is known of a connection when a statement's values are bound. -/
def prepared (d : Database) (c : Nat) (s : Sql.Statement) : Link :=
  let l := (d.link c).prepare (preparedText s)
  if s.isChange then l.begin else l

/-- A statement that is stopped before it is performed changes nothing but what is known of its
connection. -/
theorem execute_cases (d : Database) (c : Nat) (s : Sql.Statement) :
    (∃ e d', d.execute c s = (.error e, d') ∧ (d' = d ∨ ∃ l, d' = d.setLink c l)) ∨
      ∃ l l', d.execute c s = (((d.setLink c l).perform c s).1, ((d.setLink c l).perform c s).2.setLink c l') := by
  rcases hcheck : checkStatement s with e | ⟨⟩
  · exact .inl ⟨e, d, by simp only [execute, hcheck], .inl rfl⟩
  · rcases hbind : (d.prepared c s).bind (bindings s) with ⟨e | ⟨⟩, l⟩
    · refine .inl ⟨e, d.setLink c l, ?_, .inr ⟨l, rfl⟩⟩
      simp only [prepared] at hbind
      simp only [execute, hcheck, hbind]
    · refine .inr ⟨l, ?_⟩
      simp only [prepared] at hbind
      simp only [execute, hcheck, hbind]
      exact ⟨_, rfl⟩

theorem execute_ok (h : (d.execute c s).1 = .ok result) :
    s.apply (d.view c) = .ok (result, (d.execute c s).2.view c) := by
  rcases execute_cases d c s with ⟨e, d', hexecute, -⟩ | ⟨l, l', hexecute⟩
  · rw [hexecute] at h
    cases h
  · rw [hexecute] at h ⊢
    exact perform_ok h

theorem execute_error (h : (d.execute c s).1 = .error e) : (d.execute c s).2.view c = d.view c := by
  rcases execute_cases d c s with ⟨e, d', hexecute, rfl | ⟨l, rfl⟩⟩ | ⟨l, l', hexecute⟩
  · rw [hexecute]
  · rw [hexecute]
    rfl
  · rw [hexecute] at h ⊢
    exact perform_error h

theorem execute_frame (d : Database) (c : Nat) (s : Sql.Statement) : (d.execute c s).2.committed = d.committed ∧
    ∀ other, other ≠ c → (d.execute c s).2.pending other = d.pending other := by
  rcases execute_cases d c s with ⟨e, d', hexecute, rfl | ⟨l, rfl⟩⟩ | ⟨l, l', hexecute⟩
  · rw [hexecute]
    exact ⟨rfl, fun _ _ => rfl⟩
  · rw [hexecute]
    exact ⟨rfl, fun _ _ => rfl⟩
  · rw [hexecute]
    exact perform_frame (d.setLink c l) c s

theorem bind_bound {values : List (Except Error Unit)} (h : ∀ v ∈ values, v = .ok ()) (l : Link) :
    (l.bind values).1 = .ok () := by
  cases values with
  | nil => rfl
  | cons v rest =>
    cases h v List.mem_cons_self
    have hrest : ∀ v ∈ rest, v = .ok () := fun v hv => h v (List.mem_cons_of_mem _ hv)
    have hforM : rest.forM id = (.ok () : Except Error Unit) := by
      clear h
      induction rest with
      | nil => rfl
      | cons v rest ih =>
        cases hrest v List.mem_cons_self
        exact ih fun v hv => hrest v (List.mem_cons_of_mem _ hv)
    exact hforM

/-- A statement whose values are in order is performed. -/
theorem execute_bound (h : s.IsBound) (d : Database) (c : Nat) : ∃ l l',
    d.execute c s = (((d.setLink c l).perform c s).1, ((d.setLink c l).perform c s).2.setLink c l') := by
  have hbound := bind_bound h.2 (d.prepared c s)
  rcases hbind : (d.prepared c s).bind (bindings s) with ⟨bound, l⟩
  rw [hbind] at hbound
  subst hbound
  refine ⟨l, ?_⟩
  simp only [prepared] at hbind
  simp only [execute, h.1, hbind]
  exact ⟨_, rfl⟩

/-- A connection that may write gets what the statement comes to on what it sees. -/
theorem perform_eq (hwrite : d.canWrite c = true) :
    (d.perform c s).1 = (s.apply (d.view c)).map Prod.fst ∧ (d.perform c s).2.canWrite c = true := by
  have hwritten (content : Content) : ({ d with writer := some (c, content) } : Database).canWrite c = true := by
    simp [canWrite]
  cases s with
  | insert t values =>
    simp only [perform, write, hwrite, if_true, Sql.Statement.apply]
    cases insert t values (d.view c) with
    | ok content => exact ⟨rfl, hwritten content⟩
    | error e => exact ⟨rfl, hwritten _⟩
  | delete t condition =>
    simp only [perform, write, hwrite, if_true, Sql.Statement.apply]
    exact ⟨rfl, hwritten _⟩
  | select | count => exact ⟨rfl, hwrite⟩
  | verbatim sql =>
    simp only [perform, Sql.Statement.apply]
    split <;> exact ⟨rfl, hwrite⟩

theorem execute_eq (h : s.IsBound) (hwrite : d.canWrite c = true) :
    (d.execute c s).1 = (s.apply (d.view c)).map Prod.fst ∧ (d.execute c s).2.canWrite c = true := by
  obtain ⟨l, l', hexecute⟩ := execute_bound h d c
  rw [hexecute]
  exact perform_eq (d := d.setLink c l) hwrite

theorem commit_frame (hne : other ≠ c) : (d.commit c).2.pending other = d.pending other := by
  unfold commit
  split
  · split
    · split
      · rfl
      · split
        · rfl
        · exact pending_finish_other hne
    · exact pending_finish_other hne
  · exact pending_finish_other hne

theorem commit_ok (h : (d.commit c).1 = .ok result) :
    (d.commit c).2.committed = d.view c ∧ (d.commit c).2.pending c = none := by
  unfold commit at h ⊢
  split at h
  · rename_i w content hwriter
    split at h
    · rename_i hw
      split at h
      · cases h
      · split at h
        · cases h
        · rename_i hrefers hheld
          simp only [hw, if_true, if_neg hrefers, if_neg hheld]
          exact ⟨by simp [view, hwriter, hw], pending_finish⟩
    · rename_i hw
      simp only [if_neg hw]
      exact ⟨by simp [view, hwriter, hw, finish], pending_finish⟩
  · rename_i hwriter
    exact ⟨by simp [view, hwriter, finish], pending_finish⟩

theorem commit_error (h : (d.commit c).1 = .error e) : (d.commit c).2.committed = d.committed := by
  unfold commit at h ⊢
  split
  · rename_i hwriter
    split
    · rename_i hw
      split
      · rfl
      · split
        · rfl
        · rename_i hrefers hheld
          simp [hwriter, hw, hrefers, hheld] at h
    · rfl
  · rfl

theorem isOrdinary_commit (h : (d.commit c).1 = .error e) : e.isOrdinary = true := by
  unfold commit at h
  split at h
  · split at h
    · split at h
      · cases h
        rfl
      · split at h
        · cases h
          rfl
        · cases h
    · cases h
  · cases h

theorem reliable : Simulation.Shared.store.Reliable account where
  ordinary c call d e hc he := by
    cases call with
    | commit => exact isOrdinary_commit he
    | execute => cases hc
    | _ => cases he
  executed c s d result h := by
    rw [seen_eq, seen_eq]
    exact execute_ok h
  refused c s d e h := by
    rw [seen_eq, seen_eq]
    exact execute_error h
  answers c s d hs hbound := by
    obtain ⟨l, l', hexecute⟩ := execute_bound hbound d c
    change ∃ result, (d.execute c s).1 = .ok result
    rw [hexecute]
    cases s with
    | select | count => exact ⟨_, rfl⟩
    | _ => cases hs
  unpublished c call d hcall := by
    cases call with
    | commit => exact absurd rfl hcall
    | execute s => exact (execute_frame d c s).1
    | _ => rfl
  commits c d result h := by
    rw [seen_eq]
    exact commit_ok h
  refuses c d e h := commit_error h
  rollsBack c d result h := pending_finish
  hands c call d hcall hnone := by
    rcases hcall with rfl | rfl
    · exact hnone
    · exact pending_finish
  discards c d _ := pending_finish
  others c other call d hne := by
    refine ⟨?_, fun _ => trivial⟩
    cases call with
    | begin => rfl
    | execute s => exact (execute_frame d c s).2 other hne
    | commit => exact commit_frame hne
    | rollback | release | discard => exact pending_finish_other hne

theorem faithful : Simulation.Shared.store.Faithful account fun d c => d.canWrite c = true where
  performed c s d result content hwrite hbound happly := by
    rw [seen_eq] at happly ⊢
    have hok : (d.execute c s).1 = .ok result := by
      rw [(execute_eq hbound hwrite).1, happly]
      rfl
    have hview := execute_ok hok
    rw [happly, Except.ok.injEq, Prod.mk.injEq] at hview
    exact ⟨hok, hview.2.symm⟩
  declined c s d e hwrite hbound happly := by
    rw [seen_eq] at happly
    rw [seen_eq, seen_eq]
    have herror : (d.execute c s).1 = .error e := by
      rw [(execute_eq hbound hwrite).1, happly]
      rfl
    exact ⟨herror, execute_error herror⟩
  keeps c s d hwrite hbound := (execute_eq hbound hwrite).2

end Database
end Transact
