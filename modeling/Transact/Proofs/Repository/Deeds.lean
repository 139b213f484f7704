import Transact.Proofs.Database.Reliability

/-! What a transaction does that has its connection for itself, deed by deed: what its operations make
of the content, and when that is published. -/
namespace Transact

variable {ω : Type}

namespace Database

theorem insert_ok {t : Table} {values : Entity} {content after : Content}
    (h : insert t values content = .ok after) :
    checkComplete t (keptRow t values) = .ok () ∧
      checkUnique t (keptRow t values) (content t.name) = .ok () ∧
      after = set content t.name (content t.name ++ [keptRow t values]) := by
  cases hcomplete : checkComplete t (keptRow t values) with
  | error e =>
    simp only [insert, hcomplete, Bind.bind, Except.bind] at h
    cases h
  | ok =>
    cases hunique : checkUnique t (keptRow t values) (content t.name) with
    | error e =>
      simp only [insert, hcomplete, hunique, Bind.bind, Except.bind] at h
      cases h
    | ok =>
      simp only [insert, hcomplete, hunique, Bind.bind, Except.bind] at h
      cases h
      exact ⟨rfl, rfl, rfl⟩

end Database

namespace Sql.Statement

open Database

variable {s : Statement} {content after : Content} {result : Result}

/-- What a statement makes of a content when it succeeds. -/
def change : Statement → Content → Content
  | .insert t values, content => set content t.name (content t.name ++ [keptRow t values])
  | .delete t c, content => (Database.delete t c content).2
  | .select _ _, content | .count _ _, content | .verbatim _, content => content

def replay (statements : List Statement) (content : Content) : Content :=
  statements.foldl (fun content s => s.change content) content

theorem replay_append (xs ys : List Statement) (content : Content) :
    replay (xs ++ ys) content = replay ys (replay xs content) :=
  List.foldl_append

theorem change_of_apply (h : s.apply content = .ok (result, after)) : s.change content = after := by
  cases s with
  | insert t values =>
    cases hinsert : Database.insert t values content with
    | error e =>
      simp only [apply, hinsert, Except.map] at h
      cases h
    | ok content' =>
      simp only [apply, hinsert, Except.map, Except.ok.injEq, Prod.mk.injEq] at h
      rw [← h.2, (insert_ok hinsert).2.2, change]
  | verbatim sql =>
    simp only [apply] at h
    split at h
    · cases h
      rfl
    · cases h
  | delete | select | count =>
    cases h
    rfl

/-- Each statement in its turn is answered without an error. -/
def Accepted : List Statement → Content → Prop
  | [], _ => True
  | s :: rest, content =>
    (∃ result, s.apply content = .ok (result, s.change content)) ∧ Accepted rest (s.change content)

theorem accepted_append {xs ys : List Statement} {content : Content} (hxs : Accepted xs content)
    (hys : Accepted ys (replay xs content)) : Accepted (xs ++ ys) content := by
  induction xs generalizing content with
  | nil => exact hys
  | cons s rest ih => exact ⟨hxs.1, ih hxs.2 hys⟩

theorem accepted_split {xs ys : List Statement} {content : Content} (h : Accepted (xs ++ ys) content) :
    Accepted xs content ∧ Accepted ys (replay xs content) := by
  induction xs generalizing content with
  | nil => exact ⟨trivial, h⟩
  | cons s rest ih => exact ⟨⟨h.1, (ih h.2).1⟩, (ih h.2).2⟩

/-- A statement that only reads, changes nothing. -/
theorem change_of_not_isChange (h : s.isChange = false) : s.change content = content := by
  cases s with
  | insert | delete => cases h
  | _ => rfl

end Sql.Statement

/-- The ways in which a session is ended. One whose scope is left is closed, however its block ends. -/
inductive Exit where
  | commit
  | rollback
  | close
  | orphan
deriving DecidableEq, Repr

def Exit.request : Exit → Request Sql.Statement
  | commit => .commit
  | rollback => .rollback
  | close => .close
  | orphan => .orphan

@[simp] theorem Exit.isEnding_request (exit : Exit) : exit.request.isEnding = true := by
  cases exit <;> rfl

/-- What is done in a transaction. A repository is named by its place. -/
inductive Deed where
  | register (repository : Nat)
  | operate (repository : Nat) (operation : Operation)
  | finish (exit : Exit)

/-- An operation that was answered without an error, and its statement. -/
structure Act where
  repository : Nat
  operation : Operation
  statement : Sql.Statement

namespace Transaction

variable {store : Store ω} {c k : Nat} {operation : Operation} {t : Transaction} {w : ω} {r : Repository}

def acts (t : Transaction) (k : Nat) (operation : Operation) (answer : Except Error Repository.Reply) :
    List Act :=
  match answer, t.repositories[k]? with
  | .ok _, some r =>
    match r.statement operation with
    | .ok statement => [⟨k, operation, statement⟩]
    | .error _ => []
  | _, _ => []

/-- What a deed has succeeded in, the transaction and the world after it. -/
def act (store : Store ω) (c : Nat) (t : Transaction) (w : ω) : Deed → List Act × Transaction × ω
  | .register k => ([], (t.register k).2, w)
  | .operate k operation =>
    let (answer, after) := t.perform store c k operation w
    (t.acts k operation answer, after)
  | .finish exit => ([], (t.ask store c exit.request w).2)

def actAll (store : Store ω) (c : Nat) (t : Transaction) (w : ω) : List Deed → List Act × Transaction × ω
  | [] => ([], t, w)
  | deed :: rest =>
    let (done, t, w) := t.act store c w deed
    let (more, after) := t.actAll store c w rest
    (done ++ more, after)

theorem actAll_append (deeds more : List Deed) : t.actAll store c w (deeds ++ more) =
    let first := t.actAll store c w deeds
    let second := first.2.1.actAll store c first.2.2 more
    (first.1 ++ second.1, second.2) := by
  induction deeds generalizing t w with
  | nil => rfl
  | cons deed rest ih =>
    simp only [List.cons_append, actAll, ih, List.append_assoc]

theorem acts_error (e : Error) : t.acts k operation (.error e) = [] := by
  simp [acts]

/-- A transaction with an observer more. -/
def enrolled (t : Transaction) (k : Nat) (r : Repository) : Transaction :=
  t.withSession { t.session with
    registry := ⟨t.session.registry.observers ++ [⟨k, r.className, r.className⟩]⟩ }

/-- Who registers is entered with the observers, as long as the transaction is open. -/
theorem register_cases (t : Transaction) (k : Nat) :
    (t.register k).2 = t ∨
      ∃ r, t.repositories[k]? = some r ∧ t.session.phase = .active ∧ (t.register k).2 = t.enrolled k r := by
  cases hr : t.repositories[k]? with
  | none => exact .inl (by simp only [register, hr])
  | some r =>
    cases hactive : t.session.isActive with
    | false =>
      refine .inl ?_
      simp only [register, hr, step, Session.step, Session.register, hactive, Bool.false_eq_true, if_false]
      rfl
    | true =>
      refine .inr ⟨r, rfl, by simpa [Session.isActive] using hactive, ?_⟩
      simp only [register, hr, step, Session.step, Session.register, hactive, if_true, observerOf,
        Registry.register]
      rfl

/-- What comes of a deed: what it has succeeded in, the transaction and the world after it. -/
inductive Acted (store : Store ω) (c : Nat) (t : Transaction) (w : ω) :
    Deed → List Act × Transaction × ω → Prop
  | nothing {deed : Deed} (u : Transaction) : t.Unmoved u → Acted store c t w deed ([], u, w)
  | enrolled (k : Nat) (r : Repository) : t.session.phase = .active → t.repositories[k]? = some r →
      Acted store c t w (.register k) ([], t.enrolled k r, w)
  | executed (k : Nat) (operation : Operation) (r : Repository) (statement : Sql.Statement) :
      t.session.phase = .active → t.repositories[k]? = some r → r.statement operation = .ok statement →
      Acted store c t w (.operate k operation)
        (t.acts k operation (r.answer operation (store.call c (.execute statement) w).1),
          t.settled k operation statement (store.call c (.execute statement) w).1,
          (store.call c (.execute statement) w).2)
  | ended (exit : Exit) (answer : Except Error (Answer Sql.Result)) (u : Transaction) (w' : ω) :
      t.session.phase = .active → u.Calm →
      t.Finished exit.request ((store.surroundings c).finale w exit.request) answer u w' →
      Acted store c t w (.finish exit) ([], u, w')

theorem acted_operate (hcalm : t.Calm) (k : Nat) (operation : Operation) :
    Acted store c t w (.operate k operation) (t.act store c w (.operate k operation)) := by
  cases hr : t.repositories[k]? with
  | none =>
    have hact : t.act store c w (.operate k operation) = ([], t, w) := by simp [act, perform, hr, acts]
    rw [hact]
    exact .nothing t (.refl hcalm)
  | some r =>
    cases hstatement : r.statement operation with
    | error e =>
      have hact : t.act store c w (.operate k operation) = ([], t, w) := by
        simp only [act, perform_unmade hr hstatement, acts_error]
      rw [hact]
      exact .nothing t (.refl hcalm)
    | ok statement =>
      cases hterminal : t.session.phase.isTerminal with
      | true =>
        obtain ⟨u, hunmoved, hperform⟩ := perform_late store c w hcalm hterminal hr hstatement
        have hact : t.act store c w (.operate k operation) = ([], u, w) := by
          simp only [act, hperform, acts_error]
        rw [hact]
        exact .nothing u hunmoved
      | false =>
        have hactive := Phase.isTerminal_eq_false_iff.mp hterminal
        have hperform := perform_active store c w hcalm hactive hr hstatement
        rw [act, hperform]
        exact .executed k operation r statement hactive hr hstatement

theorem acted_finish (hordinary : store.IsOrdinary) (hcalm : t.Calm) (exit : Exit) :
    Acted store c t w (.finish exit) (t.act store c w (.finish exit)) := by
  cases hterminal : t.session.phase.isTerminal with
  | true =>
    obtain ⟨hunmoved, hworld⟩ := ask_late store c exit.request w hcalm hterminal
    have hact : t.act store c w (.finish exit) = ([], (t.ask store c exit.request w).2.1, w) :=
      congrArg (Prod.mk _) (congrArg (Prod.mk _) hworld)
    rw [hact]
    exact .nothing _ hunmoved
  | false =>
    have hactive := Phase.isTerminal_eq_false_iff.mp hterminal
    have hfinished := ask_active hordinary c w hcalm hactive exit.isEnding_request
    exact .ended exit _ _ _ hactive (hfinished.calm hcalm) hfinished

theorem acted (hordinary : store.IsOrdinary) (hcalm : t.Calm) (deed : Deed) :
    Acted store c t w deed (t.act store c w deed) := by
  cases deed with
  | register k =>
    have hact : t.act store c w (.register k) = ([], (t.register k).2, w) := rfl
    rw [hact]
    rcases register_cases t k with h | ⟨r, hr, hactive, h⟩
    · rw [h]
      exact .nothing t (.refl hcalm)
    · rw [h]
      exact .enrolled k r hactive hr
  | operate k operation => exact acted_operate hcalm k operation
  | finish exit => exact acted_finish hordinary hcalm exit

theorem Acted.calm {deed : Deed} {after : List Act × Transaction × ω} (h : Acted store c t w deed after)
    (hcalm : t.Calm) : after.2.1.Calm := by
  cases h with
  | nothing u hunmoved => exact hunmoved.calm
  | enrolled => exact ⟨hcalm.free, hcalm.placed⟩
  | executed k operation r statement => exact hcalm.settled k operation statement _
  | ended exit answer u w' hactive hcalm' => exact hcalm'

theorem isTerminal_phase (ending : Ending) : ending.phase.isTerminal = true := by
  cases ending <;> rfl

/-- Whoever asks for the end finds it reached then. -/
theorem terminal_finish (hordinary : store.IsOrdinary) (hcalm : t.Calm) (exit : Exit) :
    (t.act store c w (.finish exit)).2.1.session.phase.isTerminal = true := by
  cases hterminal : t.session.phase.isTerminal with
  | true =>
    have hlate := ask_late store c exit.request w hcalm hterminal
    exact (congrArg Phase.isTerminal hlate.1.phase).trans hterminal
  | false =>
    have hactive := Phase.isTerminal_eq_false_iff.mp hterminal
    have hfinished := ask_active hordinary c w hcalm hactive exit.isEnding_request
    have hphase : (t.act store c w (.finish exit)).2.1.session.phase =
        ((store.surroundings c).finale w exit.request).ending.phase := congrArg Session.phase hfinished.session
    rw [hphase]
    exact isTerminal_phase _

end Transaction

/-! What the end of a transaction makes of the store -/

/-- What is to be said of other connections has stayed. -/
def Account.Beside (a : Account ω) (c : Nat) (w w' : ω) : Prop :=
  ∀ other, other ≠ c → a.pending w' other = a.pending w other ∧
    (a.isAvailable w' other → a.isAvailable w other)

theorem Account.Beside.refl (a : Account ω) (c : Nat) (w : ω) : a.Beside c w w :=
  fun _ _ => ⟨rfl, id⟩

theorem Account.Beside.trans {a : Account ω} {c : Nat} {w w' w'' : ω} (h : a.Beside c w w')
    (h' : a.Beside c w' w'') : a.Beside c w w'' := fun other hne =>
  ⟨(h' other hne).1.trans (h other hne).1, fun havailable => (h other hne).2 ((h' other hne).2 havailable)⟩

/-- Nothing waits on a connection that may be handed out. -/
def Account.IsClear (a : Account ω) (w : ω) : Prop := ∀ c, a.isAvailable w c → a.pending w c = none

/-- The connection is handed back with nothing on it, and nothing was published on the way. -/
structure Account.HandsBack (a : Account ω) (c : Nat) (w w' : ω) : Prop where
  committed : a.committed w' = a.committed w
  clear : a.isAvailable w' c → a.pending w' c = none
  beside : a.Beside c w w'

namespace Store.Reliable

variable {store : Store ω} {a : Account ω} {c : Nat} {w : ω} {call : Call Sql.Statement} {outcome : Except Error Unit}
  {w' : ω}

theorem tell_eq (htell : (store.surroundings c).tell call w = (outcome, w')) :
    (store.call c call w).1.map (fun _ => ()) = outcome ∧ (store.call c call w).2 = w' := by
  simp only [Surroundings.tell, Prod.mk.injEq] at htell
  exact htell

theorem tell_ok (htell : (store.surroundings c).tell call w = (.ok (), w')) :
    (∃ result, (store.call c call w).1 = .ok result) ∧ (store.call c call w).2 = w' := by
  obtain ⟨houtcome, hworld⟩ := tell_eq htell
  cases hcall : (store.call c call w).1 with
  | ok result => exact ⟨⟨result, rfl⟩, hworld⟩
  | error e =>
    rw [hcall] at houtcome
    cases houtcome

theorem tell_error {e : Error} (htell : (store.surroundings c).tell call w = (.error e, w')) :
    (store.call c call w).1 = .error e ∧ (store.call c call w).2 = w' := by
  obtain ⟨houtcome, hworld⟩ := tell_eq htell
  cases hcall : (store.call c call w).1 with
  | ok result =>
    rw [hcall] at houtcome
    cases houtcome
  | error e' =>
    rw [hcall] at houtcome
    cases houtcome
    exact ⟨rfl, hworld⟩

theorem beside (h : store.Reliable a) (c : Nat) (call : Call Sql.Statement) (w : ω) :
    a.Beside c w (store.call c call w).2 :=
  fun other hne => h.others c other call w hne

theorem discard (h : store.Reliable a) (ending : Ending) (w : ω) :
    a.HandsBack c w ((store.surroundings c).discard ending w).world :=
  ⟨h.unpublished c .discard w nofun, h.discards c w, h.beside c .discard w⟩

theorem release (h : store.Reliable a) (ending : Ending) (hnone : a.pending w c = none) :
    a.HandsBack c w ((store.surroundings c).release ending w).world := by
  have hhanded : a.pending (store.call c .release w).2 c = none := h.hands c .release w (.inr rfl) hnone
  have hcommitted := h.unpublished c .release w nofun
  have hbeside := h.beside c .release w
  unfold Surroundings.release
  split
  · rename_i w' htell
    obtain ⟨-, rfl⟩ := tell_ok htell
    exact ⟨hcommitted, fun _ => hhanded, hbeside⟩
  · rename_i e w' htell
    obtain ⟨-, rfl⟩ := tell_error htell
    have hdiscard := h.discard (c := c) ending (store.call c .release w).2
    exact ⟨hdiscard.committed.trans hcommitted, hdiscard.clear, hbeside.trans hdiscard.beside⟩

theorem rollBack (h : store.Reliable a) (commit : Option Error) (w : ω) :
    ((store.surroundings c).rollBack commit w).ending.phase = .rolledBack ∧
      a.HandsBack c w ((store.surroundings c).rollBack commit w).world := by
  have hcommitted := h.unpublished c .rollback w nofun
  have hbeside := h.beside c .rollback w
  unfold Surroundings.rollBack
  split
  · rename_i w' htell
    obtain ⟨⟨result, hok⟩, rfl⟩ := tell_ok htell
    have hrelease := h.release (.rolledBack commit none) (h.rollsBack c w result hok)
    refine ⟨?_, hrelease.committed.trans hcommitted, hrelease.clear, hbeside.trans hrelease.beside⟩
    simp only [Finale.after, Surroundings.release]
    split <;> rfl
  · rename_i e w' htell
    obtain ⟨-, rfl⟩ := tell_error htell
    have hdiscard := h.discard (c := c) (.rolledBack commit (some e)) (store.call c .rollback w).2
    exact ⟨rfl, hdiscard.committed.trans hcommitted, hdiscard.clear, hbeside.trans hdiscard.beside⟩

end Store.Reliable

/-- A transaction ends in two ways: all that its connection has seen is published, or nothing is. -/
inductive Account.Settles (a : Account ω) (c : Nat) (w : ω) : Phase → ω → Prop
  | committed (w' : ω) : a.committed w' = a.seen w c → (a.isAvailable w' c → a.pending w' c = none) →
      a.Beside c w w' → Settles a c w .committed w'
  | rolledBack (w' : ω) : a.HandsBack c w w' → Settles a c w .rolledBack w'

theorem Store.Reliable.finale {store : Store ω} {a : Account ω} (h : store.Reliable a) (c : Nat) (w : ω)
    (request : Request Sql.Statement) :
    a.Settles c w ((store.surroundings c).finale w request).ending.phase
      ((store.surroundings c).finale w request).world := by
  have hrollBack (commit : Option Error) : a.Settles c w
      ((store.surroundings c).rollBack commit w).ending.phase
      ((store.surroundings c).rollBack commit w).world := by
    rw [(h.rollBack commit w).1]
    exact .rolledBack _ (h.rollBack commit w).2
  cases request with
  | commit =>
    have hbeside := h.beside c .commit w
    rcases htell : (store.surroundings c).tell .commit w with ⟨e | ⟨⟩, w'⟩
    · obtain ⟨herror, rfl⟩ := tell_error htell
      obtain ⟨hphase, hback⟩ := h.rollBack (c := c) (some e) (store.call c .commit w).2
      simp only [Surroundings.finale, htell, Finale.after, hphase]
      exact .rolledBack _ ⟨hback.committed.trans (h.refuses c w e herror), hback.clear,
        hbeside.trans hback.beside⟩
    · obtain ⟨⟨result, hok⟩, rfl⟩ := tell_ok htell
      obtain ⟨hcommitted, hnone⟩ := h.commits c w result hok
      have hrelease := h.release .committed hnone
      have hphase : ((store.surroundings c).release .committed (store.call c .commit w).2).ending.phase =
          .committed := by
        simp only [Surroundings.release]
        split <;> rfl
      simp only [Surroundings.finale, htell, Finale.after, hphase]
      exact .committed _ (hrelease.committed.trans hcommitted) hrelease.clear
        (hbeside.trans hrelease.beside)
  | execute | rollback | close | orphan => exact hrollBack none

/-! How a transaction stands -/

/-- Where a transaction on connection `c` has led that began at `before` and has succeeded in `acts`. -/
structure Transaction.Standing (a : Account ω) (c : Nat) (before : Content) (acts : List Act)
    (t : Transaction) (w : ω) : Prop where
  calm : t.Calm
  accepted : Sql.Statement.Accepted (acts.map Act.statement) before
  active : t.session.phase = .active → a.committed w = before ∧
    a.seen w c = Sql.Statement.replay (acts.map Act.statement) before
  committed : t.session.phase = .committed →
    a.committed w = Sql.Statement.replay (acts.map Act.statement) before
  rolledBack : t.session.phase = .rolledBack → a.committed w = before
  ended : t.session.phase.isTerminal = true → a.isAvailable w c → a.pending w c = none

namespace Transaction

variable {store : Store ω} {a : Account ω} {c k : Nat} {operation : Operation} {t : Transaction} {w : ω}
  {r : Repository} {before : Content} {done : List Act} {statement : Sql.Statement}

theorem reply_error {result : Sql.Result} {e : Error} (hstatement : r.statement operation = .ok statement)
    (hreply : r.reply result operation = .error e) : statement.isChange = false := by
  cases Repository.makes hstatement with
  | add | delete => cases hreply
  | _ => rfl

/-- What an operation that reached the store has succeeded in is what it has changed. -/
theorem replay_acts {outcome : Except Error Sql.Result} (hr : t.repositories[k]? = some r)
    (hstatement : r.statement operation = .ok statement) (content : Content) :
    Sql.Statement.replay ((t.acts k operation (r.answer operation outcome)).map Act.statement) content =
      match outcome with
      | .ok _ => statement.change content
      | .error _ => content := by
  cases outcome with
  | error e => rfl
  | ok result =>
    cases hreply : r.reply result operation with
    | ok reply =>
      simp only [Repository.answer, hreply, acts, hr, hstatement]
      rfl
    | error e =>
      simp only [Repository.answer, hreply, acts]
      exact (Sql.Statement.change_of_not_isChange (reply_error hstatement hreply)).symm

theorem accepted_acts {outcome : Except Error Sql.Result} {content : Content}
    (hr : t.repositories[k]? = some r) (hstatement : r.statement operation = .ok statement)
    (happly : ∀ result, outcome = .ok result → ∃ after, statement.apply content = .ok (result, after)) :
    Sql.Statement.Accepted ((t.acts k operation (r.answer operation outcome)).map Act.statement) content := by
  cases hanswer : r.answer operation outcome with
  | error e =>
    rw [acts_error]
    trivial
  | ok reply =>
    simp only [acts, hr, hstatement]
    cases outcome with
    | error e => cases hanswer
    | ok result =>
      obtain ⟨after, hafter⟩ := happly result rfl
      have hchange := Sql.Statement.change_of_apply hafter
      exact ⟨⟨result, by rw [hchange]; exact hafter⟩, trivial⟩

section

variable (hstore : store.Reliable a) (h : t.Standing a c before done w) (hactive : t.session.phase = .active)

include hstore h hactive

theorem Standing.settled (hr : t.repositories[k]? = some r) (hstatement : r.statement operation = .ok statement) :
    (t.settled k operation statement (store.call c (.execute statement) w).1).Standing a c before
      (done ++ t.acts k operation (r.answer operation (store.call c (.execute statement) w).1))
      (store.call c (.execute statement) w).2 := by
  have hphase : (t.settled k operation statement (store.call c (.execute statement) w).1).session.phase =
      .active := hactive
  obtain ⟨hcommitted, hseen⟩ := h.active hactive
  refine ⟨h.calm.settled k operation statement _, ?_, fun _ => ⟨?_, ?_⟩, ?_, ?_, ?_⟩
  · rw [List.map_append]
    refine Sql.Statement.accepted_append h.accepted (accepted_acts hr hstatement fun result houtcome => ?_)
    rw [← hseen]
    exact ⟨_, hstore.executed c statement w result houtcome⟩
  · exact (hstore.unpublished c (.execute statement) w nofun).trans hcommitted
  · rw [List.map_append, Sql.Statement.replay_append, replay_acts hr hstatement, ← hseen]
    cases houtcome : (store.call c (.execute statement) w).1 with
    | ok result => exact (Sql.Statement.change_of_apply (hstore.executed c statement w result houtcome)).symm
    | error e => exact hstore.refused c statement w e houtcome
  · simp [hphase]
  · simp [hphase]
  · simp [hphase, Phase.isTerminal]

theorem Standing.ending {exit : Exit} {answer : Except Error (Answer Sql.Result)} {u : Transaction} {w' : ω}
    (hcalm : u.Calm)
    (hfinished : t.Finished exit.request ((store.surroundings c).finale w exit.request) answer u w') :
    u.Standing a c before done w' ∧ a.Beside c w w' := by
  obtain ⟨hcommitted, hseen⟩ := h.active hactive
  have hphase : u.session.phase = ((store.surroundings c).finale w exit.request).ending.phase :=
    congrArg Session.phase hfinished.session
  have hsettles := hstore.finale c w exit.request
  rw [← hphase, ← hfinished.world] at hsettles
  generalize hp : u.session.phase = p at hsettles
  cases hsettles with
  | committed _ hpublished hclear hbeside =>
    refine ⟨⟨hcalm, h.accepted, ?_, ?_, ?_, ?_⟩, hbeside⟩
    · simp [hp]
    · exact fun _ => hpublished.trans hseen
    · simp [hp]
    · exact fun _ => hclear
  | rolledBack _ hback =>
    refine ⟨⟨hcalm, h.accepted, ?_, ?_, ?_, ?_⟩, hback.beside⟩
    · simp [hp]
    · simp [hp]
    · exact fun _ => hback.committed.trans hcommitted
    · exact fun _ => hback.clear

end

theorem Standing.act (hstore : store.Reliable a) (h : t.Standing a c before done w) (deed : Deed) :
    let after := t.act store c w deed
    after.2.1.Standing a c before (done ++ after.1) after.2.2 ∧ a.Beside c w after.2.2 := by
  intro after
  have hacted : Acted store c t w deed after := acted hstore.ordinary h.calm deed
  generalize after = after' at hacted
  cases hacted with
  | nothing u hunmoved =>
    have hphase : u.session.phase = t.session.phase := hunmoved.phase
    rw [List.append_nil]
    exact ⟨⟨hunmoved.calm, h.accepted, hphase ▸ h.active, hphase ▸ h.committed, hphase ▸ h.rolledBack,
      hphase ▸ h.ended⟩, .refl a c w⟩
  | enrolled k r hactive hr =>
    rw [List.append_nil]
    exact ⟨⟨⟨h.calm.free, h.calm.placed⟩, h.accepted, h.active, h.committed, h.rolledBack, h.ended⟩, .refl a c w⟩
  | executed k operation r statement hactive hr hstatement =>
    exact ⟨h.settled hstore hactive hr hstatement, hstore.beside c _ w⟩
  | ended exit answer u w' hactive hcalm hfinished =>
    rw [List.append_nil]
    exact h.ending hstore hactive hcalm hfinished

theorem Standing.finish (hstore : store.Reliable a) (h : t.Standing a c before done w) (exit : Exit) :
    let after := t.act store c w (.finish exit)
    after.2.1.Standing a c before (done ++ after.1) after.2.2 ∧ a.Beside c w after.2.2 ∧
      after.2.1.session.phase.isTerminal = true :=
  ⟨(h.act hstore (.finish exit)).1, (h.act hstore (.finish exit)).2,
    terminal_finish hstore.ordinary h.calm exit⟩

theorem Standing.actAll (hstore : store.Reliable a) (deeds : List Deed) :
    ∀ {done : List Act} {t : Transaction} {w : ω}, t.Standing a c before done w →
      let after := t.actAll store c w deeds
      after.2.1.Standing a c before (done ++ after.1) after.2.2 ∧ a.Beside c w after.2.2 := by
  induction deeds with
  | nil =>
    intro done t w h
    exact ⟨by rwa [Transaction.actAll, List.append_nil], .refl a c w⟩
  | cons deed rest ih =>
    intro done t w h
    obtain ⟨hfirst, hbeside⟩ := h.act hstore deed
    obtain ⟨hrest, hbeside'⟩ := ih hfirst
    rw [List.append_assoc] at hrest
    exact ⟨hrest, hbeside.trans hbeside'⟩

/-- A transaction begins with what is committed, on a connection with nothing on it. -/
theorem standing_start (hstore : store.Reliable a) (id : String) (repositories : List Repository)
    (hnone : a.pending w c = none) :
    (start id repositories).Standing a c (a.committed w) [] (store.call c .begin w).2 := by
  have hcommitted := hstore.unpublished c .begin w nofun
  have hnone' := hstore.hands c .begin w (.inl rfl) hnone
  refine ⟨calm_start id repositories, trivial, fun _ => ⟨hcommitted, ?_⟩, nofun, nofun, fun _ _ => hnone'⟩
  rw [Account.seen, hnone', Option.getD_none, hcommitted]
  rfl

end Transaction
end Transact
