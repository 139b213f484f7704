import Transact.Proofs.Database.Rows
import Transact.Proofs.Repository.Deeds
import Transact.Repository.Sample

/-! What a repository publishes, and what of it is there: it publishes all that it has added, and each
of these is found by its key unless it has been deleted since. -/
namespace Transact

variable {ω : Type}

namespace Sql.Statement

open Database

variable {s : Statement} {t : Table} {key : Column} {e : Entity} {v : Value} {content after : Content}
  {result : Result}

/-- A deletion whose condition holds of a row. -/
def removes (t : Table) (row : Entity) : Statement → Bool
  | .delete t' c => t'.name == t.name && holds t' c row
  | _ => false

/-- The row that an insertion adds to a table. -/
def inserts (t : Table) : Statement → List Entity
  | .insert t' values => if t'.name = t.name then [keptRow t' values] else []
  | _ => []

/-- What is inserted in a table by that name is inserted in that table. -/
def Agrees (t : Table) (s : Statement) : Prop :=
  ∀ t' values, s = .insert t' values → t'.name = t.name → t' = t

/-- The rows of a table after a statement: those that it does not remove, and the one that it inserts. -/
theorem rows_change (s : Statement) (t : Table) (content : Content) :
    s.change content t.name = ((content t.name).filter fun row => !s.removes t row) ++ s.inserts t := by
  have hself (name : String) (rows : List Entity) : set content name rows name = rows := if_pos rfl
  have hother {name : String} (hname : name ≠ t.name) (rows : List Entity) :
      set content name rows t.name = content t.name := if_neg (Ne.symm hname)
  cases s with
  | insert t' values =>
    by_cases hname : t'.name = t.name
    · rw [change, hname, hself]
      simp [removes, inserts, hname]
    · rw [change, hother hname]
      simp [removes, inserts, hname]
  | delete t' c =>
    by_cases hname : t'.name = t.name
    · simp only [change, Database.delete, hname, hself]
      simp [removes, inserts, hname]
    · have hname' : (t'.name == t.name) = false := by simpa using hname
      simp only [change, Database.delete, hother hname]
      simp [removes, inserts, hname']
  | select | count | verbatim => simp [change, removes, inserts]

theorem filtered_change (asked : Condition) : filtered t (some asked) (s.change content t.name) =
    ((filtered t (some asked) (content t.name)).filter fun row => !s.removes t row) ++
      filtered t (some asked) (s.inserts t) := by
  rw [rows_change, filtered, List.filter_append, List.filter_comm]
  rfl

theorem insert_of_apply {values : Entity} (h : (insert t values).apply content = .ok (result, after)) :
    Database.insert t values content = .ok after := by
  cases hinsert : Database.insert t values content with
  | error e =>
    simp only [apply, hinsert, Except.map] at h
    cases h
  | ok content' =>
    simp only [apply, hinsert, Except.map] at h
    cases h
    rfl

/-- A row that is accepted has a key of its own. -/
theorem key_fresh (hkey : t.keyColumn? = some key) (hagrees : s.Agrees t)
    (h : s.apply content = .ok (result, after)) : ∀ row ∈ s.inserts t, ∀ other ∈ content t.name,
      cell other key.name ≠ cell row key.name := by
  intro row hrow other hother hcell
  cases s with
  | insert t' values =>
    by_cases hname : t'.name = t.name
    · obtain rfl := hagrees t' values rfl hname
      obtain rfl : row = keptRow t' values := by simpa [inserts] using hrow
      have hunique := (insert_ok (insert_of_apply h)).2.1
      exact checkUnique_ok hunique key ⟨(mem_keyColumn hkey).2, other, hother, hcell⟩
    · simp [inserts, hname] at hrow
  | delete | select | count | verbatim => cases hrow

section

variable (hnames : t.columnNames.Nodup) (hkey : t.keyColumn? = some key) (he : t.IsEntity e)

include hnames hkey he

theorem holds_key (row : Entity) :
    holds t ⟨key.name, cell e key.name⟩ row = true ↔ cell row key.name = cell e key.name :=
  holds_iff hnames (mem_keyColumn hkey).1 (he.keeps key (mem_keyColumn hkey).1)

theorem filtered_eq_nil_iff {rows : List Entity} :
    filtered t (some ⟨key.name, cell e key.name⟩) rows = [] ↔
      ∀ row ∈ rows, cell row key.name ≠ cell e key.name := by
  simp only [filtered, List.filter_eq_nil_iff, holds_key hnames hkey he, ne_eq]

theorem found_inserted (h : (insert t e).apply content = .ok (result, after)) :
    filtered t (some ⟨key.name, cell e key.name⟩) ((insert t e).change content t.name) = [e] := by
  have hinserts : (insert t e).inserts t = [e] := by simp [inserts, keptRow_eq hnames he]
  have hnone : filtered t (some ⟨key.name, cell e key.name⟩) (content t.name) = [] := by
    rw [filtered_eq_nil_iff hnames hkey he]
    exact key_fresh hkey (by rintro t' values ⟨⟩ -; rfl) h e (by simp [hinserts])
  have hself : holds t ⟨key.name, cell e key.name⟩ e = true := (holds_key hnames hkey he e).mpr rfl
  rw [filtered_change, hnone, hinserts]
  simp [filtered, hself]

/-- It is found by its key as long as it is not deleted: nothing else takes the key. -/
theorem found_stays (h : s.apply content = .ok (result, after)) (hagrees : s.Agrees t)
    (hstays : s.removes t e = false)
    (hfound : filtered t (some ⟨key.name, cell e key.name⟩) (content t.name) = [e]) :
    filtered t (some ⟨key.name, cell e key.name⟩) (s.change content t.name) = [e] := by
  have hmem : e ∈ content t.name := List.mem_of_mem_filter (hfound ▸ List.mem_singleton_self e)
  have hnone : filtered t (some ⟨key.name, cell e key.name⟩) (s.inserts t) = [] := by
    rw [filtered_eq_nil_iff hnames hkey he]
    exact fun row hrow => Ne.symm (key_fresh hkey hagrees h row hrow e hmem)
  rw [filtered_change, hfound, hnone]
  simp [hstays]

theorem found_replay {statements : List Statement} (h : Accepted statements content)
    (hagrees : ∀ s ∈ statements, s.Agrees t) (hstays : ∀ s ∈ statements, s.removes t e = false)
    (hfound : filtered t (some ⟨key.name, cell e key.name⟩) (content t.name) = [e]) :
    filtered t (some ⟨key.name, cell e key.name⟩) (replay statements content t.name) = [e] := by
  induction statements generalizing content with
  | nil => exact hfound
  | cons s rest ih =>
    rw [List.forall_mem_cons] at hagrees hstays
    obtain ⟨⟨result, happly⟩, hrest⟩ := h
    exact ih hrest hagrees.2 hstays.2 (found_stays hnames hkey he happly hagrees.1 hstays.1 hfound)

/-- Nothing is found by a key that nobody takes again. -/
theorem lost_replay {statements : List Statement}
    (hfree : ∀ s ∈ statements, ∀ row ∈ s.inserts t, cell row key.name ≠ cell e key.name)
    (hnone : filtered t (some ⟨key.name, cell e key.name⟩) (content t.name) = []) :
    filtered t (some ⟨key.name, cell e key.name⟩) (replay statements content t.name) = [] := by
  induction statements generalizing content with
  | nil => exact hnone
  | cons s rest ih =>
    rw [List.forall_mem_cons] at hfree
    refine ih hfree.2 ?_
    rw [filtered_change, hnone, (filtered_eq_nil_iff hnames hkey he).mpr hfree.1]
    rfl

end

theorem removed (hremoves : s.removes t e = true) {asked : Condition}
    (hfound : filtered t (some asked) (content t.name) = [e]) :
    filtered t (some asked) (s.change content t.name) = [] := by
  have hinserts : s.inserts t = [] := by
    cases s with
    | insert => cases hremoves
    | _ => rfl
  rw [filtered_change, hfound, hinserts]
  simp [hremoves, filtered]

end Sql.Statement

namespace Repository

variable {r : Repository} {operation : Operation} {outcome : Except Error Sql.Result} {statement : Sql.Statement}

/-- What is inserted goes to the repository's own table. -/
theorem statement_agrees {t : Table} (hstatement : r.statement operation = .ok statement)
    (htable : r.table.name = t.name → r.table = t) : statement.Agrees t := by
  rintro t' values rfl hname
  cases makes hstatement with
  | add => exact htable hname

/-- What a repository that publishes has added, in order. -/
def added (k : Nat) (acts : List Act) : List Entity :=
  acts.filterMap fun act =>
    match act.operation with
    | .add e => if act.repository = k then some e else none
    | _ => none

theorem added_append (k : Nat) (xs ys : List Act) : added k (xs ++ ys) = added k xs ++ added k ys :=
  List.filterMap_append

end Repository

namespace Transaction

variable {store : Store ω} {a : Account ω} {c k : Nat} {operation : Operation} {t u : Transaction} {w w' : ω}
  {r : Repository} {entities : List Entity} {repositories : List Repository} {acts : List Act}
  {statement : Sql.Statement} {outcome : Except Error Sql.Result}

theorem acts_cases (hr : t.repositories[k]? = some r) (hstatement : r.statement operation = .ok statement)
    (answer : Except Error Repository.Reply) :
    (∃ e, answer = .error e ∧ t.acts k operation answer = []) ∨
      ∃ reply, answer = .ok reply ∧ t.acts k operation answer = [⟨k, operation, statement⟩] := by
  cases answer with
  | error e => exact .inl ⟨e, rfl, acts_error e⟩
  | ok reply => exact .inr ⟨reply, rfl, by simp only [acts, hr, hstatement]⟩

theorem added_acts (hr : t.repositories[k]? = some r) (hstatement : r.statement operation = .ok statement)
    {other : Nat} (h : other ≠ k ∨ ∀ e, operation ≠ .add e) (answer : Except Error Repository.Reply) :
    Repository.added other (t.acts k operation answer) = [] := by
  rcases acts_cases hr hstatement answer with ⟨e, -, hacts⟩ | ⟨reply, -, hacts⟩
  · rw [hacts]
    rfl
  · rw [hacts]
    cases operation with
    | add e =>
      have hne : k ≠ other := (h.resolve_right fun h => h e rfl).symm
      simp [Repository.added, hne]
    | _ => rfl

/-- A repository stages what it has added. -/
theorem staging_settle (hr : t.repositories[k]? = some r) (hstatement : r.statement operation = .ok statement)
    (hstaging : r.Staging entities) (outcome : Except Error Sql.Result) :
    (r.settle operation outcome).Staging
      (entities ++ Repository.added k (t.acts k operation (r.answer operation outcome))) := by
  cases operation with
  | add e =>
    cases outcome with
    | error error =>
      have hnone : Repository.added k ([] : List Act) = [] := rfl
      rw [Repository.answer, acts_error, hnone, List.append_nil]
      exact hstaging
    | ok result =>
      have hadded : Repository.added k (t.acts k (.add e) (r.answer (.add e) (.ok result))) = [e] := by
        simp [Repository.answer, Repository.reply, acts, hr, hstatement, Repository.added]
      rw [hadded]
      exact hstaging.append [e]
  | _ =>
    rw [added_acts hr hstatement (.inr fun e h => by cases h), List.append_nil]
    cases outcome <;> exact hstaging

theorem map_told_blank (calls : List (Hook × Observer)) (repositories : List Repository) :
    (calls.foldl tell repositories).map Repository.blank = repositories.map Repository.blank := by
  induction calls generalizing repositories with
  | nil => rfl
  | cons call rest ih =>
    rw [List.foldl_cons, ih, tell]
    exact map_modify_blank (fun r => r.blank_notify call.1) repositories call.2.key

/-- Who is registered hears of the commit, and publishes. -/
theorem told_published {observers : List Observer} (hr : repositories[k]? = some r)
    (h : r.Published entities ∨ r.Staging entities ∧ ∃ o ∈ observers, o.key = k) :
    ∃ r', ((observers.map (Hook.onCommit, ·)).foldl tell repositories)[k]? = some r' ∧
      r'.Published entities := by
  induction observers generalizing repositories r with
  | nil =>
    rcases h with h | ⟨-, o, ho, -⟩
    · exact ⟨r, hr, h⟩
    · cases ho
  | cons o rest ih =>
    by_cases hkey : o.key = k
    · have hnotified : (tell repositories (.onCommit, o))[k]? = some (r.notify .onCommit) := by
        simp [tell, hkey, hr]
      apply ih hnotified
      rcases h with h | ⟨h, -⟩
      · exact .inl h.commit
      · exact .inl h.commit
    · have hstays : (tell repositories (.onCommit, o))[k]? = some r := by
        simp [tell, hkey, hr]
      apply ih hstays
      rcases h with h | ⟨h, other, hother, hother'⟩
      · exact .inl h
      · refine .inr ⟨h, other, ?_, hother'⟩
        rcases List.mem_cons.mp hother with rfl | hother
        · exact absurd hother' hkey
        · exact hother

/-- The repositories of a transaction that began with `repositories` and has succeeded in `acts`. -/
structure Filed (repositories : List Repository) (acts : List Act) (t : Transaction) : Prop where
  blank : t.repositories.map Repository.blank = repositories.map Repository.blank
  made : ∀ act ∈ acts, ∃ r, repositories[act.repository]? = some r ∧
    r.statement act.operation = .ok act.statement
  staging : t.session.phase = .active → ∀ (k : Nat) (r : Repository), t.repositories[k]? = some r →
    r.Staging (Repository.added k acts)
  published : t.session.phase = .committed → ∀ (o : Observer) (r : Repository), o ∈ t.session.registry.observers →
    t.repositories[o.key]? = some r → r.Published (Repository.added o.key acts)

theorem filed_start (id : String) (hfresh : ∀ r ∈ repositories, r.Staging []) :
    (start id repositories).Filed repositories [] where
  blank := rfl
  made := nofun
  staging _ _ r hr := hfresh r (List.mem_of_getElem? hr)
  published := nofun

/-- Lists of repositories that differ in what was written through them only have them at the same places. -/
theorem getElem?_blank {xs ys : List Repository} (h : xs.map Repository.blank = ys.map Repository.blank)
    (hr : xs[k]? = some r) : ∃ r', ys[k]? = some r' ∧ r'.blank = r.blank := by
  have hblank := congrArg (·[k]?) h
  simp only [List.getElem?_map, hr, Option.map_some] at hblank
  exact Option.map_eq_some_iff.mp hblank.symm

section

variable (hactive : t.session.phase = .active) (h : t.Filed repositories acts)

include hactive h

theorem Filed.settled (hr : t.repositories[k]? = some r) (hstatement : r.statement operation = .ok statement)
    (outcome : Except Error Sql.Result) :
    (t.settled k operation statement outcome).Filed repositories
      (acts ++ t.acts k operation (r.answer operation outcome)) where
  blank := (map_modify_blank (fun r => r.blank_settle operation outcome) t.repositories k).trans h.blank
  made act hact := by
    rcases List.mem_append.mp hact with hact | hact
    · exact h.made act hact
    · obtain ⟨r', hr', hblank⟩ := getElem?_blank h.blank hr
      rcases acts_cases hr hstatement (r.answer operation outcome) with ⟨e, -, hacts⟩ | ⟨reply, -, hacts⟩
      · rw [hacts] at hact
        cases hact
      · rw [hacts, List.mem_singleton] at hact
        subst hact
        refine ⟨r', hr', ?_⟩
        rw [← Repository.statement_blank, hblank, Repository.statement_blank]
        exact hstatement
  staging _ k' r' hr' := by
    rw [Repository.added_append]
    have hmodified : (t.repositories.modify k (·.settle operation outcome))[k']? = some r' := hr'
    rw [List.getElem?_modify] at hmodified
    by_cases hk : k = k'
    · subst hk
      simp only [hr, if_true] at hmodified
      have hsettled : r.settle operation outcome = r' := Option.some.inj hmodified
      rw [← hsettled]
      exact staging_settle hr hstatement (h.staging hactive k r hr) outcome
    · have hstays : t.repositories[k']? = some r' := by simpa [hk] using hmodified
      rw [added_acts hr hstatement (.inl (Ne.symm hk)), List.append_nil]
      exact h.staging hactive k' r' hstays
  published hcommitted := nomatch hactive.symm.trans hcommitted

/-- The hooks of a commit make those publish that were registered. -/
theorem Filed.informed {o : Observer} (hobserver : o ∈ t.session.registry.observers)
    (hr : (t.informed .committed)[o.key]? = some r) : r.Published (Repository.added o.key acts) := by
  have hblank := map_told_blank (t.session.registry.observers.map (Hook.onCommit, ·)) t.repositories
  obtain ⟨before, hbefore, -⟩ := getElem?_blank hblank hr
  obtain ⟨r', hr', hpublished⟩ := told_published hbefore
    (.inr ⟨h.staging hactive o.key before hbefore, o, hobserver, rfl⟩)
  obtain rfl : r = r' := Option.some.inj (hr.symm.trans hr')
  exact hpublished

theorem Filed.finished {request : Request Sql.Statement} {f : Finale Sql.Statement ω}
    {answer : Except Error (Answer Sql.Result)} (hfinished : t.Finished request f answer u w') :
    u.Filed repositories acts := by
  have hphase : u.session.phase = f.ending.phase := congrArg Session.phase hfinished.session
  have hregistry : u.session.registry = t.session.registry := by
    rw [hfinished.session]
    rfl
  have hrepositories := hfinished.repositories
  constructor
  case blank =>
    rw [hrepositories]
    exact (map_told_blank _ t.repositories).trans h.blank
  case made => exact h.made
  case staging =>
    intro hstill
    have hterminal := isTerminal_phase f.ending
    rw [← hphase, hstill] at hterminal
    cases hterminal
  case published =>
    intro hcommitted o r hobserver hr
    rw [hregistry] at hobserver
    cases hending : f.ending with
    | committed =>
      rw [hrepositories, hending] at hr
      exact h.informed hactive hobserver hr
    | rolledBack commit rollback =>
      rw [hphase, hending] at hcommitted
      cases hcommitted

end

theorem Filed.act (hordinary : store.IsOrdinary) (hcalm : t.Calm) (h : t.Filed repositories acts) (deed : Deed) :
    let after := t.act store c w deed
    after.2.1.Filed repositories (acts ++ after.1) := by
  intro after
  have hacted : Acted store c t w deed after := acted hordinary hcalm deed
  generalize after = after' at hacted
  cases hacted with
  | nothing u hunmoved =>
    obtain ⟨-, hphase, hregistry, hrepositories⟩ := hunmoved
    rw [List.append_nil]
    constructor
    · exact (congrArg _ hrepositories).trans h.blank
    · exact h.made
    · simpa only [hphase, hrepositories] using h.staging
    · simpa only [hphase, hrepositories, hregistry] using h.published
  | enrolled k r hactive hr =>
    rw [List.append_nil]
    exact ⟨h.blank, h.made, h.staging, fun hcommitted => nomatch hactive.symm.trans hcommitted⟩
  | executed k operation r statement hactive hr hstatement => exact h.settled hactive hr hstatement _
  | ended exit answer u w' hactive hcalm' hfinished =>
    rw [List.append_nil]
    exact h.finished hactive hfinished

theorem Filed.actAll (hordinary : store.IsOrdinary) (deeds : List Deed) :
    ∀ {acts : List Act} {t : Transaction} {w : ω}, t.Calm → t.Filed repositories acts →
      let after := t.actAll store c w deeds
      after.2.1.Filed repositories (acts ++ after.1) := by
  induction deeds with
  | nil =>
    intro acts t w hcalm h
    change t.Filed repositories (acts ++ [])
    rwa [List.append_nil]
  | cons deed rest ih =>
    intro acts t w hcalm h
    have hacted : Acted store c t w deed (t.act store c w deed) := acted hordinary hcalm deed
    have hfirst : (t.act store c w deed).2.1.Filed repositories (acts ++ (t.act store c w deed).1) :=
      h.act hordinary hcalm deed
    have hrest := ih (w := (t.act store c w deed).2.2) (hacted.calm hcalm) hfirst
    simp only [List.append_assoc] at hrest
    exact hrest

/-- What a repository of a new session finds by a key. -/
def got (store : Store ω) (id : String) (c : Nat) (repositories : List Repository) (k : Nat) (v : Value) (w : ω) :
    Except Error Repository.Reply :=
  ((start id repositories).perform store c k (.get v) (store.call c .begin w).2).1

theorem got_eq (hstore : store.Reliable a) (id : String) (hnone : a.pending w c = none)
    (hr : repositories[k]? = some r) (hplain : r.IsPlain) {key : Column} (hkey : r.table.keyColumn? = some key)
    {v : Value} (hv : key.kind.Keeps v) :
    got store id c repositories k v w =
      r.reply ⟨(Database.filtered r.table (some ⟨key.name, v⟩) (a.committed w r.table.name)).map .ofEntity, .int 0⟩
        (.get v) := by
  have hbegun := standing_start hstore id repositories hnone
  have hseen : a.seen (store.call c .begin w).2 c = a.committed w := (hbegun.active rfl).2
  have hstatement := (Repository.Makes.get v (Repository.key_eq hkey)).statement_eq
  have hbound := Database.find_isBound hplain.names (Database.suits_some (Database.mem_keyColumn hkey).1 hv) none
  obtain ⟨result, hresult⟩ := hstore.answers c _ (store.call c .begin w).2 rfl hbound
  have happly := hstore.executed c _ _ result hresult
  rw [hseen, Sql.Statement.apply, Except.ok.injEq, Prod.mk.injEq] at happly
  rw [got, perform_active store c _ (calm_start id repositories) rfl hr hstatement, hresult, ← happly.1]
  rfl

/-- Repositories whose entities come back as they were given, on one table of each name. -/
structure Plain (repositories : List Repository) : Prop where
  plain : ∀ r ∈ repositories, r.IsPlain
  tables : ∀ r ∈ repositories, ∀ r' ∈ repositories, r.table.name = r'.table.name → r.table = r'.table

/-- How a committed transaction stands to what is there. -/
structure Durable (store : Store ω) (a : Account ω) (repositories : List Repository) (acts : List Act)
    (t : Transaction) (w : ω) : Prop where
  /-- Who is registered publishes all that it has added. -/
  published : ∀ (o : Observer) (r : Repository), o ∈ t.session.registry.observers →
    t.repositories[o.key]? = some r → r.Published (Repository.added o.key acts)
  /-- An entity is there that is not deleted afterwards. -/
  kept : ∀ (before after : List Act) (k : Nat) (statement : Sql.Statement) (r : Repository) (key : Column)
    (e : Entity), acts = before ++ ⟨k, .add e, statement⟩ :: after → repositories[k]? = some r →
      r.table.keyColumn? = some key → r.table.IsEntity e →
      (∀ act ∈ after, act.statement.removes r.table e = false) →
      ∀ (id : String) (c : Nat), a.isAvailable w c →
        got store id c repositories k (Database.cell e key.name) w = .ok (.entity (some e))
  /-- Nothing is there by the key of one that is, where the key is not taken again. -/
  lost : ∀ (before between after : List Act) (k : Nat) (statement : Sql.Statement) (deletion : Act)
    (r : Repository) (key : Column) (e : Entity),
      acts = before ++ ⟨k, .add e, statement⟩ :: (between ++ deletion :: after) → repositories[k]? = some r →
      r.table.keyColumn? = some key → r.table.IsEntity e →
      (∀ act ∈ between, act.statement.removes r.table e = false) →
      deletion.statement.removes r.table e = true →
      (∀ act ∈ after, ∀ row ∈ act.statement.inserts r.table,
        Database.cell row key.name ≠ Database.cell e key.name) →
      ∀ (id : String) (c : Nat), a.isAvailable w c →
        got store id c repositories k (Database.cell e key.name) w = .ok (.entity none)

theorem Filed.agrees (h : t.Filed repositories acts) (hplain : Plain repositories) (hr : r ∈ repositories) :
    ∀ s ∈ acts.map Act.statement, s.Agrees r.table := by
  intro s hs
  obtain ⟨act, hact, rfl⟩ := List.mem_map.mp hs
  obtain ⟨r', hr', hstatement⟩ := h.made act hact
  exact Repository.statement_agrees hstatement (hplain.tables r' (List.mem_of_getElem? hr') r hr)

/-- An entity that was added is found by its key then, and as long as it is not deleted. -/
theorem found_after {before after : List Act} {content : Content} {key : Column} {e : Entity}
    (h : t.Filed repositories acts) (hplain : Plain repositories)
    (haccepted : Sql.Statement.Accepted (acts.map Act.statement) content)
    (hacts : acts = before ++ ⟨k, .add e, statement⟩ :: after) (hr : repositories[k]? = some r)
    (hkey : r.table.keyColumn? = some key) (he : r.table.IsEntity e) :
    ∀ more rest, after = more ++ rest → (∀ act ∈ more, act.statement.removes r.table e = false) →
      Database.filtered r.table (some ⟨key.name, Database.cell e key.name⟩)
        (Sql.Statement.replay ((before ++ ⟨k, .add e, statement⟩ :: more).map Act.statement) content
          r.table.name) = [e] := by
  intro more rest hafter hstays
  have hrplain := hplain.plain r (List.mem_of_getElem? hr)
  have hinsert : statement = .insert r.table e := by
    obtain ⟨r', hr', hstatement⟩ := h.made ⟨k, .add e, statement⟩ (by simp [hacts])
    rw [hr] at hr'
    cases hr'
    exact hrplain.statement_add he hstatement
  have hagrees := h.agrees hplain (List.mem_of_getElem? hr)
  subst hinsert hafter
  simp only [hacts, List.map_append, List.map_cons] at haccepted hagrees ⊢
  obtain ⟨-, ⟨result, happly⟩, hrest⟩ := Sql.Statement.accepted_split haccepted
  rw [Sql.Statement.replay_append]
  change Database.filtered r.table _ (Sql.Statement.replay (more.map Act.statement)
    ((Sql.Statement.insert r.table e).change _) r.table.name) = [e]
  have hfound := Sql.Statement.found_inserted hrplain.names hkey he happly
  refine Sql.Statement.found_replay hrplain.names hkey he (Sql.Statement.accepted_split hrest).1 ?_ ?_ hfound
  · intro s hs
    exact hagrees s (by simp only [List.mem_append, List.mem_cons, hs, true_or, or_true])
  · intro s hs
    obtain ⟨act, hact, rfl⟩ := List.mem_map.mp hs
    exact hstays act hact

theorem durable (hstore : store.Reliable a) (hclear : a.IsClear w) (havailable : a.isAvailable w c)
    (id : String) (hplain : Plain repositories) (hfresh : ∀ r ∈ repositories, r.Staging [])
    (deeds : List Deed) :
    let after := (start id repositories).actAll store c (store.call c .begin w).2 deeds
    after.2.1.session.phase = .committed → Durable store a repositories after.1 after.2.1 after.2.2 := by
  intro after hcommitted
  have hbegun := standing_start hstore id repositories (hclear c havailable)
  obtain ⟨hstanding, hbeside⟩ := hbegun.actAll hstore deeds
  have hfiled : after.2.1.Filed repositories after.1 :=
    (filed_start id hfresh).actAll hstore.ordinary deeds (calm_start id repositories)
  have hcontent : a.committed after.2.2 = Sql.Statement.replay (after.1.map Act.statement) (a.committed w) :=
    hstanding.committed hcommitted
  have hclear' : a.IsClear after.2.2 := by
    intro other hother
    by_cases hc : other = c
    · subst hc
      exact hstanding.ended (by rw [hcommitted]; rfl) hother
    · have hstays := ((hstore.beside c .begin w).trans hbeside) other hc
      rw [hstays.1]
      exact hclear other (hstays.2 hother)
  have haccepted : Sql.Statement.Accepted (after.1.map Act.statement) (a.committed w) := hstanding.accepted
  constructor
  case published => exact hfiled.published hcommitted
  case kept =>
    intro pre post k statement r key e hacts hr hkey he hstays id' c' havailable'
    have hrplain := hplain.plain r (List.mem_of_getElem? hr)
    have hfound := found_after hfiled hplain haccepted hacts hr hkey he post [] (by simp) hstays
    rw [← hacts, ← hcontent] at hfound
    rw [got_eq hstore id' (hclear' c' havailable') hr hrplain hkey
      (he.keeps key (Database.mem_keyColumn hkey).1), hfound]
    exact hrplain.reply_get (.int 0) _ (List.forall_mem_singleton.mpr he)
  case lost =>
    intro pre mid post k statement deletion r key e hacts hr hkey he hstays hremoves hfree id' c' havailable'
    have hrplain := hplain.plain r (List.mem_of_getElem? hr)
    have hfound := found_after hfiled hplain haccepted hacts hr hkey he mid (deletion :: post) rfl hstays
    have hfree' : ∀ s ∈ post.map Act.statement, ∀ row ∈ s.inserts r.table,
        Database.cell row key.name ≠ Database.cell e key.name := by simpa using hfree
    have hnone := Sql.Statement.lost_replay hrplain.names hkey he hfree' (Sql.Statement.removed hremoves hfound)
    have hall : after.1.map Act.statement = (pre ++ ⟨k, .add e, statement⟩ :: mid).map Act.statement ++
        deletion.statement :: post.map Act.statement := by simp [hacts]
    rw [hall, Sql.Statement.replay_append] at hcontent
    rw [got_eq hstore id' (hclear' c' havailable') hr hrplain hkey
      (he.keeps key (Database.mem_keyColumn hkey).1), hcontent]
    exact congrArg (fun rows : List Entity =>
      r.reply { rows := rows.map .ofEntity } (.get (Database.cell e key.name))) hnone

def ada : Entity :=
  [("id", .uuid ⟨1⟩), ("username", .text "ada"), ("email", .text "ada@x.org")]

def grace : Entity :=
  [("id", .uuid ⟨2⟩), ("username", .text "grace"), ("email", .text "grace@x.org")]

/-- Two users are added, and one of them is deleted again. -/
def withdrawal : List Deed :=
  [.register 0, .operate 0 (.add ada), .operate 0 (.add grace), .operate 0 (.delete (.uuid ⟨1⟩)),
    .finish .commit]

theorem plain_users : Plain [Repository.users] where
  plain r hr := by
    rw [List.mem_singleton.mp hr]
    exact ⟨rfl, by decide⟩
  tables r hr r' hr' _ := by rw [List.mem_singleton.mp hr, List.mem_singleton.mp hr']

def empty : Database := { schema := [Schema.users] }

/-- What comes of it. -/
def withdrawn : List Act × Transaction × Database :=
  (start "s" [Repository.users]).actAll Simulation.Shared.store 0
    (Simulation.Shared.store.call 0 .begin empty).2 withdrawal

theorem durable_withdrawal :
    Simulation.Shared.store.Reliable Database.account ∧ Database.account.IsClear empty ∧
      Database.account.isAvailable empty 0 ∧ Plain [Repository.users] ∧
      (∀ r ∈ [Repository.users], r.Staging []) ∧ withdrawn.2.1.session.phase = .committed ∧
      Durable Simulation.Shared.store Database.account [Repository.users] withdrawn.1 withdrawn.2.1
        withdrawn.2.2 := by
  have hclear : Database.account.IsClear empty := fun c _ => rfl
  have hfresh : ∀ r ∈ [Repository.users], r.Staging [] := by
    simp only [List.forall_mem_singleton]
    exact ⟨rfl, rfl, rfl, rfl⟩
  have hcommitted : withdrawn.2.1.session.phase = .committed := by decide +kernel
  exact ⟨Database.reliable, hclear, trivial, plain_users, hfresh, hcommitted,
    durable Database.reliable hclear trivial "s" plain_users hfresh withdrawal hcommitted⟩

/-- What a repository publishes need not be there: it has published a user that it had deleted. -/
theorem published_withdrawal :
    withdrawn.2.1.session.phase = .committed ∧
      withdrawn.2.1.repositories.map (·.committedEntities) = [[ada, grace]] ∧
      got Simulation.Shared.store "t" 0 [Repository.users] 0 (.uuid ⟨1⟩) withdrawn.2.2 =
        .ok (.entity none) := by
  have hnone : Database.account.pending withdrawn.2.2 0 = none :=
    Option.isNone_iff_eq_none.mp (by decide +kernel)
  have hrows : Database.filtered Schema.users (some ⟨"id", .uuid ⟨1⟩⟩)
      (Database.account.committed withdrawn.2.2 "users") = [] := eq_of_beq (by decide +kernel)
  have hplain : Repository.users.IsPlain := plain_users.plain _ (List.mem_singleton_self _)
  have hr : [Repository.users][0]? = some Repository.users := rfl
  have hgot := got_eq (v := .uuid ⟨1⟩) Database.reliable "t" hnone hr hplain rfl trivial
  refine ⟨by decide +kernel, eq_of_beq (by decide +kernel), hgot.trans ?_⟩
  exact congrArg (fun rows : List Entity =>
    Repository.users.reply ⟨rows.map .ofEntity, .int 0⟩ (.get (.uuid ⟨1⟩))) hrows

end Transaction
end Transact
