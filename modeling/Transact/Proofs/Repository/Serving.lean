import Transact.Proofs.Database.Directory
import Transact.Repository.Basic

/-! What is asked of a table of entities, answered as a directory answers it: each operation comes down to
one statement, and its outcome on the rows is told as the directory would tell it. -/
namespace Transact

open Database

/-- A bound of a page, where there is one. -/
def bounded : Option Nat → Value
  | some n => .int n
  | none => .null

/-- What may be asked of a table: entities and identifiers as its columns keep them, and pages within 64
bits. -/
inductive Operation.Suits (t : Table) : Operation → Prop
  | add (e : Entity) : t.IsEntity e → Suits t (.add e)
  | get (u : Uuid) : Suits t (.get (.uuid u))
  | exists (u : Uuid) : Suits t (.exists (.uuid u))
  | list (limit offset : Option Nat) : (∀ n, limit = some n → fits n = true) →
      (∀ n, offset = some n → fits n = true) → Suits t (.list (bounded limit) (bounded offset))
  | count : Suits t .count
  | delete (u : Uuid) : Suits t (.delete (.uuid u))
  | find (c : Column) (v : Value) : c ∈ uniqueColumns t → c.kind.Keeps v → Suits t (.find c.name v)
  | findAll (c : Column) (v : Value) (o : Column) : c ∈ t.columns → c.kind.Keeps v → o ∈ t.columns →
      o.kind = .text → Suits t (.findAll c.name v o.name)

/-- What a directory answers, and what becomes of it. An entity is refused whose identifier is known, or
that has something in a unique column that another one has. -/
inductive Directory.Answers (t : Table) (m : Directory) :
    Operation → Except Error Repository.Reply → Directory → Prop
  | added {e : Entity} {u : Uuid} : cell e "id" = .uuid u → m u = none →
      (∀ c ∈ t.columns, c.unique = true → ¬ m.Has c.name (cell e c.name)) →
      Answers t m (.add e) (.ok .added) (m.put u e)
  | known {e : Entity} {u : Uuid} {key : Column} : cell e "id" = .uuid u → (m u).isSome = true →
      t.keyColumn? = some key → Answers t m (.add e) (.error (.queryFailed t.name (taken t key))) m
  | alike {e : Entity} {c : Column} : c ∈ t.columns → c.unique = true → m.Has c.name (cell e c.name) →
      Answers t m (.add e) (.error (.queryFailed t.name (taken t c))) m
  | got (u : Uuid) : Answers t m (.get (.uuid u)) (.ok (.entity (m u))) m
  | told (u : Uuid) : Answers t m (.exists (.uuid u)) (.ok (.truth (m u).isSome)) m
  | listed (limit offset : Option Nat) {entities : List Entity} : m.Lists entities →
      Answers t m (.list (bounded limit) (bounded offset)) (.ok (.entities (page limit offset entities))) m
  | counted {entities : List Entity} : m.Lists entities → Answers t m .count (.ok (.size entities.length)) m
  | deleted (u : Uuid) : Answers t m (.delete (.uuid u)) (.ok (.truth (m u).isSome)) (m.drop u)
  | found {column : String} {v : Value} {found : Option Entity} :
      (∀ e, found = some e ↔ ∃ u, m u = some e ∧ cell e column = v) →
      Answers t m (.find column v) (.ok (.entity found)) m
  | collected {column order : String} {v : Value} {entities : List Entity} : entities.Nodup →
      (∀ e, e ∈ entities ↔ ∃ u, m u = some e ∧ cell e column = v) →
      (entities.Pairwise fun a b => textOf order a ≤ textOf order b) →
      Answers t m (.findAll column v order) (.ok (.entities entities)) m

theorem bounded_inj {n k : Option Nat} (h : bounded n = bounded k) : n = k := by
  cases n <;> cases k <;> simp only [bounded, Value.int.injEq, Int.natCast_inj, reduceCtorEq] at h ⊢
  exact congrArg some h

theorem Directory.Answers.listed_inv {t : Table} {m m' : Directory} {operation : Operation}
    {answer : Except Error Repository.Reply} {limit offset : Option Nat} (h : m.Answers t operation answer m')
    (hoperation : operation = .list (bounded limit) (bounded offset)) :
    ∃ entities, m.Lists entities ∧ answer = .ok (.entities (page limit offset entities)) ∧ m' = m := by
  cases h with
  | listed limit' offset' hentities =>
    rw [Operation.list.injEq] at hoperation
    obtain rfl := bounded_inj hoperation.1
    obtain rfl := bounded_inj hoperation.2
    exact ⟨_, hentities, rfl, rfl⟩
  | _ => cases hoperation

/-- A repository of plain entities with identifiers. -/
structure Repository.IsIndexed (r : Repository) : Prop extends r.IsPlain where
  indexed : r.table.IsIndexed
  /-- No column has the name of the insert's receiver. -/
  free : "self" ∉ r.table.columnNames

namespace Repository

theorem IsIndexed.of_blank {r : Repository} (h : r.blank.IsIndexed) : r.IsIndexed :=
  ⟨⟨h.mapping, h.names⟩, h.indexed, h.free⟩

variable {r : Repository} {operation : Operation} {content after : Content} {statement : Sql.Statement}
  {result : Sql.Result} {answer : Except Error Reply} {rows : List Entity}

/-- What an operation answers on a content, and what it makes of it. -/
def onContent (r : Repository) (operation : Operation) (content : Content) : Except Error Reply × Content :=
  match r.statement operation with
  | .error e => (.error e, content)
  | .ok statement =>
    match statement.apply content with
    | .ok (result, after) => (r.reply result operation, after)
    | .error e => (.error (r.told e), content)

theorem holds_length (rows : List Entity) : (Value.int rows.length).holds = rows.head?.isSome := by
  cases rows with
  | nil => rfl
  | cons row rest =>
    simp only [Value.holds, List.length_cons, List.head?_cons, Option.isSome_some]
    simp
    omega

/-- The operation reaches the store, its table answers as a directory does, and no other is touched. -/
structure Serves (r : Repository) (content : Content) (operation : Operation) : Prop where
  statement : ∃ statement, r.statement operation = .ok statement ∧ statement.IsBound
  answers : (directory (content r.table.name)).Answers r.table operation (r.onContent operation content).1
    (directory ((r.onContent operation content).2 r.table.name))
  table : IsTable r.table ((r.onContent operation content).2 r.table.name)
  others : ∀ other, other ≠ r.table.name → (r.onContent operation content).2 other = content other

theorem onContent_ok (hstatement : r.statement operation = .ok statement)
    (happly : statement.apply content = .ok (result, after)) :
    r.onContent operation content = (r.reply result operation, after) := by
  simp only [onContent, hstatement, happly]

theorem onContent_error (hstatement : r.statement operation = .ok statement) {e : Error}
    (happly : statement.apply content = .error e) : r.onContent operation content = (.error (r.told e), content) := by
  simp only [onContent, hstatement, happly]

/-- What only reads answers for the directory as it is. -/
theorem serves_read (htable : IsTable r.table (content r.table.name))
    (hstatement : r.statement operation = .ok statement) (hbound : statement.IsBound)
    (happly : statement.apply content = .ok (result, content)) (hreply : r.reply result operation = answer)
    (h : (directory (content r.table.name)).Answers r.table operation answer
      (directory (content r.table.name))) : r.Serves content operation := by
  have hon := onContent_ok hstatement happly
  rw [hreply] at hon
  exact ⟨⟨statement, hstatement, hbound⟩, by rwa [hon], by rwa [hon], fun _ _ => by rw [hon]⟩

section

variable (hr : r.IsIndexed) (htable : IsTable r.table (content r.table.name))

include hr htable

omit htable in
theorem statement_add {e : Entity} (he : r.table.IsEntity e) : r.statement (.add e) = .ok (.insert r.table e) := by
  have hself : e.lookup "self" = none := by
    rw [List.lookup_eq_none_iff]
    intro field hfield
    have hname : field.1 ∈ r.table.columnNames := he.names ▸ List.mem_map_of_mem hfield
    simpa using fun h : "self" = field.1 => hr.free (h ▸ hname)
  exact (Makes.add (hr.convert he) hself).statement_eq

theorem serves_add {e : Entity} (he : r.table.IsEntity e) : r.Serves content (.add e) := by
  have hstatement := statement_add hr he
  have hinsert := insert_eq hr.names he content
  obtain ⟨u, hid⟩ := identified hr.indexed he
  obtain ⟨key, hkey, hname, -⟩ := hr.indexed.key
  cases hunique : checkUnique r.table e (content r.table.name) with
  | error error =>
    obtain ⟨c, rfl, hc, hclash⟩ := checkUnique_error hunique
    have happly : (Sql.Statement.insert r.table e).apply content = .error (taken r.table c) := by
      simp only [Sql.Statement.apply, hinsert, hunique, Except.map]
    have hon := onContent_error hstatement happly
    refine ⟨⟨_, hstatement, insert_isBound he⟩, ?_, by rwa [hon], fun _ _ => by rw [hon]⟩
    rw [hon]
    have hhas := (has_iff hr.indexed htable).mpr hclash
    -- A column that is unique of its own or the key: either way the table has said which.
    rcases (mem_uniqueColumns hkey).mp hc with ⟨hc, hunique⟩ | rfl
    · exact .alike hc hunique hhas
    · rw [hname, hid, has_id] at hhas
      exact .known hid hhas hkey
  | ok =>
    have hfree := checkUnique_ok hunique
    have hfresh {c : Column} (hc : c ∈ uniqueColumns r.table) :
        ¬ (directory (content r.table.name)).Has c.name (cell e c.name) :=
      fun hhas => hfree c ⟨hc, (has_iff hr.indexed htable).mp hhas⟩
    have hnone : directory (content r.table.name) u = none := by
      have hkeyfree := hfresh (mem_keyColumn hkey).2
      rwa [hname, hid, has_id, Option.not_isSome_iff_eq_none] at hkeyfree
    have happly : (Sql.Statement.insert r.table e).apply content =
        .ok ({ rowCount := .int 1 }, set content r.table.name (content r.table.name ++ [e])) := by
      simp only [Sql.Statement.apply, hinsert, hunique, Except.map]
    have hon := onContent_ok hstatement happly
    have hafter : (r.onContent (.add e) content).2 r.table.name = content r.table.name ++ [e] := by
      rw [hon]
      exact if_pos rfl
    refine ⟨⟨_, hstatement, insert_isBound he⟩, ?_, ?_, fun other hne => by rw [hon]; exact if_neg hne⟩
    · rw [hafter, directory_append hr.indexed hfree hid, hon]
      exact .added hid hnone fun c hc hunique => hfresh ((mem_uniqueColumns hkey).mpr (.inl ⟨hc, hunique⟩))
    · rw [hafter]
      exact htable.append he hfree

omit htable in
theorem key_id : r.key = .ok "id" := by
  obtain ⟨c, hkey, hname, -⟩ := hr.indexed.key
  rw [key_eq hkey, hname]

omit htable in
theorem suits_id (u : Uuid) : Database.Suits r.table (some ⟨"id", .uuid u⟩) := by
  obtain ⟨c, hc, -, hname, hkind⟩ := exists_id hr.indexed
  have hsuits := suits_some hc (v := .uuid u) (by rw [hkind]; trivial)
  rwa [hname] at hsuits

theorem serves_get (u : Uuid) : r.Serves content (.get (.uuid u)) := by
  have hstatement := (Makes.get (.uuid u) (key_id hr)).statement_eq
  have hreply := hr.reply_get (.int 0) (.uuid u) (htable.filter (holds r.table ⟨"id", .uuid u⟩)).entities
  rw [head_filter_id hr.indexed] at hreply
  exact serves_read htable hstatement (find_isBound hr.names (suits_id hr u) none) rfl hreply (.got u)

theorem serves_exists (u : Uuid) : r.Serves content (.exists (.uuid u)) := by
  have hstatement := (Makes.exists (.uuid u) (key_id hr)).statement_eq
  refine serves_read htable hstatement (count_isBound hr.names (suits_id hr u)) rfl rfl ?_
  -- What comes back is how many there are, and that is taken for a truth value.
  change Directory.Answers _ _ _ (.ok (.truth (Value.int (List.filter _ _).length).holds)) _
  rw [holds_length, head_filter_id hr.indexed]
  exact .told u

theorem serves_list {limit offset : Option Nat} (hlimit : ∀ n, limit = some n → fits n = true)
    (hoffset : ∀ n, offset = some n → fits n = true) : r.Serves content (.list (bounded limit) (bounded offset)) := by
  have hbounded (n : Option Nat) : bound (bounded n) = .ok (n.map Int.ofNat) := by
    cases n <;> rfl
  have hfits {n : Option Nat} (hn : ∀ m, n = some m → fits m = true) (m : Int) (hm : n.map Int.ofNat = some m) :
      fits m = true := by
    obtain ⟨k, hk, rfl⟩ := Option.map_eq_some_iff.mp hm
    exact hn k hk
  have hstatement := (Makes.list (key_id hr) (hbounded limit) (hbounded offset)).statement_eq
  have hlists := lists_ordered hr.indexed htable true
  have hselected : selected r.table ⟨none, some ⟨"id", true⟩, limit.map Int.ofNat, offset.map Int.ofNat⟩ content =
      page limit offset (ordered (some ⟨"id", true⟩) (content r.table.name)) := paged_eq limit offset _
  have hentities : ∀ row ∈ page limit offset (ordered (some ⟨"id", true⟩) (content r.table.name)),
      r.table.IsEntity row := by
    intro row hrow
    obtain ⟨u, hu⟩ := (hlists.complete row).mp (mem_of_mem_page hrow)
    exact htable.entities row (directory_some hu).1
  rw [← hselected] at hentities
  refine serves_read htable hstatement (select_isBound hr.names suits_none (hfits hlimit) (hfits hoffset)) rfl
    (hr.reply_list (.int 0) (bounded limit) (bounded offset) hentities) ?_
  rw [hselected]
  exact .listed limit offset hlists

theorem serves_count : r.Serves content .count := by
  have hlists := lists_ordered hr.indexed htable true
  have hlength : (ordered (some ⟨"id", true⟩) (content r.table.name)).length = (content r.table.name).length :=
    (List.mergeSort_perm _ _).length_eq
  have hstatement : r.statement .count = .ok (.count r.table none) := rfl
  refine serves_read htable hstatement (count_isBound hr.names suits_none) rfl rfl ?_
  change Directory.Answers _ _ _ (.ok (.size (content r.table.name).length)) _
  rw [← hlength]
  exact .counted hlists

theorem serves_delete (u : Uuid) : r.Serves content (.delete (.uuid u)) := by
  have hstatement := (Makes.delete (.uuid u) (key_id hr)).statement_eq
  have hon : r.onContent (.delete (.uuid u)) content = (_, _) := onContent_ok hstatement rfl
  have hafter : (r.onContent (.delete (.uuid u)) content).2 r.table.name =
      (content r.table.name).filter fun row => !holds r.table ⟨"id", .uuid u⟩ row := by
    rw [hon]
    exact if_pos rfl
  have hcount : (Database.delete r.table ⟨"id", .uuid u⟩ content).1 =
      ((content r.table.name).filter (holds r.table ⟨"id", .uuid u⟩)).length := by
    have hlength := List.length_eq_length_filter_add (l := content r.table.name) (holds r.table ⟨"id", .uuid u⟩)
    simp only [Database.delete]
    omega
  refine ⟨⟨_, hstatement, delete_isBound hr.names (suits_id hr u)⟩, ?_, ?_,
    fun other hne => by rw [hon]; exact if_neg hne⟩
  · rw [hafter, directory_delete hr.indexed, hon]
    change Directory.Answers _ _ _ (.ok (.truth (Value.int _).holds)) _
    rw [hcount, holds_length, head_filter_id hr.indexed]
    exact .deleted u
  · rw [hafter]
    exact htable.filter _

/-- What a condition on a column finds. -/
theorem mem_filtered {c : Column} {v : Value} (hc : c ∈ r.table.columns) (hv : c.kind.Keeps v) (e : Entity) :
    e ∈ (content r.table.name).filter (holds r.table ⟨c.name, v⟩) ↔
      ∃ u, directory (content r.table.name) u = some e ∧ cell e c.name = v := by
  rw [List.mem_filter, holds_iff hr.names hc hv, mem_iff hr.indexed htable, exists_and_right]

/-- In a unique column there is but one. -/
theorem head_unique {c : Column} {v : Value} (hc : c ∈ uniqueColumns r.table) (hv : c.kind.Keeps v) (e : Entity) :
    ((content r.table.name).filter (holds r.table ⟨c.name, v⟩)).head? = some e ↔
      e ∈ (content r.table.name).filter (holds r.table ⟨c.name, v⟩) := by
  have hrows := htable.filter (holds r.table ⟨c.name, v⟩)
  have hcell {row : Entity} (hrow : row ∈ (content r.table.name).filter (holds r.table ⟨c.name, v⟩)) :
      cell row c.name = v :=
    (holds_iff hr.names (mem_columns_of_unique hc) hv).mp (List.mem_filter.mp hrow).2
  generalize (content r.table.name).filter (holds r.table ⟨c.name, v⟩) = found at hrows hcell
  cases found with
  | nil => simp
  | cons first rest =>
    constructor
    · exact List.mem_of_mem_head?
    · intro he
      have hfirst := List.mem_cons_self (a := first) (l := rest)
      exact congrArg some (hrows.eq hc hfirst he ((hcell hfirst).trans (hcell he).symm))

theorem serves_find {c : Column} {v : Value} (hc : c ∈ uniqueColumns r.table) (hv : c.kind.Keeps v) :
    r.Serves content (.find c.name v) := by
  have hcolumn := mem_columns_of_unique hc
  have hrows := htable.filter (holds r.table ⟨c.name, v⟩)
  have hstatement : r.statement (.find c.name v) = .ok (.select r.table { condition := some ⟨c.name, v⟩ }) := rfl
  refine serves_read htable hstatement (find_isBound hr.names (suits_some hcolumn hv) none) rfl
    (hr.reply_find (.int 0) v c.name hrows.entities) (.found fun e => ?_)
  rw [← mem_filtered hr htable hcolumn hv]
  exact head_unique hr htable hc hv e

theorem serves_findAll {c o : Column} {v : Value} (hc : c ∈ r.table.columns) (hv : c.kind.Keeps v)
    (ho : o ∈ r.table.columns) (htext : o.kind = .text) : r.Serves content (.findAll c.name v o.name) := by
  have hrows := htable.filter (holds r.table ⟨c.name, v⟩)
  have hperm := List.mergeSort_perm ((content r.table.name).filter (holds r.table ⟨c.name, v⟩))
    fun a b => atMost (cell a o.name) (cell b o.name)
  have hentities (row : Entity) (hrow : row ∈ ordered (some ⟨o.name, false⟩)
      ((content r.table.name).filter (holds r.table ⟨c.name, v⟩))) : r.table.IsEntity row :=
    hrows.entities row (hperm.mem_iff.mp hrow)
  have hstatement : r.statement (.findAll c.name v o.name) =
      .ok (.select r.table { condition := some ⟨c.name, v⟩, order := some ⟨o.name, false⟩ }) := rfl
  refine serves_read htable hstatement (find_isBound hr.names (suits_some hc hv) (some ⟨o.name, false⟩)) rfl
    (hr.reply_findAll (.int 0) v c.name o.name hentities) (.collected ?_ ?_ ?_)
  · obtain ⟨id, -, hid, -, -⟩ := exists_id hr.indexed
    exact hperm.nodup_iff.mpr (hrows.unique id hid).of_map
  · exact fun e => hperm.mem_iff.trans (mem_filtered hr htable hc hv e)
  · refine ordered_text fun row hrow => ?_
    have hkeeps := (hrows.entities row hrow).keeps o ho
    rwa [htext, ColumnKind.keeps_text] at hkeeps

/-- A repository answers whatever it may be asked. -/
theorem serves (hsuits : operation.Suits r.table) : r.Serves content operation := by
  cases hsuits with
  | add e he => exact serves_add hr htable he
  | get u => exact serves_get hr htable u
  | «exists» u => exact serves_exists hr htable u
  | list limit offset hlimit hoffset => exact serves_list hr htable hlimit hoffset
  | count => exact serves_count hr htable
  | delete u => exact serves_delete hr htable u
  | find c v hc hv => exact serves_find hr htable hc hv
  | findAll c v o hc hv ho htext => exact serves_findAll hr htable hc hv ho htext

end

end Repository
end Transact
