import Transact.Proofs.Database.Reliability
import Transact.Repository.Basic
import Mathlib.Data.List.Nodup

/-! Rows that are kept as they are given: what finds them, what takes their place, and how they come
back as entities. -/
namespace Transact

namespace Value

mutual

theorem same_iff (a b : Value) : same a b = true ↔ a = b := by
  cases a <;> cases b <;>
    simp only [same, reduceCtorEq, Bool.false_eq_true, beq_iff_eq, bool.injEq, int.injEq, float.injEq,
      text.injEq, bytes.injEq, uuid.injEq, phase.injEq, list.injEq, object.injEq]
  case list.list as bs => exact sameList_iff as bs
  case object.object as bs => exact sameFields_iff as bs

theorem sameList_iff : ∀ as bs : List Value, sameList as bs = true ↔ as = bs
  | [], [] => by simp [sameList]
  | a :: as, b :: bs => by
    rw [sameList, Bool.and_eq_true, same_iff a b, sameList_iff as bs, List.cons.injEq]
  | [], _ :: _ | _ :: _, [] => by simp [sameList]

theorem sameFields_iff : ∀ as bs : List (String × Value), sameFields as bs = true ↔ as = bs
  | [], [] => by simp [sameFields]
  | (k, a) :: as, (l, b) :: bs => by
    rw [sameFields, Bool.and_eq_true, Bool.and_eq_true, same_iff a b, sameFields_iff as bs, beq_iff_eq,
      List.cons.injEq, Prod.mk.injEq]
  | [], _ :: _ | _ :: _, [] => by simp [sameFields]

end

instance : LawfulBEq Value where
  eq_of_beq h := (same_iff _ _).mp h
  rfl := (same_iff _ _).mpr rfl

end Value

/-- What a column keeps as it is. -/
def ColumnKind.Keeps : ColumnKind → Value → Prop
  | .integer, .int n => Database.fits n = true
  | .text, .text _ => True
  | .uuid, .uuid _ => True
  | _, _ => False

@[simp] theorem ColumnKind.keeps_uuid {v : Value} : uuid.Keeps v ↔ ∃ u, v = .uuid u := by
  cases v <;> simp [Keeps]

@[simp] theorem ColumnKind.keeps_text {v : Value} : text.Keeps v ↔ ∃ s, v = .text s := by
  cases v <;> simp [Keeps]

@[simp] theorem ColumnKind.keeps_integer {v : Value} :
    integer.Keeps v ↔ ∃ n, Database.fits n = true ∧ v = .int n := by
  cases v <;> simp [Keeps]

/-- Each column once, with a value that it keeps. -/
structure Table.IsEntity (t : Table) (e : Entity) : Prop where
  names : e.map Prod.fst = t.columnNames
  keeps : ∀ c ∈ t.columns, c.kind.Keeps (Database.cell e c.name)

namespace Database

variable {t : Table} {e row : Entity} {kind : ColumnKind} {v x : Value} {c : Column} {rows : List Entity}
  {content after : Content}

/-! Values -/

theorem kept_eq (hv : kind.Keeps v) : kept kind v = v := by
  cases kind <;> cases v <;> first | exact hv.elim | rfl

theorem matched_eq (hv : kind.Keeps v) : matched kind x v = (x == v) := by
  cases kind <;> cases v <;> first | exact hv.elim | rfl

theorem not_null (hv : kind.Keeps v) : (v == .null) = false := by
  cases kind <;> cases v <;> first | exact hv.elim | rfl

theorem kindOf_eq (hnames : t.columnNames.Nodup) (hc : c ∈ t.columns) : t.kindOf c.name = c.kind := by
  have hfind : t.columns.find? (·.name == c.name) = some c := by
    obtain ⟨pre, post, hsplit⟩ := List.append_of_mem hc
    rw [List.find?_eq_some_iff_append]
    refine ⟨by simp, pre, post, hsplit, fun other hother => ?_⟩
    rw [Table.columnNames, hsplit, List.map_append, List.map_cons, List.nodup_append] at hnames
    have hne := hnames.2.2 other.name (List.mem_map_of_mem hother) c.name List.mem_cons_self
    simpa using hne
  rw [Table.kindOf, hfind]
  rfl

/-- A row is found by a value of a column that it has in that column. -/
theorem holds_iff (hnames : t.columnNames.Nodup) (hc : c ∈ t.columns) (hv : c.kind.Keeps v) :
    holds t ⟨c.name, v⟩ row = true ↔ cell row c.name = v := by
  have hmatched : holds t ⟨c.name, v⟩ row = matched (t.kindOf c.name) (cell row c.name) v := by
    cases hkind : c.kind <;> rw [hkind] at hv <;> cases v <;> first | exact hv.elim | rfl
  rw [hmatched, kindOf_eq hnames hc, matched_eq hv, beq_iff_eq]

/-! Entities and rows -/

theorem lookup_of_nodup {α : Type} {fields : List (String × α)} {name : String} {a : α}
    (hnodup : (fields.map Prod.fst).Nodup) (hmem : (name, a) ∈ fields) : fields.lookup name = some a := by
  induction fields with
  | nil => cases hmem
  | cons field rest ih =>
    rw [List.map_cons, List.nodup_cons] at hnodup
    rcases List.mem_cons.mp hmem with rfl | hmem
    · exact List.lookup_cons_self
    · have hne : (name == field.1) = false := by
        rw [beq_eq_false_iff_ne]
        rintro rfl
        exact hnodup.1 (List.mem_map.mpr ⟨_, hmem, rfl⟩)
      rw [List.lookup_cons, hne]
      exact ih hnodup.2 hmem

theorem map_cell (hnodup : (e.map Prod.fst).Nodup) : (e.map Prod.fst).map (fun name => (name, cell e name)) = e := by
  rw [List.map_map]
  conv_rhs => rw [← List.map_id e]
  refine List.map_congr_left fun field hfield => ?_
  simp only [Function.comp, cell, lookup_of_nodup hnodup hfield, Option.getD_some, id]

theorem keptRow_eq (hnames : t.columnNames.Nodup) (he : t.IsEntity e) : keptRow t e = e := by
  have hkept : keptRow t e = t.columns.map fun c => (c.name, cell e c.name) :=
    List.map_congr_left fun c hc => by rw [kept_eq (he.keeps c hc)]
  have hcells := map_cell (e := e) (by rwa [he.names])
  rw [he.names, Table.columnNames, List.map_map] at hcells
  rw [hkept]
  exact hcells

theorem cell_ofEntity (hnodup : (e.map Prod.fst).Nodup) {field : String × Value} (hfield : field ∈ e) :
    (Sql.Row.ofEntity e).cell field.1 = .ok field.2 := by
  obtain ⟨place, hplace, rfl⟩ := List.getElem_of_mem hfield
  have hkeys : (e.map Prod.fst)[place]? = some e[place].1 := by simp [hplace]
  have hlookup : (Sql.Row.ofEntity e).place? e[place].1 = some place := by
    apply lookup_of_nodup
    · rw [List.map_reverse, List.nodup_reverse, List.zipIdx_map_fst]
      exact hnodup
    · rw [List.mem_reverse, List.mem_zipIdx_iff_getElem?]
      exact hkeys
  have hcells : (Sql.Row.ofEntity e).cells[place]? = some e[place].2 := by
    simp [Sql.Row.ofEntity, hplace]
  simp only [Sql.Row.cell, hlookup, Sql.Row.cellAt, hcells]

/-- A row of a table is read as the entity that it was. -/
theorem pick_ofEntity (hnodup : (e.map Prod.fst).Nodup) :
    (Sql.Row.ofEntity e).pick (e.map Prod.fst) = .ok e := by
  have hpick : (e.map Prod.fst).mapM (fun name => return (name, ← (Sql.Row.ofEntity e).cell name)) =
      .ok ((e.map Prod.fst).map fun name => (name, cell e name)) := by
    refine mapM_ok fun name hname => ?_
    obtain ⟨field, hfield, rfl⟩ := List.mem_map.mp hname
    simp only [cell_ofEntity hnodup hfield, cell, lookup_of_nodup hnodup hfield]
    rfl
  rw [Sql.Row.pick, hpick, map_cell hnodup]

/-! Statements -/

/-- A row that has the same value in a column that is unique. -/
def Clashes (t : Table) (e : Entity) (rows : List Entity) (c : Column) : Prop :=
  c ∈ uniqueColumns t ∧ ∃ other ∈ rows, cell other c.name = cell e c.name

theorem mem_columns_of_unique (hc : c ∈ uniqueColumns t) : c ∈ t.columns := by
  rw [uniqueColumns, List.mem_append] at hc
  rcases hc with hc | hc <;> exact (List.mem_filter.mp hc).1

theorem checkComplete_ok (he : t.IsEntity e) : checkComplete t e = .ok () :=
  forM_ok_iff.mpr fun c hc => by rw [not_null (he.keeps c hc), if_neg Bool.false_ne_true]

theorem checkUnique_ok (h : checkUnique t e rows = .ok ()) (c : Column) :
    ¬ Clashes t e rows c := by
  rintro ⟨hc, other, hother, hcell⟩
  have hcheck := forM_ok_iff.mp h c hc
  have hany : (rows.any fun other => cell other c.name == cell e c.name) = true :=
    List.any_eq_true.mpr ⟨other, hother, beq_iff_eq.mpr hcell⟩
  rw [hany] at hcheck
  cases hcheck

theorem checkUnique_error {error : Error} (h : checkUnique t e rows = .error error) :
    ∃ c, error = taken t c ∧ Clashes t e rows c := by
  obtain ⟨c, hc, hcheck⟩ := forM_error h
  cases hany : rows.any fun other => cell other c.name == cell e c.name with
  | false =>
    rw [hany] at hcheck
    cases hcheck
  | true =>
    rw [hany] at hcheck
    cases hcheck
    obtain ⟨other, hother, hcell⟩ := List.any_eq_true.mp hany
    exact ⟨c, rfl, hc, other, hother, beq_iff_eq.mp hcell⟩

/-- Of an entity only its uniqueness is in question. -/
theorem insert_eq (hnames : t.columnNames.Nodup) (he : t.IsEntity e) (content : Content) :
    insert t e content = (checkUnique t e (content t.name)).map fun _ =>
      set content t.name (content t.name ++ [e]) := by
  simp only [insert, keptRow_eq hnames he, checkComplete_ok he, Bind.bind, Except.bind, Except.map]
  cases checkUnique t e (content t.name) <;> rfl

/-! What can be bound -/

theorem checkKept_ok (hv : kind.Keeps v) : checkKept kind v = .ok () := by
  cases kind <;> cases v <;> first | exact hv.elim | rfl

theorem bindKept_ok (position : Nat) (hv : kind.Keeps v) : bindKept position kind v = .ok () := by
  cases kind <;> cases v <;> first | exact hv.elim | rfl | exact if_pos hv

theorem checkCompared_ok (hv : kind.Keeps v) : checkCompared kind v = .ok () := by
  cases kind <;> cases v <;> first | exact hv.elim | rfl

theorem bindCompared_ok (hv : kind.Keeps v) : bindCompared v = .ok () := by
  cases kind <;> cases v <;> first | exact hv.elim | rfl | exact if_pos hv

theorem insert_isBound (he : t.IsEntity e) : (Sql.Statement.insert t e).IsBound := by
  refine ⟨forM_ok_iff.mpr fun c hc => checkKept_ok (he.keeps c hc), fun b hb => ?_⟩
  obtain ⟨⟨c, place⟩, hc, rfl⟩ := List.mem_map.mp hb
  exact bindKept_ok place (he.keeps c (List.fst_mem_of_mem_zipIdx hc))

/-- A condition on a column asks for a value that the column keeps. -/
def Suits (t : Table) (condition : Option Sql.Condition) : Prop :=
  ∀ asked, condition = some asked → ∃ c ∈ t.columns, asked.column = c.name ∧ c.kind.Keeps asked.value

theorem suits_none : Suits t none := nofun

theorem suits_some (hc : c ∈ t.columns) (hv : c.kind.Keeps v) : Suits t (some ⟨c.name, v⟩) := by
  rintro asked ⟨⟩
  exact ⟨c, hc, rfl, hv⟩

theorem checkCondition_ok (hnames : t.columnNames.Nodup) {asked : Sql.Condition} (h : Suits t (some asked)) :
    checkStatement.checkCondition t asked = .ok () := by
  obtain ⟨c, hc, hname, hv⟩ := h asked rfl
  rw [checkStatement.checkCondition, hname, kindOf_eq hnames hc]
  exact checkCompared_ok hv

theorem conditions_ok {condition : Option Sql.Condition} (h : Suits t condition) :
    ∀ b ∈ bindings.conditions condition, b = .ok () := by
  intro b hb
  cases condition with
  | none => cases hb
  | some asked =>
    obtain ⟨c, hc, -, hv⟩ := h asked rfl
    obtain ⟨name, value⟩ := asked
    cases value with
    | null | bool => cases hb
    | _ =>
      rw [List.mem_singleton.mp hb]
      exact bindCompared_ok hv

theorem delete_isBound (hnames : t.columnNames.Nodup) {asked : Sql.Condition} (h : Suits t (some asked)) :
    (Sql.Statement.delete t asked).IsBound :=
  ⟨checkCondition_ok hnames h, conditions_ok h⟩

theorem count_isBound (hnames : t.columnNames.Nodup) {condition : Option Sql.Condition} (h : Suits t condition) :
    (Sql.Statement.count t condition).IsBound := by
  refine ⟨?_, conditions_ok h⟩
  cases condition with
  | none => rfl
  | some asked => exact checkCondition_ok hnames h

theorem select_isBound (hnames : t.columnNames.Nodup) {s : Sql.Selection} (h : Suits t s.condition)
    (hlimit : ∀ n, s.limit = some n → fits n = true) (hoffset : ∀ n, s.offset = some n → fits n = true) :
    (Sql.Statement.select t s).IsBound := by
  obtain ⟨condition, order, limit, offset⟩ := s
  have hpage (n : Option Int) (default : Int) (hdefault : fits default = true)
      (hn : ∀ m, n = some m → fits m = true) : bind 1 (.int (n.getD default)) = .ok () := by
    cases n with
    | none => exact if_pos hdefault
    | some m => exact if_pos (hn m rfl)
  constructor
  · cases condition with
    | none => rfl
    | some asked => exact checkCondition_ok hnames h
  · intro b hb
    rcases List.mem_append.mp hb with hb | hb
    · exact conditions_ok h b hb
    · obtain ⟨n, hn, rfl⟩ := List.mem_map.mp hb
      split at hn
      · rcases List.mem_cons.mp hn with rfl | hn
        · exact hpage limit (-1) rfl hlimit
        · rw [List.mem_singleton.mp hn]
          exact hpage offset 0 rfl hoffset
      · cases hn

theorem find_isBound (hnames : t.columnNames.Nodup) {condition : Option Sql.Condition} (h : Suits t condition)
    (order : Option Sql.Order) : (Sql.Statement.select t { condition, order }).IsBound :=
  select_isBound hnames h (by rintro n ⟨⟩) (by rintro n ⟨⟩)

/-! The key -/

theorem filter_primaryKey (h : t.keyColumn? = some c) : t.columns.filter (·.primaryKey) = [c] := by
  unfold Table.keyColumn? at h
  split at h
  · rename_i other hother
    cases h
    exact hother
  · cases h

theorem mem_keyColumn (h : t.keyColumn? = some c) : c ∈ t.columns ∧ c ∈ uniqueColumns t := by
  have hfilter := filter_primaryKey h
  have hc : c ∈ t.columns.filter (·.primaryKey) := by simp [hfilter]
  exact ⟨(List.mem_filter.mp hc).1, List.mem_append_right _ hc⟩

theorem mem_uniqueColumns {key : Column} (h : t.keyColumn? = some key) :
    c ∈ uniqueColumns t ↔ (c ∈ t.columns ∧ c.unique = true) ∨ c = key := by
  rw [uniqueColumns, filter_primaryKey h, List.mem_append, List.mem_filter, List.mem_singleton]

end Database

namespace Repository

/-- Entities are made of all columns, each by its own name. -/
structure IsPlain (r : Repository) : Prop where
  mapping : r.mapping = .fields r.table.columnNames
  names : r.table.columnNames.Nodup

theorem IsPlain.convert {r : Repository} {e : Entity} (hplain : r.IsPlain) (he : r.table.IsEntity e) :
    r.mapping.convert (.ofEntity e) = .ok e := by
  rw [hplain.mapping, Mapping.convert, ← he.names]
  exact Database.pick_ofEntity (by rw [he.names]; exact hplain.names)

section

variable {r : Repository} {rows : List Entity} (hplain : r.IsPlain) (count v : Value)

include hplain

theorem IsPlain.convert_head (hrows : ∀ row ∈ rows, r.table.IsEntity row) :
    (rows.map Sql.Row.ofEntity).head?.mapM r.mapping.convert = .ok rows.head? := by
  cases rows with
  | nil => rfl
  | cons row rest =>
    simp only [List.map_cons, List.head?_cons, Option.mapM_some, hplain.convert (hrows row List.mem_cons_self)]
    rfl

theorem IsPlain.convert_all (hrows : ∀ row ∈ rows, r.table.IsEntity row) :
    (rows.map Sql.Row.ofEntity).mapM r.mapping.convert = .ok rows := by
  induction rows with
  | nil => rfl
  | cons row rest ih =>
    rw [List.forall_mem_cons] at hrows
    rw [List.map_cons, List.mapM_cons, hplain.convert hrows.1, ih hrows.2]
    rfl

theorem IsPlain.reply_get (hrows : ∀ row ∈ rows, r.table.IsEntity row) :
    r.reply ⟨rows.map .ofEntity, count⟩ (.get v) = .ok (.entity rows.head?) := by
  simp only [reply, hplain.convert_head hrows]
  rfl

theorem IsPlain.reply_find (column : String) (hrows : ∀ row ∈ rows, r.table.IsEntity row) :
    r.reply ⟨rows.map .ofEntity, count⟩ (.find column v) = .ok (.entity rows.head?) := by
  simp only [reply, hplain.convert_head hrows]
  rfl

theorem IsPlain.reply_list (limit offset : Value) (hrows : ∀ row ∈ rows, r.table.IsEntity row) :
    r.reply ⟨rows.map .ofEntity, count⟩ (.list limit offset) = .ok (.entities rows) := by
  simp only [reply, hplain.convert_all hrows]
  rfl

theorem IsPlain.reply_findAll (column order : String) (hrows : ∀ row ∈ rows, r.table.IsEntity row) :
    r.reply ⟨rows.map .ofEntity, count⟩ (.findAll column v order) = .ok (.entities rows) := by
  simp only [reply, hplain.convert_all hrows]
  rfl

end

theorem key_eq {r : Repository} {key : Column} (hkey : r.table.keyColumn? = some key) : r.key = .ok key.name := by
  simp only [Repository.key, hkey]

/-- An entity is inserted as it is. -/
theorem IsPlain.statement_add {r : Repository} {e : Entity} {statement : Sql.Statement} (hplain : r.IsPlain)
    (he : r.table.IsEntity e) (hstatement : r.statement (.add e) = .ok statement) :
    statement = .insert r.table e := by
  cases makes hstatement with
  | add hvalues =>
    rw [hplain.convert he] at hvalues
    cases hvalues
    rfl

end Repository
end Transact
