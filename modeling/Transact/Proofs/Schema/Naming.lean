import Transact.Schema.Naming
import Transact.Schema.Sample
import Transact.Proofs.Traversal
import Mathlib.Data.List.Nodup

/-! When the names of a table's constraints and indexes are told apart. The kinds never meet; among one kind, a unique
constraint is named for its first column only, and a foreign key for two names that may run into each other. -/
namespace Transact

/-- The letter that the names of a kind begin with. -/
def ConstraintKind.letter : ConstraintKind → Char
  | check => 'c'
  | foreignKey => 'f'
  | primaryKey => 'p'
  | unique => 'u'
  | index => 'i'

theorem ConstraintKind.letter_inj {a b : ConstraintKind} (h : a.letter = b.letter) : a = b := by
  cases a <;> cases b <;> first | rfl | exact absurd h (by decide)

namespace Table

variable {t : Table} {names : List (ConstraintKind × String)} {checks : List String} {a b : String × String}

/-! ### What has been checked -/

theorem nodup_columnNames (h : t.checkColumns = .ok ()) : t.columnNames.Nodup ∧ "" ∉ t.columnNames := by
  have hcolumn (place : Nat) (hplace : place < t.columns.length) :
      t.columns[place].name ≠ "" ∧ t.columns[place].name ∉ t.columnNames.take place := by
    have hcheck := forM_ok_iff.mp h (t.columns[place], place) (List.mem_zipIdx_iff_getElem?.mpr (by simp [hplace]))
    dsimp only at hcheck
    rw [checkColumn] at hcheck
    split at hcheck
    next => cases hcheck
    next hname =>
      split at hcheck
      next => cases hcheck
      next htaken => exact ⟨by simpa using hname, by simpa using htaken⟩
  refine ⟨List.pairwise_iff_getElem.mpr fun i j hi hj hlt heq => ?_, fun hmem => ?_⟩
  · rw [columnNames, List.length_map] at hi hj
    refine (hcolumn j hj).2 (List.mem_take_iff_getElem.mpr ⟨i, ?_, ?_⟩)
    · rw [columnNames, List.length_map]
      omega
    · simpa [columnNames] using heq
  · obtain ⟨c, hc, hname⟩ := List.mem_map.mp hmem
    obtain ⟨place, hplace, rfl⟩ := List.getElem_of_mem hc
    exact (hcolumn place hplace).1 hname

theorem exists_given (h : t.checkNames = .ok checks) :
    ∃ given, t.checks = List.map some given ∧ checks = given.map t.checkName := by
  rw [checkNames] at h
  generalize t.checks = declared at h ⊢
  induction declared generalizing checks with
  | nil => exact ⟨[], rfl, (Except.ok.inj h).symm⟩
  | cons c declared ih =>
    rw [List.mapM_cons] at h
    obtain ⟨name, hname, h⟩ := made_of_bind h
    obtain ⟨rest, hrest, h⟩ := made_of_bind h
    obtain rfl := Except.ok.inj h
    obtain ⟨given, rfl, rfl⟩ := ih hrest
    cases c with
    | none => cases hname
    | some c =>
      obtain rfl := Except.ok.inj hname
      exact ⟨c :: given, rfl, rfl⟩

/-- A table that is known has been checked. -/
theorem check_of_declareAll {tables known : List Table} (h : Schema.declareAll tables = .ok known) :
    ∀ t ∈ known, t.check = .ok () := by
  refine foldlM_induction (P := fun known => ∀ t ∈ known, t.check = .ok ()) h (by simp)
    fun known t known' hknown hdeclare => ?_
  rw [Schema.declare] at hdeclare
  split at hdeclare
  next =>
    split at hdeclare
    next => exact Except.ok.inj hdeclare ▸ hknown
    next => cases hdeclare
  next =>
    obtain ⟨⟨⟩, hcheck, hdeclare⟩ := made_of_bind hdeclare
    obtain rfl := Except.ok.inj hdeclare
    intro u hu
    rcases List.mem_append.mp hu with hu | hu
    · exact hknown u hu
    · rwa [List.mem_singleton.mp hu]

/-- A table that is known has its columns and its checks named, and is unique in its own columns. -/
theorem parts_of_check (h : t.check = .ok ()) : t.columnNames.Nodup ∧ "" ∉ t.columnNames ∧
    (∃ checks, t.checkNames = .ok checks) ∧ ∀ column ∈ t.uniques.flatten, column ∈ t.columnNames := by
  obtain ⟨⟨⟩, hcolumns, h⟩ := made_of_bind h
  obtain ⟨checks, hchecks, h⟩ := made_of_bind h
  obtain ⟨hnodup, hblank⟩ := nodup_columnNames hcolumns
  refine ⟨hnodup, hblank, ⟨checks, hchecks⟩, fun column hcolumn => ?_⟩
  have hcheck := forM_ok_iff.mp h column hcolumn
  split at hcheck
  next hmem => simpa using hmem
  next => cases hcheck

/-! ### What is named -/

/-- A constraint or an index of a table: what it is of. -/
inductive Part where
  | check (name : String)
  | foreignKey (column referred : String)
  | primaryKey
  | unique (columns : List String)
  | index (column : String)
deriving DecidableEq, Repr

namespace Part

def kind : Part → ConstraintKind
  | check _ => .check
  | foreignKey _ _ => .foreignKey
  | primaryKey => .primaryKey
  | unique _ => .unique
  | index _ => .index

/-- A unique constraint has the name of its first column. -/
def name (t : Table) : Part → String
  | check given => t.checkName given
  | foreignKey column referred => t.foreignKeyName column referred
  | primaryKey => t.primaryKeyName
  | unique columns => t.uniqueName (columns.headD "")
  | index column => t.indexName column

/-- Two that are named alike: unique constraints that begin with the same column, and foreign keys where one's column is
the other's carried on by what the other's table begins with. -/
inductive Blurs : Part → Part → Prop where
  | first (column : String) (rest rest' : List String) : Blurs (unique (column :: rest)) (unique (column :: rest'))
  | run (column m referred : String) :
      Blurs (foreignKey column (m ++ "_" ++ referred)) (foreignKey (column ++ "_" ++ m) referred)

end Part

/-- The column lists that are unique: columns that are so by themselves, then those that are so together. -/
def uniqueLists (t : Table) : List (List String) :=
  ((t.columns.filter fun c => c.unique && !c.index).map fun c => [c.name]) ++ t.uniques

/-- The columns that refer to a table, each with that table. -/
def references (t : Table) : List (String × String) := t.columns.filterMap fun c => c.refersTo.map (c.name, ·)

/-- The constraints of a kind, or the indexes. A check that was given no name is left out: no table has one that is
known. -/
def partsOf (t : Table) : ConstraintKind → List Part
  | .check => (t.checks.filterMap id).map .check
  | .foreignKey => t.references.map fun r => .foreignKey r.1 r.2
  | .primaryKey => [.primaryKey]
  | .unique => t.uniqueLists.map .unique
  | .index => (t.columns.filter (·.index)).map fun c => .index c.name

/-- The constraints and indexes of a table. -/
def parts (t : Table) : List Part := [.check, .foreignKey, .primaryKey, .unique, .index].flatMap t.partsOf

theorem kind_of_mem {kind : ConstraintKind} {p : Part} (h : p ∈ t.partsOf kind) : p.kind = kind := by
  cases kind with
  | primaryKey => rw [List.mem_singleton.mp h, Part.kind]
  | check | foreignKey | unique | index =>
    obtain ⟨_, -, rfl⟩ := List.mem_map.mp h
    rfl

/-- Each constraint and each index has its name, and there are no other names. -/
theorem constraintNames_perm (h : t.checkNames = .ok checks) :
    ∃ names, t.constraintNames = .ok names ∧ names.Perm (t.parts.map fun p => (p.kind, p.name t)) := by
  obtain ⟨given, hgiven, rfl⟩ := exists_given h
  have hsorted {kind : ConstraintKind} {l : List String} (hl : l = (t.partsOf kind).map (Part.name t)) :
      ((sorted l).map (kind, ·)).Perm ((t.partsOf kind).map fun p => (p.kind, p.name t)) := by
    refine ((List.mergeSort_perm l _).map _).trans (.of_eq ?_)
    rw [hl, List.map_map]
    exact List.map_congr_left fun p hp => by rw [Function.comp, kind_of_mem hp]
  refine ⟨_, by rw [constraintNames, h]; rfl, ?_⟩
  rw [parts, List.map_flatMap]
  simp only [List.flatMap_cons, List.flatMap_nil, List.append_nil, List.append_assoc]
  refine .append (hsorted ?_) (.append (hsorted ?_) (.append (.refl _) (.append (hsorted ?_) (hsorted ?_))))
  · simp [partsOf, hgiven, Part.name]
  · simp [foreignKeyNames, references, partsOf, Part.name, Function.comp_def, List.map_filterMap]
  · simp [uniqueNames, uniqueLists, partsOf, Part.name, Function.comp_def]
  · simp [indexNames, partsOf, Part.name]

theorem nodup_references (h : t.columnNames.Nodup) : t.references.Nodup := by
  have hcolumns : t.references.map Prod.fst = (t.columns.filter (·.refersTo.isSome)).map (·.name) := by
    rw [references]
    induction t.columns with
    | nil => rfl
    | cons c columns ih => cases hrefers : c.refersTo <;> simp [hrefers, ih]
  refine List.Nodup.of_map Prod.fst ?_
  rw [hcolumns]
  exact h.sublist (List.filter_sublist.map _)

theorem nodup_parts (hcolumns : t.columnNames.Nodup) (h : t.checkNames = .ok checks) (hchecks : t.checks.Nodup)
    (huniques : t.uniqueLists.Nodup) : t.parts.Nodup := by
  have hkind (kind : ConstraintKind) : (t.partsOf kind).Nodup := by
    cases kind with
    | check =>
      obtain ⟨given, hgiven, -⟩ := exists_given h
      rw [partsOf, hgiven, List.filterMap_map]
      rw [hgiven] at hchecks
      simpa using hchecks.of_map.map fun _ _ => Part.check.inj
    | foreignKey =>
      exact (nodup_references hcolumns).map fun _ _ heq =>
        Prod.ext (Part.foreignKey.inj heq).1 (Part.foreignKey.inj heq).2
    | primaryKey => exact List.nodup_singleton _
    | unique => exact huniques.map fun _ _ => Part.unique.inj
    | index =>
      have hindexed : ((t.columns.filter (·.index)).map (·.name)).Nodup := hcolumns.sublist (List.filter_sublist.map _)
      have hparts := hindexed.map fun _ _ => Part.index.inj
      rwa [List.map_map] at hparts
  have hapart {kind kind' : ConstraintKind} (hne : kind ≠ kind') : (t.partsOf kind).Disjoint (t.partsOf kind') :=
    fun p hp hp' => hne ((kind_of_mem hp).symm.trans (kind_of_mem hp'))
  rw [parts, List.nodup_flatMap]
  exact ⟨fun kind _ => hkind kind, List.Pairwise.imp hapart (by decide : List.Pairwise (· ≠ ·)
    [ConstraintKind.check, .foreignKey, .primaryKey, .unique, .index])⟩

/-! ### Names -/

theorem head_name (p : Part) : (p.name t).toList.head? = some p.kind.letter := by
  cases p <;> simp [Part.name, checkName, foreignKeyName, primaryKeyName, uniqueName, indexName, Part.kind,
    ConstraintKind.letter]

/-- A name tells its kind. -/
theorem kind_of_name {p q : Part} (h : p.name t = q.name t) : p.kind = q.kind := by
  have hletter : some p.kind.letter = some q.kind.letter := by rw [← head_name (t := t), h, head_name]
  exact ConstraintKind.letter_inj (Option.some.inj hletter)

/-- Two texts that are joined by the same mark are alike where one's first text is the other's carried on. -/
theorem append_mark_eq_iff {a b c d : List Char} {mark : Char} : a ++ mark :: b = c ++ mark :: d ↔
    (a = c ∧ b = d) ∨ (∃ m, c = a ++ mark :: m ∧ b = m ++ mark :: d) ∨
      ∃ m, a = c ++ mark :: m ∧ d = m ++ mark :: b := by
  constructor
  · intro h
    rcases List.append_eq_append_iff.mp h with ⟨m, hc, hb⟩ | ⟨m, ha, hd⟩
    · cases m with
      | nil =>
        obtain rfl : b = d := (List.cons.inj hb).2
        exact .inl ⟨by rw [hc, List.append_nil], rfl⟩
      | cons x m =>
        obtain ⟨rfl, rfl⟩ := List.cons.inj hb
        exact .inr (.inl ⟨m, hc, rfl⟩)
    · cases m with
      | nil =>
        obtain rfl : d = b := (List.cons.inj hd).2
        exact .inl ⟨by rw [ha, List.append_nil], rfl⟩
      | cons x m =>
        obtain ⟨rfl, rfl⟩ := List.cons.inj hd
        exact .inr (.inr ⟨m, ha, rfl⟩)
  · rintro (⟨rfl, rfl⟩ | ⟨m, rfl, rfl⟩ | ⟨m, rfl, rfl⟩) <;> simp

theorem Part.blurs_foreignKey {column column' referred referred' : String} {m : List Char}
    (hcolumn : column'.toList = column.toList ++ '_' :: m)
    (hreferred : referred.toList = m ++ '_' :: referred'.toList) :
    Blurs (foreignKey column referred) (foreignKey column' referred') := by
  have hc : column' = column ++ "_" ++ String.ofList m := String.toList_injective (by simpa using hcolumn)
  have hr : referred = String.ofList m ++ "_" ++ referred' := String.toList_injective (by simpa using hreferred)
  rw [hc, hr]
  exact .run column (String.ofList m) referred'

theorem foreignKeyName_eq {column column' referred referred' : String}
    (h : t.foreignKeyName column referred = t.foreignKeyName column' referred') :
    (column = column' ∧ referred = referred') ∨
      Part.Blurs (.foreignKey column referred) (.foreignKey column' referred') ∨
      Part.Blurs (.foreignKey column' referred') (.foreignKey column referred) := by
  have hlists : column.toList ++ '_' :: referred.toList = column'.toList ++ '_' :: referred'.toList := by
    simpa [foreignKeyName] using congrArg String.toList h
  rcases append_mark_eq_iff.mp hlists with ⟨hcolumn, hreferred⟩ | ⟨m, hcolumn, hreferred⟩ | ⟨m, hcolumn, hreferred⟩
  · exact .inl ⟨String.toList_injective hcolumn, String.toList_injective hreferred⟩
  · exact .inr (.inl (Part.blurs_foreignKey hcolumn hreferred))
  · exact .inr (.inr (Part.blurs_foreignKey hcolumn hreferred))

theorem uniqueName_eq {columns columns' : List String} (hblank : "" ∉ columns) (hblank' : "" ∉ columns')
    (h : t.uniqueName (columns.headD "") = t.uniqueName (columns'.headD "")) :
    columns = columns' ∨ Part.Blurs (.unique columns) (.unique columns') := by
  have hfirst : columns.headD "" = columns'.headD "" := by simpa [uniqueName] using h
  cases columns with
  | nil =>
    cases columns' with
    | nil => exact .inl rfl
    | cons column rest =>
      obtain rfl : "" = column := hfirst
      exact absurd List.mem_cons_self hblank'
  | cons column rest =>
    cases columns' with
    | nil =>
      obtain rfl : column = "" := hfirst
      exact absurd List.mem_cons_self hblank
    | cons column' rest' =>
      obtain rfl : column = column' := hfirst
      exact .inr (.first column rest rest')

theorem Part.Blurs.name_eq {p q : Part} (h : p.Blurs q) : p.name t = q.name t := by
  cases h with
  | first column rest rest' => rfl
  | run column m referred => simp [name, foreignKeyName, String.append_assoc]

/-- One name stands for two constraints or indexes of a table just where they blur. -/
theorem name_eq_iff {p q : Part} (hblank : ∀ columns ∈ t.uniqueLists, "" ∉ columns) (hp : p ∈ t.parts)
    (hq : q ∈ t.parts) : p.name t = q.name t ↔ p = q ∨ p.Blurs q ∨ q.Blurs p := by
  have hlists {columns : List String} (h : .unique columns ∈ t.parts) : columns ∈ t.uniqueLists := by
    simpa [parts, partsOf] using h
  constructor
  · intro h
    have hkind := kind_of_name h
    cases p with
    | check given =>
      cases q with
      | check given' =>
        obtain rfl : given = given' := by simpa [Part.name, checkName] using h
        exact .inl rfl
      | _ => cases hkind
    | foreignKey column referred =>
      cases q with
      | foreignKey column' referred' =>
        rcases foreignKeyName_eq h with ⟨rfl, rfl⟩ | hblurs
        · exact .inl rfl
        · exact .inr hblurs
      | _ => cases hkind
    | primaryKey =>
      cases q with
      | primaryKey => exact .inl rfl
      | _ => cases hkind
    | unique columns =>
      cases q with
      | unique columns' =>
        rcases uniqueName_eq (hblank _ (hlists hp)) (hblank _ (hlists hq)) h with rfl | hblurs
        · exact .inl rfl
        · exact .inr (.inl hblurs)
      | _ => cases hkind
    | index column =>
      cases q with
      | index column' =>
        obtain rfl : column = column' := by simpa [Part.name, indexName] using h
        exact .inl rfl
      | _ => cases hkind
  · rintro (rfl | h | h)
    · rfl
    · exact h.name_eq
    · exact h.name_eq.symm

/-- A table that is known has a name for each of its constraints and indexes, and these are told apart just where no
two of its unique constraints begin with the same column and no column and table of a foreign key run into each other
like those of another one. -/
theorem nodup_constraintNames {tables known : List Table} (h : Schema.declareAll tables = .ok known) (ht : t ∈ known)
    (hchecks : t.checks.Nodup) (huniques : t.uniqueLists.Nodup) :
    ∃ names, t.constraintNames = .ok names ∧ names.Perm (t.parts.map fun p => (p.kind, p.name t)) ∧
      ((names.map Prod.snd).Nodup ↔ ∀ p ∈ t.parts, ∀ q ∈ t.parts, p ≠ q → ¬ p.Blurs q) := by
  obtain ⟨hcolumns, hblank, ⟨checks, hnamed⟩, hknown⟩ := parts_of_check (check_of_declareAll h t ht)
  obtain ⟨names, hnames, hperm⟩ := constraintNames_perm hnamed
  have hlists : ∀ columns ∈ t.uniqueLists, "" ∉ columns := by
    intro columns hcolumns hmem
    refine hblank ?_
    rcases List.mem_append.mp hcolumns with hcolumns | hcolumns
    · obtain ⟨c, hc, rfl⟩ := List.mem_map.mp hcolumns
      rw [List.mem_singleton.mp hmem]
      exact List.mem_map_of_mem (List.mem_filter.mp hc).1
    · exact hknown "" (List.mem_flatten.mpr ⟨columns, hcolumns, hmem⟩)
  refine ⟨names, hnames, hperm, ?_⟩
  have hparts := nodup_parts hcolumns hnamed hchecks huniques
  rw [(hperm.map Prod.snd).nodup_iff, List.map_map, List.nodup_map_iff_inj_on hparts]
  constructor
  · intro hinj p hp q hq hne hblurs
    exact hne (hinj p hp q hq hblurs.name_eq)
  · intro hnone p hp q hq heq
    by_contra hne
    rcases (name_eq_iff hlists hp hq).mp heq with heq | hblurs | hblurs
    · exact hne heq
    · exact hnone p hp q hq hne hblurs
    · exact hnone q hq p hp (Ne.symm hne) hblurs

/-- Visits of users to rooms: what a column is called begins with what another is called, but no names run together. -/
def visits : Table where
  name := "visits"
  columns := [
    { name := "id", kind := .uuid, primaryKey := true },
    { name := "user", kind := .uuid, target := some "room_users.id", index := true },
    { name := "user_room", kind := .uuid, target := some "rooms.id" },
    { name := "place", kind := .text, unique := true },
    { name := "day" }]
  checks := [some "day", some "place"]
  uniques := [["day", "place"], ["user", "day"]]

theorem splitOn_room_users : "room_users.id".splitOn "." = ["room_users", "id"] := by
  simp +decide [String.splitOn, String.splitOnAux]

theorem splitOn_rooms : "rooms.id".splitOn "." = ["rooms", "id"] := by
  simp +decide [String.splitOn, String.splitOnAux]

theorem parts_visits : visits.parts = [.check "day", .check "place", .foreignKey "user" "room_users",
    .foreignKey "user_room" "rooms", .primaryKey, .unique ["place"], .unique ["day", "place"], .unique ["user", "day"],
    .index "user"] := by
  simp [parts, partsOf, references, uniqueLists, visits, Column.refersTo, splitOn_room_users, splitOn_rooms]

theorem nodup_constraintNames_visits :
    Schema.declareAll [Schema.users, visits] = .ok [Schema.users, visits] ∧ visits.checks.Nodup ∧
      visits.uniqueLists.Nodup ∧ ∃ names, visits.constraintNames = .ok names ∧ (names.map Prod.snd).Nodup ∧
        ∀ p ∈ visits.parts, ∀ q ∈ visits.parts, p ≠ q → ¬ p.Blurs q := by
  have hdeclared : Schema.declareAll [Schema.users, visits] = .ok [Schema.users, visits] := by
    simp [Schema.declareAll, Schema.declare, check, checkColumns, checkColumn, checkNames, checkUniques, columnNames,
      Schema.users, visits, Column.refersTo, splitOn_room_users, splitOn_rooms, pure, Except.pure, bind, Except.bind]
  have hchecks : visits.checks.Nodup := by decide
  have huniques : visits.uniqueLists.Nodup := by decide
  obtain ⟨names, hnames, hperm, hiff⟩ := nodup_constraintNames hdeclared (by simp) hchecks huniques
  have hnodup : (names.map Prod.snd).Nodup := by
    rw [(hperm.map Prod.snd).nodup_iff, parts_visits]
    decide
  exact ⟨hdeclared, hchecks, huniques, names, hnames, hnodup, hiff.mp hnodup⟩

/-- Lines of an invoice: both pairs of columns are unique together and begin alike, and both foreign keys read as
`order_item_prices`. -/
def lines : Table where
  name := "lines"
  columns := [
    { name := "id", primaryKey := true },
    { name := "order", target := some "item_prices.id" },
    { name := "order_item", target := some "prices.id" },
    { name := "place" }]
  uniques := [["order", "place"], ["order", "order_item"]]

/-- Two unique constraints over different columns have one name, and so have two foreign keys of different columns. -/
theorem shared_names :
    (Schema.declareAll [lines] = .ok [lines] ∧ lines.checks.Nodup ∧ lines.uniqueLists.Nodup) ∧
      (∃ names, lines.constraintNames = .ok names ∧ (names.map Prod.snd).count "uq_lines_order" = 2 ∧
        (names.map Prod.snd).count "fk_lines_order_item_prices" = 2) ∧
      ¬ ∀ (tables known : List Table) (t : Table), Schema.declareAll tables = .ok known → t ∈ known → t.checks.Nodup →
        t.uniqueLists.Nodup → ∃ names, t.constraintNames = .ok names ∧ (names.map Prod.snd).Nodup := by
  have hitems : "item_prices.id".splitOn "." = ["item_prices", "id"] := by
    simp +decide [String.splitOn, String.splitOnAux]
  have hprices : "prices.id".splitOn "." = ["prices", "id"] := by
    simp +decide [String.splitOn, String.splitOnAux]
  have hdeclared : Schema.declareAll [lines] = .ok [lines] := by
    simp [Schema.declareAll, Schema.declare, check, checkColumns, checkColumn, checkNames, checkUniques, columnNames,
      lines, Column.refersTo, hitems, hprices, pure, Except.pure, bind, Except.bind]
  have hparts : lines.parts = [.foreignKey "order" "item_prices", .foreignKey "order_item" "prices", .primaryKey,
      .unique ["order", "place"], .unique ["order", "order_item"]] := by
    simp [parts, partsOf, references, uniqueLists, lines, Column.refersTo, hitems, hprices]
  obtain ⟨names, hnames, hperm⟩ := constraintNames_perm (t := lines) rfl
  have hcount (s : String) : (names.map Prod.snd).count s = (lines.parts.map (Part.name lines)).count s := by
    rw [(hperm.map Prod.snd).count_eq, List.map_map]
    rfl
  have hunique : (names.map Prod.snd).count "uq_lines_order" = 2 := by
    rw [hcount, hparts]
    decide
  have hforeign : (names.map Prod.snd).count "fk_lines_order_item_prices" = 2 := by
    rw [hcount, hparts]
    decide
  refine ⟨⟨hdeclared, by decide, by decide⟩, ⟨names, hnames, hunique, hforeign⟩, fun hall => ?_⟩
  obtain ⟨names', hnames', hnodup⟩ := hall [lines] [lines] lines hdeclared (by simp) (by decide) (by decide)
  obtain rfl := Except.ok.inj (hnames.symm.trans hnames')
  have hone := List.nodup_iff_count_le_one.mp hnodup "uq_lines_order"
  omega

end Table
end Transact
