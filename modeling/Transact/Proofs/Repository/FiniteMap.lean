import Transact.Proofs.Repository.Serving
import Transact.Repository.Sample

/-! Repositories of an open session as finite maps: whatever is asked of them in turn, they answer as
directories do. -/
namespace Transact

open Database

/-- What directories answer that are asked one after the other, each of the table at a place. -/
inductive Directory.Run (tables : List Table) :
    (String → Directory) → List (Nat × Operation) → List (Except Error Repository.Reply) →
      (String → Directory) → Prop
  | nil (m : String → Directory) : Run tables m [] [] m
  | cons {m m' m'' : String → Directory} {k : Nat} {t : Table} {operation : Operation}
      {asked : List (Nat × Operation)} {answer : Except Error Repository.Reply}
      {answers : List (Except Error Repository.Reply)} :
      tables[k]? = some t → (m t.name).Answers t operation answer (m' t.name) →
      (∀ other, other ≠ t.name → m' other = m other) → Run tables m' asked answers m'' →
      Run tables m ((k, operation) :: asked) (answer :: answers) m''

/-- Lists that are asked for of one table show pages of one list. -/
theorem Directory.Run.listed {tables : List Table} {k : Nat} {t : Table} {all : List Entity}
    (ht : tables[k]? = some t) (bounds : List (Option Nat × Option Nat)) :
    ∀ {m m' : String → Directory} {answers : List (Except Error Repository.Reply)},
      Run tables m (bounds.map fun b => (k, .list (bounded b.1) (bounded b.2))) answers m' →
        (m t.name).Lists all → answers = bounds.map fun b => .ok (.entities (page b.1 b.2 all)) := by
  induction bounds with
  | nil =>
    intro m m' answers hrun _
    cases hrun
    rfl
  | cons b rest ih =>
    intro m m' answers hrun hall
    cases hrun with
    | cons ht' hanswers hothers hrest =>
      obtain rfl := Option.some.inj (ht.symm.trans ht')
      obtain ⟨entities, hentities, hanswer, hsame⟩ := hanswers.listed_inv rfl
      rw [← hsame] at hall
      rw [ih hrest hall, hanswer, hentities.unique (hsame ▸ hall)]
      rfl

/-! The sample schema -/

namespace Schema

def user (id : Uuid) (username email : String) : Entity :=
  [("id", .uuid id), ("username", .text username), ("email", .text email)]

def order (id user : Uuid) (product : String) (amount : Int) : Entity :=
  [("id", .uuid id), ("user_id", .uuid user), ("product_name", .text product), ("amount", .int amount)]

theorem isEntity_users {e : Entity} :
    users.IsEntity e ↔ ∃ id username email, e = user id username email := by
  constructor
  · rintro ⟨hnames, hkeeps⟩
    obtain ⟨⟨_, a⟩, ⟨_, b⟩, ⟨_, v⟩, rfl, rfl, rfl, rfl⟩ : ∃ x y z, e = [x, y, z] ∧
        x.1 = "id" ∧ y.1 = "username" ∧ z.1 = "email" := by
      simpa [Table.columnNames, users, List.map_eq_cons_iff] using hnames
    simp only [users, List.forall_mem_cons, ColumnKind.keeps_uuid, ColumnKind.keeps_text] at hkeeps
    obtain ⟨⟨id, hid⟩, ⟨username, husername⟩, ⟨email, hemail⟩, -⟩ := hkeeps
    cases hid
    cases husername
    cases hemail
    exact ⟨id, username, email, rfl⟩
  · rintro ⟨id, username, email, rfl⟩
    refine ⟨rfl, ?_⟩
    simp only [users, List.forall_mem_cons, List.not_mem_nil, false_imp_iff, implies_true, and_true]
    exact ⟨trivial, trivial, trivial⟩

theorem isEntity_orders {e : Entity} :
    orders.IsEntity e ↔ ∃ id user product amount, fits amount = true ∧ e = order id user product amount := by
  constructor
  · rintro ⟨hnames, hkeeps⟩
    obtain ⟨⟨_, a⟩, ⟨_, b⟩, ⟨_, v⟩, ⟨_, w⟩, rfl, rfl, rfl, rfl, rfl⟩ : ∃ x y z n, e = [x, y, z, n] ∧
        x.1 = "id" ∧ y.1 = "user_id" ∧ z.1 = "product_name" ∧ n.1 = "amount" := by
      simpa [Table.columnNames, orders, List.map_eq_cons_iff] using hnames
    simp only [orders, List.forall_mem_cons, ColumnKind.keeps_uuid, ColumnKind.keeps_text,
      ColumnKind.keeps_integer] at hkeeps
    obtain ⟨⟨id, hid⟩, ⟨user, huser⟩, ⟨product, hproduct⟩, ⟨amount, hfits, hamount⟩, -⟩ := hkeeps
    cases hid
    cases huser
    cases hproduct
    cases hamount
    exact ⟨id, user, product, amount, hfits, rfl⟩
  · rintro ⟨id, user, product, amount, hfits, rfl⟩
    refine ⟨rfl, ?_⟩
    simp only [orders, List.forall_mem_cons, List.not_mem_nil, false_imp_iff, implies_true, and_true]
    exact ⟨trivial, trivial, trivial, hfits⟩

end Schema

theorem Repository.isIndexed_users : Repository.users.IsIndexed where
  mapping := rfl
  names := by decide
  indexed := ⟨by decide, _, rfl, rfl, rfl⟩
  free := by decide

theorem Repository.isIndexed_orders : Repository.orders.IsIndexed where
  mapping := rfl
  names := by decide
  indexed := ⟨by decide, _, rfl, rfl, rfl⟩
  free := by decide

theorem Operation.suits_byEmail (email : String) : (byEmail (.text email)).Suits Schema.users :=
  .find ⟨"email", .text, false, none, true, false⟩ (.text email) (by decide) trivial

theorem Operation.suits_forUser (u : Uuid) : (forUser (.uuid u)).Suits Schema.orders :=
  .findAll ⟨"user_id", .uuid, false, some "users.id", false, false⟩ (.uuid u)
    ⟨"product_name", .text, false, none, false, false⟩ (by decide) trivial (by decide) rfl

namespace Transaction

variable {ω : Type} {store : Store ω} {a : Account ω} {writes : ω → Nat → Prop} {w w' : ω} {c k : Nat}
  {t u : Transaction} {r : Repository} {operation : Operation} {statement : Sql.Statement}

/-- Operations one after the other, each of the repository at a place. -/
def performAll (store : Store ω) (connection : Nat) :
    List (Nat × Operation) → Transaction → ω → List (Except Error Repository.Reply) × Transaction × ω
  | [], t, w => ([], t, w)
  | (k, operation) :: asked, t, w =>
    let (answer, t, w) := t.perform store connection k operation w
    let (answers, t, w) := performAll store connection asked t w
    (answer :: answers, t, w)

theorem performAll_cons (store : Store ω) (connection k : Nat) (operation : Operation)
    (asked : List (Nat × Operation)) (t : Transaction) (w : ω) :
    performAll store connection ((k, operation) :: asked) t w =
      let after := t.perform store connection k operation w
      let rest := performAll store connection asked after.2.1 after.2.2
      (after.1 :: rest.1, rest.2) :=
  rfl

def Event.operation? : Event → Option (Nat × Operation)
  | .operation k operation => some (k, operation)
  | .session _ => none

/-- Operations that are performed one after the other are a run, and no others are in it. -/
theorem performAll_after (store : Store ω) (connection : Nat) (asked : List (Nat × Operation)) :
    ∀ (t : Transaction) (w : ω), ∃ events : List Event,
      (t.performAll store connection asked w).2.1 = t.after events ∧ events.filterMap Event.operation? = asked := by
  induction asked with
  | nil => exact fun t w => ⟨[], rfl, rfl⟩
  | cons ask rest ih =>
    intro t w
    obtain ⟨k, operation⟩ := ask
    obtain ⟨inputs, hfirst⟩ := perform_after store connection k operation t w
    obtain ⟨events, hrest, hasked⟩ := ih (t.perform store connection k operation w).2.1
      (t.perform store connection k operation w).2.2
    have hsilent : (inputs.map Event.session).filterMap Event.operation? = [] := by
      simp [List.filterMap_map, Event.operation?]
    refine ⟨.operation k operation :: (inputs.map .session ++ events), ?_, ?_⟩
    · rw [performAll_cons, hrest, hfirst, ← after_append, List.cons_append]
    · refine congrArg ((k, operation) :: ·) ?_
      rw [List.filterMap_append, hsilent, hasked, List.nil_append]

/-- What is executed for an operation on a connection that may write, is told as it comes out on the
content that is seen. -/
theorem execute_onContent (hstore : store.Faithful a writes) (hwrites : writes w c)
    (hstatement : r.statement operation = .ok statement) (hbound : statement.IsBound) :
    r.onContent operation (a.seen w c) =
      (r.answer operation (store.call c (.execute statement) w).1,
        a.seen (store.call c (.execute statement) w).2 c) := by
  cases happly : statement.apply (a.seen w c) with
  | ok pair =>
    obtain ⟨result, content⟩ := pair
    obtain ⟨hok, hseen⟩ := hstore.performed c statement w result content hwrites hbound happly
    rw [Repository.onContent_ok hstatement happly, hok, hseen]
    rfl
  | error e =>
    obtain ⟨herror, hseen⟩ := hstore.declined c statement w e hwrites hbound happly
    rw [Repository.onContent_error hstatement happly, herror, hseen]
    rfl

/-- A session at work, alone on its connection, on which it may write and sees tables that are in order. -/
structure Working (a : Account ω) (writes : ω → Nat → Prop) (w : ω) (c : Nat) (t : Transaction) : Prop where
  calm : t.Calm
  active : t.session.phase = .active
  writes : writes w c
  indexed : ∀ r ∈ t.repositories.map Repository.blank, r.IsIndexed
  tables : ∀ r ∈ t.repositories.map Repository.blank, IsTable r.table (a.seen w c r.table.name)
  /-- Repositories of one table agree on its columns. -/
  agree : ∀ r ∈ t.repositories.map Repository.blank, ∀ r' ∈ t.repositories.map Repository.blank,
    r.table.name = r'.table.name → r.table = r'.table

/-- An operation as its repository's directory answers it. -/
structure Served (a : Account ω) (writes : ω → Nat → Prop) (w : ω) (c : Nat) (t : Transaction) (table : Table)
    (operation : Operation) (answer : Except Error Repository.Reply) (u : Transaction) (w' : ω) : Prop where
  answers : (directory (a.seen w c table.name)).Answers table operation answer (directory (a.seen w' c table.name))
  others : ∀ other, other ≠ table.name → a.seen w' c other = a.seen w c other
  blank : u.repositories.map Repository.blank = t.repositories.map Repository.blank
  working : u.Working a writes w' c

theorem Working.perform (hstore : store.Faithful a writes) (h : t.Working a writes w c)
    (hr : t.repositories[k]? = some r) (hsuits : operation.Suits r.table) :
    let after := t.perform store c k operation w
    t.Served a writes w c r.table operation after.1 after.2.1 after.2.2 := by
  have hmem : r.blank ∈ t.repositories.map Repository.blank := List.mem_map_of_mem (List.mem_of_getElem? hr)
  have hserves := Repository.serves (h.indexed r.blank hmem).of_blank (h.tables r.blank hmem) hsuits
  obtain ⟨statement, hstatement, hbound⟩ := hserves.statement
  have hon := execute_onContent hstore h.writes hstatement hbound
  have hblank : (t.settled k operation statement (store.call c (.execute statement) w).1).repositories.map
      Repository.blank = t.repositories.map Repository.blank :=
    map_modify_blank (fun r => r.blank_settle operation _) t.repositories k
  have hperform := perform_active store c w h.calm h.active hr hstatement
  obtain ⟨-, hanswers, htable, hothers⟩ := hserves
  rw [hon] at hanswers htable hothers
  intro after
  have hafter : after = _ := hperform
  rw [hafter]
  refine ⟨hanswers, hothers, hblank, h.calm.settled k operation statement _, h.active,
    hstore.keeps c statement w h.writes hbound, hblank.symm ▸ h.indexed, ?_, hblank.symm ▸ h.agree⟩
  rw [hblank]
  intro r' hr'
  -- Another repository of the same table sees the change, too.
  by_cases hname : r'.table.name = r.table.name
  · have hagree : r'.table = r.table := h.agree r' hr' r.blank hmem hname
    rw [hagree]
    exact htable
  · have hstays := hothers r'.table.name hname
    simp only at hstays ⊢
    rw [hstays]
    exact h.tables r' hr'

/-- The directories of a store, as a connection sees it, by their tables' names. -/
def directories (a : Account ω) (w : ω) (c : Nat) (name : String) : Directory := directory (a.seen w c name)

/-- What may be asked of the repositories at their places. -/
def Askable (t : Transaction) (asked : List (Nat × Operation)) : Prop :=
  ∀ ask ∈ asked, ∃ table, (t.repositories.map Repository.table)[ask.1]? = some table ∧ ask.2.Suits table

theorem Served.tables {table : Table} {answer : Except Error Repository.Reply}
    (h : t.Served a writes w c table operation answer u w') :
    u.repositories.map Repository.table = t.repositories.map Repository.table := by
  have hblank := congrArg (List.map Repository.table) h.blank
  rwa [List.map_map, List.map_map] at hblank

/-- As often as they are asked, repositories answer as their directories do. -/
theorem Working.performAll (hstore : store.Faithful a writes) (asked : List (Nat × Operation)) :
    ∀ {t : Transaction} {w : ω}, t.Working a writes w c → t.Askable asked →
      let after := t.performAll store c asked w
      Directory.Run (t.repositories.map Repository.table) (directories a w c) asked after.1
          (directories a after.2.2 c) ∧
        after.2.1.Working a writes after.2.2 c ∧
        after.2.1.repositories.map Repository.table = t.repositories.map Repository.table := by
  induction asked with
  | nil => exact fun h _ => ⟨.nil _, h, rfl⟩
  | cons ask rest ih =>
    intro t w h haskable
    obtain ⟨k, operation⟩ := ask
    unfold Askable at haskable
    rw [List.forall_mem_cons] at haskable
    obtain ⟨⟨table, htable, hsuits⟩, hrest⟩ := haskable
    have hplace := htable
    rw [List.getElem?_map] at hplace
    obtain ⟨r, hr, rfl⟩ := Option.map_eq_some_iff.mp hplace
    have hserved := h.perform hstore hr hsuits
    have htables := hserved.tables
    rw [performAll_cons]
    have haskable : (t.perform store c k operation w).2.1.Askable rest := by
      rwa [Askable, htables]
    obtain ⟨hrun, hworking, htables'⟩ := ih hserved.working haskable
    rw [htables] at hrun htables'
    refine ⟨.cons htable ?_ (fun other hne => ?_) hrun, hworking, htables'⟩
    · exact hserved.answers
    · exact congrArg directory (hserved.others other hne)

/-- The whole list, and after it pages of one size. -/
def leaves (k size count : Nat) : List (Nat × Operation) :=
  (k, .list .null .null) :: (List.range count).map fun i : Nat => (k, .list (.int size) (.int ↑(size * i)))

/-- What comes of operations one after the other is what comes of finite maps. -/
structure FiniteMap (store : Store ω) (a : Account ω) (w : ω) (c : Nat) (t : Transaction)
    (asked : List (Nat × Operation)) : Prop where
  run :
    let after := t.performAll store c asked w
    Directory.Run (t.repositories.map Repository.table) (directories a w c) asked after.1 (directories a after.2.2 c)
  /-- Pages that follow each other are the list of all, as far as they go. -/
  paged : ∀ (k : Nat) (table : Table) (size count : Nat),
    (t.repositories.map Repository.table)[k]? = some table → fits size = true →
    (∀ i < count, fits ↑(size * i) = true) →
    let after := t.performAll store c asked w
    ∃ (all : List Entity) (pages : List (List Entity)), (directories a after.2.2 c table.name).Lists all ∧
      (after.2.1.performAll store c (leaves k size count) after.2.2).1 =
          .ok (.entities all) :: pages.map (fun page => .ok (.entities page)) ∧
        pages.length = count ∧ pages.flatten = all.take (size * count)
  /-- The order of a list is that of the texts which the store keeps of identifiers, where these have 128 bits. -/
  texts : ∀ (name : String) (all : List Entity),
    (directories a (t.performAll store c asked w).2.2 c name).Lists all → (∀ e ∈ all, idCode e < Nat.pow 16 32) →
      all.Pairwise fun x y => idText x < idText y
  /-- The operations are a run of the transaction, so all that is kept along runs is kept by them. -/
  events : ∃ events : List Event,
    (t.performAll store c asked w).2.1 = t.after events ∧ events.filterMap Event.operation? = asked

theorem Working.paged (hstore : store.Faithful a writes) (h : t.Working a writes w c) {table : Table}
    {size count : Nat} (htable : (t.repositories.map Repository.table)[k]? = some table) (hsize : fits size = true)
    (hcount : ∀ i < count, fits ↑(size * i) = true) :
    ∃ all, (directories a w c table.name).Lists all ∧
      (t.performAll store c (leaves k size count) w).1 = .ok (.entities all) ::
        (List.range count).map fun i => .ok (.entities (page (some size) (some (size * i)) all)) := by
  obtain ⟨r, hr, rfl⟩ := List.mem_map.mp (List.mem_of_getElem? htable)
  have hmem : r.blank ∈ t.repositories.map Repository.blank := List.mem_map_of_mem hr
  have hlists := lists_ordered (h.indexed r.blank hmem).indexed (h.tables r.blank hmem) true
  have haskable : t.Askable (leaves k size count) := by
    intro ask hask
    rcases List.mem_cons.mp hask with rfl | hask
    · exact ⟨_, htable, .list none none (by rintro n ⟨⟩) (by rintro n ⟨⟩)⟩
    · obtain ⟨i, hi, rfl⟩ := List.mem_map.mp hask
      refine ⟨_, htable, .list (some size) (some (size * i)) ?_ ?_⟩
      · rintro n ⟨⟩
        exact hsize
      · rintro n ⟨⟩
        exact hcount i (List.mem_range.mp hi)
  have hleaves : leaves k size count = ((none, none) :: (List.range count).map fun i =>
      (some size, some (size * i))).map fun b => (k, Operation.list (bounded b.1) (bounded b.2)) := by
    simp only [leaves, List.map_cons, List.map_map]
    rfl
  have hrun := (h.performAll hstore _ haskable).1
  rw [hleaves] at hrun ⊢
  refine ⟨_, hlists, (hrun.listed htable _ hlists).trans ?_⟩
  simp [page]

theorem working_sample (hcalm : t.Calm) (hactive : t.session.phase = .active) (hwrites : writes w c)
    (hrepositories : ∀ r ∈ t.repositories, r.blank = Repository.users ∨ r.blank = Repository.orders)
    (husers : IsTable Schema.users (a.seen w c "users")) (horders : IsTable Schema.orders (a.seen w c "orders")) :
    t.Working a writes w c := by
  have hsample : ∀ r ∈ t.repositories.map Repository.blank, r = Repository.users ∨ r = Repository.orders := by
    simpa using hrepositories
  refine ⟨hcalm, hactive, hwrites, fun r hr => ?_, fun r hr => ?_, fun r hr r' hr' => ?_⟩
  · rcases hsample r hr with rfl | rfl
    · exact Repository.isIndexed_users
    · exact Repository.isIndexed_orders
  · rcases hsample r hr with rfl | rfl
    · exact husers
    · exact horders
  · rcases hsample r hr with rfl | rfl <;> rcases hsample r' hr' with rfl | rfl <;> decide

theorem finite_map {asked : List (Nat × Operation)} (hstore : store.Faithful a writes) (hcalm : t.Calm)
    (hactive : t.session.phase = .active) (hwrites : writes w c)
    (hrepositories : ∀ r ∈ t.repositories, r.blank = Repository.users ∨ r.blank = Repository.orders)
    (husers : IsTable Schema.users (a.seen w c "users")) (horders : IsTable Schema.orders (a.seen w c "orders"))
    (haskable : t.Askable asked) : FiniteMap store a w c t asked := by
  have hworking := working_sample hcalm hactive hwrites hrepositories husers horders
  obtain ⟨hrun, hafter, htables⟩ := hworking.performAll hstore asked haskable
  refine ⟨hrun, fun k table size count htable hsize hcount => ?_, fun _ _ => ascending_texts,
    performAll_after store c asked t w⟩
  obtain ⟨all, hall, hpages⟩ := hafter.paged hstore (htables.symm ▸ htable) hsize hcount
  refine ⟨all, (List.range count).map fun i => page (some size) (some (size * i)) all, hall, ?_, by simp, ?_⟩
  · rw [hpages, List.map_map]
    rfl
  · rw [← flatMap_pages, List.flatMap_def]

def shop : Database where
  schema := [Schema.users, Schema.orders]
  committed name := if name = "users" then [Schema.user ⟨1⟩ "ada" "ada@x.org"] else []

def atWork : Transaction := start "s" [Repository.users, Repository.orders]

/-- The second user has an address that is taken. -/
def errands : List (Nat × Operation) :=
  [(0, .add (Schema.user ⟨2⟩ "grace" "grace@x.org")), (0, .add (Schema.user ⟨3⟩ "countess" "ada@x.org")),
    (1, .add (Schema.order ⟨7⟩ ⟨1⟩ "tea" 5)), (0, .byEmail (.text "grace@x.org")), (1, .forUser (.uuid ⟨1⟩)),
    (0, .delete (.uuid ⟨1⟩)), (0, .exists (.uuid ⟨1⟩)), (0, .count)]

theorem askable_errands : atWork.Askable errands := by
  have husers : (atWork.repositories.map Repository.table)[0]? = some Schema.users := rfl
  have horders : (atWork.repositories.map Repository.table)[1]? = some Schema.orders := rfl
  simp only [Askable, errands, List.forall_mem_cons]
  refine ⟨⟨_, husers, .add _ (Schema.isEntity_users.mpr ⟨_, _, _, rfl⟩)⟩,
    ⟨_, husers, .add _ (Schema.isEntity_users.mpr ⟨_, _, _, rfl⟩)⟩,
    ⟨_, horders, .add _ (Schema.isEntity_orders.mpr ⟨_, _, _, _, by decide, rfl⟩)⟩,
    ⟨_, husers, Operation.suits_byEmail _⟩, ⟨_, horders, Operation.suits_forUser _⟩,
    ⟨_, husers, .delete _⟩, ⟨_, husers, .exists _⟩, ⟨_, husers, .count⟩, nofun⟩

theorem finite_map_errands :
    Simulation.Shared.store.Faithful Database.account (fun d c => d.canWrite c = true) ∧
      atWork.Calm ∧ atWork.session.phase = .active ∧ shop.canWrite 0 = true ∧
      IsTable Schema.users (Database.account.seen shop 0 "users") ∧
      IsTable Schema.orders (Database.account.seen shop 0 "orders") ∧
      (atWork.performAll Simulation.Shared.store 0 errands shop).1.map Except.toBool =
        [true, false, true, true, true, true, true, true] ∧
      FiniteMap Simulation.Shared.store Database.account shop 0 atWork errands := by
  have hrepositories : ∀ r ∈ atWork.repositories, r.blank = Repository.users ∨ r.blank = Repository.orders := by
    rintro r hr
    rcases List.mem_cons.mp hr with rfl | hr
    · exact .inl rfl
    · rw [List.mem_singleton.mp hr]
      exact .inr rfl
  have husers : IsTable Schema.users (Database.account.seen shop 0 "users") := by
    constructor
    · intro row hrow
      rw [List.mem_singleton.mp hrow]
      exact Schema.isEntity_users.mpr ⟨_, _, _, rfl⟩
    · exact fun c _ => List.nodup_singleton _
  have horders : IsTable Schema.orders (Database.account.seen shop 0 "orders") := ⟨nofun, fun _ _ => List.nodup_nil⟩
  exact ⟨Database.faithful, calm_start _ _, rfl, rfl, husers, horders, by decide +kernel,
    finite_map Database.faithful (calm_start _ _) rfl rfl hrepositories husers horders askable_errands⟩

end Transaction
end Transact
