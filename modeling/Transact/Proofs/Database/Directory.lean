import Transact.Proofs.Database.Rows
import Mathlib.Data.List.Lex
import Mathlib.Data.List.Sort

/-! A table of entities as a directory: by its identifier each is found once, listed in its place, added
and taken away. -/
namespace Transact

open Database

namespace Text

theorem hexDigit_lt : ∀ a b : Fin 16, a < b → hexDigit a < hexDigit b := by decide

theorem append_lt_append {xs ys : List Char} (h : xs < ys) (hlength : xs.length = ys.length)
    (as bs : List Char) : xs ++ as < ys ++ bs := by
  change List.Lex (· < ·) xs ys at h
  induction h with
  | nil => cases hlength
  | rel h => exact .rel h
  | cons _ ih => exact .cons (ih (Nat.succ.inj hlength))

/-- Of numbers with so many digits the smaller one comes first as a text, too. -/
theorem hex_lt_hex {width a b : Nat} (hb : b < Nat.pow 16 width) (h : a < b) : hex width a < hex width b := by
  induction width generalizing a b with
  | zero => exact absurd (Nat.lt_one_iff.mp hb) (Nat.ne_zero_of_lt h)
  | succ width ih =>
    rcases Nat.lt_or_ge (a / 16) (b / 16) with hrest | hrest
    · have hb' : b / 16 < Nat.pow 16 width := Nat.div_lt_of_lt_mul (hb.trans_eq (Nat.mul_comm _ _))
      exact append_lt_append (ih hb' hrest) (by simp) _ _
    · have hsame : a / 16 = b / 16 := by omega
      have hdigit : a % 16 < b % 16 := by omega
      rw [hex, hex, hsame]
      exact List.Lex.append_left _ (.rel (hexDigit_lt ⟨a % 16, by omega⟩ ⟨b % 16, by omega⟩ hdigit)) _

end Text

theorem Uuid.hexText_lt {u v : Uuid} (hv : v.code < Nat.pow 16 32) (h : u.code < v.code) : u.hexText < v.hexText := by
  rw [String.lt_iff, hexText, hexText, String.toList_ofList, String.toList_ofList]
  exact Text.hex_lt_hex hv h

/-- The entities of a table by their identifiers. -/
abbrev Directory := Uuid → Option Entity

namespace Directory

def put (m : Directory) (u : Uuid) (e : Entity) : Directory := fun other => if other = u then some e else m other

def drop (m : Directory) (u : Uuid) : Directory := fun other => if other = u then none else m other

/-- One of the entities has that value in a column. -/
def Has (m : Directory) (column : String) (v : Value) : Prop := ∃ u e, m u = some e ∧ cell e column = v

end Directory

/-- The number of an entity's identifier. -/
def idCode (e : Entity) : Nat :=
  match cell e "id" with
  | .uuid u => u.code
  | _ => 0

/-- The text that is kept of an entity's identifier. -/
def idText (e : Entity) : String :=
  match cell e "id" with
  | .uuid u => u.hexText
  | _ => ""

/-- All entities of a directory, by ascending identifiers. -/
structure Directory.Lists (m : Directory) (entities : List Entity) : Prop where
  ascending : entities.Pairwise fun a b => idCode a < idCode b
  complete : ∀ e, e ∈ entities ↔ ∃ u, m u = some e

/-- There is one list of a directory. -/
theorem Directory.Lists.unique {m : Directory} {xs ys : List Entity} (hxs : m.Lists xs) (hys : m.Lists ys) :
    xs = ys := by
  have hnodup {l : List Entity} (hl : m.Lists l) : l.Nodup :=
    hl.ascending.imp fun hlt heq => by rw [heq] at hlt; exact lt_irrefl _ hlt
  have hperm : xs.Perm ys := by
    rw [List.perm_ext_iff_of_nodup (hnodup hxs) (hnodup hys)]
    exact fun e => (hxs.complete e).trans (hys.complete e).symm
  refine hperm.eq_of_pairwise (fun a b _ _ hab hba => ?_) hxs.ascending hys.ascending
  exact absurd (hab.trans hba) (lt_irrefl _)

/-- A table whose key is a column of identifiers, by the name `id`. -/
structure Table.IsIndexed (t : Table) : Prop where
  names : t.columnNames.Nodup
  key : ∃ c, t.keyColumn? = some c ∧ c.name = "id" ∧ c.kind = .uuid

namespace Database

variable {t : Table} {e row : Entity} {c : Column} {v : Value} {u : Uuid} {rows : List Entity}

/-- Entities, of which no two are alike in a column that is unique. -/
structure IsTable (t : Table) (rows : List Entity) : Prop where
  entities : ∀ row ∈ rows, t.IsEntity row
  unique : ∀ c ∈ uniqueColumns t, (rows.map (cell · c.name)).Nodup

def directory (rows : List Entity) : Directory := fun u => rows.find? fun row => cell row "id" == .uuid u

theorem directory_some (h : directory rows u = some e) : e ∈ rows ∧ cell e "id" = .uuid u :=
  ⟨List.mem_of_find?_eq_some h,
    beq_iff_eq.mp (List.find?_some (p := fun row => cell row "id" == .uuid u) h)⟩

theorem has_id : (directory rows).Has "id" (.uuid u) ↔ (directory rows u).isSome = true := by
  rw [Option.isSome_iff_exists]
  constructor
  · rintro ⟨other, e, h, hid⟩
    obtain rfl : other = u := Value.uuid.inj ((directory_some h).2.symm.trans hid)
    exact ⟨e, h⟩
  · rintro ⟨e, h⟩
    exact ⟨u, e, h, (directory_some h).2⟩

/-- Two rows that are alike in a unique column are one. -/
theorem IsTable.eq (hrows : IsTable t rows) (hc : c ∈ uniqueColumns t) {a b : Entity} (ha : a ∈ rows)
    (hb : b ∈ rows) (hcell : cell a c.name = cell b c.name) : a = b :=
  List.inj_on_of_nodup_map (hrows.unique c hc) ha hb hcell

theorem IsTable.filter (hrows : IsTable t rows) (p : Entity → Bool) : IsTable t (rows.filter p) where
  entities row hrow := hrows.entities row (List.mem_of_mem_filter hrow)
  unique c hc := (hrows.unique c hc).sublist (List.filter_sublist.map _)

theorem IsTable.append (hrows : IsTable t rows) (he : t.IsEntity e) (hfree : ∀ c, ¬ Clashes t e rows c) :
    IsTable t (rows ++ [e]) where
  entities row hrow := by
    rcases List.mem_append.mp hrow with hrow | hrow
    · exact hrows.entities row hrow
    · rwa [List.mem_singleton.mp hrow]
  unique c hc := by
    rw [List.map_append, List.nodup_append]
    refine ⟨hrows.unique c hc, List.nodup_singleton _, ?_⟩
    rintro _ hother _ hnew rfl
    obtain ⟨other, hother, hcell⟩ := List.mem_map.mp hother
    rw [List.map_singleton, List.mem_singleton] at hnew
    exact hfree c ⟨hc, other, hother, hcell.trans hnew⟩

section

variable (ht : t.IsIndexed)

include ht

theorem exists_id : ∃ c ∈ t.columns, c ∈ uniqueColumns t ∧ c.name = "id" ∧ c.kind = .uuid := by
  obtain ⟨c, hkey, hname, hkind⟩ := ht.key
  exact ⟨c, (mem_keyColumn hkey).1, (mem_keyColumn hkey).2, hname, hkind⟩

theorem holds_id : holds t ⟨"id", .uuid u⟩ = fun row => cell row "id" == .uuid u := by
  obtain ⟨c, hc, -, hname, hkind⟩ := exists_id ht
  have hv : c.kind.Keeps (.uuid u) := by rw [hkind]; trivial
  funext row
  rw [← hname, Bool.eq_iff_iff, holds_iff ht.names hc hv, beq_iff_eq]

theorem identified (he : t.IsEntity e) : ∃ u, cell e "id" = .uuid u := by
  obtain ⟨c, hc, -, hname, hkind⟩ := exists_id ht
  have hkeeps := he.keeps c hc
  rwa [hname, hkind, ColumnKind.keeps_uuid] at hkeeps

variable (hrows : IsTable t rows)

include hrows

theorem id_inj {a b : Entity} (ha : a ∈ rows) (hb : b ∈ rows) (hcell : cell a "id" = cell b "id") : a = b := by
  obtain ⟨c, -, hc, hname, -⟩ := exists_id ht
  exact hrows.eq hc ha hb (by rwa [hname])

theorem directory_of_mem (he : e ∈ rows) (hid : cell e "id" = .uuid u) : directory rows u = some e := by
  cases hfind : directory rows u with
  | none =>
    have hnone := List.find?_eq_none.mp hfind e he
    simp [hid] at hnone
  | some other =>
    obtain ⟨hother, hid'⟩ := directory_some hfind
    rw [id_inj ht hrows hother he (hid'.trans hid.symm)]

theorem mem_iff : e ∈ rows ↔ ∃ u, directory rows u = some e := by
  constructor
  · intro he
    obtain ⟨u, hid⟩ := identified ht (hrows.entities e he)
    exact ⟨u, directory_of_mem ht hrows he hid⟩
  · rintro ⟨u, h⟩
    exact (directory_some h).1

theorem has_iff {column : String} : (directory rows).Has column v ↔ ∃ e ∈ rows, cell e column = v := by
  constructor
  · rintro ⟨u, e, h, hcell⟩
    exact ⟨e, (directory_some h).1, hcell⟩
  · rintro ⟨e, he, hcell⟩
    obtain ⟨u, h⟩ := (mem_iff ht hrows).mp he
    exact ⟨u, e, h, hcell⟩

/-! Changes -/

omit hrows in
theorem directory_append (hfree : ∀ c, ¬ Clashes t e rows c) (hid : cell e "id" = .uuid u) :
    directory (rows ++ [e]) = (directory rows).put u e := by
  obtain ⟨c, -, hc, hname, -⟩ := exists_id ht
  funext other
  simp only [directory, Directory.put, List.find?_append, List.find?_singleton, hid]
  by_cases hother : other = u
  · have hnone : rows.find? (fun row => cell row "id" == .uuid other) = none := by
      rw [List.find?_eq_none]
      intro row hrow hcell
      refine hfree c ⟨hc, row, hrow, ?_⟩
      rw [hname, hid, beq_iff_eq.mp hcell, hother]
    rw [hnone, hother]
    simp
  · have hne : (Value.uuid u == .uuid other) = false := by simpa using Ne.symm hother
    simp [hne, hother]

omit hrows in
theorem directory_delete : directory (rows.filter fun row => !holds t ⟨"id", .uuid u⟩ row) =
    (directory rows).drop u := by
  funext other
  simp only [directory, Directory.drop, List.find?_filter, holds_id ht]
  by_cases hother : other = u
  · subst hother
    simp
  · have hsame (row : Entity) : (!(cell row "id" == .uuid u) && (cell row "id" == .uuid other)) =
        (cell row "id" == .uuid other) := by
      cases hrow : cell row "id" == .uuid other with
      | false => simp
      | true => simp [beq_iff_eq.mp hrow, hother]
    simp [hsame, hother]

omit hrows in
/-- By its identifier an entity is found. -/
theorem head_filter_id : (rows.filter (holds t ⟨"id", .uuid u⟩)).head? = directory rows u := by
  simp only [List.head?_filter, holds_id ht, directory]

/-! Order -/

omit ht hrows in
theorem idCode_eq (hid : cell e "id" = .uuid u) : idCode e = u.code := by
  simp only [idCode, hid]

omit ht hrows in
/-- Identifiers of 128 bits come in the order of the texts that are kept of them. -/
theorem ascending_texts {entities : List Entity} (h : (directory rows).Lists entities)
    (hbits : ∀ e ∈ entities, idCode e < Nat.pow 16 32) : entities.Pairwise fun a b => idText a < idText b := by
  refine h.ascending.imp_of_mem fun {a b} ha hb hlt => ?_
  obtain ⟨u, hu⟩ := (h.complete a).mp ha
  obtain ⟨v, hv⟩ := (h.complete b).mp hb
  have hua := (directory_some hu).2
  have hvb := (directory_some hv).2
  have hshort := hbits b hb
  rw [idCode_eq hvb] at hshort
  rw [idCode_eq hua, idCode_eq hvb] at hlt
  simp only [idText, hua, hvb]
  exact Uuid.hexText_lt hshort hlt

/-- In the order of its key a table is the list of its directory. -/
theorem lists_ordered (spelled : Bool) : (directory rows).Lists (ordered (some ⟨"id", spelled⟩) rows) := by
  have hperm : (ordered (some ⟨"id", spelled⟩) rows).Perm rows := List.mergeSort_perm rows _
  have hcodes : (rows.map idCode).Nodup := by
    obtain ⟨c, -, hc, hname, -⟩ := exists_id ht
    refine List.Nodup.map_on (fun a ha b hb hcode => ?_) ((hrows.unique c hc).of_map)
    obtain ⟨u, hu⟩ := identified ht (hrows.entities a ha)
    obtain ⟨v, hv⟩ := identified ht (hrows.entities b hb)
    rw [idCode_eq hu, idCode_eq hv] at hcode
    have huv : u = v := congrArg Uuid.mk hcode
    exact id_inj ht hrows ha hb (by rw [hu, hv, huv])
  -- `atMost` is no total order of all values, but on identifiers it is that of their codes.
  have hsorted : ((ordered (some ⟨"id", spelled⟩) rows).map idCode).Pairwise (· ≤ ·) := by
    have hmap := List.map_mergeSort (r := fun a b => atMost (cell a "id") (cell b "id"))
      (s := fun a b : Nat => decide (a ≤ b)) (f := idCode) (l := rows) (by
        intro a ha b hb
        obtain ⟨u, hu⟩ := identified ht (hrows.entities a ha)
        obtain ⟨v, hv⟩ := identified ht (hrows.entities b hb)
        simp only [idCode_eq hu, idCode_eq hv, hu, hv]
        rfl)
    rw [ordered, hmap]
    refine (List.pairwise_mergeSort ?_ ?_ _).imp of_decide_eq_true
    · exact fun a b c hab hbc => decide_eq_true ((of_decide_eq_true hab).trans (of_decide_eq_true hbc))
    · exact fun a b => by simpa using Nat.le_total a b
  constructor
  case ascending =>
    have hnodup : ((ordered (some ⟨"id", spelled⟩) rows).map idCode).Nodup := (hperm.map idCode).nodup_iff.mpr hcodes
    have hboth := hsorted.and hnodup
    rw [List.pairwise_map] at hboth
    exact hboth.imp fun h => Nat.lt_of_le_of_ne h.1 h.2
  case complete => exact fun e => hperm.mem_iff.trans (mem_iff ht hrows)

end

/-- The text in a column. -/
def textOf (column : String) (e : Entity) : String :=
  match cell e column with
  | .text s => s
  | _ => ""

theorem ordered_text {column : String} {spelled : Bool}
    (htext : ∀ row ∈ rows, ∃ s, cell row column = .text s) :
    (ordered (some ⟨column, spelled⟩) rows).Pairwise fun a b => textOf column a ≤ textOf column b := by
  have hmap := List.map_mergeSort (r := fun a b => atMost (cell a column) (cell b column))
    (s := fun a b : String => !decide (b < a)) (f := textOf column) (l := rows) (by
      intro a ha b hb
      obtain ⟨s, hs⟩ := htext a ha
      obtain ⟨s', hs'⟩ := htext b hb
      simp only [textOf, hs, hs']
      rfl)
  rw [← List.pairwise_map, ordered, hmap]
  refine (List.pairwise_mergeSort ?_ ?_ _).imp fun {a b} h => ?_
  · intro a b c hab hbc
    simp only [Bool.not_eq_true', decide_eq_false_iff_not, String.not_lt] at hab hbc ⊢
    exact String.le_trans hab hbc
  · intro a b
    simp only [Bool.or_eq_true, Bool.not_eq_true', decide_eq_false_iff_not, String.not_lt]
    exact String.le_total a b
  · simpa only [Bool.not_eq_true', decide_eq_false_iff_not, String.not_lt] using h

/-! Pages -/

/-- A page of a list: so many of it are left out, and so many taken. -/
def page (limit offset : Option Nat) (entities : List Entity) : List Entity :=
  let rest := entities.drop (offset.getD 0)
  match limit with
  | some n => rest.take n
  | none => rest

theorem mem_of_mem_page {limit offset : Option Nat} {entities : List Entity} (h : e ∈ page limit offset entities) :
    e ∈ entities := by
  cases limit with
  | none => exact List.mem_of_mem_drop h
  | some n => exact List.mem_of_mem_drop (List.mem_of_mem_take h)

theorem paged_eq (limit offset : Option Nat) (entities : List Entity) :
    paged (limit.map Int.ofNat) (offset.map Int.ofNat) entities = page limit offset entities := by
  cases limit <;> cases offset <;> simp [paged, page]

/-- Pages of one size that follow each other are the beginning of the list. -/
theorem flatMap_pages (size count : Nat) (entities : List Entity) :
    ((List.range count).flatMap fun i => page (some size) (some (size * i)) entities) =
      entities.take (size * count) := by
  induction count with
  | zero => simp
  | succ count ih =>
    rw [List.range_succ, List.flatMap_append, ih, List.flatMap_singleton, Nat.mul_succ, List.take_add]
    rfl

end Database
end Transact
