import Transact.Proofs.Url.Legible
import Transact.Url.Printer
import Mathlib.Data.List.Basic

/-! The query of a URL is read back from its text: the pairs are found again, and collected by their
keys. -/
namespace Transact.Url

variable {c : Char} {cs a b : List Char} {k v : String}

/-! ### Between the ampersands -/

theorem split_of_not_mem (h : c ∉ cs) : split c cs = [cs] := by
  induction cs with
  | nil => rfl
  | cons d cs ih =>
    have hd : d ≠ c := fun heq => h (heq ▸ List.mem_cons_self)
    have hrest := ih fun hc => h (List.mem_cons_of_mem _ hc)
    simp [split, hd, hrest]

theorem split_append (ha : c ∉ a) (b : List Char) : split c (a ++ c :: b) = a :: split c b := by
  induction a with
  | nil => simp [split]
  | cons d a ih =>
    have hd : d ≠ c := fun heq => ha (heq ▸ List.mem_cons_self)
    have hrest := ih fun hc => ha (List.mem_cons_of_mem _ hc)
    simp [split, hd, hrest]

theorem split_joinPairs {pairs : List (List Char)} (hne : pairs ≠ []) (h : ∀ p ∈ pairs, '&' ∉ p) :
    split '&' (joinPairs pairs) = pairs := by
  induction pairs with
  | nil => exact absurd rfl hne
  | cons p rest ih =>
    have hp := h p List.mem_cons_self
    match rest with
    | [] => exact split_of_not_mem hp
    | q :: rest =>
      rw [joinPairs, split_append hp, ih (List.cons_ne_nil q rest) fun r hr => h r (List.mem_cons_of_mem _ hr)]
      simp

theorem mem_joinPairs {pairs : List (List Char)} (h : c ∈ joinPairs pairs) : c = '&' ∨ ∃ p ∈ pairs, c ∈ p := by
  induction pairs with
  | nil => cases h
  | cons p rest ih =>
    match rest with
    | [] => exact .inr ⟨p, by simp, h⟩
    | q :: rest =>
      rw [joinPairs] at h
      rcases List.mem_append.mp h with h | h
      · exact .inr ⟨p, by simp, h⟩
      · rcases List.mem_cons.mp h with h | h
        · exact .inl h
        · exact (ih h).imp_right fun ⟨r, hr, hc⟩ => ⟨r, List.mem_cons_of_mem _ hr, hc⟩
      simp

/-! ### Pairs -/

/-- What stands in an encoded key or value. -/
theorem mem_encodePair (h : c ∈ encodePair k v) :
    c = '=' ∨ c = '%' ∨ Text.Percent.isUnreserved c = true ∨ c = '+' := by
  rcases List.mem_append.mp h with h | h
  · exact .inr (Text.Percent.mem_encodePlus h)
  · rcases List.mem_cons.mp h with h | h
    · exact .inl h
    · exact .inr (Text.Percent.mem_encodePlus h)

theorem pair?_encodePair (hv : v ≠ "") : pair? (encodePair k v) = some (k, v) := by
  have hkey : '=' ∉ Text.Percent.encodePlus k.toList := by
    intro hmem
    rcases Text.Percent.mem_encodePlus hmem with h | h | h <;> cases h
  have hvalue : Text.Percent.encodePlus v.toList ≠ [] :=
    Text.Percent.encodePlus_ne_nil fun hnil => hv (by simpa using congrArg String.ofList hnil)
  rw [pair?, encodePair, cut?_eq_some_iff.mpr ⟨hkey, rfl⟩]
  split
  · rename_i heq
    exact absurd (Prod.mk.inj (Option.some.inj heq)).2 hvalue
  · rename_i heq
    obtain ⟨rfl, rfl⟩ := Prod.mk.inj (Option.some.inj heq)
    rw [Text.Percent.decodePlus_encodePlus, Text.Percent.decodePlus_encodePlus, String.ofList_toList,
      String.ofList_toList]
  · rename_i heq
    cases heq

/-! ### Keys with their values -/

def Query.pairs (query : Query) : List (String × String) := query.flatMap fun (key, values) => values.map (key, ·)

def collect (query : Query) (pairs : List (String × String)) : Query :=
  pairs.foldl (fun query (key, value) => addValue key value query) query

theorem parseQuery_eq (cs : List Char) : parseQuery cs = collect [] ((split '&' cs).filterMap pair?) := rfl

theorem collect_cons (query : Query) (k v : String) (pairs : List (String × String)) :
    collect query ((k, v) :: pairs) = collect (addValue k v query) pairs := rfl

theorem addValue_last {query : Query} (h : k ∉ query.map (·.1)) (values : List String) :
    addValue k v (query ++ [(k, values)]) = query ++ [(k, values ++ [v])] := by
  induction query with
  | nil => simp [addValue]
  | cons e rest ih =>
    rw [List.map_cons, List.mem_cons, not_or] at h
    rw [List.cons_append, addValue, if_neg (Ne.symm h.1), ih h.2]
    rfl

theorem addValue_new {query : Query} (h : k ∉ query.map (·.1)) : addValue k v query = query ++ [(k, [v])] := by
  induction query with
  | nil => rfl
  | cons e rest ih =>
    rw [List.map_cons, List.mem_cons, not_or] at h
    rw [addValue, if_neg (Ne.symm h.1), ih h.2]
    rfl

theorem collect_more {query : Query} (h : k ∉ query.map (·.1)) (values more : List String) :
    collect (query ++ [(k, values)]) (more.map (k, ·)) = query ++ [(k, values ++ more)] := by
  induction more generalizing values with
  | nil => simp [collect]
  | cons v more ih =>
    rw [List.map_cons, collect_cons, addValue_last h]
    exact (ih _).trans (by rw [List.append_assoc, List.singleton_append])

theorem collect_values {query : Query} (h : k ∉ query.map (·.1)) {values : List String} (hne : values ≠ []) :
    collect query (values.map (k, ·)) = query ++ [(k, values)] := by
  cases values with
  | nil => exact absurd rfl hne
  | cons v more =>
    rw [List.map_cons, collect_cons, addValue_new h]
    exact collect_more h [v] more

theorem collect_pairs {query : Query} (before : Query) (hkeys : ((before ++ query).map (·.1)).Nodup)
    (hfilled : ∀ e ∈ query, e.2 ≠ []) : collect before query.pairs = before ++ query := by
  induction query generalizing before with
  | nil => simp [Query.pairs, collect]
  | cons e rest ih =>
    obtain ⟨k, values⟩ := e
    have hk : k ∉ before.map (·.1) := by
      rw [List.map_append, List.nodup_append] at hkeys
      exact fun hmem => hkeys.2.2 k hmem k List.mem_cons_self rfl
    have hvalues := collect_values hk (hfilled (k, values) List.mem_cons_self)
    rw [List.append_cons] at hkeys
    have hrest := ih (before ++ [(k, values)]) hkeys fun e he => hfilled e (List.mem_cons_of_mem _ he)
    rw [List.append_cons, ← hrest, ← hvalues]
    simp [Query.pairs, collect, List.foldl_append]

/-! ### The whole query -/

/-- The text of a query behind its question mark. -/
def queryText (u : Url) : List Char := joinPairs (Query.pairs u.sortedQuery |>.map fun (k, v) => encodePair k v)

theorem printQuery_eq (u : Url) : u.printQuery = if u.query.isEmpty then [] else '?' :: u.queryText := by
  simp [printQuery, queryText, Query.pairs, List.map_flatMap, Function.comp_def]

theorem sortedQuery_perm (u : Url) : u.sortedQuery.Perm u.query := List.mergeSort_perm _ _

theorem Query.IsProper.perm {query other : Query} (h : query.IsProper) (hperm : other.Perm query) : other.IsProper where
  keys := (hperm.map _).nodup_iff.mpr h.keys
  filled := fun e he => h.filled e (hperm.mem_iff.mp he)
  values := fun e he => h.values e (hperm.mem_iff.mp he)

theorem Query.IsProper.pairs_ne_nil {query : Query} (h : query.IsProper) (hne : query ≠ []) : query.pairs ≠ [] := by
  cases query with
  | nil => exact absurd rfl hne
  | cons e rest =>
    have he := h.filled e List.mem_cons_self
    simp [pairs, he]

theorem parseQuery_queryText {u : Url} (h : Query.IsProper u.query) (hne : u.query ≠ []) :
    parseQuery u.queryText = u.sortedQuery := by
  have hsorted := h.perm u.sortedQuery_perm
  have hpairs : ∀ p ∈ Query.pairs u.sortedQuery, p.2 ≠ "" := by
    intro p hp
    obtain ⟨e, he, hp⟩ := List.mem_flatMap.mp hp
    obtain ⟨v, hv, rfl⟩ := List.mem_map.mp hp
    exact hsorted.values e he v hv
  have hsplit : split '&' u.queryText = (Query.pairs u.sortedQuery).map fun (k, v) => encodePair k v := by
    refine split_joinPairs ?_ ?_
    · have hsome : u.sortedQuery ≠ [] := fun hnil => hne (List.nil_perm.mp (hnil ▸ u.sortedQuery_perm))
      simpa using hsorted.pairs_ne_nil hsome
    · intro p hp hmem
      obtain ⟨e, -, rfl⟩ := List.mem_map.mp hp
      rcases mem_encodePair hmem with h | h | h | h <;> cases h
  have hread : ((Query.pairs u.sortedQuery).map fun (k, v) => encodePair k v).filterMap pair? = Query.pairs u.sortedQuery := by
    rw [List.filterMap_map]
    have hread : ∀ p ∈ Query.pairs u.sortedQuery, (pair? ∘ fun (k, v) => encodePair k v) p = some p :=
      fun p hp => pair?_encodePair (hpairs p hp)
    rw [List.filterMap_congr hread]
    exact List.filterMap_some
  rw [parseQuery_eq, hsplit, hread]
  exact collect_pairs [] hsorted.keys hsorted.filled

end Transact.Url
