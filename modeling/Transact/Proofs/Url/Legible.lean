import Transact.Proofs.Url.Grammar
import Transact.Proofs.Text.Percent
import Transact.Proofs.Text.Integer

/-! What is true of every URL that was read: it can be written so that the reader finds each part again. -/
namespace Transact.Url

/-- The parts that a text is taken apart into. -/
structure Parts where
  name : List Char
  user : Option User
  host : Option (List Char)
  port : Option (List Char)
  database : Option (List Char)
  query : Option (List Char)

def takeUser (cs : List Char) : Option User × List Char :=
  match user? cs with
  | some (user, rest) => (some user, rest)
  | none => (none, cs)

def isQueryChar (c : Char) : Bool := c != '\n'

def isDatabaseChar (c : Char) : Bool := c != '?'

/-- What stands behind the host. -/
def takeRest (name : List Char) (user : Option User) (host : Option (List Char)) (cs : List Char) : Parts :=
  let port := part? ':' isBracketChar cs
  let database := part? '/' isDatabaseChar port.2
  { name, user, host, port := port.1, database := database.1, query := (part? '?' isQueryChar database.2).1 }

def parts? (cs : List Char) : Option Parts :=
  (scheme? cs).map fun (name, afterName) =>
    let user := takeUser afterName
    let host := host? user.2
    takeRest name user.1 host.1 host.2

def Parts.url (p : Parts) (port : Option Int) : Url where
  driverName := String.ofList p.name
  username := p.user.map fun u => decoded u.name
  password := p.user.bind fun u => u.password.map decoded
  host := p.host.map String.ofList
  port := port
  database := p.database.map decoded
  query := (p.query.map parseQuery).getD []

theorem parseList_eq (cs : List Char) : parseList cs =
    match parts? cs with
    | none => .error .noScheme
    | some p => (parsePort p.port).map p.url := by
  rw [parseList, parts?]
  cases scheme? cs with
  | none => rfl
  | some taken =>
    obtain ⟨name, afterName⟩ := taken
    rw [Option.map_some]
    dsimp only [takeUser]
    cases user? afterName with
    | none => rfl
    | some user => rfl

/-! ### The query -/

abbrev Query := List (String × List String)

/-- Each key once, with one value at least, none of them empty. -/
structure Query.IsProper (query : Query) : Prop where
  keys : (query.map (·.1)).Nodup
  filled : ∀ e ∈ query, e.2 ≠ []
  values : ∀ e ∈ query, ∀ v ∈ e.2, v ≠ ""

theorem keys_addValue (key value : String) (query : Query) :
    (addValue key value query).map (·.1) =
      if key ∈ query.map (·.1) then query.map (·.1) else query.map (·.1) ++ [key] := by
  induction query with
  | nil => simp [addValue]
  | cons e rest ih =>
    obtain ⟨k, values⟩ := e
    rw [addValue]
    by_cases hk : k = key
    · simp [hk]
    · rw [if_neg hk, List.map_cons, ih]
      have hne : key ≠ k := fun heq => hk heq.symm
      by_cases hmem : key ∈ rest.map (·.1)
      · simp [hmem]
      · simp [hmem, hne]

theorem mem_addValue {key value : String} {query : Query} {e : String × List String} (h : e ∈ addValue key value query) :
    e ∈ query ∨ e = (key, [value]) ∨ ∃ values, (key, values) ∈ query ∧ e = (key, values ++ [value]) := by
  induction query with
  | nil => exact .inr (.inl (by simpa [addValue] using h))
  | cons first rest ih =>
    obtain ⟨k, values⟩ := first
    rw [addValue] at h
    split at h
    · rename_i hk
      subst hk
      rcases List.mem_cons.mp h with h | h
      · exact .inr (.inr ⟨values, List.mem_cons_self, h⟩)
      · exact .inl (List.mem_cons_of_mem _ h)
    · rcases List.mem_cons.mp h with h | h
      · exact .inl (h ▸ List.mem_cons_self)
      · rcases ih h with h | h | ⟨vs, hvs, h⟩
        · exact .inl (List.mem_cons_of_mem _ h)
        · exact .inr (.inl h)
        · exact .inr (.inr ⟨vs, List.mem_cons_of_mem _ hvs, h⟩)

theorem Query.IsProper.addValue {query : Query} {key value : String} (h : query.IsProper) (hvalue : value ≠ "") :
    Query.IsProper (Url.addValue key value query) where
  keys := by
    rw [keys_addValue]
    split
    · exact h.keys
    · rename_i hnot
      refine List.nodup_append.mpr ⟨h.keys, by simp, fun k hk other hother heq => hnot ?_⟩
      rw [← List.mem_singleton.mp hother, ← heq]
      exact hk
  filled := by
    intro e he
    rcases mem_addValue he with he | rfl | ⟨vs, -, rfl⟩
    · exact h.filled e he
    · simp
    · simp
  values := by
    intro e he
    rcases mem_addValue he with he | rfl | ⟨vs, hvs, rfl⟩
    · exact h.values e he
    · simpa using hvalue
    · intro v hv
      rcases List.mem_append.mp hv with hv | hv
      · exact h.values _ hvs v hv
      · exact List.mem_singleton.mp hv ▸ hvalue

theorem value_of_pair? {cs : List Char} {key value : String} (h : pair? cs = some (key, value)) : value ≠ "" := by
  rw [pair?] at h
  split at h
  · cases h
  · rename_i k v hne heq
    cases h
    intro hempty
    exact Text.Percent.decodePlus_ne_nil hne (by simpa using congrArg String.toList hempty)
  · cases h

theorem isProper_parseQuery (cs : List Char) : Query.IsProper (parseQuery cs) := by
  rw [parseQuery]
  have hall : ∀ e ∈ (split '&' cs).filterMap pair?, e.2 ≠ "" := by
    intro e he
    obtain ⟨part, -, hpart⟩ := List.mem_filterMap.mp he
    exact value_of_pair? hpart
  have hstart : Query.IsProper ([] : Query) := ⟨by simp, by simp, by simp⟩
  generalize (split '&' cs).filterMap pair? = pairs at hall
  generalize ([] : Query) = query at hstart
  induction pairs generalizing query with
  | nil => exact hstart
  | cons e pairs ih =>
    exact ih (fun e' he' => hall e' (List.mem_cons_of_mem _ he')) _ (hstart.addValue (hall e List.mem_cons_self))

/-! ### The whole -/

/-- What the reader makes of a text, whatever text that was. -/
structure Legible (u : Url) : Prop where
  named : u.driverName.toList ≠ []
  scheme : ∀ c ∈ u.driverName.toList, isSchemeChar c = true
  /-- A password comes with a user only. -/
  user : u.username = none → u.password = none
  host : ∀ h, u.host = some h → h.toList ≠ [] ∧ ∀ c ∈ h.toList, isBracketChar c = true
  /-- What could be taken for the end of a user is kept apart by a password. -/
  clear : ∀ h, u.host = some h → u.password = none → '@' ∉ h.toList
  port : ∀ p, u.port = some p → Double.decimalWidth p.natAbs ≤ Text.Integer.maxDigits
  query : Query.IsProper u.query

theorem isClear_of_takeUser {cs rest : List Char} {user : Option User} (h : takeUser cs = (user, rest))
    (hpassword : user.bind (·.password) = none) : IsClear rest := by
  rw [takeUser] at h
  split at h
  · rename_i found after huser
    cases h
    have hnone : found.password = none := hpassword
    exact isClear_of_user? (.inr ⟨found.name, by rw [huser, ← hnone]⟩)
  · rename_i hnone
    cases h
    exact isClear_of_user? (.inl ⟨hnone, rfl⟩)

theorem width_of_parsePort {cs : Option (List Char)} {p : Int} (h : parsePort cs = .ok (some p)) :
    Double.decimalWidth p.natAbs ≤ Text.Integer.maxDigits := by
  cases cs with
  | none => cases h
  | some cs =>
    rw [parsePort] at h
    cases hread : Text.Integer.read (String.ofList cs) with
    | error e =>
      rw [hread] at h
      cases h
    | ok n =>
      rw [hread] at h
      cases h
      exact Text.Integer.width_of_read hread

/-- What was read is what its parts say. -/
theorem parts_of_parseList {cs : List Char} {u : Url} (h : parseList cs = .ok u) :
    ∃ p port, parts? cs = some p ∧ parsePort p.port = .ok port ∧ u = p.url port := by
  rw [parseList_eq] at h
  cases hparts : parts? cs with
  | none =>
    rw [hparts] at h
    cases h
  | some p =>
    rw [hparts] at h
    dsimp only at h
    cases hport : parsePort p.port with
    | error e =>
      rw [hport] at h
      cases h
    | ok port =>
      rw [hport] at h
      exact ⟨p, port, rfl, hport, (Except.ok.inj h).symm⟩

theorem scheme?_of_parseList {cs : List Char} {u : Url} (h : parseList cs = .ok u) :
    ∃ rest, scheme? cs = some (u.driverName.toList, rest) := by
  obtain ⟨p, port, hparts, -, rfl⟩ := parts_of_parseList h
  rw [parts?, Option.map_eq_some_iff] at hparts
  obtain ⟨⟨name, rest⟩, hscheme, rfl⟩ := hparts
  exact ⟨rest, by simpa [Parts.url, takeRest] using hscheme⟩

theorem legible_of_parseList {cs : List Char} {u : Url} (h : parseList cs = .ok u) : Legible u := by
  obtain ⟨p, port, hparts, hport, rfl⟩ := parts_of_parseList h
  rw [parts?, Option.map_eq_some_iff] at hparts
  obtain ⟨⟨name, afterName⟩, hscheme, hp⟩ := hparts
  obtain ⟨hnamed, hname, -⟩ := scheme?_eq_some_iff.mp hscheme
  cases huser : takeUser afterName with
  | mk user afterUser =>
  cases hhost : host? afterUser with
  | mk host afterHost =>
  simp only [huser, hhost] at hp
  subst hp
  constructor
  case named => simpa [Parts.url, takeRest] using hnamed
  case scheme => simpa [Parts.url, takeRest] using hname
  case user =>
    intro hnone
    have hnone : user = none := Option.map_eq_none_iff.mp hnone
    rw [hnone]
    rfl
  case host =>
    intro h heq
    obtain ⟨host, rfl, rfl⟩ := Option.map_eq_some_iff.mp heq
    obtain ⟨hne, hall, -⟩ := host?_some hhost
    rw [String.toList_ofList]
    exact ⟨hne, hall⟩
  case clear =>
    intro h heq hpassword
    obtain ⟨host, rfl, rfl⟩ := Option.map_eq_some_iff.mp heq
    rw [String.toList_ofList]
    refine (host?_some hhost).2.2 (isClear_of_takeUser huser ?_)
    cases user with
    | none => rfl
    | some user => exact Option.map_eq_none_iff.mp hpassword
  case port =>
    intro p heq
    have hp : port = some p := heq
    rw [hp] at hport
    exact width_of_parsePort hport
  case query =>
    rw [Parts.url]
    cases (takeRest name user host afterHost).query with
    | none => exact ⟨by simp, by simp, by simp⟩
    | some query => exact isProper_parseQuery query

end Transact.Url
