import Transact.Proofs.Url.Query
import Transact.Proofs.Text.Numeral

/-! A URL that was read is read back from its text, part by part. -/
namespace Transact.Url

variable {c : Char} {cs a b : List Char} {u : Url}

/-! ### The text part by part -/

def userText (u : Url) : List Char := (u.username.map (printUser (u.password.map encodeUser))).getD []

def hostText (u : Url) : List Char := (u.host.map printHost).getD []

def portText (u : Url) : List Char := (u.port.map fun p => ':' :: (toString p).toList).getD []

def databaseText (u : Url) : List Char := (u.database.map fun d => '/' :: encodeDatabase d).getD []

/-- What stands behind the host. -/
def restText (u : Url) : List Char := u.portText ++ (u.databaseText ++ u.printQuery)

theorem toList_render (u : Url) : u.render.toList =
    u.driverName.toList ++ ':' :: '/' :: '/' :: (u.userText ++ (u.hostText ++ u.restText)) := by
  rw [render, String.toList_ofList, printWith]
  simp only [userText, hostText, restText, portText, databaseText, List.append_assoc]
  rfl

/-! ### What may stand in a part -/

theorem mem_encodeUser {s : String} (h : c ∈ encodeUser s) :
    c = '%' ∨ Text.Percent.isUnreserved c = true ∨ c = ' ' ∨ c = '+' := by
  simpa using Text.Percent.mem_encode h

theorem mem_encodeDatabase {s : String} (h : c ∈ encodeDatabase s) :
    c = '%' ∨ Text.Percent.isUnreserved c = true ∨ c = ' ' ∨ c = '+' ∨ c = '/' := by
  simpa [or_assoc] using Text.Percent.mem_encode h

theorem decoded_encodeUser (s : String) : decoded (encodeUser s) = s := by
  rw [decoded, encodeUser, Text.Percent.decode_encode (by decide), String.ofList_toList]

theorem decoded_encodeDatabase (s : String) : decoded (encodeDatabase s) = s := by
  rw [decoded, encodeDatabase, Text.Percent.decode_encode (by decide), String.ofList_toList]

/-- Neither what ends a user nor what ends a host in brackets. -/
def isInnocent (c : Char) : Bool := c != '@' && c != ']'

theorem isInnocent_of_isUnreserved (h : Text.Percent.isUnreserved c = true) : isInnocent c = true := by
  rw [isInnocent, Text.Percent.bne_of_isUnreserved h rfl, Text.Percent.bne_of_isUnreserved h rfl]
  rfl

theorem isDigit_isUnreserved (h : c.isDigit = true) : Text.Percent.isUnreserved c = true := by
  simp [Text.Percent.isUnreserved, Char.isAlphanum, h]

theorem innocent_port (u : Url) : ∀ c ∈ u.portText, isInnocent c = true := by
  rw [portText]
  cases u.port with
  | none => simp
  | some p =>
    refine List.forall_mem_cons.mpr ⟨rfl, fun c hc => ?_⟩
    rcases Text.Integer.mem_toString hc with rfl | hc
    · rfl
    · exact isInnocent_of_isUnreserved (isDigit_isUnreserved hc)

theorem innocent_database (u : Url) : ∀ c ∈ u.databaseText, isInnocent c = true := by
  rw [databaseText]
  cases u.database with
  | none => simp
  | some d =>
    refine List.forall_mem_cons.mpr ⟨rfl, fun c hc => ?_⟩
    rcases mem_encodeDatabase hc with rfl | hc | rfl | rfl | rfl
    · rfl
    · exact isInnocent_of_isUnreserved hc
    · rfl
    · rfl
    · rfl

theorem mem_queryText (h : c ∈ u.queryText) :
    c = '&' ∨ c = '=' ∨ c = '%' ∨ Text.Percent.isUnreserved c = true ∨ c = '+' := by
  rcases mem_joinPairs h with h | ⟨p, hp, hc⟩
  · exact .inl h
  · obtain ⟨e, -, rfl⟩ := List.mem_map.mp hp
    exact .inr (mem_encodePair hc)

theorem innocent_query (u : Url) : ∀ c ∈ u.printQuery, isInnocent c = true := by
  rw [printQuery_eq]
  split
  · simp
  · refine List.forall_mem_cons.mpr ⟨rfl, fun c hc => ?_⟩
    rcases mem_queryText hc with rfl | rfl | rfl | hc | rfl
    · rfl
    · rfl
    · rfl
    · exact isInnocent_of_isUnreserved hc
    · rfl

theorem innocent_rest (u : Url) : ∀ c ∈ u.restText, isInnocent c = true := by
  intro c hc
  rcases List.mem_append.mp hc with hc | hc
  · exact innocent_port u c hc
  · rcases List.mem_append.mp hc with hc | hc
    · exact innocent_database u c hc
    · exact innocent_query u c hc

theorem at_not_mem_rest (u : Url) : '@' ∉ u.restText := fun hmem => absurd (innocent_rest u _ hmem) (by decide)

theorem bracket_not_mem_rest (u : Url) : ']' ∉ u.restText := fun hmem => absurd (innocent_rest u _ hmem) (by decide)

theorem head_printQuery (u : Url) : ∀ d ∈ u.printQuery.head?, d = '?' := by
  rw [printQuery]
  split <;> simp

theorem head_database (u : Url) : ∀ d ∈ (u.databaseText ++ u.printQuery).head?, d = '/' ∨ d = '?' := by
  rw [databaseText]
  cases u.database with
  | none => exact fun d hd => .inr (head_printQuery u d hd)
  | some s => simp

theorem head_rest (u : Url) : ∀ d ∈ u.restText.head?, d = ':' ∨ d = '/' ∨ d = '?' := by
  rw [restText, portText]
  cases u.port with
  | none => exact fun d hd => .inr (head_database u d hd)
  | some p => simp

/-! ### Reading the parts -/

theorem takeUser_userText (hu : u.username = none → u.password = none) (hat : u.password = none → '@' ∉ cs) :
    takeUser (u.userText ++ cs) = (u.username.map fun n => ⟨encodeUser n, u.password.map encodeUser⟩, cs) := by
  have hchars {s : String} : ∀ c ∈ encodeUser s, isUserChar c = true := by
    intro c hc
    rcases mem_encodeUser hc with rfl | hc | rfl | rfl
    · rfl
    · rw [isUserChar, Text.Percent.bne_of_isUnreserved hc rfl, Text.Percent.bne_of_isUnreserved hc rfl]
      rfl
    · rfl
    · rfl
  have hpassword {s : String} : '@' ∉ encodeUser s := by
    intro hmem
    rcases mem_encodeUser hmem with h | h | h | h <;> cases h
  rw [takeUser, userText]
  cases hname : u.username with
  | none =>
    have hnone := hat (hu hname)
    simp [user?_none hnone]
  | some name =>
    cases hp : u.password with
    | none =>
      have htext : (Option.map (printUser (Option.map encodeUser none)) (some name)).getD [] ++ cs =
        encodeUser name ++ '@' :: cs := by simp [printUser]
      rw [htext, user?_alone hchars (hat hp)]
      rfl
    | some password =>
      have htext : (Option.map (printUser (Option.map encodeUser (some password))) (some name)).getD [] ++ cs =
        encodeUser name ++ ':' :: (encodeUser password ++ '@' :: cs) := by simp [printUser]
      rw [htext, user?_password hchars hpassword]
      rfl

theorem part?_portText (u : Url) : part? ':' isBracketChar u.restText =
    (u.port.map fun p => (toString p).toList, u.databaseText ++ u.printQuery) := by
  have hhead := head_database u
  rw [restText, portText]
  cases u.port with
  | none =>
    refine part?_none fun d hd heq => ?_
    rcases hhead d hd with rfl | rfl <;> cases heq
  | some p =>
    refine part?_cons (fun c hc => ?_) fun d hd => ?_
    · rcases Text.Integer.mem_toString hc with rfl | hc
      · rfl
      · have hc := isDigit_isUnreserved hc
        rw [isBracketChar, Text.Percent.bne_of_isUnreserved hc rfl, Text.Percent.bne_of_isUnreserved hc rfl]
        rfl
    · rcases hhead d hd with rfl | rfl <;> rfl

theorem part?_databaseText (u : Url) : part? '/' isDatabaseChar (u.databaseText ++ u.printQuery) =
    (u.database.map encodeDatabase, u.printQuery) := by
  have hhead := head_printQuery u
  rw [databaseText]
  cases u.database with
  | none =>
    refine part?_none fun d hd heq => ?_
    rw [hhead d hd] at heq
    cases heq
  | some database =>
    refine part?_cons (fun c hc => ?_) fun d hd => ?_
    · rcases mem_encodeDatabase hc with rfl | hc | rfl | rfl | rfl
      · rfl
      · exact Text.Percent.bne_of_isUnreserved hc rfl
      · rfl
      · rfl
      · rfl
    · rw [hhead d hd]
      rfl

theorem part?_queryText (u : Url) : (part? '?' isQueryChar u.printQuery).1 =
    if u.query.isEmpty then none else some u.queryText := by
  rw [printQuery_eq]
  split
  · rfl
  · have hall : ∀ c ∈ u.queryText, isQueryChar c = true := by
      intro c hc
      rcases mem_queryText hc with rfl | rfl | rfl | hc | rfl
      · rfl
      · rfl
      · rfl
      · exact Text.Percent.bne_of_isUnreserved hc rfl
      · rfl
    have hpart : part? '?' isQueryChar ('?' :: (u.queryText ++ [])) = (some u.queryText, []) :=
      part?_cons hall (by simp)
    rw [List.append_nil] at hpart
    rw [hpart]

theorem takeRest_restText (name : List Char) (user : Option User) (host : Option (List Char)) (u : Url) :
    takeRest name user host u.restText =
      { name, user, host, port := u.port.map fun p => (toString p).toList, database := u.database.map encodeDatabase,
        query := if u.query.isEmpty then none else some u.queryText } := by
  simp only [takeRest, part?_portText, part?_databaseText, part?_queryText]

/-! ### The host -/

/-- The host stands in brackets of its own, which the reader takes off. -/
def IsBracketed (u : Url) : Prop :=
  ∃ h inner after, u.host = some h ∧ ':' ∉ h.toList ∧ inner ≠ [] ∧ h.toList = '[' :: (inner ++ ']' :: after)

theorem bracketed?_append (ha : ∀ c ∈ a, isBracketChar c = true) (hb : ']' ∉ b) :
    bracketed? (a ++ b) = (bracketed? a).map fun (host, tail) => (host, tail ++ b) := by
  cases hfound : bracketed? a with
  | some found =>
    obtain ⟨host, tail⟩ := found
    obtain ⟨hne, hhost, hmark, rfl⟩ := bracketed?_eq_some_iff.mp hfound
    have htail : ∀ c ∈ tail, isBracketChar c = true := fun c hc => ha c (by simp [hc])
    rw [List.takeWhile_eq_self_iff.mpr htail] at hmark
    refine bracketed?_eq_some_iff.mpr ⟨hne, hhost, ?_, by simp⟩
    rw [List.takeWhile_append_of_pos htail, List.mem_append, not_or]
    exact ⟨hmark, fun hmem => hb (List.takeWhile_sublist _ |>.mem hmem)⟩
  | none =>
    rw [Option.map_none]
    by_contra hsome
    obtain ⟨⟨host, tail⟩, hsome⟩ := Option.ne_none_iff_exists'.mp hsome
    obtain ⟨hne, hhost, hmark, hsplit⟩ := bracketed?_eq_some_iff.mp hsome
    rw [← List.cons_append, List.append_eq_append_iff] at hsplit
    rcases hsplit with ⟨left, -, hright⟩ | ⟨left, rfl, hright⟩
    · exact hb (hright ▸ List.mem_append_right _ List.mem_cons_self)
    · cases left with
      | nil =>
        rw [List.nil_append] at hright
        exact hb (hright ▸ List.mem_cons_self)
      | cons d left =>
        obtain ⟨hmarked, hrest⟩ := List.cons.inj hright
        rw [List.append_eq] at hrest
        subst hmarked hrest
        have hleft : ∀ c ∈ left, isBracketChar c = true := fun c hc => ha c (by simp [hc])
        rw [List.takeWhile_append_of_pos hleft, List.mem_append, not_or] at hmark
        rw [← List.takeWhile_eq_self_iff.mpr hleft] at hmark
        rw [List.cons_append, bracketed?_eq_some_iff.mpr ⟨hne, hhost, hmark.1, rfl⟩] at hfound
        cases hfound

theorem host_rest (u : Url) : ∀ d ∈ u.restText.head?, isHostPart d = false := by
  intro d hd
  rcases head_rest u d hd with rfl | rfl | rfl <;> rfl

theorem host?_hostText (hl : u.Legible) (hplain : ¬ u.IsBracketed) :
    host? (u.hostText ++ u.restText) = (u.host.map String.toList, u.restText) := by
  rw [hostText]
  cases hhost : u.host with
  | none => exact host?_none (host_rest u)
  | some h =>
    obtain ⟨hne, hchars⟩ := hl.host h hhost
    rw [Option.map_some, Option.getD_some, Option.map_some, printHost]
    split
    · have hmark : ']' ∉ u.restText.takeWhile isBracketChar :=
        fun hmem => bracket_not_mem_rest u (List.takeWhile_sublist _ |>.mem hmem)
      exact host?_bracketed (bracketed?_eq_some_iff.mpr ⟨hne, hchars, hmark, by simp⟩)
    · rename_i hcolon
      have hcolon : ':' ∉ h.toList := by simpa using hcolon
      have hnone : bracketed? h.toList = none := by
        by_contra hsome
        obtain ⟨⟨inner, after⟩, hsome⟩ := Option.ne_none_iff_exists'.mp hsome
        obtain ⟨hinner, -, -, hlist⟩ := bracketed?_eq_some_iff.mp hsome
        exact hplain ⟨h, inner, after, hhost, hcolon, hinner, hlist⟩
      refine host?_plain ?_ hne (fun c hc => ?_) (host_rest u)
      · rw [bracketed?_append hchars (bracket_not_mem_rest u), hnone]
        rfl
      · have hne : c ≠ ':' := fun heq => hcolon (heq ▸ hc)
        have hc := hchars c hc
        simp only [isBracketChar, Bool.and_eq_true] at hc
        simp [isHostPart, hc.1, hc.2, hne]

/-! ### The whole -/

theorem at_not_mem_host (hl : u.Legible) (hpassword : u.password = none) : '@' ∉ u.hostText := by
  rw [hostText]
  cases hhost : u.host with
  | none => simp
  | some h =>
    have hclear := hl.clear h hhost hpassword
    rw [Option.map_some, Option.getD_some, printHost]
    split <;> simp [hclear]

theorem parsePort_toString {port : Option Int}
    (h : ∀ p, port = some p → Double.decimalWidth p.natAbs ≤ Text.Integer.maxDigits) :
    parsePort (port.map fun p => (toString p).toList) = .ok port := by
  cases port with
  | none => rfl
  | some p =>
    rw [Option.map_some, parsePort, String.ofList_toList, Text.Integer.read_toString (h p rfl)]
    rfl

theorem scheme?_render (hl : u.Legible) :
    scheme? u.render.toList = some (u.driverName.toList, u.userText ++ (u.hostText ++ u.restText)) :=
  scheme?_eq_some_iff.mpr ⟨hl.named, hl.scheme, toList_render u⟩

theorem takeUser_render (hl : u.Legible) : takeUser (u.userText ++ (u.hostText ++ u.restText)) =
    (u.username.map fun n => ⟨encodeUser n, u.password.map encodeUser⟩, u.hostText ++ u.restText) := by
  refine takeUser_userText hl.user fun hpassword hmem => ?_
  rcases List.mem_append.mp hmem with hmem | hmem
  · exact at_not_mem_host hl hpassword hmem
  · exact at_not_mem_rest u hmem

theorem query_written (hl : u.Legible) :
    ((if u.query.isEmpty then none else some u.queryText).map parseQuery).getD [] = u.sortedQuery := by
  by_cases hempty : u.query = []
  · simp [sortedQuery, hempty]
  · rw [if_neg (by simpa using hempty)]
    exact parseQuery_queryText hl.query hempty

/-- The parts that were written are the URL again, the query in the order it was written in. -/
theorem url_written (hl : u.Legible) (host : Option (List Char)) : Parts.url
    { name := u.driverName.toList, user := u.username.map fun n => ⟨encodeUser n, u.password.map encodeUser⟩, host,
      port := u.port.map fun p => (toString p).toList, database := u.database.map encodeDatabase,
      query := if u.query.isEmpty then none else some u.queryText } u.port =
    { u with host := host.map String.ofList, query := u.sortedQuery } := by
  have huser := hl.user
  rw [Parts.url, query_written hl]
  cases u with
  | mk driverName username password host port database query =>
    have hpassword : (username.map fun n => (⟨encodeUser n, password.map encodeUser⟩ : User)).bind
        (fun u => u.password.map decoded) = password := by
      cases username with
      | none => exact (huser rfl).symm
      | some name =>
        rw [Option.map_some, Option.bind_some, Option.map_map, Option.map_congr (g := id) ?_]
        · exact Option.map_id_apply
        · exact fun s _ => decoded_encodeUser s
    simp [hpassword, Function.comp_def, decoded_encodeUser, decoded_encodeDatabase]

theorem parse_render (hl : u.Legible) (hplain : ¬ u.IsBracketed) :
    parse u.render = .ok { u with query := u.sortedQuery } := by
  rw [parse, parseList_eq, parts?, scheme?_render hl, Option.map_some]
  dsimp only
  rw [takeUser_render hl, host?_hostText hl hplain]
  dsimp only
  rw [takeRest_restText]
  dsimp only
  rw [parsePort_toString hl.port]
  refine congrArg Except.ok ((url_written hl _).trans ?_)
  simp [Function.comp_def]

end Transact.Url
