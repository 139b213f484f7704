import Transact.Proofs.Url.RoundTrip
import Transact.Proofs.Text.Blank

/-! The text of a URL without the blanks at its end: the text of a URL again. -/
namespace Transact.Url

variable {c : Char} {cs a b : List Char} {u : Url}

/-! ### Blanks at the end -/

theorem isBlank_eq_false {p : Char → Bool} (hp : ∀ r ∈ Text.separatorRanges ++ Text.spaceRanges,
    ∀ k < r.2 - r.1 + 1, p (Char.ofNat (r.1 + k)) = false) (h : p c = true) : Text.isBlank c = false := by
  by_contra hblank
  rw [Bool.not_eq_false, Text.isBlank, Text.Ranges.has, List.any_eq_true] at hblank
  obtain ⟨r, hr, hcode⟩ := hblank
  rw [Bool.and_eq_true, decide_eq_true_eq, decide_eq_true_eq] at hcode
  have hplace := hp r hr (c.toNat - r.1) (by omega)
  rw [Nat.add_sub_cancel' hcode.1, Char.ofNat_toNat, h] at hplace
  cases hplace

theorem isBlank_scheme (h : isSchemeChar c = true) : Text.isBlank c = false :=
  isBlank_eq_false (p := isSchemeChar) (by decide +kernel) h

theorem isBlank_unreserved (h : Text.Percent.isUnreserved c = true) : Text.isBlank c = false :=
  isBlank_eq_false (p := Text.Percent.isUnreserved) (by decide +kernel) h

/-- The text does not end in a blank. -/
def EndsSolid (cs : List Char) : Prop := ∀ d ∈ cs.getLast?, Text.isBlank d = false

theorem endsSolid_of_getLast? (h : cs.getLast? = some c) (hc : Text.isBlank c = false) : EndsSolid cs := by
  intro d hd
  obtain rfl := Option.some.inj (h.symm.trans hd)
  exact hc

theorem rdropWhile_of_solid (h : EndsSolid cs) : cs.rdropWhile Text.isBlank = cs := by
  have hsame := Text.rdropWhile_append h []
  simpa using hsame

theorem endsSolid_append (hne : b ≠ []) (hb : ∀ d ∈ b, Text.isBlank d = false) : EndsSolid (a ++ b) := by
  intro d hd
  rw [List.getLast?_append_of_ne_nil _ hne] at hd
  exact hb d (List.mem_of_getLast? hd)

theorem strip_eq (h : ∀ d ∈ cs.head?, Text.isBlank d = false) : Text.strip cs = cs.rdropWhile Text.isBlank := by
  rw [Text.strip, Text.trim_eq, Text.dropWhile_of_head h]

/-! ### What is left without them -/

/-- The text up to the host. -/
def frontText (u : Url) : List Char := u.driverName.toList ++ ':' :: '/' :: '/' :: u.userText

theorem render_eq (u : Url) : u.render.toList = u.frontText ++ (u.hostText ++ u.restText) := by
  rw [toList_render, frontText, List.append_assoc]
  rfl

theorem head_frontText (hl : u.Legible) : ∀ d ∈ (u.frontText ++ a).head?, Text.isBlank d = false := by
  intro d hd
  obtain ⟨first, rest, hname⟩ := List.exists_cons_of_ne_nil hl.named
  rw [frontText, hname] at hd
  obtain rfl : first = d := by simpa using hd
  exact isBlank_scheme (hl.scheme first (hname ▸ List.mem_cons_self))

theorem endsSolid_frontText (u : Url) : EndsSolid u.frontText := by
  have hslash : Text.isBlank '/' = false := by decide
  have hat : Text.isBlank '@' = false := by decide
  intro d hd
  rw [frontText, userText] at hd
  cases hname : u.username with
  | none =>
    rw [hname] at hd
    obtain rfl : '/' = d := by simpa using hd
    exact hslash
  | some name =>
    rw [hname] at hd
    obtain rfl : '@' = d := by simpa [printUser, List.getLast?_cons] using hd
    exact hat

theorem strip_render (hl : u.Legible) : Text.strip u.render.toList =
    u.frontText ++ (u.hostText ++ u.restText).rdropWhile Text.isBlank := by
  rw [render_eq, strip_eq (head_frontText hl), Text.rdropWhile_append (endsSolid_frontText u)]

theorem solid_queryText : ∀ d ∈ '?' :: u.queryText, Text.isBlank d = false := by
  refine List.forall_mem_cons.mpr ⟨by decide, fun d hd => ?_⟩
  rcases mem_queryText hd with rfl | rfl | rfl | hd | rfl
  · decide
  · decide
  · decide
  · exact isBlank_unreserved hd
  · decide

theorem solid_portText : ∀ d ∈ u.portText, Text.isBlank d = false := by
  rw [portText]
  cases u.port with
  | none => simp
  | some p =>
    refine List.forall_mem_cons.mpr ⟨by decide, fun d hd => ?_⟩
    rcases Text.Integer.mem_toString hd with rfl | hd
    · decide
    · exact isBlank_unreserved (isDigit_isUnreserved hd)

theorem rdropWhile_encodeDatabase (s : String) : (encodeDatabase s).rdropWhile Text.isBlank =
    encodeDatabase (String.ofList (s.toList.rdropWhile (· == ' '))) := by
  unfold encodeDatabase
  rw [String.toList_ofList]
  induction s.toList using List.reverseRecOn with
  | nil => rfl
  | append_singleton cs d ih =>
    have hsplit : Text.Percent.encode (fun c => c == ' ' || c == '+' || c == '/') (cs ++ [d]) =
        Text.Percent.encode (fun c => c == ' ' || c == '+' || c == '/') cs ++
          Text.Percent.encodeChar (fun c => c == ' ' || c == '+' || c == '/') d := by
      simp [Text.Percent.encode]
    rw [hsplit]
    by_cases hd : d = ' '
    · subst hd
      rw [List.rdropWhile_concat_pos _ _ _ (by decide), ← ih]
      exact List.rdropWhile_concat_pos _ _ _ (by decide)
    · rw [List.rdropWhile_concat_neg _ _ _ (by simpa using hd), hsplit]
      refine rdropWhile_of_solid (endsSolid_append Text.Percent.encodeChar_ne_nil fun e he => ?_)
      rcases Text.Percent.mem_encodeChar he with rfl | he | ⟨hsafe, rfl⟩
      · decide
      · exact isBlank_unreserved he
      · simp only [Bool.or_eq_true, beq_iff_eq, hd, false_or] at hsafe
        rcases hsafe with rfl | rfl
        · decide
        · decide

/-- A host that keeps what is not blank at its end, if anything is left. -/
def trimmedHost (h : String) : Option String :=
  if h.toList.rdropWhile Text.isBlank = [] then none else some (String.ofList (h.toList.rdropWhile Text.isBlank))

theorem toList_trimmedHost {h s : String} (hs : trimmedHost h = some s) :
    s.toList = h.toList.rdropWhile Text.isBlank ∧ s.toList ≠ [] := by
  rw [trimmedHost] at hs
  split at hs
  · cases hs
  · rename_i hne
    obtain rfl := Option.some.inj hs
    rw [String.toList_ofList]
    exact ⟨rfl, hne⟩

theorem Legible.trimmedHost (hl : u.Legible) {h : String} (hhost : u.host = some h) :
    Legible { u with host := trimmedHost h } where
  named := hl.named
  scheme := hl.scheme
  user := hl.user
  host := by
    intro s hs
    obtain ⟨hlist, hne⟩ := toList_trimmedHost hs
    exact ⟨hne, fun c hc => (hl.host h hhost).2 c ((List.rdropWhile_prefix _ _).subset (hlist ▸ hc))⟩
  clear := by
    intro s hs hpassword hat
    rw [(toList_trimmedHost hs).1] at hat
    exact hl.clear h hhost hpassword ((List.rdropWhile_prefix _ _).subset hat)
  port := hl.port
  query := hl.query

theorem hostText_trimmedHost {h : String} (hcolon : ':' ∉ h.toList) :
    hostText { u with host := trimmedHost h } = h.toList.rdropWhile Text.isBlank := by
  rw [hostText]
  dsimp only
  cases hs : trimmedHost h with
  | none =>
    rw [trimmedHost] at hs
    split at hs
    · rename_i hnil
      rw [hnil]
      rfl
    · cases hs
  | some s =>
    obtain ⟨hlist, -⟩ := toList_trimmedHost hs
    have hplain : ':' ∉ s.toList := fun hmem => hcolon ((List.rdropWhile_prefix _ _).subset (hlist ▸ hmem))
    rw [Option.map_some, Option.getD_some, printHost, if_neg (by simpa using hplain), hlist]

/-- Without the blanks at its end the text of a URL is that of another one. -/
theorem exists_trimmed (hl : u.Legible) :
    ∃ t : Url, t.Legible ∧ t.driverName = u.driverName ∧ t.render.toList = Text.strip u.render.toList := by
  rw [strip_render hl]
  have hself (hsolid : EndsSolid (u.hostText ++ u.restText)) : u.render.toList =
      u.frontText ++ (u.hostText ++ u.restText).rdropWhile Text.isBlank := by
    rw [rdropWhile_of_solid hsolid, render_eq]
  by_cases hquery : u.query = []
  case neg =>
    refine ⟨u, hl, rfl, hself ?_⟩
    rw [restText, printQuery_eq, if_neg (by simpa using hquery), ← List.append_assoc, ← List.append_assoc]
    exact endsSolid_append (by simp) solid_queryText
  case pos =>
    have hprinted : u.printQuery = [] := by rw [printQuery_eq, if_pos (by simpa using hquery)]
    cases hdatabase : u.database with
    | some d =>
      refine ⟨{ u with database := some (String.ofList (d.toList.rdropWhile (· == ' '))) },
        ⟨hl.named, hl.scheme, hl.user, hl.host, hl.clear, hl.port, hl.query⟩, rfl, ?_⟩
      have hrest : u.hostText ++ u.restText = (u.hostText ++ u.portText ++ ['/']) ++ encodeDatabase d := by
        simp [restText, databaseText, hdatabase, hprinted]
      have hslash : EndsSolid (u.hostText ++ u.portText ++ ['/']) :=
        endsSolid_of_getLast? List.getLast?_concat (by decide)
      have hkept : printQuery { u with database := some (String.ofList (d.toList.rdropWhile (· == ' '))) } = [] := hprinted
      rw [hrest, Text.rdropWhile_append hslash, rdropWhile_encodeDatabase, render_eq]
      simp [restText, databaseText, hkept, frontText, userText, hostText, portText]
    | none =>
      cases hport : u.port with
      | some p =>
        refine ⟨u, hl, rfl, hself ?_⟩
        have hrest : u.restText = u.portText := by simp [restText, databaseText, hdatabase, hprinted]
        rw [hrest]
        exact endsSolid_append (by simp [portText, hport]) solid_portText
      | none =>
        have hrest : u.restText = [] := by simp [restText, portText, databaseText, hport, hdatabase, hprinted]
        rw [hrest, List.append_nil] at hself ⊢
        cases hhost : u.host with
        | none => exact ⟨u, hl, rfl, hself (by simp [hostText, hhost, EndsSolid])⟩
        | some h =>
          by_cases hcolon : ':' ∈ h.toList
          · have htext : u.hostText = ('[' :: h.toList) ++ [']'] := by simp [hostText, hhost, printHost, hcolon]
            exact ⟨u, hl, rfl, hself (htext ▸ endsSolid_of_getLast? List.getLast?_concat (by decide))⟩
          · refine ⟨{ u with host := trimmedHost h }, hl.trimmedHost hhost, rfl, ?_⟩
            have htext : u.hostText = h.toList := by simp [hostText, hhost, printHost, hcolon]
            have hkept : restText { u with host := trimmedHost h } = [] := hrest
            rw [render_eq, hostText_trimmedHost hcolon, htext, hkept, List.append_nil]
            rfl

end Transact.Url
