import Transact.Proofs.Url.Normalize
import Transact.Proofs.Url.Trimmed

/-! Normalising what was normalised. The text is read again, up to the last character that is not blank; the
reader takes brackets of its own off a host, and nothing else changes. -/
namespace Transact.Url

variable {cs : List Char} {raw text : String} {u t : Url}

/-! ### The driver -/

theorem usedDriver_cases (name : String) :
    usedDriver name = "postgresql+psycopg" ∨ usedDriver name = "sqlite+aiosqlite" ∨ usedDriver name = name := by
  rw [usedDriver]
  split
  · exact .inl rfl
  · split
    · exact .inr (.inl rfl)
    · exact .inr (.inr rfl)

theorem usedDriver_usedDriver (name : String) : usedDriver (usedDriver name) = usedDriver name := by
  rcases usedDriver_cases name with h | h | h
  · rw [h]
    decide +kernel
  · rw [h]
    decide +kernel
  · rw [h, h]

/-- The other spelling of the scheme. -/
def aliasName : List Char := "postgres".toList

theorem prefix_alias_iff : aliasScheme <+: cs ↔ ∃ rest, scheme? cs = some (aliasName, rest) := by
  have halias : aliasScheme = aliasName ++ [':', '/', '/'] := by decide
  rw [List.prefix_iff_exists_append_eq, halias]
  constructor
  · rintro ⟨rest, rfl⟩
    exact ⟨rest, scheme?_eq_some_iff.mpr ⟨by decide, List.all_eq_true.mp rfl, by simp⟩⟩
  · rintro ⟨rest, h⟩
    obtain ⟨-, -, rfl⟩ := scheme?_eq_some_iff.mp h
    exact ⟨rest, by simp⟩

theorem not_prefix_expandAlias (cs : List Char) : ¬ aliasScheme <+: expandAlias cs := by
  rw [expandAlias]
  split
  · intro h
    have hfull := List.prefix_of_prefix_length_le h (List.prefix_append fullScheme _) (by decide)
    exact absurd (List.isPrefixOf_iff_prefix.mpr hfull) (by decide)
  · rename_i h
    rwa [List.isPrefixOf_iff_prefix] at h

theorem expandAlias_eq (h : ¬ aliasScheme <+: cs) : expandAlias cs = cs := by
  rw [expandAlias, if_neg (by rwa [List.isPrefixOf_iff_prefix])]

theorem expandAlias_render (hl : u.Legible) (hname : u.driverName.toList ≠ aliasName) :
    expandAlias u.render.toList = u.render.toList := by
  refine expandAlias_eq fun h => ?_
  obtain ⟨rest, hscheme⟩ := prefix_alias_iff.mp h
  rw [scheme?_render hl] at hscheme
  exact hname (Prod.mk.inj (Option.some.inj hscheme)).1

theorem driverName_ne_alias (h : parseList (expandAlias cs) = .ok u) : u.driverName.toList ≠ aliasName := by
  intro heq
  obtain ⟨rest, hscheme⟩ := scheme?_of_parseList h
  rw [heq] at hscheme
  exact not_prefix_expandAlias cs (prefix_alias_iff.mpr ⟨rest, hscheme⟩)

theorem usedDriver_ne_alias {name : String} (h : name.toList ≠ aliasName) :
    (usedDriver name).toList ≠ aliasName := by
  rcases usedDriver_cases name with hused | hused | hused
  · rw [hused]
    decide
  · rw [hused]
    decide
  · rwa [hused]

/-! ### Reading a host in brackets -/

/-- What stands inside the host's own brackets, and what stands behind them. -/
def bare? (u : Url) : Option (List Char × List Char) :=
  u.host.bind fun h => if ':' ∈ h.toList then none else bracketed? h.toList

theorem bare?_eq_none (hplain : ¬ u.IsBracketed) : u.bare? = none := by
  rw [bare?]
  cases hhost : u.host with
  | none => rfl
  | some h =>
    rw [Option.bind_some]
    split
    · rfl
    · rename_i hcolon
      by_contra hsome
      obtain ⟨⟨inner, after⟩, hsome⟩ := Option.ne_none_iff_exists'.mp hsome
      obtain ⟨hinner, -, -, hlist⟩ := bracketed?_eq_some_iff.mp hsome
      exact hplain ⟨h, inner, after, hhost, hcolon, hinner, hlist⟩

theorem bare?_eq_some (hl : u.Legible) (h : u.IsBracketed) :
    ∃ host inner after, u.host = some host ∧ ':' ∉ host.toList ∧ bracketed? host.toList = some (inner, after) ∧
      u.bare? = some (inner, after) := by
  obtain ⟨host, a, b, hhost, hcolon, hne, hlist⟩ := h
  have hchars : ∀ c ∈ a ++ ']' :: b, isBracketChar c = true := fun c hc =>
    (hl.host host hhost).2 c (hlist ▸ List.mem_cons_of_mem _ hc)
  obtain ⟨⟨inner, after⟩, hcut⟩ := Option.ne_none_iff_exists'.mp
    (show cutLast? ']' (a ++ ']' :: b) ≠ none by simp [cutLast?_eq_none_iff])
  obtain ⟨hmark, hsplit⟩ := cutLast?_eq_some_iff.mp hcut
  have hinner : inner ≠ [] := by
    rintro rfl
    obtain ⟨d, a, rfl⟩ := List.exists_cons_of_ne_nil hne
    obtain ⟨-, htail⟩ := List.cons.inj hsplit
    exact hmark (htail ▸ List.mem_append_right a List.mem_cons_self)
  rw [hsplit] at hlist hchars
  have hfound : bracketed? host.toList = some (inner, after) := by
    refine bracketed?_eq_some_iff.mpr ⟨hinner, fun c hc => hchars c (List.mem_append_left _ hc), ?_, hlist⟩
    exact fun hmem => hmark (List.takeWhile_sublist _ |>.mem hmem)
  refine ⟨host, inner, after, hhost, hcolon, hfound, ?_⟩
  rw [bare?, hhost, Option.bind_some, if_neg hcolon, hfound]

/-- What the reader makes of the text of a URL: a host in brackets of its own loses them, and with what
stands behind them in the host goes all that stands behind the host. -/
def reread (u : Url) : Url :=
  match u.bare? with
  | none => { u with query := u.sortedQuery }
  | some (inner, []) => { u with host := some (String.ofList inner), query := u.sortedQuery }
  | some (inner, _ :: _) => { u with host := some (String.ofList inner), port := none, database := none, query := [] }

theorem driverName_reread (u : Url) : u.reread.driverName = u.driverName := by
  rw [reread]
  split <;> rfl

theorem takeRest_of_other {d : Char} (hd : isHostPart d = true) (name : List Char) (user : Option User)
    (host : Option (List Char)) (cs : List Char) :
    takeRest name user host (d :: cs) = { name, user, host, port := none, database := none, query := none } := by
  simp only [isHostPart, Bool.and_eq_true, bne_iff_ne] at hd
  have hport : part? ':' isBracketChar (d :: cs) = (none, d :: cs) := part?_none (by simpa using hd.1.2)
  have hdatabase : part? '/' isDatabaseChar (d :: cs) = (none, d :: cs) := part?_none (by simpa using hd.1.1)
  have hquery : part? '?' isQueryChar (d :: cs) = (none, d :: cs) := part?_none (by simpa using hd.2)
  simp only [takeRest, hport, hdatabase, hquery]

theorem hostText_plain {host : String} (hhost : u.host = some host) (hcolon : ':' ∉ host.toList) :
    u.hostText = host.toList := by
  simp [hostText, hhost, printHost, hcolon]

theorem parse_render_again (hl : u.Legible) : parse u.render = .ok u.reread := by
  by_cases hplain : u.IsBracketed
  case neg =>
    rw [parse_render hl hplain, reread, bare?_eq_none hplain]
  case pos =>
    obtain ⟨host, inner, after, hhost, hcolon, hfound, hbare⟩ := bare?_eq_some hl hplain
    have hchars := (hl.host host hhost).2
    have hread : host? (u.hostText ++ u.restText) = (some inner, after ++ u.restText) := by
      apply host?_bracketed
      rw [hostText_plain hhost hcolon, bracketed?_append hchars (bracket_not_mem_rest u), hfound]
      rfl
    rw [parse, parseList_eq, parts?, scheme?_render hl, Option.map_some]
    dsimp only
    rw [takeUser_render hl, hread, reread, hbare]
    dsimp only
    cases after with
    | nil =>
      rw [List.nil_append, takeRest_restText]
      dsimp only
      rw [parsePort_toString hl.port]
      exact congrArg Except.ok (url_written hl (some inner))
    | cons d after =>
      have hd : isHostPart d = true := by
        obtain ⟨-, -, -, hlist⟩ := bracketed?_eq_some_iff.mp hfound
        have hmem : d ∈ host.toList := by simp [hlist]
        have hne : d ≠ ':' := fun heq => hcolon (heq ▸ hmem)
        have hd := hchars d hmem
        simp only [isBracketChar, Bool.and_eq_true] at hd
        simp [isHostPart, hd.1, hd.2, hne]
      rw [List.cons_append, takeRest_of_other hd]
      have hkept : Legible { u with port := none, database := none, query := [] } :=
        ⟨hl.named, hl.scheme, hl.user, hl.host, hl.clear, by simp, by simp, by simp, by simp⟩
      have hwritten := url_written hkept (some inner)
      simp only [sortedQuery, List.mergeSort_nil] at hwritten
      exact congrArg Except.ok hwritten

/-! ### The text again -/

theorem sortedQuery_sorted (u : Url) : sortedQuery { u with query := u.sortedQuery } = u.sortedQuery := by
  refine List.mergeSort_of_pairwise (List.pairwise_mergeSort ?_ ?_ u.query)
  · intro a b c hab hbc
    simp only [Bool.not_eq_true', decide_eq_false_iff_not, String.not_lt] at hab hbc ⊢
    exact String.le_trans hab hbc
  · intro a b
    simp only [Bool.or_eq_true, Bool.not_eq_true', decide_eq_false_iff_not, String.not_lt]
    exact String.le_total a.1 b.1

theorem printQuery_sorted (u : Url) : printQuery { u with query := u.sortedQuery } = u.printQuery := by
  have hempty : u.sortedQuery.isEmpty = u.query.isEmpty := u.sortedQuery_perm.isEmpty_eq
  rw [printQuery, printQuery, sortedQuery_sorted, hempty]

theorem render_reread (hplain : ¬ u.IsBracketed) : u.reread.render = u.render := by
  rw [reread, bare?_eq_none hplain, render, printWith, printQuery_sorted]
  rfl

theorem length_reread (hl : u.Legible) (h : u.IsBracketed) :
    u.reread.render.toList.length < u.render.toList.length := by
  obtain ⟨host, inner, after, hhost, hcolon, hfound, hbare⟩ := bare?_eq_some hl h
  obtain ⟨-, -, -, hlist⟩ := bracketed?_eq_some_iff.mp hfound
  have hinner : printHost (String.ofList inner) = inner := by
    have hplain : ':' ∉ inner := fun hmem => hcolon (by simp [hlist, hmem])
    simp [printHost, hplain]
  rw [render_eq, render_eq, hostText_plain hhost hcolon, hlist, reread, hbare]
  cases after with
  | nil =>
    have hfront : frontText { u with host := some (String.ofList inner), query := u.sortedQuery } = u.frontText := rfl
    have hhostText : hostText { u with host := some (String.ofList inner), query := u.sortedQuery } = inner := hinner
    have hrest : restText { u with host := some (String.ofList inner), query := u.sortedQuery } = u.restText :=
      congrArg (fun query => u.portText ++ (u.databaseText ++ query)) (printQuery_sorted u)
    simp only [hfront, hhostText, hrest, List.length_append, List.length_cons]
    omega
  | cons d after =>
    let shown : Url := { u with host := some (String.ofList inner), port := none, database := none, query := [] }
    have hfront : shown.frontText = u.frontText := rfl
    have hhostText : shown.hostText = inner := hinner
    have hrest : shown.restText = [] := rfl
    simp only [shown, hfront, hhostText, hrest, List.length_append, List.length_cons, List.length_nil]
    omega

theorem normalize_of_strip (hl : t.Legible) (hused : usedDriver t.driverName = t.driverName)
    (hname : t.driverName.toList ≠ aliasName) (hstrip : Text.strip text.toList = t.render.toList) :
    normalize text = .ok t.reread.render := by
  have hfull : (Text.strip text.toList).isEmpty = false := by
    rw [hstrip, List.isEmpty_eq_false_iff]
    intro hnil
    have hscheme := scheme?_render hl
    rw [hnil] at hscheme
    cases hscheme
  have hread : read text = .ok t.reread := by
    have hparse : parseList t.render.toList = .ok t.reread := parse_render_again hl
    rw [read, hfull, hstrip, expandAlias_render hl hname, hparse]
    rfl
  have hsettled : t.reread.settled = t.reread := by
    rw [settled, asyncDriver_eq, driverName_reread, hused, ← driverName_reread]
  rw [normalize, hread]
  exact congrArg (Except.ok ∘ render) hsettled

theorem length_strip (hhead : ∀ d ∈ cs.head?, Text.isBlank d = false) (h : ¬ EndsSolid cs) :
    (Text.strip cs).length < cs.length := by
  rw [strip_eq hhead]
  have hpre := List.rdropWhile_prefix Text.isBlank cs
  refine Nat.lt_of_le_of_ne hpre.length_le fun heq => h ?_
  have hself := List.rdropWhile_eq_self_iff.mp (hpre.eq_of_length heq)
  intro d hd
  obtain ⟨hne, rfl⟩ := List.mem_getLast?_eq_getLast hd
  simpa using hself hne

/-- A normalised URL is accepted again, and it comes back unchanged just where its text does not end in a
blank and its host does not stand in brackets of its own. -/
theorem normalize_again (h : normalize raw = .ok text) :
    ∃ u again, parseList (expandAlias (Text.strip raw.toList)) = .ok u ∧ normalize text = .ok again ∧
      (again = text ↔ EndsSolid text.toList ∧ ¬ u.IsBracketed) := by
  obtain ⟨u, hparse, rfl⟩ := normalize_eq_ok h
  have hl := (legible_of_parseList hparse).settled
  have hname : u.settled.driverName = usedDriver u.driverName := asyncDriver_eq u
  have hused : usedDriver u.settled.driverName = u.settled.driverName := by rw [hname, usedDriver_usedDriver]
  have halias : u.settled.driverName.toList ≠ aliasName := by
    rw [hname]
    exact usedDriver_ne_alias (driverName_ne_alias hparse)
  have hhead : ∀ d ∈ u.settled.render.toList.head?, Text.isBlank d = false := by
    rw [render_eq]
    exact head_frontText hl
  by_cases hsolid : EndsSolid u.settled.render.toList
  case pos =>
    have hstrip : Text.strip u.settled.render.toList = u.settled.render.toList := by
      rw [strip_eq hhead, rdropWhile_of_solid hsolid]
    refine ⟨u, _, hparse, normalize_of_strip hl hused halias hstrip, fun heq => ⟨hsolid, fun hbracketed => ?_⟩,
      fun hplain => render_reread (u := u.settled) hplain.2⟩
    have hshort := length_reread hl hbracketed
    rw [heq] at hshort
    exact Nat.lt_irrefl _ hshort
  case neg =>
    obtain ⟨t, ht, htname, hstrip⟩ := exists_trimmed hl
    have hshort := length_strip hhead hsolid
    rw [← hstrip] at hshort
    rw [← htname] at hused halias
    refine ⟨u, _, hparse, normalize_of_strip ht hused halias hstrip.symm, fun heq => ?_, fun hplain =>
      absurd hplain.1 hsolid⟩
    by_cases hbracketed : t.IsBracketed
    · have hless := length_reread ht hbracketed
      rw [heq] at hless
      omega
    · rw [render_reread hbracketed] at heq
      rw [heq] at hshort
      omega

theorem normalize_again_plain :
    ∃ again, normalize "postgresql+psycopg://u:p%40@db:5432/app" = .ok again ∧
      again = "postgresql+psycopg://u:p%40@db:5432/app" := by
  have hnormal : normalize " postgres://u:p%40@db:5432/app" = .ok "postgresql+psycopg://u:p%40@db:5432/app" := by
    decide +kernel
  obtain ⟨u, again, hparse, hagain, hsame⟩ := normalize_again hnormal
  have hread : parseList (expandAlias (Text.strip " postgres://u:p%40@db:5432/app".toList)) =
      .ok { driverName := "postgresql", username := some "u", password := some "p@", host := some "db",
            port := some 5432, database := some "app" } := by decide +kernel
  obtain rfl := Except.ok.inj (hparse.symm.trans hread)
  have hlast : "postgresql+psycopg://u:p%40@db:5432/app".toList.getLast? = some 'p' := by decide +kernel
  refine ⟨again, hagain, hsame.mpr ⟨endsSolid_of_getLast? hlast (by decide), ?_⟩⟩
  rintro ⟨host, inner, after, hhost, -, -, hlist⟩
  obtain rfl : "db" = host := Option.some.inj hhost
  cases (show "db".toList = ['d', 'b'] by decide).symm.trans hlist

/-- A blank at the end of a database name stands for itself in the text, and is gone when the text is read
again: the text comes back changed, and names another database. -/
theorem normalize_again_blank :
    normalize "sqlite:///a%20" = .ok "sqlite+aiosqlite:///a " ∧
      normalize "sqlite+aiosqlite:///a " = .ok "sqlite+aiosqlite:///a" ∧
      (parse "sqlite+aiosqlite:///a ").map (·.database) = .ok (some "a ") ∧
      (parse "sqlite+aiosqlite:///a").map (·.database) = .ok (some "a") := by
  decide +kernel

end Transact.Url
