import Transact.Proofs.Url.RoundTrip
import Transact.Url.Hosts
import Transact.Url.Normalize

/-! A URL that was brought to another driver is read back with that driver and is otherwise the same. -/
namespace Transact.Url

variable {raw text : String} {u : Url}

/-! ### The driver -/

/-- The driver that is used in place of a named one: what counts is what stands before the first plus
sign and, if there is one, what stands behind it up to the next. -/
def usedDriver (name : String) : String :=
  let named := parts '+' name
  let backend := named.headD ""
  let driver := named[1]?.getD ""
  if backend = "postgresql" ∧ (driver = "" ∨ driver = "psycopg2" ∨ driver = "psycopg") then "postgresql+psycopg"
  else if backend = "sqlite" ∧ (driver = "" ∨ driver = "pysqlite") then "sqlite+aiosqlite"
  else name

theorem split_eq (c : Char) (cs : List Char) : split c cs =
    cs.takeWhile (· != c) :: match cs.dropWhile (· != c) with
      | [] => []
      | _ :: rest => split c rest := by
  induction cs with
  | nil => rfl
  | cons d cs ih =>
    by_cases hd : d = c
    · simp [split, hd]
    · simp only [split, beq_iff_eq, hd, ↓reduceIte, ih]
      simp [hd]

theorem backend_eq (u : Url) : u.backend = (parts '+' u.driverName).headD "" := by
  rw [backend, parts, split_eq]
  rfl

theorem driver_eq (u : Url) : u.driver = (parts '+' u.driverName)[1]?.getD "" := by
  rw [driver, parts, split_eq]
  cases u.driverName.toList.dropWhile (· != '+') with
  | nil => rfl
  | cons d rest =>
    dsimp only
    rw [split_eq]
    rfl

theorem asyncDriver_eq (u : Url) : u.asyncDriver = usedDriver u.driverName := by
  simp only [asyncDriver, usedDriver, backend_eq, driver_eq, List.mem_cons, List.not_mem_nil, or_false]

theorem isSchemeChar_asyncDriver (hl : u.Legible) :
    u.asyncDriver.toList ≠ [] ∧ ∀ c ∈ u.asyncDriver.toList, isSchemeChar c = true := by
  unfold asyncDriver
  split
  · exact ⟨by decide, List.all_eq_true.mp rfl⟩
  · split
    · exact ⟨by decide, List.all_eq_true.mp rfl⟩
    · exact ⟨hl.named, hl.scheme⟩

/-- The URL with the driver that is used. -/
def settled (u : Url) : Url := { u with driverName := u.asyncDriver }

theorem Legible.settled (hl : u.Legible) : u.settled.Legible where
  named := (isSchemeChar_asyncDriver hl).1
  scheme := (isSchemeChar_asyncDriver hl).2
  user := hl.user
  host := hl.host
  clear := hl.clear
  port := hl.port
  query := hl.query

/-! ### The URL -/

theorem normalize_eq_ok (h : normalize raw = .ok text) :
    ∃ u, parseList (expandAlias (Text.strip raw.toList)) = .ok u ∧ text = u.settled.render := by
  rw [normalize, read] at h
  split at h
  · cases h
  · split at h
    · cases h
    · cases hparse : parseList (expandAlias (Text.strip raw.toList)) with
      | error e =>
        rw [hparse] at h
        cases h
      | ok u =>
        rw [hparse] at h
        exact ⟨u, rfl, (Except.ok.inj h).symm⟩

theorem lookup_perm {α : Type} {fields other : List (String × α)} (h : fields.Perm other)
    (hkeys : (fields.map (·.1)).Nodup) (key : String) : fields.lookup key = other.lookup key := by
  induction h with
  | nil => rfl
  | cons e _ ih =>
    rw [List.lookup_cons, List.lookup_cons, ih (List.nodup_cons.mp hkeys).2]
  | swap first second rest =>
    obtain ⟨k, a⟩ := first
    obtain ⟨l, b⟩ := second
    have hne : l ≠ k := by
      intro heq
      simp [heq] at hkeys
    rw [List.lookup_cons, List.lookup_cons, List.lookup_cons, List.lookup_cons]
    by_cases hk : key = k
    · rw [beq_eq_false_iff_ne.mpr (hk ▸ hne.symm)]
    · rw [beq_eq_false_iff_ne.mpr hk]
  | trans hfirst _ ihfirst ihsecond =>
    exact (ihfirst hkeys).trans (ihsecond ((hfirst.map _).nodup_iff.mp hkeys))

theorem not_isBracketed (h : ∀ host, u.host = some host → host.toList.head? ≠ some '[') : ¬ u.IsBracketed := by
  rintro ⟨host, inner, after, hhost, -, -, hlist⟩
  apply h host hhost
  rw [hlist]
  rfl

/-- Only the driver changes, and it changes to the one in use: the normalised text is read back with every
other part as it was in the text it was made from. -/
theorem parts_of_normalize (h : normalize raw = .ok text) :
    ∃ u, parseList (expandAlias (Text.strip raw.toList)) = .ok u ∧
      ((∀ host, u.host = some host → host.toList.head? ≠ some '[') →
        ∃ v, parse text = .ok v ∧ v.driverName = usedDriver u.driverName ∧ v.username = u.username ∧
          v.password = u.password ∧ v.host = u.host ∧ v.port = u.port ∧ v.database = u.database ∧
          ∀ key, v.query.lookup key = u.query.lookup key) := by
  obtain ⟨u, hparse, rfl⟩ := normalize_eq_ok h
  have hl := legible_of_parseList hparse
  refine ⟨u, hparse, fun hhost => ?_⟩
  have hread := parse_render hl.settled (not_isBracketed (u := u.settled) hhost)
  refine ⟨_, hread, asyncDriver_eq u, rfl, rfl, rfl, rfl, rfl, fun key => ?_⟩
  have hperm := u.settled.sortedQuery_perm
  exact lookup_perm hperm ((hperm.map _).nodup_iff.mpr hl.query.keys) key

theorem parts_of_normalize_escaped :
    ∃ text, normalize " postgres://ann:p%40:s@[::1]:5432/my%20db?b=2&a=%26&b=3" = .ok text ∧
      ∃ v, parse text = .ok v ∧ v.driverName = "postgresql+psycopg" ∧ v.username = some "ann" ∧
        v.password = some "p@:s" ∧ v.host = some "::1" ∧ v.port = some 5432 ∧ v.database = some "my db" ∧
        v.query.lookup "b" = some ["2", "3"] ∧ v.query.lookup "a" = some ["&"] := by
  let raw := " postgres://ann:p%40:s@[::1]:5432/my%20db?b=2&a=%26&b=3"
  let u : Url := { driverName := "postgresql", username := some "ann", password := some "p@:s", host := some "::1",
                   port := some 5432, database := some "my db", query := [("b", ["2", "3"]), ("a", ["&"])] }
  have hread : read raw = .ok u := by decide +kernel
  have hnormal : normalize raw = .ok u.settled.render := congrArg (Except.map fun u => render (settled u)) hread
  have hparse : parseList (expandAlias (Text.strip raw.toList)) = .ok u := by decide +kernel
  obtain ⟨found, hfound, hkeep⟩ := parts_of_normalize hnormal
  obtain rfl : found = u := Except.ok.inj (hfound.symm.trans hparse)
  have hhost : ∀ host, u.host = some host → host.toList.head? ≠ some '[' := by
    intro host hhost
    obtain rfl : "::1" = host := Option.some.inj hhost
    decide
  obtain ⟨v, hv, hdriver, huser, hpassword, hhost, hport, hdatabase, hquery⟩ := hkeep hhost
  exact ⟨_, hnormal, v, hv, hdriver.trans (by decide +kernel), huser, hpassword, hhost, hport, hdatabase,
    hquery "b", hquery "a"⟩

end Transact.Url
