import Transact.Proofs.Connection.Service

/-! The ways in which an adapted connection goes out of use: closed at once, or invalidated and
closed, after a close that failed or in its place. -/
namespace Transact.Attached

open Connection (Carried Stands RollbackFailed)

/-- The first attempt to close failed. -/
def FirstCloseFailed (readings : List Reading) : Prop := ∃ e, readings.lookup .close = some (.error e)

/-! The ways out of use -/

/-- Nothing but to invalidate the connection is left: a close failed, or the rollback before. -/
inductive Doomed (kept : List Reading) : List Reading → Prop
  | unclosed (e : Error) : ¬ RollbackFailed kept → Doomed kept [(.close, .error e)]
  | spoiled : RollbackFailed kept → Doomed kept []

/-- The answers with which a connection is out of use for good. -/
inductive Disposed (kept : List Reading) : List Reading → Prop
  | closed : ¬ RollbackFailed kept → Disposed kept [(.close, .ok ())]
  | discarded {way : List Reading} (earlier last : Except Error Unit) : Doomed kept way →
      Disposed kept (way ++ [(.invalidate, earlier), (.close, last)])

/-- What came after the last answer in use, and the points that were gone to since. -/
inductive Leaving (kept : List Reading) : List Reading → List Point → Prop
  | inUse : ¬ RollbackFailed kept → Leaving kept [] []
  | closing : ¬ RollbackFailed kept → Leaving kept [] [.close]
  | invalidating {way : List Reading} : Doomed kept way →
      Leaving kept way (way.map Prod.fst ++ [.invalidate])
  | invalidated {way : List Reading} (earlier : Except Error Unit) : Doomed kept way →
      Leaving kept (way ++ [(.invalidate, earlier)]) (way.map Prod.fst ++ [.invalidate, .close])
  | disposed {way : List Reading} : Disposed kept way → Leaving kept way (way.map Prod.fst)

/-- What a connection's points have answered and which were gone to, split where it goes out of use. -/
structure Split (readings : List Reading) (touched : List Point) (kept way : List Reading)
    (points left : List Point) : Prop where
  readings_eq : readings = kept ++ way
  touched_eq : touched = points ++ left
  inUse : ∀ x ∈ kept, x.1.isWayOut = false
  points_inUse : ∀ point ∈ points, point.isWayOut = false
  leaving : Leaving kept way left

variable {ρ : Type} {readings kept way past front : List Reading} {touched points left : List Point}
  {log : List (Call Query × Except Error Unit)} {outcome : Except Error Unit}

theorem carried_release (h : Carried (log ++ [(.release, outcome)]) readings) :
    ∃ front, readings = front ++ [(.close, outcome)] ∧ Carried log front := by
  obtain ⟨front, back, rfl, hfront, hback⟩ := Connection.carried_append.mp h
  cases Connection.carried_singleton.mp hback
  exact ⟨front, rfl, hfront⟩

theorem carried_discard (h : Carried (log ++ [(.discard, outcome)]) readings) :
    ∃ front earlier last, readings = front ++ [(.invalidate, earlier), (.close, last)] ∧
      Carried log front := by
  obtain ⟨front, back, rfl, hfront, hback⟩ := Connection.carried_append.mp h
  cases Connection.carried_singleton.mp hback with
  | discard earlier last => exact ⟨front, earlier, last, rfl, hfront⟩

theorem handedBack_cases (h : HandedBack log) :
    (∃ front, log = front ++ [(.release, .ok ())] ∧ Clean front) ∨
      ∃ front outcome, log = front ++ [(.discard, outcome)] ∧ Condemned front := by
  cases h with
  | released hfront => exact .inl ⟨_, rfl, hfront⟩
  | @discarded front e outcome hfront =>
    refine .inr ⟨front ++ [(.release, .error e)], outcome, ?_, .unreleased hfront⟩
    rw [List.append_assoc]
    rfl
  | spoiled hfront hentry hspoiling => exact .inr ⟨_, _, rfl, .spoiled hfront hentry hspoiling⟩

theorem not_rollbackFailed (hcarried : Carried log readings) (hlog : Clean log) : ¬ RollbackFailed readings := by
  rw [hcarried.rollbackFailed_iff]
  rintro ⟨entry, hentry, hspoiling⟩
  exact hlog.sane entry hentry hspoiling

theorem doomed_of_condemned (hcarried : Carried log readings) (hlog : Condemned log) :
    ∃ kept way, readings = kept ++ way ∧ (∀ x ∈ kept, x.1.isWayOut = false) ∧ Doomed kept way := by
  cases hlog with
  | @unreleased log e hclean =>
    obtain ⟨front, rfl, hfront⟩ := carried_release hcarried
    exact ⟨front, _, rfl, hfront.inHand hclean.inHand, .unclosed e (not_rollbackFailed hfront hclean)⟩
  | spoiled hhand hentry hspoiling =>
    have hfailed := hcarried.rollbackFailed_iff.mpr ⟨_, hentry, hspoiling⟩
    exact ⟨readings, [], (List.append_nil _).symm, hcarried.inHand hhand, .spoiled hfailed⟩

theorem points_kept (hkept : ∀ x ∈ kept, x.1.isWayOut = false) :
    ∀ point ∈ kept.map Prod.fst, point.isWayOut = false := by
  intro point hpoint
  obtain ⟨x, hx, rfl⟩ := List.mem_map.mp hpoint
  exact hkept x hx

theorem Stands.inUse {call : Call Query} {progress : Except Error Connection.Progress}
    (h : Stands call progress past) (hback : call.isBack = false) :
    past = [] ∧ ∀ p, progress = .ok p → p.point.isWayOut = false := by
  cases h with
  | execute q p hp =>
    refine ⟨rfl, fun other hother => ?_⟩
    cases hother
    rw [hp]
    rfl
  | rollback point hpoint =>
    refine ⟨rfl, fun other hother => ?_⟩
    cases hother
    cases point <;> cases hpoint <;> rfl
  | unbegun => exact ⟨rfl, fun p hp => by cases hp⟩
  | begin | commit => exact ⟨rfl, fun p hp => by cases hp; rfl⟩
  | release | invalidating | closing => cases hback

/-- Before it is handed back, the connection goes to no point that takes it out of use. -/
theorem Served.inUse {id : String} {xs : List (Transact.Input Query ρ)} {a : Attached ρ}
    (h : Served id xs readings touched a) (hlog : InHand (({ id } : Session Query ρ).history xs).log)
    (hcalling : ∀ c ∈ a.session.calling, c.isBack = false) :
    Carried (({ id } : Session Query ρ).history xs).log readings ∧
      ∀ point ∈ touched, point.isWayOut = false := by
  obtain ⟨front, past, hreadings, hcarried, hunder⟩ := h.carried
  have htouched := h.touched
  have hkept := hcarried.inHand hlog
  rw [h.calling] at hcalling
  cases herrand : a.errand with
  | none =>
    rw [herrand] at hunder htouched
    cases hunder
    rw [List.append_nil] at hreadings
    subst hreadings
    rw [Option.bind_none, Option.toList_none, List.append_nil] at htouched
    exact ⟨hcarried, htouched ▸ points_kept hkept⟩
  | some e =>
    rw [herrand] at hunder htouched hcalling
    cases hunder with
    | some hstands =>
      obtain ⟨rfl, hpoint⟩ := Stands.inUse hstands (hcalling e.call rfl)
      rw [List.append_nil] at hreadings
      subst hreadings
      refine ⟨hcarried, fun point hmem => ?_⟩
      rw [htouched] at hmem
      rcases List.mem_append.mp hmem with hmem | hmem
      · exact points_kept hkept point hmem
      · obtain ⟨job, call, _ | p⟩ := e
        · cases hmem
        · rw [show point = p.point by simpa [Errand.point?] using hmem]
          exact hpoint p rfl

/-- Once it is back, the connection is out of use. -/
theorem Served.disposed {id : String} {xs : List (Transact.Input Query ρ)} {a : Attached ρ}
    (h : Served id xs readings touched a) (hnone : a.errand = none)
    (hback : HandedBack (({ id } : Session Query ρ).history xs).log) :
    ∃ kept way, readings = kept ++ way ∧ touched = readings.map Prod.fst ∧
      (∀ x ∈ kept, x.1.isWayOut = false) ∧ Disposed kept way := by
  obtain ⟨front, past, hreadings, hcarried, hunder⟩ := h.carried
  have htouched : touched = readings.map Prod.fst := by
    rw [h.touched, hnone]
    exact List.append_nil _
  rw [hnone] at hunder
  cases hunder
  rw [List.append_nil] at hreadings
  subst hreadings
  rcases handedBack_cases hback with ⟨log, hlog, hclean⟩ | ⟨log, outcome, hlog, hcondemned⟩
  · rw [hlog] at hcarried
    obtain ⟨kept, hkept, hfront⟩ := carried_release hcarried
    exact ⟨kept, _, hkept, htouched, hfront.inHand hclean.inHand, .closed (not_rollbackFailed hfront hclean)⟩
  · rw [hlog] at hcarried
    obtain ⟨front, earlier, last, hreadings, hfront⟩ := carried_discard hcarried
    obtain ⟨kept, way, rfl, hin, hdoomed⟩ := doomed_of_condemned hfront hcondemned
    rw [List.append_assoc] at hreadings
    exact ⟨kept, _, hreadings, htouched, hin, .discarded earlier last hdoomed⟩

/-- The way out of use follows from who answers for the connection. -/
theorem Served.split {id : String} {xs : List (Transact.Input Query ρ)} {a : Attached ρ}
    (h : Served id xs readings touched a)
    (hcustody : Custody (a.session.phase = .active) a.session.calling
      (({ id } : Session Query ρ).history xs).log) :
    ∃ kept way points left, Split readings touched kept way points left := by
  by_cases hactive : a.session.phase = .active
  · obtain ⟨hclean, hhand⟩ := hcustody.using_ hactive
    obtain ⟨hcarried, hpoints⟩ := h.inUse hclean.inHand hhand
    exact ⟨readings, [], touched, [], (List.append_nil _).symm, (List.append_nil _).symm,
      hcarried.inHand hclean.inHand, hpoints, .inUse (not_rollbackFailed hcarried hclean)⟩
  obtain ⟨front, past, hreadings, hcarried, hunder⟩ := h.carried
  have htouched := h.touched
  rw [h.calling] at hcustody
  cases herrand : a.errand with
  | none =>
    rw [herrand] at hcustody
    obtain ⟨kept, way, rfl, htouched, hin, hdisposed⟩ := h.disposed herrand (hcustody.back hactive rfl)
    rw [List.map_append] at htouched
    exact ⟨kept, way, _, _, rfl, htouched, hin, points_kept hin, .disposed hdisposed⟩
  | some e =>
    obtain ⟨job, call, progress⟩ := e
    rw [herrand] at hunder htouched hcustody
    have hback : call.isBack = true := hcustody.returning hactive call rfl
    cases hunder with
    | some hstands =>
      cases hstands with
      | release =>
        have hclean := hcustody.releasing rfl
        have hin := hcarried.inHand hclean.inHand
        rw [List.append_nil] at hreadings
        subst hreadings
        exact ⟨_, [], _, [.close], (List.append_nil _).symm, htouched, hin, points_kept hin,
          .closing (not_rollbackFailed hcarried hclean)⟩
      | invalidating =>
        obtain ⟨kept, way, rfl, hin, hdoomed⟩ := doomed_of_condemned hcarried (hcustody.discarding rfl)
        rw [List.append_nil] at hreadings
        subst hreadings
        exact ⟨kept, way, _, _, rfl, by simpa [Errand.point?] using htouched, hin, points_kept hin,
          .invalidating hdoomed⟩
      | closing earlier =>
        obtain ⟨kept, way, rfl, hin, hdoomed⟩ := doomed_of_condemned hcarried (hcustody.discarding rfl)
        subst hreadings
        exact ⟨kept, _, _, _, List.append_assoc _ _ _, by simpa [Errand.point?] using htouched, hin,
          points_kept hin, .invalidated earlier hdoomed⟩
      | _ => cases hback

/-! What the ways out have in common -/

theorem split_after {α : Type} {front back pre post : List α} {x : α} (h : front ++ back = pre ++ x :: post)
    (hx : x ∉ front) : ∃ mid, pre = front ++ mid ∧ back = mid ++ x :: post := by
  rcases List.append_eq_append_iff.mp h with ⟨mid, hpre, hback⟩ | ⟨mid, hfront, hcons⟩
  · exact ⟨mid, hpre, hback⟩
  · cases mid with
    | nil =>
      refine ⟨[], by simpa using hfront.symm, by simpa using hcons.symm⟩
    | cons y mid =>
      obtain ⟨rfl, -⟩ := List.cons.inj hcons
      exact absurd (by simp [hfront]) hx

namespace Split

variable (h : Split readings touched kept way points left)
include h

theorem not_mem {point : Point} (hpoint : point.isWayOut = true) : point ∉ points := by
  intro hmem
  rw [h.points_inUse point hmem] at hpoint
  cases hpoint

theorem count {point : Point} (hpoint : point.isWayOut = true) : touched.count point = left.count point := by
  rw [h.touched_eq, List.count_append, List.count_eq_zero_of_not_mem (h.not_mem hpoint), Nat.zero_add]

theorem mem_iff {point : Point} (hpoint : point.isWayOut = true) : point ∈ touched ↔ point ∈ left := by
  rw [h.touched_eq, List.mem_append, or_iff_right (h.not_mem hpoint)]

theorem lookup_close : readings.lookup .close = way.lookup .close := by
  have hnone : kept.lookup .close = none := by
    rw [List.lookup_eq_none_iff]
    rintro ⟨point, outcome⟩ hx
    have hinUse := h.inUse _ hx
    cases point <;> first | rfl | cases hinUse
  rw [h.readings_eq, List.lookup_append, hnone, Option.none_or]

end Split

theorem Doomed.isWayOut (h : Doomed kept way) : ∀ x ∈ way, x.1.isWayOut = true := by
  cases h with
  | unclosed => simp [Point.isWayOut]
  | spoiled => simp

theorem Leaving.isWayOut (h : Leaving kept way left) : ∀ x ∈ way, x.1.isWayOut = true := by
  have hlast {way more : List Reading} (hway : Doomed kept way) (hmore : ∀ x ∈ more, x.1.isWayOut = true) :
      ∀ x ∈ way ++ more, x.1.isWayOut = true := by
    intro x hx
    rcases List.mem_append.mp hx with hx | hx
    · exact hway.isWayOut x hx
    · exact hmore x hx
  cases h with
  | inUse | closing => simp
  | invalidating hdoomed => exact hdoomed.isWayOut
  | invalidated earlier hdoomed => exact hlast hdoomed (by simp [Point.isWayOut])
  | disposed hdisposed =>
    cases hdisposed with
    | closed => simp [Point.isWayOut]
    | discarded earlier last hdoomed => exact hlast hdoomed (by simp [Point.isWayOut])

theorem Split.rollbackFailed_iff (h : Split readings touched kept way points left) :
    RollbackFailed readings ↔ RollbackFailed kept := by
  constructor
  · rintro ⟨point, e, hpoint, hmem⟩
    rw [h.readings_eq, List.mem_append] at hmem
    refine ⟨point, e, hpoint, hmem.resolve_right fun hway => ?_⟩
    have hout := h.leaving.isWayOut _ hway
    cases point <;> cases hpoint <;> cases hout
  · rintro ⟨point, e, hpoint, hmem⟩
    exact ⟨point, e, hpoint, h.readings_eq ▸ List.mem_append_left _ hmem⟩

theorem Leaving.count_le (h : Leaving kept way left) :
    left.count .close ≤ 2 ∧ left.count .invalidate ≤ 1 := by
  have hlast {way : List Reading} (hway : Doomed kept way) :
      (way.map Prod.fst ++ [Point.invalidate, .close]).count .close ≤ 2 ∧
        (way.map Prod.fst ++ [Point.invalidate, .close]).count .invalidate ≤ 1 := by
    cases hway <;> simp
  cases h with
  | inUse | closing => simp
  | invalidating hdoomed => cases hdoomed <;> simp
  | invalidated earlier hdoomed => exact hlast hdoomed
  | disposed hdisposed =>
    cases hdisposed with
    | closed => simp
    | discarded earlier last hdoomed =>
      rw [List.map_append]
      exact hlast hdoomed

theorem Doomed.cause (h : Doomed kept way) (more : List Reading) :
    RollbackFailed kept ∨ ∃ e, (way ++ more).lookup .close = some (.error e) := by
  cases h with
  | unclosed e => exact .inr ⟨e, rfl⟩
  | spoiled hfailed => exact .inl hfailed

theorem Leaving.cause (h : Leaving kept way left) (hmem : .invalidate ∈ left) :
    RollbackFailed kept ∨ ∃ e, way.lookup .close = some (.error e) := by
  cases h with
  | inUse | closing => simp at hmem
  | invalidating hdoomed => simpa using hdoomed.cause []
  | invalidated earlier hdoomed => exact hdoomed.cause _
  | disposed hdisposed =>
    cases hdisposed with
    | closed => simp at hmem
    | discarded earlier last hdoomed => exact hdoomed.cause _

/-- After a rollback that failed, the first way out is to invalidate. -/
theorem Leaving.spoiled (h : Leaving kept way left) (hfailed : RollbackFailed kept) :
    ∃ rest, left = .invalidate :: rest := by
  have hdoomed {way : List Reading} (hway : Doomed kept way) : way = [] := by
    cases hway with
    | unclosed e hsane => exact absurd hfailed hsane
    | spoiled => rfl
  cases h with
  | inUse hsane | closing hsane => exact absurd hfailed hsane
  | invalidating hway => exact ⟨[], by rw [hdoomed hway]; rfl⟩
  | invalidated earlier hway => exact ⟨[.close], by rw [hdoomed hway]; rfl⟩
  | disposed hdisposed =>
    cases hdisposed with
    | closed hsane => exact absurd hfailed hsane
    | discarded earlier last hway => exact ⟨[.close], by rw [hdoomed hway]; rfl⟩

theorem Disposed.getLast? (h : Disposed kept way) : (way.map Prod.fst).getLast? = some .close := by
  cases h <;> simp

/-- The connection is invalidated where the first close failed, or the rollback before. -/
theorem Disposed.invalidate_mem_iff (h : Disposed kept way) : .invalidate ∈ way.map Prod.fst ↔
    RollbackFailed kept ∨ ∃ e, way.lookup .close = some (.error e) := by
  refine ⟨(Leaving.disposed h).cause, fun hcause => ?_⟩
  cases h with
  | closed hsane =>
    obtain ⟨e, he⟩ := hcause.resolve_left hsane
    cases he
  | discarded => simp

theorem Disposed.count_close (h : Disposed kept way) (hmem : .invalidate ∉ way.map Prod.fst) :
    (way.map Prod.fst).count .close = 1 := by
  cases h with
  | closed => rfl
  | discarded => simp at hmem

end Transact.Attached
