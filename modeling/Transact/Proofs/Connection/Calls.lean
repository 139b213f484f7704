import Transact.Proofs.Connection.Attached

/-! What the calls on an adapted connection come to at the store. Each call goes to a point or two
of it, or to none where a commit finds no transaction, and the answers there make up its outcome. -/
namespace Transact

/-- A transaction is rolled back through its own object or through its connection's. -/
def Point.isRollback : Point → Bool
  | rollback | transactionRollback => true
  | _ => false

/-- The points that take a connection out of use. -/
def Point.isWayOut : Point → Bool
  | invalidate | close => true
  | _ => false

/-- A point of the store that answered, and how. -/
abbrev Reading := Point × Except Error Unit

namespace Connection

/-- What the points answer that a call goes to, and the outcome of the call. -/
inductive Piece : Call Query → Except Error Unit → List Reading → Prop
  | begin (outcome : Except Error Unit) : Piece .begin outcome [(.begin, outcome)]
  | execute (q : Query) (outcome : Except Error Unit) : Piece (.execute q) outcome [(.execute, outcome)]
  | unbegun : Piece .commit (.error .commitBeforeBegin) []
  | commit (outcome : Except Error Unit) : Piece .commit outcome [(.transactionCommit, outcome)]
  | rollback (point : Point) (outcome : Except Error Unit) : point.isRollback = true →
      Piece .rollback outcome [(point, outcome)]
  | release (outcome : Except Error Unit) : Piece .release outcome [(.close, outcome)]
  | discard (earlier outcome : Except Error Unit) :
      Piece .discard (closeOutcome (failureOf earlier) outcome) [(.invalidate, earlier), (.close, outcome)]

/-- Where a call stands that has had these answers so far. -/
inductive Stands : Call Query → Except Error Progress → List Reading → Prop
  | begin : Stands .begin (.ok { point := .begin }) []
  | execute (q : Query) (p : Progress) : p.point = .execute → Stands (.execute q) (.ok p) []
  | unbegun : Stands .commit (.error .commitBeforeBegin) []
  | commit : Stands .commit (.ok { point := .transactionCommit }) []
  | rollback (point : Point) : point.isRollback = true → Stands .rollback (.ok { point }) []
  | release : Stands .release (.ok { point := .close }) []
  | invalidating : Stands .discard (.ok { point := .invalidate }) []
  | closing (earlier : Except Error Unit) :
      Stands .discard (.ok { point := .close, failure := failureOf earlier }) [(.invalidate, earlier)]

variable {c d : Connection} {call : Call Query} {p q : Progress} {outcome result : Except Error Unit}
  {e : Error} {past : List Reading}

theorem stands_start (hc : c.adapted = true) (call : Call Query) : Stands call (c.start call) [] := by
  cases call with
  | begin =>
    simp only [start, hc, if_true]
    exact .begin
  | execute q =>
    simp only [start, hc, if_true]
    exact .execute q _ rfl
  | commit =>
    simp only [start, hc, if_true]
    split
    · exact .unbegun
    · exact .commit
  | rollback =>
    simp only [start, hc, if_true]
    apply Stands.rollback
    split <;> rfl
  | release =>
    simp only [start, hc, if_true]
    exact .release
  | discard =>
    simp only [start, hc, if_true]
    exact .invalidating

theorem start_rollback (hc : c.adapted = true) : c.start .rollback =
    .ok { point := if c.transaction = .active then .transactionRollback else .rollback } := by
  simp [start, hc]

theorem Stands.refused (h : Stands call (.error e) past) : Piece call (.error e) past := by
  cases h
  exact .unbegun

theorem settle_plain (hinvalidate : p.point ≠ .invalidate) (hclose : p.point ≠ .close) :
    (c.settle p outcome).2 = .answered outcome := by
  unfold settle
  cases hp : p.point <;> simp_all

theorem settle_close (hp : p.point = .close) :
    (c.settle p outcome).2 = .answered (closeOutcome p.failure outcome) := by
  simp [settle, hp]

theorem closeOutcome_none : closeOutcome none outcome = outcome := by
  cases outcome <;> rfl

theorem Stands.answered (h : Stands call (.ok p) past)
    (hsettle : (c.settle p outcome).2 = .answered result) :
    Piece call result (past ++ [(p.point, outcome)]) := by
  have hplain (hinvalidate : p.point ≠ .invalidate) (hclose : p.point ≠ .close) : outcome = result := by
    rw [settle_plain hinvalidate hclose] at hsettle
    exact Next.answered.inj hsettle
  cases h with
  | begin =>
    rw [← hplain nofun nofun]
    exact .begin outcome
  | execute q p hp =>
    rw [← hplain (by simp [hp]) (by simp [hp]), hp]
    exact .execute q outcome
  | commit =>
    rw [← hplain nofun nofun]
    exact .commit outcome
  | rollback point hpoint =>
    rw [← hplain (by rintro rfl; cases hpoint) (by rintro rfl; cases hpoint)]
    exact .rollback point outcome hpoint
  | release =>
    rw [settle_close rfl, closeOutcome_none] at hsettle
    rw [← Next.answered.inj hsettle]
    exact .release outcome
  | invalidating => simp [settle] at hsettle
  | closing earlier =>
    rw [settle_close rfl] at hsettle
    rw [← Next.answered.inj hsettle]
    exact .discard earlier outcome

/-- Only an invalidation is followed by another point, and that is the close. -/
theorem Stands.moved (h : Stands call (.ok p) past) (hsettle : (c.settle p outcome).2 = .touch q) :
    call = .discard ∧ p.point = .invalidate ∧ past = [] ∧
      q = { point := .close, failure := failureOf outcome } := by
  have hpoint := (settle_touch (Prod.ext rfl hsettle)).1
  cases h with
  | invalidating =>
    simp only [settle, Next.touch.injEq] at hsettle
    exact ⟨rfl, rfl, rfl, hsettle.symm⟩
  | execute q p hp => cases hp.symm.trans hpoint
  | rollback point hback =>
    have hpoint : point = .invalidate := hpoint
    rw [hpoint] at hback
    cases hback
  | _ => cases hpoint

theorem settle_adapted (c : Connection) (p : Progress) (outcome : Except Error Unit) :
    (c.settle p outcome).1.adapted = c.adapted := by
  have hattempted : (c.attempted p).adapted = c.adapted := by
    unfold attempted
    split <;> rfl
  have hmark (c : Connection) : (c.mark p).adapted = c.adapted := by
    unfold mark
    split <;> rfl
  unfold settle
  cases p.point <;> simp only <;> split <;> simp only [hmark, hattempted]

/-! The calls of a session, one after the other -/

/-- What the store answered while these calls were made. -/
def Carried : List (Call Query × Except Error Unit) → List Reading → Prop
  | [], readings => readings = []
  | (call, outcome) :: log, readings =>
    ∃ piece rest, readings = piece ++ rest ∧ Piece call outcome piece ∧ Carried log rest

variable {log front back : List (Call Query × Except Error Unit)} {readings piece : List Reading}

theorem carried_append : Carried (front ++ back) readings ↔
    ∃ xs ys, readings = xs ++ ys ∧ Carried front xs ∧ Carried back ys := by
  induction front generalizing readings with
  | nil =>
    constructor
    · exact fun h => ⟨[], readings, rfl, rfl, h⟩
    · rintro ⟨xs, ys, rfl, rfl, h⟩
      exact h
  | cons entry rest ih =>
    constructor
    · rintro ⟨piece, later, rfl, hpiece, hlater⟩
      obtain ⟨xs, ys, rfl, hxs, hys⟩ := ih.mp hlater
      exact ⟨piece ++ xs, ys, by rw [List.append_assoc], ⟨piece, xs, rfl, hpiece, hxs⟩, hys⟩
    · rintro ⟨xs, ys, rfl, ⟨piece, xs, rfl, hpiece, hxs⟩, hys⟩
      exact ⟨piece, xs ++ ys, by rw [List.append_assoc], hpiece, ih.mpr ⟨xs, ys, rfl, hxs, hys⟩⟩

theorem carried_singleton : Carried [(call, outcome)] readings ↔ Piece call outcome readings := by
  constructor
  · rintro ⟨piece, rest, rfl, hpiece, rfl⟩
    rwa [List.append_nil]
  · exact fun h => ⟨readings, [], by rw [List.append_nil], h, rfl⟩

theorem Carried.concat (h : Carried log readings) (hpiece : Piece call outcome piece) :
    Carried (log ++ [(call, outcome)]) (readings ++ piece) :=
  carried_append.mpr ⟨readings, piece, rfl, h, carried_singleton.mpr hpiece⟩

theorem Carried.mem (h : Carried log readings) {x : Reading} (hx : x ∈ readings) :
    ∃ entry ∈ log, ∃ piece, Piece entry.1 entry.2 piece ∧ x ∈ piece := by
  induction log generalizing readings with
  | nil =>
    rw [show readings = [] from h] at hx
    cases hx
  | cons entry rest ih =>
    obtain ⟨piece, later, rfl, hpiece, hlater⟩ := h
    rcases List.mem_append.mp hx with hx | hx
    · exact ⟨entry, List.mem_cons_self, piece, hpiece, hx⟩
    · obtain ⟨other, hother, hfound⟩ := ih hlater hx
      exact ⟨other, List.mem_cons_of_mem _ hother, hfound⟩

theorem Carried.exists_piece (h : Carried log readings) {entry : Call Query × Except Error Unit}
    (hentry : entry ∈ log) : ∃ piece, Piece entry.1 entry.2 piece ∧ ∀ x ∈ piece, x ∈ readings := by
  induction log generalizing readings with
  | nil => cases hentry
  | cons first rest ih =>
    obtain ⟨piece, later, rfl, hpiece, hlater⟩ := h
    rcases List.mem_cons.mp hentry with rfl | hentry
    · exact ⟨piece, hpiece, fun x hx => List.mem_append_left _ hx⟩
    · obtain ⟨other, hother, hsub⟩ := ih hlater hentry
      exact ⟨other, hother, fun x hx => List.mem_append_right _ (hsub x hx)⟩

theorem Piece.rollbacks (h : Piece call outcome piece) :
    piece.countP (·.1.isRollback) = if call.isRollback then 1 else 0 := by
  cases h with
  | rollback point outcome hpoint => simp [hpoint, Call.isRollback]
  | _ => rfl

/-- Each rollback is tried at one point. -/
theorem Carried.rollbacks (h : Carried log readings) :
    readings.countP (·.1.isRollback) = log.countP (·.1.isRollback) := by
  induction log generalizing readings with
  | nil =>
    rw [show readings = [] from h]
    rfl
  | cons entry rest ih =>
    obtain ⟨piece, later, rfl, hpiece, hlater⟩ := h
    rw [List.countP_append, List.countP_cons, hpiece.rollbacks, ih hlater, Nat.add_comm]

theorem Piece.isWayOut (h : Piece call outcome piece) (hback : call.isBack = false) :
    ∀ x ∈ piece, x.1.isWayOut = false := by
  cases h with
  | rollback point outcome hpoint => cases point <;> cases hpoint <;> simp [Point.isWayOut]
  | release | discard => cases hback
  | _ => simp [Point.isWayOut]

theorem Carried.inHand (h : Carried log readings) (hlog : InHand log) :
    ∀ x ∈ readings, x.1.isWayOut = false := by
  intro x hx
  obtain ⟨entry, hentry, piece, hpiece, hx⟩ := h.mem hx
  exact hpiece.isWayOut (hlog entry hentry) x hx

/-- A rollback was tried, and failed. -/
def RollbackFailed (readings : List Reading) : Prop :=
  ∃ (point : Point) (e : Error), point.isRollback = true ∧ (point, .error e) ∈ readings

theorem Piece.rollback_of_mem (h : Piece call outcome piece) {point : Point}
    (hpoint : point.isRollback = true) (hmem : (point, result) ∈ piece) :
    call = .rollback ∧ outcome = result := by
  cases h with
  | rollback other outcome hother =>
    obtain ⟨-, rfl⟩ := Prod.mk.inj (List.mem_singleton.mp hmem)
    exact ⟨rfl, rfl⟩
  | unbegun => cases hmem
  | discard =>
    rcases List.mem_pair.mp hmem with heq | heq <;> cases heq <;> cases hpoint
  | _ => cases List.mem_singleton.mp hmem; cases hpoint

theorem Carried.rollbackFailed_iff (h : Carried log readings) :
    RollbackFailed readings ↔ ∃ entry ∈ log, IsSpoiling entry := by
  constructor
  · rintro ⟨point, e, hpoint, hmem⟩
    obtain ⟨entry, hentry, piece, hpiece, hmem⟩ := h.mem hmem
    obtain ⟨hcall, houtcome⟩ := hpiece.rollback_of_mem hpoint hmem
    exact ⟨entry, hentry, hcall, e, houtcome⟩
  · rintro ⟨⟨call, outcome⟩, hentry, rfl, e, rfl⟩
    obtain ⟨piece, hpiece, hsub⟩ := h.exists_piece hentry
    cases hpiece with
    | rollback point _ hpoint => exact ⟨point, e, hpoint, hsub _ (List.mem_singleton_self _)⟩

/-- The store failed by ordinary errors only, statements apart. -/
def Ordinary (readings : List Reading) : Prop :=
  ∀ (point : Point) (e : Error), (point, .error e) ∈ readings → point ≠ .execute → e.isOrdinary = true

theorem Piece.ordinary (h : Piece call (.error e) piece) (hcall : call.statement? = none)
    (hordinary : Ordinary piece) : e.isOrdinary = true := by
  generalize houtcome : (.error e : Except Error Unit) = outcome at h
  cases h with
  | unbegun => cases houtcome; rfl
  | execute => cases hcall
  | rollback point outcome hpoint =>
    subst houtcome
    exact hordinary point e (List.mem_singleton_self _) (by rintro rfl; cases hpoint)
  | discard earlier outcome =>
    cases outcome with
    | error e' =>
      cases houtcome
      exact hordinary .close e (by simp) nofun
    | ok =>
      cases earlier with
      | error e' =>
        cases houtcome
        exact hordinary .invalidate e (by simp) nofun
      | ok => cases houtcome
  | _ =>
    subst houtcome
    exact hordinary _ e (List.mem_singleton_self _) nofun

/-- Then the calls, too, fail by ordinary errors only. -/
theorem Carried.ordinary (h : Carried log readings) (hordinary : Ordinary readings)
    (hentry : (call, .error e) ∈ log) (hcall : call.statement? = none) : e.isOrdinary = true := by
  obtain ⟨piece, hpiece, hsub⟩ := h.exists_piece hentry
  exact hpiece.ordinary hcall fun point e hmem => hordinary point e (hsub _ hmem)

end Connection
end Transact
