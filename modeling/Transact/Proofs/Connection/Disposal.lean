import Transact.Proofs.Connection.Leaving
import Transact.Proofs.Session.Reentry

/-! How an adapted connection goes out of use. A raw connection that may be dirty is invalidated
before it is closed, and whatever fails, it is closed in the end. -/
namespace Transact.Attached

open Connection (Stands RollbackFailed Ordinary)

variable {ρ : Type} {readings kept way past : List Reading} {touched : List Point}

/-- The store's answers fail by ordinary errors only; replies to statements may be any. -/
def Input.isOrdinary : Input ρ → Bool
  | .settle (.error e) _ => e.isOrdinary
  | _ => true

variable {id : String} {a : Attached ρ} {i : Input ρ} {xs : List (Transact.Input Query ρ)}
  {m : Moment ρ} {c : Connection} {inputs : List (Input ρ)}

theorem reading_ordinary (h : Served id xs readings touched a) (hi : i.isOrdinary = true) {point : Point}
    {e : Error} (hreading : (a.route i).answered = some (point, .error e)) (hpoint : point ≠ .execute) :
    e.isOrdinary = true := by
  have hcases := route_cases a i
  generalize a.route i = r at hcases hreading
  cases hcases with
  | replied herrand =>
    obtain ⟨past, hstands⟩ := h.stands herrand
    cases hstands with
    | execute _ _ hp =>
      simp only [Option.some.injEq, Prod.mk.injEq] at hreading
      exact absurd (hreading.1.symm.trans hp) hpoint
  | moved | answered =>
    simp only [Option.some.injEq, Prod.mk.injEq] at hreading
    rw [hreading.2] at hi
    exact hi
  | _ => cases hreading

/-- An invalidation that has answered, whichever way, is followed by the close in the same step. -/
theorem reading_invalidate (h : Served id xs readings touched a) {outcome : Except Error Unit}
    (hreading : (a.route i).answered = some (.invalidate, outcome)) :
    (a.step i).2.filterMap Effect.point? = [.close] := by
  have hcases := route_cases a i
  simp only [Attached.step]
  generalize a.route i = r at hcases hreading ⊢
  cases hcases with
  | replied herrand =>
    obtain ⟨past, hstands⟩ := h.stands herrand
    cases hstands with
    | execute _ _ hp =>
      simp only [Option.some.injEq, Prod.mk.injEq] at hreading
      cases hreading.1.symm.trans hp
  | moved _ herrand hsettle =>
    obtain ⟨past, hstands⟩ := h.stands herrand
    obtain ⟨-, -, -, rfl⟩ := hstands.moved hsettle
    rfl
  | answered _ herrand hstatement hsettle =>
    simp only [Option.some.injEq, Prod.mk.injEq] at hreading
    simp [Connection.settle, hreading.1] at hsettle
  | _ => cases hreading

/-- A rollback goes to the transaction where that is active, and else to the connection. -/
def rollbackPoint (c : Connection) : Point :=
  if c.transaction = .active then .transactionRollback else .rollback

theorem sent_rollback (hc : c.adapted = true) {e : Errand} (he : e.progress = c.start e.call) :
    e.point?.toList.filter Point.isRollback = ([e.call].filter Call.isRollback).map fun _ => rollbackPoint c := by
  obtain ⟨job, call, progress⟩ := e
  obtain rfl : progress = c.start call := he
  have hstands := Connection.stands_start hc call
  cases call with
  | rollback =>
    simp only [Errand.point?, Connection.start_rollback hc, rollbackPoint]
    split <;> rfl
  | _ =>
    generalize c.start _ = progress at hstands ⊢
    cases hstands <;> simp_all [Errand.point?, Point.isRollback, Call.isRollback]

theorem take_rollback (hc : a.connection.adapted = true) (x : Transact.Input Query ρ) :
    ((a.take x).2.filterMap Effect.point?).filter Point.isRollback =
      (((a.take x).2.filterMap Effect.call?).filter Call.isRollback).map
        fun _ => rollbackPoint (a.take x).1.connection := by
  rcases take_cases a x with ⟨hcalled, htake⟩ | ⟨e, hcalled, -, hprogress, htake⟩
  · rw [htake, filterMap_point?_session, filterMap_call?_session]
    change _ = ((a.called x).filter _).map _
    rw [hcalled]
    rfl
  · rw [htake, List.filterMap_append, List.filterMap_append, filterMap_point?_session,
      filterMap_point?_touch, filterMap_call?_session, filterMap_call?_touch, List.nil_append,
      List.append_nil, sent_rollback hc hprogress]
    change _ = ((a.called x).filter _).map _
    rw [hcalled]

theorem Routing.adapted {r : Routed ρ} (h : Routing a i r) : r.connection.adapted = a.connection.adapted := by
  cases h with
  | replied | moved | answered => exact Connection.settle_adapted _ _ _
  | _ => rfl

theorem step_rollback (h : Served id xs readings touched a) (i : Input ρ) :
    ((a.step i).2.filterMap Effect.point?).filter Point.isRollback =
      (((a.step i).2.filterMap Effect.call?).filter Call.isRollback).map
        fun _ => rollbackPoint (a.step i).1.connection := by
  have hcases := route_cases a i
  have hadapted := hcases.adapted.trans h.adapted
  simp only [Attached.step]
  generalize a.route i = r at hcases hadapted ⊢
  cases hcases with
  | idle | turned => rfl
  | moved _ herrand hsettle =>
    obtain ⟨past, hstands⟩ := h.stands herrand
    obtain ⟨-, -, -, rfl⟩ := hstands.moved hsettle
    rfl
  | own | replied | answered => exact take_rollback hadapted _
  | refused => exact take_rollback (a := { a with errand := none }) hadapted _

theorem mem_of_passed {j : Nat} (hx : .interrupt j ∈ (history a inputs).passed) :
    .session (.interrupt j) ∈ inputs := by
  obtain ⟨m, hm, hpassed⟩ := List.mem_filterMap.mp hx
  obtain ⟨before, i, rest, rfl, rfl⟩ := Walk.mem_history hm
  have hcases := route_cases (Walk.after step a before) i
  change ((Walk.after step a before).route i).passed = _ at hpassed
  generalize (Walk.after step a before).route i = r at hcases hpassed
  cases hcases with
  | own =>
    cases hpassed
    simp
  | _ => cases hpassed

theorem readings_ordinary (id : String) (hc : c.adapted = true) (hordinary : ∀ i ∈ inputs, i.isOrdinary = true) :
    Ordinary (history (fresh (ρ := ρ) id c) inputs).readings := by
  intro point e hmem hpoint
  obtain ⟨m, hm, hreading⟩ := List.mem_filterMap.mp hmem
  obtain ⟨before, i, rest, rfl, rfl⟩ := Walk.mem_history hm
  exact reading_ordinary (served_history id c hc before) (hordinary i (by simp)) hreading hpoint

theorem returning (id : String) (hc : c.adapted = true) (hordinary : ∀ i ∈ inputs, i.isOrdinary = true) :
    Session.Returning (({ id } : Session Query ρ).history (history (fresh id c) inputs).passed)
      (after (fresh id c) inputs).session := by
  have hserved := served_history (ρ := ρ) id c hc inputs
  have hreadings := readings_ordinary (ρ := ρ) id hc hordinary
  obtain ⟨front, past, hsplit, hcarried, -⟩ := hserved.carried
  have hfront : Ordinary front := fun point e hmem => hreadings point e (by
    rw [show (history (fresh id c) inputs).readings = front ++ past from hsplit]
    exact List.mem_append_left _ hmem)
  have hmild : (({ id } : Session Query ρ).history (history (fresh id c) inputs).passed).Mild :=
    fun call e hentry hcall => hcarried.ordinary hfront hentry hcall
  have hreturning := Session.returning_history id _ hmild
  rw [show (after (fresh id c) inputs).session = _ from hserved.session]
  exact hreturning

/-- On its way back a connection is not rolled back. -/
theorem Underway.rollbacks {errand : Option Errand} (h : Underway errand past)
    (hback : ∀ e ∈ errand, e.call.isBack = true) :
    past.countP (·.1.isRollback) + (errand.bind Errand.point?).toList.countP Point.isRollback = 0 := by
  cases h with
  | none => rfl
  | @some e past hstands =>
    obtain ⟨job, call, progress⟩ := e
    have hcall : call.isBack = true := hback _ rfl
    cases hstands with
    | release | invalidating | closing => rfl
    | _ => cases hcall

/-- How often a rollback was tried, once the end is reached. -/
theorem Served.rollbacks (h : Served id xs readings touched a)
    (hreturning : Session.Returning (({ id } : Session Query ρ).history xs) a.session)
    (hphase : a.session.phase ≠ .active) :
    touched.countP Point.isRollback = if a.session.phase = .rolledBack then 1 else 0 := by
  obtain ⟨front, past, hreadings, hcarried, hunder⟩ := h.carried
  have hback : ∀ e ∈ a.errand, e.call.isBack = true := by
    intro e he
    apply hreturning.custody.returning hphase
    rw [h.calling, he]
    rfl
  have hnone := hunder.rollbacks hback
  rw [← hreturning.rollbacks, Transact.History.rollbacks, ← hcarried.rollbacks, h.touched, hreadings,
    List.countP_append, List.countP_map, List.countP_append, Nat.add_assoc]
  exact congrArg (front.countP (·.1.isRollback) + ·) hnone

/-- How a connection is left that is out of use for good. -/
structure OutOfUse (readings : List Reading) (touched : List Point) : Prop where
  answered : touched = readings.map Prod.fst
  closed : 1 ≤ touched.count .close
  invalidated : .invalidate ∈ touched ↔ RollbackFailed readings ∨ FirstCloseFailed readings
  last : ∀ pre post : List Point, touched = pre ++ .invalidate :: post → .close ∈ post
  /-- What did not fail is closed once. -/
  plain : ¬ RollbackFailed readings → ¬ FirstCloseFailed readings →
    touched.count .close = 1 ∧ .invalidate ∉ touched

theorem outOfUse (hreadings : readings = kept ++ way) (htouched : touched = readings.map Prod.fst)
    (hin : ∀ x ∈ kept, x.1.isWayOut = false) (hway : Disposed kept way) : OutOfUse readings touched := by
  have hsplit : Split readings touched kept way (kept.map Prod.fst) (way.map Prod.fst) :=
    ⟨hreadings, by rw [htouched, hreadings, List.map_append], hin, points_kept hin, .disposed hway⟩
  have hlast : touched.getLast? = some .close := by
    rw [hsplit.touched_eq, List.getLast?_append, hway.getLast?]
    rfl
  have hinvalidated : .invalidate ∈ touched ↔ RollbackFailed readings ∨ FirstCloseFailed readings := by
    rw [hsplit.mem_iff rfl, hway.invalidate_mem_iff, hsplit.rollbackFailed_iff, FirstCloseFailed,
      hsplit.lookup_close]
  refine ⟨htouched, ?_, hinvalidated, fun pre post heq => ?_, fun hsane hclosed => ?_⟩
  · exact List.count_pos_iff.mpr (List.mem_of_getLast? hlast)
  · rw [heq, List.getLast?_append, List.getLast?_cons] at hlast
    cases hpost : post.getLast? with
    | none => simp [hpost] at hlast
    | some point =>
      obtain rfl : point = .close := by simpa [hpost] using hlast
      exact List.mem_of_getLast? hpost
  · have hnot : .invalidate ∉ touched := by rw [hinvalidated, not_or]; exact ⟨hsane, hclosed⟩
    refine ⟨?_, hnot⟩
    rw [hsplit.count rfl]
    exact hway.count_close fun hmem => hnot ((hsplit.mem_iff rfl).mpr hmem)

/-- What becomes of the connection of a session, at the end of any run. -/
structure Disposal (inputs : List (Input ρ)) (h : History ρ) (a : Attached ρ) : Prop where
  /-- Each rollback that the session asks for is tried on one object. -/
  rollback : ∀ m ∈ h, m.touched.filter Point.isRollback =
    (m.calls.filter Call.isRollback).map fun _ => rollbackPoint m.after.connection
  rollbacks : a.session.phase ≠ .active →
    h.touched.countP Point.isRollback = if a.session.phase = .rolledBack then 1 else 0
  inUse : a.session.phase = .active → .close ∉ h.touched ∧ .invalidate ∉ h.touched
  closes : h.touched.count .close ≤ 2
  invalidates : h.touched.count .invalidate ≤ 1
  cause : .invalidate ∈ h.touched → RollbackFailed h.readings ∨ FirstCloseFailed h.readings
  followed : ∀ m ∈ h, ∀ outcome, m.reading = some (.invalidate, outcome) → m.touched = [.close]
  before : RollbackFailed h.readings → ∀ pre post : List Point,
    h.touched = pre ++ .close :: post → .invalidate ∈ pre
  settled : a.session.Settled → OutOfUse h.readings h.touched
  /-- One that was to end the session is done only then. -/
  finished : ∀ (j : Nat) (r : Request Query) (answer : Except Error (Answer ρ)),
    a.session.jobs[j]? = some ⟨r, .done answer⟩ → r.isEnding = true →
      .session (.interrupt j) ∉ inputs → a.session.Settled
  /-- It is done, or in its hooks, when nothing else is left to be done. -/
  quiet : a.session.Quiet → ∀ (j : Nat) (r : Request Query) (st : Stage ρ),
    a.session.jobs[j]? = some ⟨r, st⟩ → r.isEnding = true → .session (.interrupt j) ∉ inputs →
      a.session.Settled

theorem disposal (id : String) (c : Connection) (hc : c.adapted = true) (inputs : List (Input ρ))
    (hordinary : ∀ i ∈ inputs, i.isOrdinary = true) :
    Disposal inputs (history (fresh id c) inputs) (after (fresh id c) inputs) := by
  have hserved := served_history (ρ := ρ) id c hc inputs
  have hreturning := returning (ρ := ρ) id hc hordinary
  obtain ⟨kept, way, points, left, hsplit⟩ := hserved.split hreturning.custody
  have hfinished (j : Nat) (r : Request Query) (answer : Except Error (Answer ρ))
      (hj : (after (fresh id c) inputs).session.jobs[j]? = some ⟨r, .done answer⟩) (hr : r.isEnding = true)
      (hnot : .session (.interrupt j) ∉ inputs) : (after (fresh id c) inputs).session.Settled := by
    refine (hreturning.finished j r answer hj hr).resolve_left ?_
    rintro ⟨m, hm, hinput⟩
    obtain ⟨xs, x, ys, hpassed, rfl⟩ := Session.mem_history hm
    obtain rfl : x = .interrupt j := hinput
    exact hnot (mem_of_passed (a := fresh id c) (by rw [hpassed]; simp))
  constructor
  case rollback =>
    intro m hm
    obtain ⟨before, i, rest, -, rfl⟩ := Walk.mem_history hm
    exact step_rollback (served_history id c hc before) i
  case rollbacks => exact hserved.rollbacks hreturning
  case inUse =>
    intro hactive
    obtain ⟨hclean, hhand⟩ := hreturning.custody.using_ hactive
    have hpoints := (hserved.inUse hclean.inHand hhand).2
    exact ⟨fun hmem => absurd (hpoints _ hmem) nofun, fun hmem => absurd (hpoints _ hmem) nofun⟩
  case closes =>
    rw [hsplit.count rfl]
    exact hsplit.leaving.count_le.1
  case invalidates =>
    rw [hsplit.count rfl]
    exact hsplit.leaving.count_le.2
  case cause =>
    intro hmem
    have hcause := hsplit.leaving.cause ((hsplit.mem_iff rfl).mp hmem)
    rwa [← hsplit.rollbackFailed_iff, ← hsplit.lookup_close] at hcause
  case followed =>
    intro m hm outcome hreading
    obtain ⟨before, i, rest, -, rfl⟩ := Walk.mem_history hm
    exact reading_invalidate (served_history id c hc before) hreading
  case before =>
    intro hfailed pre post heq
    obtain ⟨rest, hrest⟩ := hsplit.leaving.spoiled (hsplit.rollbackFailed_iff.mp hfailed)
    obtain ⟨mid, rfl, hmid⟩ := split_after (hsplit.touched_eq.symm.trans heq) (hsplit.not_mem rfl)
    rw [hrest] at hmid
    cases mid with
    | nil => cases hmid
    | cons first mid =>
      obtain ⟨rfl, -⟩ := List.cons.inj hmid
      simp
  case settled =>
    intro hset
    have hcalling := Session.calling_of_settled hserved.sound hset
    have hnone : (after (fresh id c) inputs).errand = none := by
      rw [hserved.calling] at hcalling
      simpa using hcalling
    obtain ⟨kept, way, hreadings, htouched, hin, hway⟩ :=
      hserved.disposed hnone (hreturning.custody.back hset.1 hcalling)
    exact outOfUse hreadings htouched hin hway
  case finished => exact hfinished
  case quiet =>
    intro hquiet j r st hj hr hnot
    rcases hquiet.all_done hserved.sound hj with hdone | hnotifying
    · cases st <;> cases hdone
      exact hfinished j r _ hj hr hnot
    · exact Session.settled_of_isNotifying hserved.sound hnotifying

/-- A commit fails, and its transaction is active all the same; so are its rollback and the
invalidation to fail. -/
def breakdown : List (Input Unit) :=
  let broken : Except Error Unit := .error (.given .driver [] none)
  [.session (.request .commit), .session (.run 0), .settle broken true, .settle broken false,
    .settle broken false, .settle (.ok ()) false]

theorem disposal_breakdown :
    ({ adapted := true, transaction := .active } : Connection).adapted = true ∧
      (∀ i ∈ breakdown, i.isOrdinary = true) ∧
      Disposal breakdown (history (fresh "s" { adapted := true, transaction := .active }) breakdown)
        (after (fresh "s" { adapted := true, transaction := .active }) breakdown) ∧
      (history (fresh "s" { adapted := true, transaction := .active }) breakdown).touched =
        [.transactionCommit, .transactionRollback, .invalidate, .close] ∧
      (after (fresh "s" { adapted := true, transaction := .active }) breakdown).session.jobs.map Job.stage =
        [.done (.error (.commitFailed (.given .driver [] none) (some (.given .driver [] none)) none))] := by
  have hordinary : ∀ i ∈ breakdown, i.isOrdinary = true := by decide
  exact ⟨rfl, hordinary, disposal "s" _ rfl breakdown hordinary, rfl, rfl⟩

end Transact.Attached
