import Transact.Proofs.Session.Observers

/-! The way back of a connection that fails by ordinary errors only, while its statements and the
observers may do what they like. It is rolled back at most once, and one who was to end the session
is done only when the connection is back. -/
namespace Transact

variable {σ ρ : Type}

def Call.isRollback : Call σ → Bool
  | rollback => true
  | _ => false

/-- Of all calls that ended, none but a statement failed by other than an ordinary error. -/
def History.Mild (h : History σ ρ) : Prop :=
  ∀ (c : Call σ) (e : Error), (c, .error e) ∈ h.log → c.statement? = none → e.isOrdinary = true

/-- How often the connection was asked to roll back, in the calls that have ended. -/
def History.rollbacks (h : History σ ρ) : Nat := h.log.countP (·.1.isRollback)

namespace Session

variable {s t : Session σ ρ} {i : Input σ ρ} {effects : List (Effect σ ρ)} {h : History σ ρ}
  {job k : Nat} {r : Request σ} {st : Stage ρ} {c : Call σ}

theorem mild_concat (hmild : History.Mild (h ++ [⟨s, i, effects, t⟩])) : h.Mild ∧ s.Mild i := by
  simp only [History.Mild, History.log_concat, List.mem_append, Option.mem_toList, Moment.answered] at hmild
  exact ⟨fun c e hentry => hmild c e (.inl hentry), fun c e hanswered => hmild c e (.inr hanswered)⟩

/-! Who waits for a call -/

/-- One who waits for a call waits until it is answered. -/
theorem awaited_stays (hs : s.Sound) (hchange : Change s i t effects) (hawaited : s.awaited job = some c)
    (hanswered : s.answered i = none) : t.awaited job = some c := by
  have hcalls := calls_change hs hchange
  obtain ⟨⟨r, st⟩, hj, hcall⟩ := Option.bind_eq_some_iff.mp hawaited
  have hhold : st.holdsLock = true := by rw [Stage.holdsLock_eq_isSome_call? r, hcall]; rfl
  rw [calling_eq hs hj hhold, hcall, hanswered] at hcalls
  obtain ⟨st', ht, rfl | ⟨hi, hgoes⟩⟩ := job_change hchange hj
  · simpa [awaited, ht] using hcall
  · -- the one whose turn it is gets an answer, for it waits for nothing else
    cases hchange with
    | idle =>
      rw [hj] at ht
      cases ht
      simpa [awaited, hj] using hcall
    | late hj' hl | granted hj' hl =>
      cases hi
      rw [hj] at hj'
      cases hj'
      rcases grant?_waiting hl hj with rfl | rfl <;> cases hcall
    | queued hj' | cancelled hj' | left hj' | notified hj' =>
      cases hi
      rw [hj] at hj'
      cases hj'
      cases hcall
    | replied hj' | committed hj' | commitFailed hj' | rolledBack hj' | rollbackFailed hj'
    | releaseFailed hj' =>
      simp [answered, hj', Stage.call?] at hanswered
    | broken hj' hphysical =>
      cases hi
      rw [hj] at hj'
      cases hj'
      rw [answered_settle hj hphysical, hcall] at hanswered
      cases hanswered
    | announced records hj' hending hback =>
      cases hi
      rw [hj] at hj'
      cases hj'
      rw [answered_settle hj (isPhysical_of_isBack hback), hcall] at hanswered
      cases hanswered
    | _ => cases hi

theorem awaited_lands (hchange : Change s i t effects) (hc : c ∈ effects.filterMap Effect.call?) :
    ∃ job, i.job? = some job ∧ t.awaited job = some c := by
  obtain ⟨job, r, st, hi, hj, hcall⟩ := call_lands hchange hc
  exact ⟨job, hi, by simpa [awaited, hj] using hcall⟩

/-! The end -/

/-- One that was to end the session is done when the end is settled. -/
theorem settled_of_done (hs : s.Sound) (hchange : Change s i t effects) (hmild : s.Mild i)
    {answer : Except Error (Answer ρ)} (hj : s.jobs[job]? = some ⟨r, st⟩) (hst : st.isDone = false)
    (hdone : t.jobs[job]? = some ⟨r, .done answer⟩) (hr : r.isEnding = true) :
    i = .interrupt job ∨ t.Settled := by
  cases done_change hs hchange hj hst hdone with
  | late hwaits hterminal hfree =>
    have hset := settled_of_free hs (Phase.isTerminal_iff.mp hterminal) hfree
    exact .inr (settled_change hs hchange hset)
  | interrupted hwaits hi => exact .inl hi
  | replied hforwarding hstatement =>
    rw [hr] at hstatement
    cases hstatement
  | broken e hi he =>
    subst hi
    by_cases hphysical : st.isPhysical = true
    · obtain ⟨c, hc⟩ := Option.isSome_iff_exists.mp
        ((Stage.holdsLock_eq_isSome_call? r st).symm.trans (Stage.holdsLock_of_isPhysical hphysical))
      have hanswered := answered_settle (s := s) hj hphysical (.error e)
      rw [hc] at hanswered
      have hstatement : c.statement? = none := by
        cases st <;> cases hphysical <;> cases hc <;> rfl
      rw [hmild c e hanswered hstatement] at he
      cases he
    · -- outside the physical part only a hook takes the answer
      cases hchange with
      | notified hj' => exact .inr (settled_change hs (.notified hj') (settled_of_notifying hs hj'))
      | idle =>
        rw [hj] at hdone
        cases hdone
        cases hst
      | broken hj' hphysical' =>
        rw [hj] at hj'
        cases hj'
        exact absurd hphysical' hphysical
      | announced records hj' hending hback =>
        rw [hj] at hj'
        cases hj'
        exact absurd (isPhysical_of_isBack hback) hphysical
      | commitFailed hj' | rollbackFailed hj' | releaseFailed hj' =>
        rw [hj] at hj'
        cases hj'
        exact absurd rfl hphysical
  | ended hended hset => exact .inr hset

/-- What is known, at the end of a run, of the way back of the connection. -/
structure Returning (h : History σ ρ) (s : Session σ ρ) : Prop where
  custody : Custody (s.phase = .active) s.calling h.log
  rollbacks : h.rollbacks = if s.phase = .rolledBack then 1 else 0
  finished : ∀ (j : Nat) (r : Request σ) (answer : Except Error (Answer ρ)),
    s.jobs[j]? = some ⟨r, .done answer⟩ → r.isEnding = true → h.Interrupted j ∨ s.Settled

theorem returning_fresh (id : String) : Returning [] ({ id } : Session σ ρ) where
  custody := custody_using clean_nil rfl (by simp [calling])
  rollbacks := rfl
  finished := by simp

theorem rollbacks_change (hs : s.Sound) (hchange : Change s i t effects) (hmild : s.Mild i)
    (hrollbacks : h.rollbacks = if s.phase = .rolledBack then 1 else 0) :
    History.rollbacks (h ++ [⟨s, i, effects, t⟩]) = if t.phase = .rolledBack then 1 else 0 := by
  have hphase := phase_change hs hchange
  rw [History.rollbacks, History.log_concat, List.countP_append]
  change h.rollbacks + List.countP _ (s.answered i).toList = _
  rw [hrollbacks]
  cases hanswered : s.answered i with
  | none =>
    rw [hanswered] at hphase
    simp [show t.phase = s.phase from hphase]
  | some entry =>
    obtain ⟨c, outcome⟩ := entry
    rw [hanswered] at hphase
    have hactive := answered_phase hs hanswered
    cases c with
    | rollback =>
      rw [hactive.mpr (by simp)]
      cases outcome with
      | ok => simp [hphase, Phase.next, Call.isRollback]
      | error e => simp [hphase, Phase.next, Call.isRollback, hmild _ e hanswered rfl]
    | commit => cases outcome <;> simp_all [Phase.next, Call.isRollback]
    | _ => simp [show t.phase = s.phase from hphase, Call.isRollback]

theorem returning_change (hs : s.Sound) (hchange : Change s i t effects) (hmild : s.Mild i)
    (hreturning : Returning h s) : Returning (h ++ [⟨s, i, effects, t⟩]) t where
  custody := by
    rw [History.log_concat]
    exact custody_mild hs hchange hmild hreturning.custody
  rollbacks := rollbacks_change hs hchange hmild hreturning.rollbacks
  finished j r answer hdone hr := by
    rw [History.interrupted_concat]
    cases hj : s.jobs[j]? with
    | none =>
      obtain ⟨-, hready, -⟩ := job_opened hchange hdone hj
      cases hready
    | some before =>
      obtain ⟨r', st⟩ := before
      obtain ⟨st', hafter, -⟩ := job_change hchange hj
      rw [hdone] at hafter
      cases hafter
      cases hst : st.isDone with
      | false => exact (settled_of_done hs hchange hmild hj hst hdone hr).imp_left .inr
      | true =>
        obtain ⟨earlier, rfl⟩ : ∃ earlier, st = .done earlier := by
          cases st <;> first | exact ⟨_, rfl⟩ | cases hst
        rcases hreturning.finished j r earlier hj hr with hinterrupted | hset
        · exact .inl (.inl hinterrupted)
        · exact .inr (settled_change hs hchange hset)

theorem returning_history (id : String) (inputs : List (Input σ ρ))
    (hmild : (({ id } : Session σ ρ).history inputs).Mild) :
    Returning (({ id } : Session σ ρ).history inputs) (({ id } : Session σ ρ).after inputs) := by
  refine (run_induction (P := fun h s => h.Mild → Returning h s) (Q := fun _ => True)
    (sound_fresh id) (fun _ => returning_fresh id) ?_ inputs fun _ _ => trivial).2 hmild
  intro h s i t effects hs _ hchange ih hmild
  obtain ⟨hbefore, hnow⟩ := mild_concat hmild
  exact returning_change hs hchange hnow (ih hbefore)

end Session
end Transact
