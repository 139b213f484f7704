import Transact.Proofs.Session.Jobs
import Transact.Proofs.Session.Rounds

/-! Of all the calls that want to end a session, one does: it alone asks the connection for the
end and calls the hooks, and every other one finds the session ended. -/
namespace Transact

variable {σ ρ : Type}

namespace History

/-- The job has asked the connection for the end of the transaction. -/
def Reaches (h : History σ ρ) (job : Nat) : Prop :=
  ∃ m ∈ h, m.job? = some job ∧ ∃ c ∈ m.calls, c.isEnd = true

/-- The job's own task was cancelled, not only its caller. -/
def Interrupted (h : History σ ρ) (job : Nat) : Prop := ∃ m ∈ h, m.input = .interrupt job

variable {h : History σ ρ} {m : Moment σ ρ} {job : Nat}

theorem reaches_concat : History.Reaches (h ++ [m]) job ↔
    h.Reaches job ∨ m.job? = some job ∧ ∃ c ∈ m.calls, c.isEnd = true := by
  simp only [Reaches, List.mem_append, List.mem_singleton, or_and_right, exists_or, exists_eq_left]

theorem Reaches.append (hreached : h.Reaches job) (more : History σ ρ) :
    History.Reaches (h ++ more) job := by
  obtain ⟨m, hm, hmove⟩ := hreached
  exact ⟨m, List.mem_append_left _ hm, hmove⟩

theorem interrupted_concat : History.Interrupted (h ++ [m]) job ↔
    h.Interrupted job ∨ m.input = .interrupt job := by
  simp only [Interrupted, List.mem_append, List.mem_singleton, or_and_right, exists_or,
    exists_eq_left]

end History

namespace Session

variable {s t : Session σ ρ} {i : Input σ ρ} {effects : List (Effect σ ρ)}
  {job k : Nat} {r : Request σ} {st old : Stage ρ} {h : History σ ρ}

theorem physical_of_call {p : Phase} {c : Call σ} (hfits : st.Fits r p) (hc : st.call? r = some c)
    (hr : r.isEnding = true) : st.isPhysical = true := by
  cases st with
  | forwarding => simp [hfits.2] at hr
  | _ => first | rfl | cases hc

theorem physical_of_end {p : Phase} {c : Call σ} (hfits : st.Fits r p) (hc : st.call? r = some c)
    (hend : c.isEnd = true) : st.isPhysical = true ∧ p = .active := by
  cases st <;> simp only [Stage.call?, Option.some.injEq, reduceCtorEq] at hc <;> subst hc
  case forwarding => cases r <;> simp_all [Stage.Fits, Request.isEnding, Request.firstCall, Call.isEnd]
  case committing => exact ⟨rfl, hfits.1⟩
  case rollingBack => exact ⟨rfl, hfits.1⟩
  all_goals cases hend

theorem winning_change (hchange : Change s i t effects) (ht : t.has Stage.isWinning k = true) :
    s.has Stage.isWinning k = true ∨
      i.job? = some k ∧ ∃ c ∈ effects.filterMap Effect.call?, c.isEnd = true := by
  obtain ⟨r, st, hk, hst⟩ := has_eq_true_iff.mp ht
  cases change_moves hchange with
  | rest hjobs _ =>
    rw [hjobs] at hk
    exact .inl (by rw [has_eq hk, hst])
  | opened r' _ hjobs _ =>
    have hopened : ({ s with jobs := s.jobs ++ [{ request := r' }] } : Session σ ρ).has
        Stage.isWinning k = s.has Stage.isWinning k := has_opened rfl r' k
    simp only [has, stage?, hjobs] at ht hopened ⊢
    exact .inl (hopened ▸ ht)
  | moved job r' old st' hi hj hgoes hjobs hcalls =>
    rw [hjobs] at hk
    split at hk
    · subst k
      cases hk
      rcases hgoes.winning hst with hold | ⟨c, hc, hend⟩
      · exact .inl (by rw [has_eq hj, hold])
      · exact .inr ⟨hi, c, by rw [hcalls, hc]; exact List.mem_singleton_self c, hend⟩
    · exact .inl (by rw [has_eq hk, hst])

theorem phase_mover (hs : s.Sound) (hchange : Change s i t effects) (hphase : t.phase ≠ s.phase) :
    ∃ job, i.job? = some job ∧ s.has Stage.isWinning job = true := by
  rw [phase_change hs hchange] at hphase
  cases hanswered : s.answered i with
  | none =>
    rw [hanswered] at hphase
    exact absurd rfl hphase
  | some entry =>
    obtain ⟨c, outcome⟩ := entry
    obtain ⟨job, r, st, hi, hj, hcall⟩ := exists_of_answered hanswered
    have hend : c.isEnd = true := by
      rw [hanswered] at hphase
      cases c <;> first | rfl | exact absurd rfl hphase
    have hphysical := (physical_of_end (hs.fits _ _ _ hj) hcall hend).1
    exact ⟨job, hi, by rw [has_eq hj, Stage.isWinning, hphysical]; rfl⟩

theorem hook_mover (hchange : Change s i t effects)
    (hcalls : effects.filterMap Effect.hookCall? ≠ []) :
    ∃ job, i.job? = some job ∧ s.has Stage.isWinning job = true := by
  cases hchange with
  | announced records hj hending hback =>
    have hwinning := Stage.isWinning_of_isHandingBack (isHandingBack_of_isBack hback)
    exact ⟨_, rfl, by rw [has_eq hj, hwinning]⟩
  | notified hj => exact ⟨_, rfl, by rw [has_eq hj]; rfl⟩
  | _ => simp [-List.filterMap_map] at hcalls

inductive Finish (s t : Session σ ρ) (i : Input σ ρ) (job : Nat) (r : Request σ) (old : Stage ρ)
    (answer : Except Error (Answer ρ)) : Prop
  | late : old = .ready ∨ old = .queued → s.phase.isTerminal = true → s.lock.holder = none →
      answer = s.lateAnswer r → Finish s t i job r old answer
  | interrupted : old = .ready ∨ old = .queued → i = .interrupt job → Finish s t i job r old answer
  | replied : old = .forwarding → r.isEnding = false → Finish s t i job r old answer
  | broken (e : Error) : i = .settle job (.error e) → e.isOrdinary = false →
      Finish s t i job r old answer
  | ended : old.hasEnded = true → t.Settled → Finish s t i job r old answer

theorem done_change {answer : Except Error (Answer ρ)} (hs : s.Sound) (hchange : Change s i t effects)
    (hk : s.jobs[k]? = some ⟨r, old⟩) (hold : old.isDone = false)
    (ht : t.jobs[k]? = some ⟨r, .done answer⟩) : Finish s t i k r old answer := by
  have hi : i.job? = some k := by
    obtain ⟨st, hst, rfl | ⟨hi, -⟩⟩ := job_change hchange hk
    · rw [ht] at hst
      cases hst
      cases hold
    · exact hi
  have hone {r' : Request σ} {st : Stage ρ} (hj : s.jobs[k]? = some ⟨r', st⟩) : r' = r ∧ st = old := by
    rw [hk] at hj
    cases hj
    exact ⟨rfl, rfl⟩
  cases hchange with
  | idle =>
    rw [hk] at ht
    cases ht
    cases hold
  | late hj hl hterminal =>
    cases hi
    obtain ⟨rfl, rfl⟩ := hone hj
    rw [job_moved hk] at ht
    cases ht
    exact .late (grant?_waiting hl hk) hterminal (hs.grant_holder hl) rfl
  | @granted _ r' _ _ hj =>
    cases hi
    rw [job_moved hj] at ht
    cases r' <;> cases ht
  | cancelled hj =>
    cases hi
    exact .interrupted (.inl (hone hj).2.symm) rfl
  | left hj =>
    cases hi
    exact .interrupted (.inr (hone hj).2.symm) rfl
  | replied hj =>
    cases hi
    obtain ⟨rfl, rfl⟩ := hone hj
    exact .replied rfl (hs.fits _ _ _ hk).2
  | broken hj hphysical he =>
    cases hi
    exact .broken _ rfl he
  | announced records hj hending hback =>
    cases hi
    obtain ⟨rfl, rfl⟩ := hone hj
    exact .ended (Stage.hasEnded_of_ending? hending) (settled_of_isBack hs hk hback)
  | notified hj =>
    cases hi
    obtain ⟨rfl, rfl⟩ := hone hj
    exact .ended rfl (settled_change hs (.notified hk) (settled_of_notifying hs hk))
  | queued hj | committed hj | commitFailed hj | rolledBack hj | rollbackFailed hj
  | releaseFailed hj =>
    cases hi
    rw [job_moved hj] at ht
    cases ht
  | _ => cases hi

theorem settled_of_free (hs : s.Sound) (hphase : s.phase ≠ .active) (hfree : s.lock.holder = none) :
    s.Settled := by
  refine ⟨hphase, fun j => ?_⟩
  by_contra hj
  obtain ⟨r, st, hj, hst⟩ := has_eq_true_iff.mp (by simpa using hj)
  have hhold : st.holdsLock = true := by cases st <;> simp_all [Stage.isHandingBack, Stage.holdsLock]
  have hholder := (hs.holder j).mpr (by rw [has_eq hj, hhold])
  rw [hfree] at hholder
  cases hholder

theorem lateAnswer_eq (hphase : t.phase = s.phase) (r : Request σ) :
    (t.lateAnswer r : Except Error (Answer ρ)) = s.lateAnswer r := by
  cases r <;> simp [lateAnswer, hphase]

/-- As long as nothing has ended, one who asked for the end goes on with it. -/
theorem physical_stays (hs : s.Sound) (hchange : Change s i t effects) (hordinary : i.isOrdinary = true)
    (hactive : t.phase = .active) (hk : s.has Stage.isPhysical k = true) :
    t.has Stage.isPhysical k = true := by
  have ht : t.Sound := sound_change hchange hs
  have hbefore : s.phase = .active := by
    by_contra hphase
    exact hphase ((phase_stays hs hchange hphase).symm.trans hactive)
  obtain ⟨r, old, hk, hold⟩ := has_eq_true_iff.mp hk
  obtain ⟨st, hst, rfl | ⟨hi, hgoes⟩⟩ := job_change hchange hk
  · rw [has_eq hst, hold]
  rw [has_eq hst]
  cases hgoes with
  | commit | compensate | rollBack | giveUp | discard => rfl
  | wait => cases hold
  | next => cases hold
  | enter hwaiting => rcases hwaiting with rfl | rfl <;> cases hold
  | @announce _ ending round hback hending =>
    exact absurd (hactive.symm.trans (ht.fits _ _ _ hst).1).symm ending.phase_ne_active
  | stop hdone =>
    cases done_change hs hchange hk hdone hst with
    | late hwaiting => rcases hwaiting with rfl | rfl <;> cases hold
    | interrupted hwaiting => rcases hwaiting with rfl | rfl <;> cases hold
    | replied hold' =>
      subst hold'
      cases hold
    | broken e hi he =>
      subst hi
      rw [Input.isOrdinary, he] at hordinary
      cases hordinary
    | ended hended =>
      exact absurd hbefore (hs.phase_ne_active_of_ended (by rw [has_eq hk, hended]))

/-- One who hands the connection back goes on until the round of hooks begins. -/
theorem handingBack_change (hchange : Change s i t effects) (hordinary : i.isOrdinary = true)
    (hk : s.jobs[k]? = some ⟨r, old⟩) (hold : old.isHandingBack = true) :
    t.has Stage.isHandingBack k = true ∨ s.round? i ≠ none := by
  by_cases hi : i.job? = some k
  swap
  · exact .inl (by rw [has_eq (job_stays hchange hk hi), hold])
  cases hchange with
  | idle => exact .inl (by rw [has_eq hk, hold])
  | announced records hj hending hback =>
    right
    rw [round?_settle hj, hback, hending]
    simp
  | broken hj hphysical he =>
    rw [Input.isOrdinary, he] at hordinary
    cases hordinary
  | releaseFailed hj =>
    cases hi
    exact .inl (by rw [has_eq (job_moved (p := s.phase) (l := s.lock) hj)]; rfl)
  | late hj hl | granted hj hl =>
    cases hi
    rcases grant?_waiting hl hk with rfl | rfl <;> cases hold
  | queued hj | cancelled hj | left hj | replied hj | committed hj | commitFailed hj | rolledBack hj
  | rollbackFailed hj | notified hj =>
    cases hi
    rw [hk] at hj
    cases hj
    cases hold
  | _ => cases hi

theorem exists_handingBack (hphase : s.phase ≠ .active) (hset : ¬ s.Settled) :
    ∃ k, s.has Stage.isHandingBack k = true := by
  by_contra hnone
  exact hset ⟨hphase, fun j => by simpa using fun hj => hnone ⟨j, hj⟩⟩

/-- The session is settled by the answer that begins the round of hooks. -/
theorem round_begun (hchange : Change s i t effects) (hordinary : i.isOrdinary = true)
    (hbefore : ¬ s.Settled) (hafter : t.Settled) : s.round? i ≠ none := by
  by_cases hactive : s.phase = .active
  · -- the end has just been reached, and the connection is still to be handed back
    cases hchange with
    | @committed job _ hj | @rolledBack job _ _ hj | @rollbackFailed job _ _ _ hj =>
      have hback := hafter.2 job
      rw [has_eq (job_moved hj)] at hback
      cases hback
    | _ => exact absurd hactive hafter.1
  · obtain ⟨k, hback⟩ := exists_handingBack hactive hbefore
    obtain ⟨r, old, hk, hold⟩ := has_eq_true_iff.mp hback
    rcases handingBack_change hchange hordinary hk hold with hstill | hround
    · rw [hafter.2 k] at hstill
      cases hstill
    · exact hround

/-- What has become of the race for the end. -/
structure Race (h : History σ ρ) (s : Session σ ρ) : Prop where
  winning : ∀ j, s.has Stage.isWinning j = true → h.Reaches j
  still : s.phase = .active → ∀ j, h.Reaches j → s.has Stage.isPhysical j = true
  closed : s.phase ≠ .active → ∃ j, h.Reaches j
  unique : ∀ j k, h.Reaches j → h.Reaches k → j = k
  silent : ∀ (m : Moment σ ρ) (j : Nat), m ∈ h → m.job? = some j → ¬ h.Reaches j →
    m.hookCalls = [] ∧ m.after.phase = m.before.phase ∧
      (m.calls = [] ∨ ∃ (r : Request σ) (st : Stage ρ), m.before.jobs[j]? = some ⟨r, st⟩ ∧
        r.isEnding = false)
  finished : ∀ (j : Nat) (r : Request σ) (answer : Except Error (Answer ρ)),
    s.jobs[j]? = some ⟨r, .done answer⟩ → r.isEnding = true →
      h.Interrupted j ∨ s.Settled ∧ (h.Reaches j ∨ answer = s.lateAnswer r)
  told : s.Settled → h.rounds ≠ []

theorem race_fresh (id : String) : Race [] ({ id } : Session σ ρ) where
  winning j hj := by simp [has, stage?] at hj
  still _ j hj := by simp [History.Reaches] at hj
  closed hphase := absurd rfl hphase
  unique j k hj := by simp [History.Reaches] at hj
  silent m j hm := by cases hm
  finished j r answer hj := by simp at hj
  told hset := absurd rfl hset.1

theorem Race.winning_step (hrace : Race h s) (hchange : Change s i t effects)
    (hk : t.has Stage.isWinning k = true) : History.Reaches (h ++ [⟨s, i, effects, t⟩]) k := by
  rw [History.reaches_concat]
  rcases winning_change hchange hk with hold | hnew
  · exact .inl (hrace.winning k hold)
  · exact .inr hnew

/-- One who asks for the end does so in an active session, and goes on with it. -/
theorem physical_of_reaching (hs : s.Sound) (hchange : Change s i t effects) {c : Call σ}
    (hi : i.job? = some k) (hc : c ∈ effects.filterMap Effect.call?) (hend : c.isEnd = true) :
    t.has Stage.isPhysical k = true ∧ t.phase = .active := by
  obtain ⟨job, r, st, hjob, hj, hcall⟩ := call_lands hchange hc
  rw [hi] at hjob
  cases hjob
  obtain ⟨hphysical, hactive⟩ :=
    physical_of_end ((sound_change hchange hs).fits _ _ _ hj) hcall hend
  exact ⟨by rw [has_eq hj, hphysical], hactive⟩

theorem Race.still_step (hrace : Race h s) (hs : s.Sound) (hchange : Change s i t effects)
    (hordinary : i.isOrdinary = true) (hactive : t.phase = .active)
    (hk : History.Reaches (h ++ [⟨s, i, effects, t⟩]) k) : t.has Stage.isPhysical k = true := by
  have hbefore : s.phase = .active := by
    by_contra hphase
    exact hphase ((phase_stays hs hchange hphase).symm.trans hactive)
  rcases History.reaches_concat.mp hk with hold | ⟨hi, c, hc, hend⟩
  · exact physical_stays hs hchange hordinary hactive (hrace.still hbefore k hold)
  · exact (physical_of_reaching hs hchange hi hc hend).1

theorem has_holdsLock_of_isPhysical (hk : s.has Stage.isPhysical k = true) :
    s.has Stage.holdsLock k = true := by
  obtain ⟨r, st, hk, hst⟩ := has_eq_true_iff.mp hk
  rw [has_eq hk, Stage.holdsLock_of_isPhysical hst]

theorem Race.unique_step (hrace : Race h s) (hs : s.Sound) (hchange : Change s i t effects)
    (hordinary : i.isOrdinary = true) {j k : Nat}
    (hj : History.Reaches (h ++ [⟨s, i, effects, t⟩]) j)
    (hk : History.Reaches (h ++ [⟨s, i, effects, t⟩]) k) : j = k := by
  have ht : t.Sound := sound_change hchange hs
  by_cases hactive : t.phase = .active
  · have hj := hrace.still_step hs hchange hordinary hactive hj
    have hk := hrace.still_step hs hchange hordinary hactive hk
    exact ht.holder_unique (has_holdsLock_of_isPhysical hk) (has_holdsLock_of_isPhysical hj)
  · -- nobody asks for an end that has been reached
    have hold {k : Nat} (hk : History.Reaches (h ++ [⟨s, i, effects, t⟩]) k) : h.Reaches k := by
      rcases History.reaches_concat.mp hk with hold | ⟨hi, c, hc, hend⟩
      · exact hold
      · exact absurd (physical_of_reaching hs hchange hi hc hend).2 hactive
    exact hrace.unique j k (hold hj) (hold hk)

theorem Race.closed_step (hrace : Race h s) (hs : s.Sound) (hchange : Change s i t effects)
    (hphase : t.phase ≠ .active) : ∃ j, History.Reaches (h ++ [⟨s, i, effects, t⟩]) j := by
  have hreached : ∃ j, h.Reaches j := by
    by_cases hsame : t.phase = s.phase
    · exact hrace.closed (hsame ▸ hphase)
    · obtain ⟨j, -, hwinning⟩ := phase_mover hs hchange hsame
      exact ⟨j, hrace.winning j hwinning⟩
  obtain ⟨j, hj⟩ := hreached
  exact ⟨j, History.reaches_concat.mpr (.inl hj)⟩

theorem Race.silent_step (hrace : Race h s) (hs : s.Sound) (hchange : Change s i t effects)
    (hi : i.job? = some k) (hk : ¬ History.Reaches (h ++ [⟨s, i, effects, t⟩]) k) :
    effects.filterMap Effect.hookCall? = [] ∧ t.phase = s.phase ∧
      (effects.filterMap Effect.call? = [] ∨ ∃ (r : Request σ) (st : Stage ρ),
        s.jobs[k]? = some ⟨r, st⟩ ∧ r.isEnding = false) := by
  have hlost {job : Nat} (hjob : i.job? = some job) : s.has Stage.isWinning job ≠ true := by
    rw [hi] at hjob
    cases hjob
    intro hwinning
    exact hk (History.reaches_concat.mpr (.inl (hrace.winning k hwinning)))
  refine ⟨?_, ?_, ?_⟩
  · by_contra hcalls
    obtain ⟨job, hjob, hwinning⟩ := hook_mover hchange hcalls
    exact hlost hjob hwinning
  · by_contra hphase
    obtain ⟨job, hjob, hwinning⟩ := phase_mover hs hchange hphase
    exact hlost hjob hwinning
  · cases change_moves hchange with
    | rest _ hcalls => exact .inl hcalls
    | opened _ _ _ hcalls => exact .inl hcalls
    | moved job r old st hjob hj _ hjobs hcalls =>
      rw [hi] at hjob
      cases hjob
      cases hcall : st.call? r with
      | none => exact .inl (by rw [hcalls, hcall]; rfl)
      | some c =>
        refine .inr ⟨r, old, hj, ?_⟩
        by_contra hr
        have ht : t.jobs[k]? = some ⟨r, st⟩ := by rw [hjobs, if_pos rfl]
        have hphysical := physical_of_call ((sound_change hchange hs).fits _ _ _ ht) hcall
          (by simpa using hr)
        apply hk
        apply hrace.winning_step hchange
        rw [has_eq ht, Stage.isWinning, hphysical]
        rfl

theorem Race.finished_step (hrace : Race h s) (hs : s.Sound) (hchange : Change s i t effects)
    (hordinary : i.isOrdinary = true) {answer : Except Error (Answer ρ)}
    (hk : t.jobs[k]? = some ⟨r, .done answer⟩) (hr : r.isEnding = true) :
    History.Interrupted (h ++ [⟨s, i, effects, t⟩]) k ∨
      t.Settled ∧ (History.Reaches (h ++ [⟨s, i, effects, t⟩]) k ∨ answer = t.lateAnswer r) := by
  rw [History.interrupted_concat, History.reaches_concat]
  cases hold : s.jobs[k]? with
  | none =>
    obtain ⟨-, hready, -⟩ := job_opened hchange hk hold
    cases hready
  | some job =>
    obtain ⟨r', old⟩ := job
    have hr' : r' = r := by
      obtain ⟨st, hst, -⟩ := job_change hchange hold
      rw [hk] at hst
      cases hst
      rfl
    subst hr'
    -- a session that was settled stays so, and goes on to answer the same
    have hlate (hset : s.Settled) :
        t.Settled ∧ (t.lateAnswer r' : Except Error (Answer ρ)) = s.lateAnswer r' :=
      ⟨settled_change hs hchange hset, lateAnswer_eq (phase_stays hs hchange hset.1) r'⟩
    cases hdone : old.isDone with
    | true =>
      cases old <;> cases hdone
      have hst := done_stays hchange hold
      rw [hk] at hst
      cases hst
      rcases hrace.finished k r' _ hold hr with hinterrupted | ⟨hset, hlost⟩
      · exact .inl (.inl hinterrupted)
      · rw [(hlate hset).2]
        exact .inr ⟨(hlate hset).1, hlost.imp_left .inl⟩
    | false =>
      cases done_change hs hchange hold hdone hk with
      | late _ hterminal hfree hanswer =>
        have hphase := Phase.isTerminal_iff.mp hterminal
        obtain ⟨hset, hsame⟩ := hlate (settled_of_free hs hphase hfree)
        exact .inr ⟨hset, .inr (hanswer.trans hsame.symm)⟩
      | interrupted _ hi => exact .inl (.inr hi)
      | replied _ hstatement =>
        rw [hr] at hstatement
        cases hstatement
      | broken e hi he =>
        subst hi
        rw [Input.isOrdinary, he] at hordinary
        cases hordinary
      | ended hended hset =>
        refine .inr ⟨hset, .inl (.inl (hrace.winning k ?_))⟩
        rw [has_eq hold, Stage.isWinning, hended, Bool.or_true]

theorem race_change (hs : s.Sound) (hordinary : i.isOrdinary = true) (hchange : Change s i t effects)
    (hrace : Race h s) : Race (h ++ [⟨s, i, effects, t⟩]) t where
  winning _ := hrace.winning_step hchange
  still hactive _ := hrace.still_step hs hchange hordinary hactive
  closed := hrace.closed_step hs hchange
  unique _ _ := hrace.unique_step hs hchange hordinary
  silent m j hm hj hlost := by
    rcases List.mem_append.mp hm with hm | hm
    · apply hrace.silent m j hm hj
      intro hreached
      apply hlost
      exact History.reaches_concat.mpr (.inl hreached)
    · rw [List.mem_singleton.mp hm] at hj ⊢
      exact hrace.silent_step hs hchange hj hlost
  finished _ _ _ := hrace.finished_step hs hchange hordinary
  told hset := by
    rw [History.rounds_concat]
    by_cases hbefore : s.Settled
    · exact List.append_ne_nil_of_left_ne_nil (hrace.told hbefore) _
    · apply List.append_ne_nil_of_right_ne_nil
      rw [Moment.round?, Ne, Option.toList_eq_nil_iff]
      exact round_begun hchange hordinary hbefore hset

/-- A round of hooks is begun by one who has ended the session, with the first observer. -/
theorem round_mover (hchange : Change s i t effects) {hook : Hook} (hround : s.round? i = some hook) :
    (∃ job, i.job? = some job ∧ s.has Stage.isWinning job = true) ∧
      effects.filterMap Effect.hookCall? =
        (s.registry.observers.head?.map (hook, ·)).toList := by
  cases hchange with
  | idle hfits =>
    rw [round?_eq_none_of_not_fits hfits] at hround
    cases hround
  | @announced job r st ending outcome records hj hending hback =>
    rw [round?_settle hj, hback, hending] at hround
    cases hround
    have hwinning := Stage.isWinning_of_isHandingBack (isHandingBack_of_isBack hback)
    refine ⟨⟨job, rfl, by rw [has_eq hj, hwinning]⟩, ?_⟩
    simp only [List.filterMap_append, filterMap_hookCall?_logs, filterMap_hookCall?_wakes,
      filterMap_hookCall?_roundEffects, List.nil_append]
    rw [Round.start]
    cases s.registry.observers <;> rfl
  | @broken job r st e hj hphysical he =>
    rw [round?_settle hj] at hround
    cases st <;> simp [isBack, he] at hround
  | committed hj | commitFailed hj | rolledBack hj | rollbackFailed hj | releaseFailed hj
  | notified hj =>
    rw [round?_settle hj] at hround
    cases hround
  | _ => cases hround

/-- Asking for the end of a session does nothing by itself. -/
theorem asked (hchange : Change s (.request r) t effects) :
    effects.filterMap Effect.call? = [] ∧ effects.filterMap Effect.hookCall? = [] ∧
      t.phase = s.phase := by
  cases hchange with
  | idle => exact ⟨rfl, rfl, rfl⟩
  | opened records => exact ⟨by simp, by simp, rfl⟩

theorem asked_late (hchange : Change s (.request r) t effects) (hr : r.isImplicit = true)
    (hphase : s.phase ≠ .active) : effects = [] ∧ t = s := by
  cases hchange with
  | idle => exact ⟨rfl, rfl⟩
  | opened records hopen => exact absurd (hopen hr) hphase

/-- Nothing is left to be done but in hooks: no job has its turn, none waits for the connection,
and none is about to leave the queue. -/
structure Quiet (s : Session σ ρ) : Prop where
  run : ∀ j, s.fits (.run j) = false
  awaited : ∀ j, s.awaited j = none
  left : ∀ w ∈ s.lock.queue, w.2 ≠ .cancelled

theorem Quiet.holder (hquiet : s.Quiet) (hs : s.Sound) : s.lock.holder = none := by
  by_contra hsome
  obtain ⟨k, hk⟩ := Option.ne_none_iff_exists'.mp hsome
  obtain ⟨r, st, hj, hhold⟩ := has_eq_true_iff.mp ((hs.holder k).mp hk)
  have hnone := hquiet.awaited k
  rw [Stage.holdsLock_eq_isSome_call? r] at hhold
  simp only [Session.awaited, hj, Option.bind_some] at hnone
  rw [hnone] at hhold
  cases hhold

/-- Nobody is left waiting, and nobody waits for a hook: it may itself ask for the end. -/
theorem Quiet.all_done (hquiet : s.Quiet) (hs : s.Sound) (hj : s.jobs[job]? = some ⟨r, st⟩) :
    st.isDone = true ∨ s.isNotifying job = true := by
  have hfree := hquiet.holder hs
  cases st with
  | ready =>
    have hrun := hquiet.run job
    simp [fits, stage?_eq hj] at hrun
  | queued =>
    have hmem : job ∈ s.lock.names := by rw [hs.queue, has_eq hj]; rfl
    cases hqueue : s.lock.queue with
    | nil => simp [Lock.names, hqueue] at hmem
    | cons w rest =>
      -- the first in the queue of a free lock is awake
      obtain ⟨k, ticket⟩ := w
      have hwaiting := hs.lock.awake hfree (k, ticket) (by rw [hqueue]; rfl)
      have hcancelled := hquiet.left (k, ticket) (by rw [hqueue]; exact List.mem_cons_self)
      have hwoken : ticket = .woken := by cases ticket <;> simp_all
      have hk : k ∈ s.lock.names := by simp [Lock.names, hqueue]
      obtain ⟨r', st', hk, hst⟩ := has_eq_true_iff.mp ((hs.queue k).mp hk)
      have hrun := hquiet.run k
      cases st' <;> cases hst
      simp [fits, stage?_eq hk, Lock.isWoken, hqueue, hwoken] at hrun
  | notifying ending round => exact .inr (by simp [isNotifying, stage?_eq hj])
  | done => exact .inl rfl
  | _ =>
    have hnone := hquiet.awaited job
    simp [Session.awaited, hj, Stage.call?] at hnone

theorem race_history (id : String) (inputs : List (Input σ ρ))
    (hordinary : ∀ i ∈ inputs, i.isOrdinary = true) :
    (({ id } : Session σ ρ).after inputs).Sound ∧
      Race (({ id } : Session σ ρ).history inputs) (({ id } : Session σ ρ).after inputs) :=
  run_induction (sound_fresh id) (race_fresh id) race_change inputs hordinary

/-- A moment of a run comes after a run of its own, and is a step from there. -/
theorem race_moment {id : String} {inputs : List (Input σ ρ)} {m : Moment σ ρ}
    (hordinary : ∀ i ∈ inputs, i.isOrdinary = true)
    (hm : m ∈ ({ id } : Session σ ρ).history inputs) :
    Change m.before m.input m.after m.effects ∧
      (∃ more, m.before.after more = ({ id } : Session σ ρ).after inputs) ∧
        ∃ pre post, ({ id } : Session σ ρ).history inputs = pre ++ post ∧ Race pre m.before := by
  obtain ⟨xs, i, ys, hinputs, rfl⟩ := mem_history hm
  have hrest : ∀ j ∈ xs, j.isOrdinary = true := by
    intro j hj
    apply hordinary
    rw [hinputs]
    exact List.mem_append_left _ hj
  have hsplit := history_append ({ id } : Session σ ρ) xs (i :: ys)
  rw [← hinputs] at hsplit
  refine ⟨step_change _ i, ⟨i :: ys, ?_⟩, _, _, hsplit, (race_history id xs hrest).2⟩
  rw [hinputs, after_append]
  rfl

theorem Race.one_round (hrace : Race h s) (htold : Told h s) (hset : s.Settled) :
    h.rounds.length = 1 := by
  have hpos := List.length_pos_iff.mpr (hrace.told hset)
  have honce := htold.once
  omega

theorem Race.winner (hrace : Race h s) (htold : Told h s) (hphase : s.phase ≠ .active) :
    ∃ j, h.Reaches j ∧ (s.has Stage.isHandingBack j = true ∨ h.rounds.length = 1) := by
  by_cases hset : s.Settled
  · obtain ⟨j, hj⟩ := hrace.closed hphase
    exact ⟨j, hj, .inr (hrace.one_round htold hset)⟩
  · obtain ⟨j, hback⟩ := exists_handingBack hphase hset
    obtain ⟨r, st, hj, hst⟩ := has_eq_true_iff.mp hback
    have hwinning := hrace.winning j (by rw [has_eq hj, Stage.isWinning_of_isHandingBack hst])
    exact ⟨j, hwinning, .inl hback⟩

/-- One who did not reach the end has the answer of one who comes too late. -/
theorem Race.lost (hrace : Race h s) {answer : Except Error (Answer ρ)}
    (hj : s.jobs[job]? = some ⟨r, .done answer⟩) (hr : r.isEnding = true) (hlost : ¬ h.Reaches job)
    (hnot : ¬ h.Interrupted job) : s.Settled ∧ answer = s.lateAnswer r := by
  have hfinished := hrace.finished job r answer hj hr
  have hsettled := hfinished.resolve_left hnot
  exact ⟨hsettled.1, hsettled.2.resolve_left hlost⟩

/-- How the race for the end of a session stands at the end of any run. A caller who stops waiting
is no input of the session: what it asked for goes on in a task of its own. -/
structure SingleWinner (h : History σ ρ) (s : Session σ ρ) : Prop where
  at_most_one : ∀ j k : Nat, h.Reaches j → h.Reaches k → j = k
  /-- Every round of hooks is the winner's and begins with the first observer. -/
  dispatch : ∀ (m : Moment σ ρ) (hook : Hook), m ∈ h → m.round? = some hook →
    (∃ j, m.job? = some j ∧ h.Reaches j) ∧
      m.hookCalls = (m.before.registry.observers.head?.map (hook, ·)).toList
  ended : s.phase ≠ .active →
    ∃ j, h.Reaches j ∧ (s.has Stage.isHandingBack j = true ∨ h.rounds.length = 1)
  finished : ∀ (j : Nat) (r : Request σ) (answer : Except Error (Answer ρ)),
    s.jobs[j]? = some ⟨r, .done answer⟩ → r.isEnding = true → ¬ h.Interrupted j →
      s.phase ≠ .active ∧ h.rounds.length = 1
  raises : ∀ (j : Nat) (r : Request σ) (answer : Except Error (Answer ρ)),
    s.jobs[j]? = some ⟨r, .done answer⟩ → r = .commit ∨ r = .rollback → ¬ h.Reaches j →
      ¬ h.Interrupted j →
        ∀ more : List (Input σ ρ), answer = .error (.alreadyFinalized (s.after more).phase)
  returns : ∀ (j : Nat) (r : Request σ) (answer : Except Error (Answer ρ)),
    s.jobs[j]? = some ⟨r, .done answer⟩ → r.isImplicit = true → ¬ h.Reaches j →
      ¬ h.Interrupted j → answer = .ok .nothing
  /-- One that comes after the end does not even wait. -/
  returns_at_once : ∀ (m : Moment σ ρ) (r : Request σ), m ∈ h → m.input = .request r →
    r.isImplicit = true → m.before.phase ≠ .active → m.effects = [] ∧ m.after = m.before
  asking : ∀ (m : Moment σ ρ) (r : Request σ), m ∈ h → m.input = .request r →
    m.calls = [] ∧ m.hookCalls = [] ∧ m.after.phase = m.before.phase
  silent : ∀ (m : Moment σ ρ) (j : Nat) (r : Request σ) (st : Stage ρ), m ∈ h → m.job? = some j →
    s.jobs[j]? = some ⟨r, st⟩ → r.isEnding = true → ¬ h.Reaches j →
      m.calls = [] ∧ m.hookCalls = [] ∧ m.after.phase = m.before.phase
  progress : s.Quiet → ∀ (j : Nat) (r : Request σ) (st : Stage ρ), s.jobs[j]? = some ⟨r, st⟩ →
    st.isDone = true ∨ s.isNotifying j = true

theorem single_winner (id : String) (inputs : List (Input σ ρ))
    (hordinary : ∀ i ∈ inputs, i.isOrdinary = true) :
    SingleWinner (({ id } : Session σ ρ).history inputs) (({ id } : Session σ ρ).after inputs) := by
  obtain ⟨hs, hrace⟩ := race_history id inputs hordinary
  have htold := told_history id inputs
  constructor
  case at_most_one => exact hrace.unique
  case dispatch =>
    intro m hook hm hround
    obtain ⟨hchange, -, pre, post, hsplit, hbefore⟩ := race_moment hordinary hm
    obtain ⟨⟨j, hj, hwinning⟩, hcalls⟩ := round_mover hchange hround
    refine ⟨⟨j, hj, ?_⟩, hcalls⟩
    rw [hsplit]
    exact (hbefore.winning j hwinning).append post
  case ended => exact hrace.winner htold
  case finished =>
    intro j r answer hj hr hnot
    have hset := ((hrace.finished j r answer hj hr).resolve_left hnot).1
    exact ⟨hset.1, hrace.one_round htold hset⟩
  case raises =>
    intro j r answer hj hr hlost hnot more
    have hending : r.isEnding = true := by rcases hr with rfl | rfl <;> rfl
    obtain ⟨hset, hanswer⟩ := hrace.lost hj hending hlost hnot
    have hterminal := Phase.isTerminal_iff.mpr hset.1
    rw [hanswer, (ended_run hs hterminal more).1]
    rcases hr with rfl | rfl <;> rfl
  case returns =>
    intro j r answer hj hr hlost hnot
    have hending : r.isEnding = true := by cases r <;> first | rfl | cases hr
    rw [(hrace.lost hj hending hlost hnot).2]
    cases r <;> first | rfl | cases hr
  case returns_at_once =>
    intro m r hm hinput hr hphase
    have hchange := (race_moment hordinary hm).1
    rw [hinput] at hchange
    exact asked_late hchange hr hphase
  case asking =>
    intro m r hm hinput
    have hchange := (race_moment hordinary hm).1
    rw [hinput] at hchange
    exact asked hchange
  case silent =>
    intro m j r st hm hj hst hr hlost
    obtain ⟨hhooks, hphase, hcalls⟩ := hrace.silent m j hm hj hlost
    refine ⟨?_, hhooks, hphase⟩
    rcases hcalls with hnone | ⟨r', st', hbefore, hr'⟩
    · exact hnone
    · -- the job keeps its request until the end
      obtain ⟨-, ⟨more, hmore⟩, -⟩ := race_moment hordinary hm
      obtain ⟨st'', hafter⟩ := job_after more hbefore
      rw [hmore, hst] at hafter
      cases hafter
      rw [hr] at hr'
      cases hr'
  case progress =>
    intro hquiet j r st hj
    exact hquiet.all_done hs hj

/-- Two commits and a close at once: the first commit fails and is compensated, the others are late. -/
def contest : List (Input Unit Unit) :=
  [.request .commit, .request .commit, .request .close, .run 0, .run 1, .run 2,
    .settle 0 (.error (.given .driver [] none)), .settle 0 (.ok ()), .settle 0 (.ok ()), .run 1, .run 2]

theorem single_winner_contest :
    (∀ i ∈ contest, i.isOrdinary = true) ∧
      SingleWinner (({ id := "s" } : Session Unit Unit).history contest)
        (({ id := "s" } : Session Unit Unit).after contest) ∧
      (({ id := "s" } : Session Unit Unit).after contest).jobs.map Job.stage =
        [.done (.error (.commitFailed (.given .driver [] none) none none)),
          .done (.error (.alreadyFinalized .rolledBack)), .done (.ok .nothing)] := by
  have hordinary : ∀ i ∈ contest, i.isOrdinary = true := by decide
  exact ⟨hordinary, single_winner "s" contest hordinary, rfl⟩

end Session
end Transact
