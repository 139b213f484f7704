import Transact.Proofs.Session.Jobs

/-! The connection of a session serves one caller at a time: statements reach it in the order in
which the lock is granted, and none after the end has begun. -/
namespace Transact

variable {σ ρ : Type}

namespace Moment

/-- The statements that reach the connection, with the job that sends them. -/
def sent (m : Moment σ ρ) : List (Nat × σ) :=
  m.job?.toList.flatMap fun job => (m.calls.filterMap Call.statement?).map (job, ·)

/-- The job with a statement that gets the lock while the session is active. -/
def admitted (m : Moment σ ρ) : Option (Nat × σ) :=
  match m.granted? with
  | some (job, .execute statement) =>
    if m.before.phase = .active then some (job, statement) else none
  | _ => none

end Moment

namespace History

variable {h : History σ ρ} {m : Moment σ ρ}

def sent (h : History σ ρ) : List (Nat × σ) := h.flatMap Moment.sent

def admitted (h : History σ ρ) : List (Nat × σ) := h.filterMap Moment.admitted

theorem admitted_concat : (h ++ [m] : History σ ρ).admitted = h.admitted ++ m.admitted.toList := by
  cases hm : m.admitted <;> simp [admitted, hm]

end History

namespace Session

variable {s t : Session σ ρ} {i : Input σ ρ} {effects : List (Effect σ ρ)}
  {job k : Nat} {r : Request σ} {st old : Stage ρ} {h : History σ ρ} {l : Lock}

theorem granted?_of_grant (hj : s.jobs[job]? = some ⟨r, st⟩) (hl : s.grant? job = some l) :
    s.granted? (.run job) = some (job, r) := by
  simp [granted?, hl, hj]

/-- One who gets the lock has waited for it until now. -/
theorem waiting_of_granted (hgranted : s.granted? i = some (job, r)) :
    ∃ st : Stage ρ, s.jobs[job]? = some ⟨r, st⟩ ∧ (st = .ready ∨ st = .queued) := by
  cases i with
  | run k =>
    simp only [granted?] at hgranted
    split at hgranted
    · rename_i hsome
      obtain ⟨l, hl⟩ := Option.isSome_iff_exists.mp hsome
      obtain ⟨⟨r', st⟩, hj, heq⟩ := Option.map_eq_some_iff.mp hgranted
      cases heq
      exact ⟨st, hj, grant?_waiting hl hj⟩
    · cases hgranted
  | _ => cases hgranted

theorem grant?_eq_none_of_busy (hj : s.jobs[job]? = some ⟨r, .ready⟩) (hbusy : s.lock.isFree = false) :
    s.grant? job = none := by
  simp [grant?, stage?_eq hj, hbusy]

theorem sent_change (hchange : Change s i t effects) :
    (⟨s, i, effects, t⟩ : Moment σ ρ).sent = (⟨s, i, effects, t⟩ : Moment σ ρ).admitted.toList := by
  cases hchange with
  | idle hfits =>
    simp [Moment.sent, Moment.calls, Moment.admitted, Moment.granted?,
      granted?_eq_none_of_not_fits hfits]
  | queued hj hbusy =>
    simp [Moment.sent, Moment.calls, Moment.admitted, Moment.granted?, granted?,
      grant?_eq_none_of_busy hj hbusy]
  | @late job r st l hj hl hterminal =>
    have hphase := Phase.isTerminal_iff.mp hterminal
    cases r <;> simp [Moment.sent, Moment.calls, Moment.admitted, Moment.granted?,
      granted?_of_grant hj hl, hphase]
  | @granted job r old l hj hl hactive =>
    cases r <;> simp [Moment.sent, Moment.calls, Moment.job?, Input.job?, Moment.admitted,
      Moment.granted?, granted?_of_grant hj hl, hactive, Request.firstCall, Call.statement?]
  | _ =>
    simp [Moment.sent, Moment.calls, Moment.admitted, Moment.granted?, granted?,
      List.filterMap_cons, Call.statement?]

theorem admitted_forwarding (hchange : Change s i t effects) {statement : σ}
    (h : (⟨s, i, effects, t⟩ : Moment σ ρ).admitted = some (job, statement)) :
    t.jobs[job]? = some ⟨.execute statement, .forwarding⟩ := by
  cases hchange with
  | idle hfits => simp [Moment.admitted, Moment.granted?, granted?_eq_none_of_not_fits hfits] at h
  | queued hj hbusy =>
    simp [Moment.admitted, Moment.granted?, granted?, grant?_eq_none_of_busy hj hbusy] at h
  | late hj hl hterminal =>
    simp only [Moment.admitted, Moment.granted?, granted?_of_grant hj hl] at h
    split at h
    · split at h
      · simp_all [Phase.isTerminal]
      · cases h
    · cases h
  | @granted k r old l hj hl hactive =>
    simp only [Moment.admitted, Moment.granted?, granted?_of_grant hj hl, hactive, if_true] at h
    split at h
    · rename_i heq
      cases heq
      cases h
      exact job_moved hj
    · cases h
  | _ => simp [Moment.admitted, Moment.granted?, granted?] at h

theorem job?_of_calls (hchange : Change s i t effects) (hi : i.job? = none) :
    effects.filterMap Effect.call? = [] := by
  cases change_moves hchange with
  | rest _ hcalls => exact hcalls
  | opened _ _ _ hcalls => exact hcalls
  | moved job r old st hjob =>
    rw [hi] at hjob
    cases hjob

theorem statements_change (hchange : Change s i t effects) :
    (effects.filterMap Effect.call?).filterMap Call.statement? =
      (⟨s, i, effects, t⟩ : Moment σ ρ).admitted.toList.map Prod.snd := by
  rw [← sent_change hchange]
  cases hi : i.job? with
  | none => simp [Moment.sent, Moment.job?, hi, job?_of_calls hchange hi]
  | some job => simp [Moment.sent, Moment.job?, Moment.calls, hi, Function.comp_def]

theorem sent_history (s : Session σ ρ) (inputs : List (Input σ ρ)) :
    (s.history inputs).sent = (s.history inputs).admitted := by
  rw [History.sent, History.admitted, List.filterMap_eq_flatMap_toList]
  apply List.flatMap_congr
  intro m hm
  obtain ⟨xs, i, -, -, rfl⟩ := mem_history hm
  exact sent_change (step_change _ i)

/-- The statements that reach the connection are those that got the lock, in that order. -/
theorem statements_history (s : Session σ ρ) (inputs : List (Input σ ρ)) :
    (s.history inputs).calls.filterMap Call.statement? =
      (s.history inputs).admitted.map Prod.snd := by
  rw [History.calls, List.filterMap_flatMap, History.admitted, List.filterMap_eq_flatMap_toList,
    List.map_flatMap]
  apply List.flatMap_congr
  intro m hm
  obtain ⟨xs, i, -, -, rfl⟩ := mem_history hm
  exact statements_change (step_change _ i)

/-- One who gets the lock of an ended session is refused. -/
theorem granted_late (hchange : Change s i t effects) (hterminal : s.phase.isTerminal = true)
    (hgranted : s.granted? i = some (job, r)) :
    effects.filterMap Effect.call? = [] ∧ t.jobs[job]? = some ⟨r, .done (s.lateAnswer r)⟩ := by
  cases hchange with
  | idle hfits => simp [granted?_eq_none_of_not_fits hfits] at hgranted
  | queued hj hbusy => simp [granted?, grant?_eq_none_of_busy hj hbusy] at hgranted
  | late hj hl =>
    rw [granted?_of_grant hj hl] at hgranted
    cases hgranted
    exact ⟨by simp, job_moved hj⟩
  | granted hj hl hactive =>
    rw [hactive] at hterminal
    cases hterminal
  | _ => cases hgranted

/-- A job whose statement was sent waits for the answer or has ended with it. -/
def Served (h : History σ ρ) (s : Session σ ρ) (job : Nat) (statement : σ) : Prop :=
  s.jobs[job]? = some ⟨.execute statement, .forwarding⟩ ∨
    ∃ outcome : Except Error ρ,
      s.jobs[job]? = some ⟨.execute statement, .done (outcome.map .reply)⟩ ∧
        ∃ m ∈ h, m.input = .reply job outcome ∧ .finish (outcome.map .reply) ∈ m.effects ∧
          m.answered = some (.execute statement, outcome.map fun _ => ())

theorem Served.change {statement : σ} (hserved : Served h s job statement)
    (hchange : Change s i t effects) : Served (h ++ [⟨s, i, effects, t⟩]) t job statement := by
  rcases hserved with hforwarding | ⟨outcome, hdone, m, hm, hreply⟩
  · rcases forwarding_change hchange hforwarding with hstill | ⟨outcome, rfl, heffects, hdone⟩
    · exact .inl hstill
    · refine .inr ⟨outcome, hdone, _, List.mem_append_right _ (List.mem_singleton_self _), rfl,
        heffects, ?_⟩
      simp [Moment.answered, answered, hforwarding, Request.firstCall]
  · exact .inr ⟨outcome, done_stays hchange hdone, m, List.mem_append_left _ hm, hreply⟩

theorem Served.not_waiting {statement : σ} (hserved : Served h s job statement)
    (hj : s.jobs[job]? = some ⟨r, st⟩) : ¬ (st = .ready ∨ st = .queued) := by
  rcases hserved with hst | ⟨outcome, hst, -⟩
  · rw [hj] at hst
    cases hst
    simp
  · rw [hj] at hst
    cases hst
    simp

/-- What has become of the statements that got the lock. -/
structure Grants (h : History σ ρ) (s : Session σ ρ) : Prop where
  once : (h.admitted.map Prod.fst).Nodup
  served : ∀ (job : Nat) (statement : σ), (job, statement) ∈ h.admitted → Served h s job statement
  late : ∀ (m : Moment σ ρ) (job : Nat) (statement : σ), m ∈ h →
    m.granted? = some (job, .execute statement) → m.before.phase.isTerminal = true →
      m.calls = [] ∧ job ∉ h.admitted.map Prod.fst ∧
        s.jobs[job]? = some ⟨.execute statement, .done (.error (.closed m.before.phase))⟩

theorem granted_of_admitted {m : Moment σ ρ} {entry : Nat × σ} (hentry : m.admitted = some entry) :
    m.granted? = some (entry.1, .execute entry.2) ∧ m.before.phase = .active := by
  simp only [Moment.admitted] at hentry
  split at hentry
  · rename_i heq
    split at hentry
    · rename_i hactive
      cases hentry
      exact ⟨heq, hactive⟩
    · cases hentry
  · cases hentry

theorem Grants.fresh (hgrants : Grants h s) (hgranted : s.granted? i = some (job, r)) :
    job ∉ h.admitted.map Prod.fst := by
  intro hmem
  obtain ⟨⟨k, statement⟩, hentry, rfl⟩ := List.mem_map.mp hmem
  obtain ⟨st, hj, hwaiting⟩ := waiting_of_granted hgranted
  exact (hgrants.served k statement hentry).not_waiting hj hwaiting

theorem Grants.once_step (hgrants : Grants h s) :
    ((h ++ [⟨s, i, effects, t⟩] : History σ ρ).admitted.map Prod.fst).Nodup := by
  rw [History.admitted_concat, List.map_append, List.nodup_append]
  refine ⟨hgrants.once, ?_, ?_⟩
  · cases (⟨s, i, effects, t⟩ : Moment σ ρ).admitted <;> simp
  · intro a ha b hb heq
    obtain ⟨entry, hentry, rfl⟩ := List.mem_map.mp hb
    have hgranted := (granted_of_admitted (Option.mem_toList.mp hentry)).1
    exact hgrants.fresh hgranted (heq ▸ ha)

theorem Grants.late_step (hgrants : Grants h s) (hchange : Change s i t effects) {m : Moment σ ρ}
    {statement : σ} (hm : m ∈ h ++ [⟨s, i, effects, t⟩])
    (hgranted : m.granted? = some (job, .execute statement))
    (hterminal : m.before.phase.isTerminal = true) :
    m.calls = [] ∧ job ∉ (h ++ [⟨s, i, effects, t⟩] : History σ ρ).admitted.map Prod.fst ∧
      t.jobs[job]? = some ⟨.execute statement, .done (.error (.closed m.before.phase))⟩ := by
  rw [History.admitted_concat, List.map_append, List.mem_append, not_or]
  rcases List.mem_append.mp hm with hm | hm
  · obtain ⟨hcalls, hnot, hdone⟩ := hgrants.late m job statement hm hgranted hterminal
    refine ⟨hcalls, ⟨hnot, fun hmem => ?_⟩, done_stays hchange hdone⟩
    obtain ⟨entry, hentry, rfl⟩ := List.mem_map.mp hmem
    have hnow := (granted_of_admitted (Option.mem_toList.mp hentry)).1
    obtain ⟨st, hj, hwaiting⟩ := waiting_of_granted hnow
    rw [hdone] at hj
    cases hj
    simp at hwaiting
  · rw [List.mem_singleton.mp hm] at hgranted hterminal ⊢
    obtain ⟨hcalls, hdone⟩ := granted_late hchange hterminal hgranted
    refine ⟨hcalls, ⟨hgrants.fresh hgranted, fun hmem => ?_⟩, hdone⟩
    obtain ⟨entry, hentry, -⟩ := List.mem_map.mp hmem
    have hactive := (granted_of_admitted (Option.mem_toList.mp hentry)).2
    exact Phase.isTerminal_iff.mp hterminal hactive

theorem grants_change (hchange : Change s i t effects) (hgrants : Grants h s) :
    Grants (h ++ [⟨s, i, effects, t⟩]) t where
  once := hgrants.once_step
  served job statement hmem := by
    rw [History.admitted_concat, List.mem_append] at hmem
    rcases hmem with hmem | hmem
    · exact (hgrants.served job statement hmem).change hchange
    · exact .inl (admitted_forwarding hchange (Option.mem_toList.mp hmem))
  late _ _ _ := hgrants.late_step hchange

/-! No statement after the end -/

/-- The end has been reached, or a call for it is under way. -/
def AtEnd (s : Session σ ρ) : Prop := s.phase ≠ .active ∨ ∃ c, s.calling = some c ∧ c.isEnd = true

theorem calls_single (hchange : Change s i t effects) :
    (effects.filterMap Effect.call?).length ≤ 1 := by
  cases change_moves hchange with
  | rest _ hcalls => simp [hcalls]
  | opened _ _ _ hcalls => simp [hcalls]
  | moved job r old st _ _ _ _ hcalls =>
    rw [hcalls]
    cases st.call? r <;> simp

/-- A statement is sent only when no call is under way and nothing has ended. -/
theorem statement_call (hs : s.Sound) (hchange : Change s i t effects) {c : Call σ}
    (hc : c ∈ effects.filterMap Effect.call?) (hstatement : c.statement? ≠ none) :
    s.phase = .active ∧ s.calling = none := by
  cases hchange with
  | granted hj hl hactive => exact ⟨hactive, calling_eq_none (hs.grant_holder hl)⟩
  | committed | commitFailed | rolledBack | rollbackFailed | releaseFailed =>
    simp only [List.filterMap_cons, Effect.call?, List.filterMap_nil, List.mem_singleton] at hc
    rw [hc] at hstatement
    exact absurd rfl hstatement
  | _ => simp at hc

/-- A commit that failed by an ordinary error is followed by a rollback at once. -/
theorem rollback_called (hs : s.Sound) (hchange : Change s i t effects) {e : Error}
    (hanswered : s.answered i = some (.commit, .error e)) (he : e.isOrdinary = true) :
    .rollback ∈ effects.filterMap Effect.call? := by
  cases hchange with
  | idle hfits => simp [answered_eq_none_of_not_fits hfits] at hanswered
  | commitFailed => simp [List.filterMap_cons]
  | @replied job r outcome hj =>
    have hr := (hs.fits _ _ _ hj).2
    cases r <;> simp_all [answered, Request.firstCall, Request.isEnding]
  | broken hj hphysical hbreak =>
    rw [answered_settle hj hphysical] at hanswered
    simp_all
  | @announced job r st ending outcome records hj hending hback =>
    rw [answered_settle hj (isPhysical_of_isBack hback)] at hanswered
    cases st <;> simp_all [Stage.call?, isBack]
  | _ => simp_all [answered, Stage.call?]

theorem calling_of_called (hs : s.Sound) (hchange : Change s i t effects) {c : Call σ}
    (hc : c ∈ effects.filterMap Effect.call?) : t.calling = some c := by
  obtain ⟨job, r, st, -, hj, hcall⟩ := call_lands hchange hc
  have hhold : st.holdsLock = true := by
    rw [Stage.holdsLock_eq_isSome_call? r, hcall]
    rfl
  rw [calling_eq (sound_change hchange hs) hj hhold, hcall]

/-- The answer to a call for the end brings the end, or another such call. -/
theorem atEnd_answered (hs : s.Sound) (hchange : Change s i t effects) {c : Call σ}
    {outcome : Except Error Unit} (hanswered : s.answered i = some (c, outcome))
    (hordinary : ∀ e, outcome = .error e → e.isOrdinary = true) (hactive : s.phase = .active)
    (hend : c.isEnd = true) : t.AtEnd := by
  have hphase := phase_change hs hchange
  rw [hanswered, hactive] at hphase
  cases c with
  | commit =>
    cases outcome with
    | ok => exact .inl (by simp [hphase, Phase.next])
    | error e =>
      have hcalled := rollback_called hs hchange hanswered (hordinary e rfl)
      exact .inr ⟨.rollback, calling_of_called hs hchange hcalled, rfl⟩
  | rollback =>
    cases outcome with
    | ok => exact .inl (by simp [hphase, Phase.next])
    | error e => exact .inl (by simp [hphase, Phase.next, hordinary e rfl])
  | _ => cases hend

theorem atEnd_change (hs : s.Sound) (hchange : Change s i t effects)
    (hordinary : ∀ (c : Call σ) (e : Error), s.answered i = some (c, .error e) → c.isEnd = true →
      e.isOrdinary = true)
    (h : s.AtEnd ∨ ∃ c ∈ effects.filterMap Effect.call?, c.isEnd = true) : t.AtEnd := by
  by_cases hactive : s.phase = .active
  swap
  · exact .inl (by rwa [phase_stays hs hchange hactive])
  rcases h with (hphase | ⟨c, hcalling, hend⟩) | ⟨c, hc, hend⟩
  · exact absurd hactive hphase
  · cases hanswered : s.answered i with
    | none =>
      -- what was under way still is
      have hcalls := calls_change hs hchange
      have hmem : c ∈ s.calling.toList ++ effects.filterMap Effect.call? := by simp [hcalling]
      rw [hcalls, hanswered] at hmem
      exact .inr ⟨c, Option.mem_toList.mp hmem, hend⟩
    | some entry =>
      obtain ⟨d, outcome⟩ := entry
      have hsame := calling_of_answered hs hanswered
      rw [hcalling] at hsame
      cases hsame
      have hcause : ∀ e, outcome = .error e → e.isOrdinary = true := by
        intro e he
        subst he
        exact hordinary c e hanswered hend
      exact atEnd_answered hs hchange hanswered hcause hactive hend
  · exact .inr ⟨c, calling_of_called hs hchange hc, hend⟩

/-- Nothing in the run makes a statement follow the end, if the calls for the end failed by ordinary
errors only. -/
def Shut (h : History σ ρ) (s : Session σ ρ) : Prop :=
  (∀ (c : Call σ) (e : Error), (c, .error e) ∈ h.log → c.isEnd = true → e.isOrdinary = true) →
    (h.calls.Pairwise fun c d => c.isEnd = true → d.statement? = none) ∧
      ((∃ c ∈ h.calls, c.isEnd = true) → s.AtEnd)

theorem shut_change (hs : s.Sound) (hchange : Change s i t effects) (hshut : Shut h s) :
    Shut (h ++ [⟨s, i, effects, t⟩]) t := by
  intro hordinary
  rw [History.log_concat] at hordinary
  obtain ⟨hpairwise, hend⟩ := hshut fun c e hentry => hordinary c e (List.mem_append_left _ hentry)
  have hnow (c : Call σ) (e : Error) (hanswered : s.answered i = some (c, .error e)) :
      c.isEnd = true → e.isOrdinary = true := by
    apply hordinary c e
    apply List.mem_append_right
    simp [Moment.answered, hanswered]
  rw [History.calls_concat, Moment.calls]
  refine ⟨List.pairwise_append.mpr ⟨hpairwise, ?_, ?_⟩, ?_⟩
  · have hone := calls_single hchange
    cases hnew : effects.filterMap Effect.call? with
    | nil => exact .nil
    | cons c rest =>
      rw [hnew, List.length_cons] at hone
      have hrest : rest = [] := List.eq_nil_of_length_eq_zero (by omega)
      rw [hrest]
      exact List.pairwise_singleton _ c
  · intro c hc d hd hcend
    by_contra hstatement
    obtain ⟨hactive, hcalling⟩ := statement_call hs hchange hd hstatement
    rcases hend ⟨c, hc, hcend⟩ with hphase | ⟨under, hunder, -⟩
    · exact hphase hactive
    · rw [hcalling] at hunder
      cases hunder
  · rintro ⟨c, hc, hcend⟩
    apply atEnd_change hs hchange hnow
    rcases List.mem_append.mp hc with hc | hc
    · exact .inl (hend ⟨c, hc, hcend⟩)
    · exact .inr ⟨c, hc, hcend⟩

/-- How the connection of a session is used along any run. -/
structure Serial (h : History σ ρ) (s : Session σ ρ) : Prop where
  /-- A call is begun only when the one before it has ended. -/
  one_call : h.calls = h.log.map Prod.fst ++ s.calling.toList
  one_caller : ∀ (job : Nat) (c : Call σ), s.awaited job = some c →
    s.lock.holder = some job ∧ s.calling = some c
  statements : h.calls.filterMap Call.statement? = h.admitted.map Prod.snd
  in_order : h.sent = h.admitted
  once : (h.sent.map Prod.fst).Nodup
  unchanged : ∀ (job : Nat) (statement : σ), (job, statement) ∈ h.sent →
    h.Opened job (.execute statement)
  served : ∀ (job : Nat) (statement : σ), (job, statement) ∈ h.sent → Served h s job statement
  late : ∀ (m : Moment σ ρ) (job : Nat) (statement : σ), m ∈ h →
    m.granted? = some (job, .execute statement) → m.before.phase.isTerminal = true →
      m.calls = [] ∧ job ∉ h.sent.map Prod.fst ∧
        s.jobs[job]? = some ⟨.execute statement, .done (.error (.closed s.phase))⟩
  shut : (∀ (c : Call σ) (e : Error), (c, .error e) ∈ h.log → c.isEnd = true → e.isOrdinary = true) →
    h.calls.Pairwise fun c d => c.isEnd = true → d.statement? = none

theorem serial (id : String) (inputs : List (Input σ ρ)) :
    Serial (({ id } : Session σ ρ).history inputs) (({ id } : Session σ ρ).after inputs) := by
  have hstart : ({ id } : Session σ ρ).Sound := sound_fresh id
  have hsound := sound_after hstart inputs
  have hsent := sent_history ({ id } : Session σ ρ) inputs
  have hgrants : Grants (({ id } : Session σ ρ).history inputs) (({ id } : Session σ ρ).after inputs) :=
    (run_induction (P := Grants) (Q := fun _ => True) hstart
      ⟨by simp [History.admitted], by simp [History.admitted], by simp⟩
      (fun _ _ hchange => grants_change hchange) inputs fun _ _ => trivial).2
  have hshut : Shut (({ id } : Session σ ρ).history inputs) (({ id } : Session σ ρ).after inputs) :=
    (run_induction (P := Shut) (Q := fun _ => True) hstart (fun _ => ⟨by simp, by simp⟩)
      (fun hs _ hchange => shut_change hs hchange) inputs fun _ _ => trivial).2
  constructor
  case one_call => exact calls_history hstart rfl inputs
  case one_caller =>
    intro job c hc
    obtain ⟨⟨r, st⟩, hj, hcall⟩ := Option.bind_eq_some_iff.mp hc
    have hhold : st.holdsLock = true := by rw [Stage.holdsLock_eq_isSome_call? r, hcall]; rfl
    refine ⟨?_, (calling_eq hsound hj hhold).trans hcall⟩
    rw [hsound.holder, has_eq hj, hhold]
  case statements => exact statements_history _ inputs
  case in_order => exact hsent
  case once =>
    rw [hsent]
    exact hgrants.once
  case unchanged =>
    intro job statement hmem
    rw [hsent] at hmem
    rcases hgrants.served job statement hmem with hj | ⟨outcome, hj, -⟩
    · exact opened_history id inputs job _ _ hj
    · exact opened_history id inputs job _ _ hj
  case served =>
    rw [hsent]
    exact hgrants.served
  case late =>
    intro m job statement hm hgranted hterminal
    obtain ⟨hcalls, hnot, hdone⟩ := hgrants.late m job statement hm hgranted hterminal
    obtain ⟨xs, i, ys, hinputs, rfl⟩ := mem_history hm
    have hphase := (ended_run (sound_after hstart xs) hterminal (i :: ys)).1
    rw [← after_append, ← hinputs] at hphase
    rw [hsent, hphase]
    exact ⟨hcalls, hnot, hdone⟩
  case shut => exact fun hordinary => (hshut hordinary).1

/-- A statement that queues behind a commit finds the transaction closed. -/
example : (({ id := "s" } : Session Unit Unit).after
    [.request .commit, .request (.execute ()), .run 0, .run 1, .settle 0 (.ok ()),
      .settle 0 (.ok ()), .run 1]).jobs.map Job.stage =
    [.done (.ok (.finalized .committed none)), .done (.error (.closed .committed))] := rfl

end Session
end Transact
