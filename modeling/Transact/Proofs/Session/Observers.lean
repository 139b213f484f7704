import Transact.Proofs.Session.Agreement
import Transact.Proofs.Session.Custody
import Transact.Proofs.Session.Winner

/-! Every observer that a session accepts is told of the session's end, as often as it was accepted
and in that order, when the connection has been handed back. -/
namespace Transact

variable {σ ρ : Type}

@[simp] def Effect.accepted? : Effect σ ρ → Option Observer
  | accepted o => some o
  | _ => none

def Moment.accepted (m : Moment σ ρ) : List Observer := m.effects.filterMap Effect.accepted?

namespace History

/-- The registrations that were accepted, in order. -/
def accepted (h : History σ ρ) : List Observer := h.flatMap Moment.accepted

variable {h : History σ ρ} {m : Moment σ ρ}

theorem accepted_concat : (h ++ [m] : History σ ρ).accepted = h.accepted ++ m.accepted := by
  simp [accepted]

end History

/-- One who goes on after the call for the end goes on to hand the connection back or to tell of the
end, or has ended. -/
theorem Stage.Goes.winning_or_done {r : Request σ} {old st : Stage ρ} (hgoes : Goes r old st)
    (hold : old.isWinning = true) : st.isWinning = true ∨ st.isDone = true := by
  cases hgoes with
  | enter hwaiting => rcases hwaiting with rfl | rfl <;> cases hold
  | wait => cases hold
  | stop => exact .inr rfl
  | _ => exact .inl rfl

namespace Session

variable {s t : Session σ ρ} {i : Input σ ρ} {effects : List (Effect σ ρ)}
  {job k : Nat} {r : Request σ} {st old : Stage ρ} {h : History σ ρ}

@[simp] theorem filterMap_accepted?_wakes (woken : Option Nat) :
    (wakes woken : List (Effect σ ρ)).filterMap Effect.accepted? = [] := by
  cases woken <;> rfl

@[simp] theorem filterMap_accepted?_roundEffects {ending : Ending} {next : Round.Next} :
    (s.roundEffects r ending next).filterMap Effect.accepted? = [] := by
  cases next <;> simp [roundEffects]

/-! The registry is the list of what was accepted -/

theorem registry_change (hchange : Change s i t effects) :
    t.registry.observers = s.registry.observers ++ effects.filterMap Effect.accepted? := by
  cases hchange with
  | registered => simp
  | _ => simp [List.filterMap_cons]

theorem registry_history (id : String) (inputs : List (Input σ ρ)) :
    (({ id } : Session σ ρ).after inputs).registry.observers =
      (({ id } : Session σ ρ).history inputs).accepted := by
  refine (run_induction (P := fun h s => s.registry.observers = h.accepted) (Q := fun _ => True)
    (sound_fresh id) rfl ?_ inputs fun _ _ => trivial).2
  intro h s i t effects _ _ hchange ih
  rw [History.accepted_concat, registry_change hchange, ih]
  rfl

/-- What comes of a registration: it is accepted, or refused for one of two causes, and then
everything is as before. -/
inductive Registration (m : Moment σ ρ) (c : Component) : Prop
  | accepted (o : Observer) : c.observer = some o → m.before.phase = .active →
      m.effects = [.accepted o] →
      m.after = { m.before with registry := ⟨m.before.registry.observers ++ [o]⟩ } → Registration m c
  | closed (e : Error) : m.before.phase.isTerminal = true → e = .registrationClosed m.before.phase →
      m.effects = [.refused e] → m.after = m.before → Registration m c
  | unfit (e : Error) : m.before.phase = .active → c.observer = none →
      e = .notAnObserver c.typeName → m.effects = [.refused e] → m.after = m.before →
      Registration m c

theorem register_eq_error {c : Component} {e : Error} (he : s.register c = .error e) :
    (s.phase.isTerminal = true ∧ e = .registrationClosed s.phase) ∨
      (s.phase = .active ∧ c.observer = none ∧ e = .notAnObserver c.typeName) := by
  unfold register at he
  split at he
  · rename_i hactive
    have hphase : s.phase = .active := by simpa [isActive] using hactive
    cases ho : c.observer with
    | none =>
      simp only [Registry.register, ho, Except.map, Except.error.injEq] at he
      exact .inr ⟨hphase, rfl, he.symm⟩
    | some o => simp [Registry.register, ho, Except.map] at he
  · rename_i hclosed
    have hphase : s.phase ≠ .active := by simpa [isActive] using hclosed
    simp only [Except.error.injEq] at he
    exact .inl ⟨Phase.isTerminal_iff.mpr hphase, he.symm⟩

theorem registration {c : Component} (hchange : Change s (.register c) t effects) :
    Registration ⟨s, .register c, effects, t⟩ c := by
  cases hchange with
  | idle hfits => cases hfits
  | registered hactive ho => exact .accepted _ ho hactive rfl rfl
  | refused he =>
    rcases register_eq_error he with ⟨hclosed, rfl⟩ | ⟨hactive, hnone, rfl⟩
    · exact .closed _ hclosed rfl rfl rfl
    · exact .unfit _ hactive hnone rfl rfl rfl

/-! Who has asked for the end is on the way to it until done -/

/-- One who has called for the end has not gone back to waiting. -/
def Pursued (h : History σ ρ) (s : Session σ ρ) : Prop :=
  ∀ j, h.Reaches j → ∃ (r : Request σ) (st : Stage ρ), s.jobs[j]? = some ⟨r, st⟩ ∧
    (st.isWinning = true ∨ st.isDone = true)

theorem isWinning_of_has_isPhysical (hk : s.has Stage.isPhysical k = true) :
    ∃ (r : Request σ) (st : Stage ρ), s.jobs[k]? = some ⟨r, st⟩ ∧ st.isWinning = true := by
  obtain ⟨r, st, hj, hst⟩ := has_eq_true_iff.mp hk
  exact ⟨r, st, hj, by rw [Stage.isWinning, hst, Bool.true_or]⟩

theorem pursued_change (hs : s.Sound) (hchange : Change s i t effects) (hpursued : Pursued h s) :
    Pursued (h ++ [⟨s, i, effects, t⟩]) t := by
  intro j hj
  rcases History.reaches_concat.mp hj with hbefore | ⟨hi, c, hc, hend⟩
  · obtain ⟨r, old, hold, hstands⟩ := hpursued j hbefore
    obtain ⟨st, hst, rfl | ⟨-, hgoes⟩⟩ := job_change hchange hold
    · exact ⟨r, st, hst, hstands⟩
    · have hwinning := hstands.resolve_right (by simp [hgoes.not_done])
      exact ⟨r, st, hst, hgoes.winning_or_done hwinning⟩
  · have hphysical := (physical_of_reaching hs hchange hi hc hend).1
    obtain ⟨r, st, hst, hwinning⟩ := isWinning_of_has_isPhysical hphysical
    exact ⟨r, st, hst, .inl hwinning⟩

theorem pursued_fresh (id : String) : Pursued [] ({ id } : Session σ ρ) := by
  intro j hj
  simp [History.Reaches] at hj

theorem pursued_history (id : String) (inputs : List (Input σ ρ)) :
    Pursued (({ id } : Session σ ρ).history inputs) (({ id } : Session σ ρ).after inputs) :=
  (run_induction (P := Pursued) (Q := fun _ => True) (sound_fresh id) (pursued_fresh id)
    (fun hs _ hchange hpursued => pursued_change hs hchange hpursued) inputs fun _ _ => trivial).2

/-! When the winner has ended, all have been told -/

/-- A round that is over has nobody left to tell, unless it broke off. -/
theorem Continues.pending_eq_nil {hook : Hook} {pending : List Observer} {next : Round.Next}
    {failures : Option Notification} (hnext : Continues hook pending next) (hended : next = .ended failures) :
    pending = [] := by
  rcases hnext with ⟨failures', rfl⟩ | ⟨e, rfl⟩
  · cases pending with
    | nil => rfl
    | cons o rest => cases hended
  · cases hended

theorem ended_of_done {ending : Ending} {next : Round.Next} {answer : Except Error (Answer ρ)}
    (hdone : s.roundStage r ending next = .done answer) (hordinary : ∀ e, next ≠ .aborted e) :
    ∃ failures, next = .ended failures := by
  cases next with
  | call round => cases hdone
  | ended failures => exact ⟨failures, rfl⟩
  | aborted e => exact absurd rfl (hordinary e)

/-- The last answer of a round leaves nobody who was not told. -/
theorem Told.ended (htold : Told h s) (hchange : Change s i t effects)
    (hordinary : i.isOrdinary = true) {answer : Except Error (Answer ρ)}
    (hk : s.jobs[k]? = some ⟨r, old⟩) (hold : old.hasEnded = true)
    (ht : t.jobs[k]? = some ⟨r, .done answer⟩) :
    History.hookCalls (h ++ [⟨s, i, effects, t⟩]) = s.registry.observers.map (s.phase.hook, ·) := by
  have hi : i.job? = some k := by
    by_contra hi
    rw [job_stays hchange hk hi] at ht
    cases ht
    cases hold
  rw [History.hookCalls_concat, Moment.hookCalls]
  cases hchange with
  | idle =>
    rw [hk] at ht
    cases ht
    cases hold
  | @announced job r' old' ending outcome records hj hending hback =>
    cases hi
    rw [job_moved hj] at ht
    have hst := congrArg Job.stage (Option.some.inj ht)
    obtain ⟨failures, hended⟩ := ended_of_done hst (start_ne_aborted _ _)
    have hstart : Continues ending.hook s.registry.observers (Round.start ending.hook s.registry) :=
      .inl ⟨[], rfl⟩
    have hnone := hstart.pending_eq_nil hended
    rw [(htold.early (not_settled_of_isBack hj hback)).2, hnone, hended]
    simp [filterMap_hookCall?_roundEffects, nextCall]
  | @notified job r' ending round outcome hj =>
    cases hi
    rw [job_moved (p := s.phase) (l := s.lock) hj] at ht
    have hst := congrArg Job.stage (Option.some.inj ht)
    obtain ⟨failures, hended⟩ := ended_of_done hst (settle_ne_aborted hordinary)
    have hnone : round.waiting = [] := (settle_next round outcome).pending_eq_nil hended
    have hcurrent := htold.current k r' ending round hj
    rw [hnone, List.map_nil, List.append_nil] at hcurrent
    rw [← hcurrent, hended]
    simp [filterMap_hookCall?_roundEffects, nextCall]
  | late hj hl | granted hj hl =>
    cases hi
    rcases grant?_waiting hl hk with rfl | rfl <;> cases hold
  | broken hj hphysical he =>
    rw [Input.isOrdinary, he] at hordinary
    cases hordinary
  | committed hj | rolledBack hj | commitFailed hj | rollbackFailed hj | releaseFailed hj =>
    cases hi
    rw [job_moved hj] at ht
    cases ht
  | queued hj | cancelled hj | left hj | replied hj =>
    cases hi
    rw [hk] at hj
    cases hj
    cases hold
  | _ => cases hi

/-- All have been told when one who called for the end has ended. -/
def Complete (h : History σ ρ) (s : Session σ ρ) : Prop :=
  ∀ (j : Nat) (r : Request σ) (answer : Except Error (Answer ρ)), h.Reaches j →
    s.jobs[j]? = some ⟨r, .done answer⟩ →
      s.phase ≠ .active ∧ h.hookCalls = s.registry.observers.map (s.phase.hook, ·)

theorem complete_change (hs : s.Sound) (hordinary : i.isOrdinary = true)
    (hchange : Change s i t effects) (hpursued : Pursued h s) (htold : Told h s)
    (hcomplete : Complete h s) : Complete (h ++ [⟨s, i, effects, t⟩]) t := by
  intro j r answer hj ht
  have hbefore : h.Reaches j := by
    rcases History.reaches_concat.mp hj with hbefore | ⟨hi, c, hc, hend⟩
    · exact hbefore
    · have hphysical := (physical_of_reaching hs hchange hi hc hend).1
      rw [has_eq ht] at hphysical
      cases hphysical
  -- in an ended session neither the end nor the observers change
  have hkeep (hphase : s.phase ≠ .active)
      (hcalls : History.hookCalls (h ++ [⟨s, i, effects, t⟩]) =
        s.registry.observers.map (s.phase.hook, ·)) :
      t.phase ≠ .active ∧ History.hookCalls (h ++ [⟨s, i, effects, t⟩]) =
        t.registry.observers.map (t.phase.hook, ·) := by
    rw [phase_stays hs hchange hphase, registry_stays hchange hphase]
    exact ⟨hphase, hcalls⟩
  obtain ⟨r', old, hold, hstands⟩ := hpursued j hbefore
  have hr : r' = r := by
    obtain ⟨st, hst, -⟩ := job_change hchange hold
    rw [ht] at hst
    cases hst
    rfl
  subst hr
  cases hdone : old.isDone with
  | true =>
    cases old <;> cases hdone
    obtain ⟨hphase, hcalls⟩ := hcomplete j r' _ hbefore hold
    apply hkeep hphase
    -- what was told is all there was to tell
    have hordered := (told_change hs hchange htold).ordered
    rw [phase_stays hs hchange hphase, registry_stays hchange hphase] at hordered
    refine hordered.eq_of_length_le ?_
    rw [← hcalls, History.hookCalls_concat, List.length_append]
    exact Nat.le_add_right _ _
  | false =>
    have hwinning := hstands.resolve_right (by simp [hdone])
    cases done_change hs hchange hold hdone ht with
    | late hwaiting => rcases hwaiting with rfl | rfl <;> cases hwinning
    | interrupted hwaiting => rcases hwaiting with rfl | rfl <;> cases hwinning
    | replied hforwarding =>
      subst hforwarding
      cases hwinning
    | broken e hi he =>
      subst hi
      rw [Input.isOrdinary, he] at hordinary
      cases hordinary
    | ended hended hset =>
      have hhas : s.has Stage.hasEnded j = true := by rw [has_eq hold, hended]
      apply hkeep (hs.phase_ne_active_of_ended hhas)
      exact htold.ended hchange hordinary hold hended ht

theorem complete_history (id : String) (inputs : List (Input σ ρ))
    (hordinary : ∀ i ∈ inputs, i.isOrdinary = true) :
    Complete (({ id } : Session σ ρ).history inputs) (({ id } : Session σ ρ).after inputs) := by
  have hrun := run_induction (P := fun h s => Pursued h s ∧ Told h s ∧ Complete h s)
    (sound_fresh id) ⟨pursued_fresh id, told_fresh id, fun j _ _ hj => by simp [History.Reaches] at hj⟩
    (fun hs hordinary hchange ⟨hpursued, htold, hcomplete⟩ =>
      ⟨pursued_change hs hchange hpursued, told_change hs hchange htold,
        complete_change hs hordinary hchange hpursued htold hcomplete⟩)
    inputs hordinary
  exact hrun.2.2.2

/-! The connection is back before anybody is told -/

theorem calling_of_settled (hs : s.Sound) (hset : s.Settled) : s.calling = none := by
  rw [Option.eq_none_iff_forall_ne_some]
  intro c hc
  obtain ⟨job, hholder, hawaited⟩ := Option.bind_eq_some_iff.mp hc
  obtain ⟨⟨r, st⟩, hj, hcall⟩ := Option.bind_eq_some_iff.mp hawaited
  have hback := hset.2 job
  rw [has_eq hj] at hback
  have hcalling := (hs.fits _ _ _ hj).active_iff hcall
  cases st <;> cases hback <;> cases hcall
  · cases r <;> exact hset.1 (hcalling.mpr ⟨nofun, nofun⟩)
  · exact hset.1 (hcalling.mpr ⟨nofun, nofun⟩)
  · exact hset.1 (hcalling.mpr ⟨nofun, nofun⟩)

theorem calls_settled (hs : s.Sound) (hset : s.Settled) (hchange : Change s i t effects) :
    effects.filterMap Effect.call? = [] := by
  have hbefore := calling_of_settled hs hset
  have hafter := calling_of_settled (sound_change hchange hs) (settled_change hs hchange hset)
  have hanswered : s.answered i = none := by
    rw [Option.eq_none_iff_forall_ne_some]
    rintro ⟨c, outcome⟩ hentry
    have hcalling := calling_of_answered hs hentry
    rw [hbefore] at hcalling
    cases hcalling
  have hcalls := calls_change hs hchange
  rw [hbefore, hafter, hanswered] at hcalls
  exact hcalls

theorem settled_after (hs : s.Sound) (hset : s.Settled) (inputs : List (Input σ ρ)) :
    (s.after inputs).Settled :=
  (run_induction (P := fun _ t => t.Settled) (Q := fun _ => True) hs hset
    (fun hs _ hchange hset => settled_change hs hchange hset) inputs fun _ _ => trivial).2

theorem calls_settled_run (hs : s.Sound) (hset : s.Settled) (inputs : List (Input σ ρ))
    (m : Moment σ ρ) (hm : m ∈ s.history inputs) : m.calls = [] := by
  obtain ⟨xs, i, ys, -, rfl⟩ := mem_history hm
  exact calls_settled (sound_after hs xs) (settled_after hs hset xs) (step_change _ i)

/-- A hook is called only once the session is settled. -/
theorem settled_of_hookCall (hs : s.Sound) (hchange : Change s i t effects) {call : Hook × Observer}
    (hcall : call ∈ effects.filterMap Effect.hookCall?) :
    t.Settled ∧ effects.filterMap Effect.call? = [] := by
  cases hchange with
  | announced records hj hending hback =>
    exact ⟨settled_of_isBack hs hj hback, by simp⟩
  | notified hj =>
    have hset := settled_of_notifying hs hj
    exact ⟨settled_change hs (.notified hj) hset, calls_settled hs hset (.notified hj)⟩
  | _ => simp at hcall

theorem custody_history (id : String) (inputs : List (Input σ ρ))
    (hordinary : ∀ i ∈ inputs, i.isOrdinary = true) :
    Custody ((({ id } : Session σ ρ).after inputs).phase = .active)
      (({ id } : Session σ ρ).after inputs).calling (({ id } : Session σ ρ).history inputs).log := by
  refine (run_induction (P := fun h s => Custody (s.phase = .active) s.calling h.log)
    (sound_fresh id) ?_ ?_ inputs hordinary).2
  · exact custody_using clean_nil rfl (by simp [calling])
  · intro h s i t effects hs hordinary hchange hcustody
    rw [History.log_concat, Moment.answered]
    exact custody_change hs hchange hordinary hcustody

theorem handedBack_of_settled (id : String) (inputs : List (Input σ ρ))
    (hordinary : ∀ i ∈ inputs, i.isOrdinary = true)
    (hset : (({ id } : Session σ ρ).after inputs).Settled) :
    HandedBack (({ id } : Session σ ρ).history inputs).log := by
  have hsound := sound_after (sound_fresh id) inputs
  exact (custody_history id inputs hordinary).back hset.1 (calling_of_settled hsound hset)

/-- What has become, at the end of any run, of those who wanted to be told of the end. -/
structure Heard (h : History σ ρ) (s : Session σ ρ) : Prop where
  registered : s.registry.observers = h.accepted
  registrations : ∀ (m : Moment σ ρ) (c : Component), m ∈ h → m.input = .register c →
    Registration m c
  /-- Once the winner has ended, each registration has had its call. -/
  told : ∀ (j : Nat) (r : Request σ) (answer : Except Error (Answer ρ)), h.Reaches j →
    s.jobs[j]? = some ⟨r, .done answer⟩ →
      (s.phase = .committed ∧ h.hookCalls = h.accepted.map (.onCommit, ·)) ∨
        (s.phase = .rolledBack ∧ h.hookCalls = h.accepted.map (.onRollback, ·))
  last : ∀ (pre post : History σ ρ) (m : Moment σ ρ) (call : Hook × Observer),
    h = pre ++ m :: post → call ∈ m.hookCalls →
      (s.phase ≠ .active ∧ ∃ entry ∈ pre.log, Phase.active.next (some entry) = s.phase) ∧
        HandedBack (History.log (pre ++ [m])) ∧ m.calls = [] ∧ ∀ n ∈ post, n.calls = []
  /-- The winner ends unless it waits for a hook. -/
  ends : s.Quiet → ∀ j, h.Reaches j →
    (∃ answer, s.stage? j = some (.done answer)) ∨ s.isNotifying j = true

theorem every_observer_told (id : String) (inputs : List (Input σ ρ))
    (hordinary : ∀ i ∈ inputs, i.isOrdinary = true) :
    Heard (({ id } : Session σ ρ).history inputs) (({ id } : Session σ ρ).after inputs) := by
  have hsound (xs : List (Input σ ρ)) : (({ id } : Session σ ρ).after xs).Sound :=
    sound_after (sound_fresh id) xs
  constructor
  case registered => exact registry_history id inputs
  case registrations =>
    intro m c hm hinput
    obtain ⟨xs, i, ys, -, rfl⟩ := mem_history hm
    have hinput : i = .register c := hinput
    subst hinput
    exact registration (step_change _ _)
  case told =>
    intro j r answer hj hdone
    obtain ⟨hphase, hcalls⟩ := complete_history id inputs hordinary j r answer hj hdone
    rw [← registry_history id inputs, hcalls]
    cases hp : (({ id } : Session σ ρ).after inputs).phase with
    | active => exact absurd hp hphase
    | committed => exact .inl ⟨rfl, rfl⟩
    | rolledBack => exact .inr ⟨rfl, rfl⟩
  case last =>
    intro pre post m call hsplit hcall
    obtain ⟨xs, i, ys, hinputs, rfl, rfl⟩ := history_split hsplit
    have hchange := step_change (({ id } : Session σ ρ).after xs) i
    have hended := (hookCalls_ended (hsound xs) hchange hcall).1
    obtain ⟨hset, hcalls⟩ := settled_of_hookCall (hsound xs) hchange hcall
    have hafter : ({ id } : Session σ ρ).after (xs ++ [i]) = ((({ id } : Session σ ρ).after xs).step i).1 :=
      after_append _ xs [i]
    have hhistory : ({ id } : Session σ ρ).history (xs ++ [i]) =
        ({ id } : Session σ ρ).history xs ++ [(({ id } : Session σ ρ).after xs).moment i] :=
      history_append _ xs [i]
    refine ⟨?_, ?_, hcalls, ?_⟩
    · have hfinal := (ended_run (hsound xs) (Phase.isTerminal_iff.mpr hended) (i :: ys)).1
      rw [← after_append, ← hinputs] at hfinal
      rw [hfinal]
      exact ⟨hended, (decided_history id xs _ hended).mp rfl⟩
    · have hstart : inputs = (xs ++ [i]) ++ ys := by rw [hinputs, List.append_assoc]; rfl
      rw [← hhistory]
      apply handedBack_of_settled id (xs ++ [i])
      · intro j hj
        apply hordinary
        rw [hstart]
        exact List.mem_append_left ys hj
      · rwa [hafter]
    · have hrest := history_append ({ id } : Session σ ρ) xs (i :: ys)
      rw [← hinputs, hsplit, List.append_cancel_left_eq, history, List.cons.injEq] at hrest
      rw [hrest.2]
      exact calls_settled_run (sound_change hchange (hsound xs)) hset ys
  case ends =>
    intro hquiet j hj
    obtain ⟨r, st, hst, -⟩ := pursued_history id inputs j hj
    refine (hquiet.all_done (hsound inputs) hst).imp_left fun hdone => ?_
    cases st <;> cases hdone
    exact ⟨_, stage?_eq hst⟩

/-- Two observers want to be told, one of them twice; a third comes when the end is reached and what
is no observer is refused before. The commit fails, and so does the first hook. -/
def audience : List (Input Unit Unit) :=
  let first : Component := ⟨"A", some ⟨0, "a", "A"⟩⟩
  let second : Component := ⟨"B", some ⟨1, "b", "B"⟩⟩
  let broken : Except Error Unit := .error (.given .driver [] none)
  [.register first, .request .commit, .run 0, .register second, .register ⟨"int", none⟩,
    .settle 0 broken, .register first, .request .close, .run 1, .settle 0 (.ok ()), .register second,
    .settle 0 (.ok ()), .settle 0 broken, .settle 0 (.ok ()), .settle 0 (.ok ()), .run 1]

theorem every_observer_told_audience :
    (∀ i ∈ audience, i.isOrdinary = true) ∧
      Heard (({ id := "s" } : Session Unit Unit).history audience)
        (({ id := "s" } : Session Unit Unit).after audience) ∧
      (({ id := "s" } : Session Unit Unit).history audience).accepted =
        [⟨0, "a", "A"⟩, ⟨1, "b", "B"⟩, ⟨0, "a", "A"⟩] ∧
      (({ id := "s" } : Session Unit Unit).history audience).hookCalls =
        [(.onRollback, ⟨0, "a", "A"⟩), (.onRollback, ⟨1, "b", "B"⟩), (.onRollback, ⟨0, "a", "A"⟩)] := by
  have hordinary : ∀ i ∈ audience, i.isOrdinary = true := by decide
  exact ⟨hordinary, every_observer_told "s" audience hordinary, rfl, rfl⟩

end Session
end Transact
