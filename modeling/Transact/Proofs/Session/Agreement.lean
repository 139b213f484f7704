import Transact.Proofs.Session.Rounds

/-! The phase of a session, the calls that have ended on its connection and the hooks that were
called agree at every time of every run, whatever the connection and the hooks answer. -/
namespace Transact.Session

variable {σ ρ : Type} {s t : Session σ ρ} {i : Input σ ρ} {effects : List (Effect σ ρ)}
  {h : History σ ρ}

/-- The phase is the one that some call has brought about, or none has. -/
def Decided (h : History σ ρ) (s : Session σ ρ) : Prop :=
  ∀ p, p ≠ .active → (s.phase = p ↔ ∃ entry ∈ h.log, Phase.active.next (some entry) = p)

theorem decided_fresh (id : String) : Decided [] ({ id } : Session σ ρ) := by
  intro p hp
  simp [eq_comm, hp]

theorem decided_change (hs : s.Sound) (hchange : Change s i t effects) (hdecided : Decided h s) :
    Decided (h ++ [⟨s, i, effects, t⟩]) t := by
  intro p hp
  have hphase := phase_change hs hchange
  rw [History.log_concat, Moment.answered]
  cases hanswered : s.answered i with
  | none =>
    rw [hanswered] at hphase
    simpa [hphase, Phase.next] using hdecided p hp
  | some entry =>
    rw [hanswered] at hphase
    have hentry := answered_phase hs hanswered
    by_cases hactive : s.phase = .active
    · -- nothing was decided before
      have hnone : ¬ ∃ entry ∈ h.log, Phase.active.next (some entry) = p := by
        rw [← hdecided p hp, hactive]
        exact Ne.symm hp
      rw [hphase, hactive]
      simp only [Option.toList_some, List.mem_append, List.mem_singleton, or_and_right, exists_or,
        exists_eq_left]
      rw [or_iff_right hnone]
    · -- the call hands the connection back and decides nothing
      have hcall := hentry.not.mp hactive
      obtain ⟨c, outcome⟩ := entry
      have hnext (q : Phase) : q.next (some (c, outcome)) = q := by
        cases c <;> simp_all [Phase.next]
      have hsame : Phase.active.next (some (c, outcome)) ≠ p := by
        rw [hnext]
        exact Ne.symm hp
      rw [hphase, hnext]
      simp only [Option.toList_some, List.mem_append, List.mem_singleton, or_and_right, exists_or,
        exists_eq_left]
      rw [or_iff_left hsame]
      exact hdecided p hp

theorem decided_history (id : String) (inputs : List (Input σ ρ)) :
    Decided (({ id } : Session σ ρ).history inputs) (({ id } : Session σ ρ).after inputs) :=
  (run_induction (P := Decided) (Q := fun _ => True) (sound_fresh id) (decided_fresh id)
    (fun hs _ hchange hdecided => decided_change hs hchange hdecided) inputs fun _ _ => trivial).2

/-- A rollback that returned, or failed by an ordinary error. -/
def IsRollback (entry : Call σ × Except Error Unit) : Prop :=
  entry.1 = .rollback ∧ ∀ e, entry.2 = .error e → e.isOrdinary = true

theorem next_eq_committed {entry : Call σ × Except Error Unit} :
    Phase.active.next (some entry) = .committed ↔ entry = (.commit, .ok ()) := by
  obtain ⟨c, outcome⟩ := entry
  cases c <;> rcases outcome with e | ⟨⟩ <;> simp [Phase.next]
  split <;> simp

theorem next_eq_rolledBack {entry : Call σ × Except Error Unit} :
    Phase.active.next (some entry) = .rolledBack ↔ IsRollback entry := by
  obtain ⟨c, outcome⟩ := entry
  cases c <;> rcases outcome with e | ⟨⟩ <;> simp [Phase.next, IsRollback]

/-- Hooks are called for the end that was reached, of which they tell. -/
theorem hookCalls_ended (hs : s.Sound) (hchange : Change s i t effects) {call : Hook × Observer}
    (hcall : call ∈ effects.filterMap Effect.hookCall?) :
    s.phase ≠ .active ∧ call.1 = s.phase.hook := by
  have htell {job : Nat} {r : Request σ} {st : Stage ρ} {ending : Ending} {next : Round.Next}
      (hj : s.jobs[job]? = some ⟨r, st⟩) (hending : st.ending? = some ending)
      (hmem : call ∈ nextCall next) (hnext : ∀ round, next = .call round → round.hook = ending.hook) :
      s.phase ≠ .active ∧ call.1 = s.phase.hook := by
    rw [(hs.fits _ _ _ hj).phase_eq hending, Ending.phase_hook]
    refine ⟨ending.phase_ne_active, ?_⟩
    cases next with
    | call round =>
      rw [List.mem_singleton.mp hmem]
      exact hnext round rfl
    | _ => cases hmem
  cases hchange with
  | @announced job r st ending outcome records hj hending hback =>
    have hmem : call ∈ nextCall (Round.start ending.hook s.registry) := by
      simpa [filterMap_hookCall?_roundEffects] using hcall
    exact htell hj hending hmem fun round => round_hook_of_next
  | @notified job r ending round outcome hj =>
    obtain ⟨-, -, hhook⟩ := hs.fits _ _ _ hj
    have hmem : call ∈ nextCall (round.settle outcome).2 := by
      simpa [filterMap_hookCall?_roundEffects] using hcall
    exact htell hj rfl hmem fun next hnext => (round_hook_of_settle hnext).trans hhook
  | _ => simp at hcall

theorem eq_of_hook {p : Phase} {hook : Hook} (hp : p ≠ .active) (hhook : hook = p.hook) :
    (hook = .onCommit → p = .committed) ∧ (hook = .onRollback → p = .rolledBack) := by
  subst hhook
  cases p <;> simp_all [Phase.hook]

/-- What is true of a session at the end of any run. -/
structure Agreement (h : History σ ρ) (s : Session σ ρ) : Prop where
  committed : s.phase = .committed ↔ (.commit, .ok ()) ∈ h.log
  rolledBack : s.phase = .rolledBack ↔ ∃ entry ∈ h.log, IsRollback entry
  one_end : (.commit, .ok ()) ∈ h.log → ∀ entry ∈ h.log, ¬ IsRollback entry
  final : s.phase.isTerminal = true → ∀ more : List (Input σ ρ),
    (s.after more).phase = s.phase ∧ ∀ c ∈ (s.history more).calls, c = .release ∨ c = .discard
  on_commit : ∀ (pre post : History σ ρ) (m : Moment σ ρ) (o : Observer), h = pre ++ m :: post →
    (.onCommit, o) ∈ m.hookCalls → (.commit, .ok ()) ∈ pre.log
  on_rollback : ∀ (m : Moment σ ρ) (o : Observer), m ∈ h → (.onRollback, o) ∈ m.hookCalls →
    m.before.phase = .rolledBack ∧ m.after.phase = .rolledBack
  one_hook : ∀ call ∈ h.hookCalls, call.1 = s.phase.hook
  quiet : ∀ j : Nat, s.isNotifying j = true → s.phase ≠ .active
  once : h.rounds.length ≤ 1 ∧ h.hookCalls <+: s.registry.observers.map (s.phase.hook, ·)

theorem agreement (id : String) (inputs : List (Input σ ρ)) :
    Agreement (({ id } : Session σ ρ).history inputs) (({ id } : Session σ ρ).after inputs) := by
  have hsound (xs : List (Input σ ρ)) : (({ id } : Session σ ρ).after xs).Sound :=
    sound_after (sound_fresh id) xs
  have hcommitted (xs : List (Input σ ρ)) : (({ id } : Session σ ρ).after xs).phase = .committed ↔
      (.commit, .ok ()) ∈ (({ id } : Session σ ρ).history xs).log := by
    simpa [next_eq_committed] using decided_history id xs .committed (by simp)
  have hrolledBack (xs : List (Input σ ρ)) : (({ id } : Session σ ρ).after xs).phase = .rolledBack ↔
      ∃ entry ∈ (({ id } : Session σ ρ).history xs).log, IsRollback entry := by
    simpa [next_eq_rolledBack] using decided_history id xs .rolledBack (by simp)
  have htold := told_history id inputs
  constructor
  case committed => exact hcommitted inputs
  case rolledBack => exact hrolledBack inputs
  case one_end =>
    intro hcommit entry hentry hrollback
    have hphase := (hcommitted inputs).mpr hcommit
    rw [(hrolledBack inputs).mpr ⟨entry, hentry, hrollback⟩] at hphase
    cases hphase
  case final => exact ended_run (hsound inputs)
  case on_commit =>
    intro pre post m o hsplit hcall
    obtain ⟨xs, i, ys, -, rfl, rfl⟩ := history_split hsplit
    have hended := hookCalls_ended (hsound xs) (step_change _ i) hcall
    rw [← hcommitted xs]
    exact (eq_of_hook hended.1 hended.2).1 rfl
  case on_rollback =>
    intro m o hm hcall
    obtain ⟨xs, i, ys, -, rfl⟩ := mem_history hm
    have hended := hookCalls_ended (hsound xs) (step_change _ i) hcall
    have hbefore := (eq_of_hook hended.1 hended.2).2 rfl
    exact ⟨hbefore, (phase_stays (hsound xs) (step_change _ i) hended.1).trans hbefore⟩
  case one_hook =>
    intro call hcall
    obtain ⟨o, -, rfl⟩ := List.mem_map.mp (htold.ordered.subset hcall)
    rfl
  case quiet =>
    intro j hj
    simp only [isNotifying] at hj
    split at hj
    · rename_i ending round hst
      obtain ⟨r, hj⟩ := stage?_eq_some_iff.mp hst
      exact (settled_of_notifying (hsound inputs) hj).1
    · cases hj
  case once => exact ⟨htold.once, htold.ordered⟩

end Transact.Session
