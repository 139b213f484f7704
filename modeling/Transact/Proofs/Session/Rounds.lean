import Transact.Proofs.Session.History

/-! The round of hooks of a session: it is begun once, when the end is settled, and it goes through
the observers in the order of their registration. -/
namespace Transact

variable {σ ρ : Type} {s t : Session σ ρ} {i : Input σ ρ} {effects : List (Effect σ ρ)}
  {job : Nat} {r : Request σ} {st old : Stage ρ}

namespace Session

/-- The hook of the round that an input begins, if it is the last answer about handing back the
connection. -/
def round? (s : Session σ ρ) : Input σ ρ → Option Hook
  | .settle job outcome =>
    (s.stage? job).bind fun st => if isBack st outcome then st.ending?.map Ending.hook else none
  | _ => none

/-- The end is reached and nobody is handing back the connection any more. -/
def Settled (s : Session σ ρ) : Prop := s.phase ≠ .active ∧ ∀ j, s.has Stage.isHandingBack j = false

theorem registry_stays (h : Change s i t effects) (hphase : s.phase ≠ .active) :
    t.registry = s.registry := by
  cases h with
  | registered hactive => exact absurd hactive hphase
  | _ => rfl

/-- What a stage is it has been before, or it has come to be while the session was active. -/
theorem has_change {kind : Stage ρ → Bool} (hready : kind .ready = false)
    (hkind : ∀ {r : Request σ} {old st : Stage ρ}, Stage.Goes r old st → kind st = true →
      old.Fits r s.phase → kind old = true ∨ s.phase = .active)
    (hs : s.Sound) (h : Change s i t effects) (ht : t.has kind job = true) :
    s.has kind job = true ∨ s.phase = .active := by
  obtain ⟨r, st, hj, hst⟩ := has_eq_true_iff.mp ht
  cases change_moves h with
  | rest hjobs _ =>
    rw [hjobs] at hj
    exact .inl (by rw [has_eq hj, hst])
  | opened r' _ hjobs _ =>
    have hopened : ({ s with jobs := s.jobs ++ [{ request := r' }] } : Session σ ρ).has kind job =
        s.has kind job := has_opened hready r' job
    simp only [has, stage?, hjobs] at ht hopened ⊢
    exact .inl (hopened ▸ ht)
  | moved k r' old st' _ hk hgoes hjobs _ =>
    rw [hjobs] at hj
    split at hj
    · subst job
      cases hj
      rcases hkind hgoes hst (hs.fits _ _ _ hk) with hold | hactive
      · exact .inl (by rw [has_eq hk, hold])
      · exact .inr hactive
    · exact .inl (by rw [has_eq hj, hst])

theorem isHandingBack_change (hs : s.Sound) (h : Change s i t effects)
    (ht : t.has Stage.isHandingBack job = true) :
    s.has Stage.isHandingBack job = true ∨ s.phase = .active :=
  has_change rfl (fun hgoes => hgoes.handingBack) hs h ht

theorem settled_change (hs : s.Sound) (h : Change s i t effects) (hset : s.Settled) : t.Settled := by
  refine ⟨?_, fun j => ?_⟩
  · rw [phase_stays hs h hset.1]
    exact hset.1
  · by_contra hj
    rcases isHandingBack_change hs h (by simpa using hj) with hback | hactive
    · simp [hset.2 j] at hback
    · exact hset.1 hactive

theorem settled_of_notifying (hs : s.Sound) {ending : Ending} {round : Round}
    (hj : s.jobs[job]? = some ⟨r, .notifying ending round⟩) : s.Settled := by
  have hended : s.has Stage.hasEnded job = true := by rw [has_eq hj]; rfl
  refine ⟨hs.phase_ne_active_of_ended hended, fun k => ?_⟩
  by_contra hk
  obtain ⟨r', st, hk, hst⟩ := has_eq_true_iff.mp (by simpa using hk)
  have hkended : s.has Stage.hasEnded k = true := by
    rw [has_eq hk]
    cases st <;> simp_all [Stage.isHandingBack, Stage.hasEnded, Stage.ending?]
  rw [hs.ender k job hkended hended, hj] at hk
  cases hk
  cases hst

theorem not_settled_of_isBack {outcome : Except Error Unit} (hj : s.jobs[job]? = some ⟨r, st⟩)
    (hback : isBack st outcome = true) : ¬ s.Settled := by
  intro hset
  have := hset.2 job
  rw [has_eq hj, isHandingBack_of_isBack hback] at this
  cases this

end Session

def Moment.round? (m : Moment σ ρ) : Option Hook := m.before.round? m.input

def History.rounds (h : History σ ρ) : List Hook := h.filterMap Moment.round?

theorem History.rounds_concat {h : History σ ρ} {m : Moment σ ρ} :
    (h ++ [m] : History σ ρ).rounds = h.rounds ++ m.round?.toList := by
  cases hm : m.round? <;> simp [rounds, hm]

namespace Session

/-- What a run has told the observers. -/
structure Told (h : History σ ρ) (s : Session σ ρ) : Prop where
  early : ¬ s.Settled → h.rounds = [] ∧ h.hookCalls = []
  once : h.rounds.length ≤ 1
  ordered : h.hookCalls <+: s.registry.observers.map (s.phase.hook, ·)
  current : ∀ (j : Nat) (r : Request σ) (ending : Ending) (round : Round),
    s.jobs[j]? = some ⟨r, .notifying ending round⟩ →
      h.hookCalls ++ round.waiting.map (s.phase.hook, ·) = s.registry.observers.map (s.phase.hook, ·)

theorem told_fresh (id : String) : Told [] ({ id } : Session σ ρ) where
  early _ := ⟨rfl, rfl⟩
  once := by simp [History.rounds]
  ordered := by simp
  current j r ending round hj := by simp at hj

variable {h : History σ ρ}

theorem Told.quiet (htold : Told h s) (hs : s.Sound) (hchange : Change s i t effects)
    (hround : s.round? i = none) (hcalls : effects.filterMap Effect.hookCall? = [])
    (hjobs : ∀ (j : Nat) (r : Request σ) (ending : Ending) (round : Round),
      t.jobs[j]? = some ⟨r, .notifying ending round⟩ →
        s.jobs[j]? = some ⟨r, .notifying ending round⟩) :
    Told (h ++ [⟨s, i, effects, t⟩]) t := by
  have hrounds : History.rounds (h ++ [⟨s, i, effects, t⟩]) = h.rounds := by
    simp [History.rounds_concat, Moment.round?, hround]
  have hhooks : History.hookCalls (h ++ [⟨s, i, effects, t⟩]) = h.hookCalls := by
    simp [History.hookCalls_concat, Moment.hookCalls, hcalls]
  refine ⟨fun ht => ?_, ?_, ?_, fun j r ending round hj => ?_⟩
  · rw [hrounds, hhooks]
    exact htold.early fun hset => ht (settled_change hs hchange hset)
  · rw [hrounds]
    exact htold.once
  · rw [hhooks]
    by_cases hset : s.Settled
    · rw [phase_stays hs hchange hset.1, registry_stays hchange hset.1]
      exact htold.ordered
    · rw [(htold.early hset).2]
      exact List.nil_prefix
  · have hset := settled_of_notifying hs (hjobs j r ending round hj)
    rw [hhooks, phase_stays hs hchange hset.1, registry_stays hchange hset.1]
    exact htold.current j r ending round (hjobs j r ending round hj)

/-- The hook that comes next, if one does. -/
def nextCall : Round.Next → List (Hook × Observer)
  | .call round => [(round.hook, round.current)]
  | _ => []

theorem filterMap_hookCall?_roundEffects {ending : Ending} {next : Round.Next} :
    (s.roundEffects r ending next).filterMap Effect.hookCall? = nextCall next := by
  cases next <;> simp [roundEffects, nextCall]

/-- How a round goes on with the observers that are still to be told. -/
def Continues (hook : Hook) (pending : List Observer) (next : Round.Next) : Prop :=
  (∃ failures, next = Round.next hook failures pending) ∨ ∃ e, next = .aborted e

theorem Continues.first {hook : Hook} {pending : List Observer} {next : Round.Next}
    (hnext : Continues hook pending next) : nextCall next <+: pending.map (hook, ·) := by
  rcases hnext with ⟨failures, rfl⟩ | ⟨e, rfl⟩
  · cases pending with
    | nil => exact List.nil_prefix
    | cons o rest => exact ⟨rest.map (hook, ·), rfl⟩
  · exact List.nil_prefix

theorem Continues.waiting {hook : Hook} {pending : List Observer} {round : Round}
    (hnext : Continues hook pending (.call round)) :
    nextCall (.call round) ++ round.waiting.map (hook, ·) = pending.map (hook, ·) := by
  rcases hnext with ⟨failures, hround⟩ | ⟨e, hround⟩
  · cases pending with
    | nil => cases hround
    | cons o rest =>
      cases hround
      rfl
  · cases hround

/-- A round goes on: `pending` are the observers that are still to be told. -/
theorem told_proceed (hs : s.Sound) (hchange : Change s i t effects)
    {ending : Ending} {next : Round.Next} {pending : List Observer}
    (hj : s.jobs[job]? = some ⟨r, old⟩) (hended : old.ending? = some ending)
    (hjobs : ∀ k, t.jobs[k]? = if k = job then some ⟨r, s.roundStage r ending next⟩ else s.jobs[k]?)
    (hcalls : effects.filterMap Effect.hookCall? = nextCall next)
    (hnext : Continues ending.hook pending next)
    (hpending : h.hookCalls ++ pending.map (s.phase.hook, ·) =
      s.registry.observers.map (s.phase.hook, ·))
    (hset : t.Settled) (honce : (h.rounds ++ (s.round? i).toList).length ≤ 1) :
    Told (h ++ [⟨s, i, effects, t⟩]) t := by
  have hhas : s.has Stage.hasEnded job = true := by
    rw [has_eq hj]
    exact Stage.hasEnded_of_ending? hended
  have hphase : t.phase = s.phase := phase_stays hs hchange (hs.phase_ne_active_of_ended hhas)
  have hregistry : t.registry = s.registry :=
    registry_stays hchange (hs.phase_ne_active_of_ended hhas)
  have hhook : ending.hook = s.phase.hook := by
    rw [(hs.fits _ _ _ hj).phase_eq hended, Ending.phase_hook]
  rw [hhook] at hnext
  have hhooks : History.hookCalls (h ++ [⟨s, i, effects, t⟩]) = h.hookCalls ++ nextCall next := by
    rw [History.hookCalls_concat, Moment.hookCalls, hcalls]
  constructor
  case early => exact fun ht => absurd hset ht
  case once =>
    rw [History.rounds_concat]
    exact honce
  case ordered =>
    rw [hhooks, hphase, hregistry, ← hpending]
    exact (List.prefix_append_right_inj _).mpr hnext.first
  case current =>
    intro k r' ending' round hk
    have hround : s.roundStage r ending next = .notifying ending' round := by
      rw [hjobs] at hk
      split at hk
      · exact congrArg Job.stage (Option.some.inj hk)
      · -- nobody else is in a round
        rename_i hne
        exact absurd (hs.ender k job (by rw [has_eq hk]; rfl) hhas) hne
    cases next with
    | call next =>
      cases hround
      rw [hhooks, hphase, hregistry, ← hpending, List.append_assoc, hnext.waiting]
    | _ => cases hround

theorem notifying_setStage {l : Lock} {p : Phase} (hj : s.jobs[job]? = some ⟨r, old⟩)
    (hst : ∀ ending round, st ≠ .notifying ending round) (k : Nat) (r' : Request σ) (ending : Ending)
    (round : Round)
    (hk : ({ s with phase := p, lock := l }.setStage job st).jobs[k]? =
      some ⟨r', .notifying ending round⟩) :
    s.jobs[k]? = some ⟨r', .notifying ending round⟩ := by
  rw [jobs_setStage (s := { s with phase := p, lock := l }) old hj] at hk
  split at hk
  · exact absurd (congrArg Job.stage (Option.some.inj hk)) (hst ending round)
  · exact hk

theorem round?_settle (hj : s.jobs[job]? = some ⟨r, st⟩) (outcome : Except Error Unit) :
    s.round? (.settle job outcome) = if isBack st outcome then st.ending?.map Ending.hook else none := by
  simp [round?, stage?_eq hj]

theorem round?_eq_none_of_not_fits (h : s.fits i = false) : s.round? i = none := by
  cases i with
  | settle job outcome =>
    simp only [fits] at h
    cases hst : s.stage? job with
    | none => simp [round?, hst]
    | some st => cases st <;> simp_all [round?, isBack]
  | _ => rfl

theorem settle_next (round : Round) (outcome : Except Error Unit) :
    Continues round.hook round.waiting (round.settle outcome).2 := by
  cases outcome with
  | ok => exact .inl ⟨round.failures, rfl⟩
  | error e =>
    cases he : e.isOrdinary with
    | true => exact .inl ⟨round.failures ++ [round.failure e], by simp [Round.settle, he]⟩
    | false => exact .inr ⟨e, by simp [Round.settle, he]⟩

theorem start_ne_aborted (hook : Hook) (registry : Registry) (e : Error) :
    Round.start hook registry ≠ .aborted e := by
  rw [Round.start]
  cases registry.observers <;> simp [Round.next]

theorem settle_ne_aborted {round : Round} {outcome : Except Error Unit}
    (hordinary : (Input.settle job outcome : Input σ ρ).isOrdinary = true) (e : Error) :
    (round.settle outcome).2 ≠ .aborted e := by
  cases outcome with
  | ok =>
    intro h
    cases hw : round.waiting <;> simp [Round.settle, Round.next, hw] at h
  | error e' =>
    have he : e'.isOrdinary = true := hordinary
    intro h
    cases hw : round.waiting <;> simp [Round.settle, he, Round.next, hw] at h

/-- With the last answer about the connection the session is settled. -/
theorem settled_of_isBack {ending : Ending} {next : Round.Next} {l : Lock}
    {outcome : Except Error Unit} (hs : s.Sound) (hj : s.jobs[job]? = some ⟨r, st⟩)
    (hback : isBack st outcome = true) :
    ({ s with lock := l }.setStage job (s.roundStage r ending next)).Settled := by
  have hhand := isHandingBack_of_isBack hback
  have hended : s.has Stage.hasEnded job = true := by
    rw [has_eq hj]
    cases st <;> simp_all [Stage.isHandingBack, Stage.hasEnded, Stage.ending?]
  refine ⟨hs.phase_ne_active_of_ended hended, fun k => ?_⟩
  rw [has_setStage (s := { s with lock := l }) hj]
  split
  · cases next <;> rfl
  · rename_i hne
    by_contra hk
    obtain ⟨r', st', hk, hst⟩ := has_eq_true_iff.mp (by simpa using hk)
    have hk : s.jobs[k]? = some ⟨r', st'⟩ := hk
    have hkended : s.has Stage.hasEnded k = true := by
      rw [has_eq hk]
      cases st' <;> simp_all [Stage.isHandingBack, Stage.hasEnded, Stage.ending?]
    exact hne (hs.ender k job hkended hended)

theorem told_change (hs : s.Sound) (hchange : Change s i t effects) (htold : Told h s) :
    Told (h ++ [⟨s, i, effects, t⟩]) t := by
  have hquiet := htold.quiet hs hchange
  cases hchange with
  | idle hfits =>
    refine hquiet ?_ rfl fun _ _ _ _ hk => hk
    exact round?_eq_none_of_not_fits hfits
  | refused | registered | abandoned => exact hquiet rfl rfl fun _ _ _ _ hk => hk
  | opened records =>
    refine hquiet rfl (by simp) fun k r ending round hk => ?_
    rw [List.getElem?_append] at hk
    split at hk
    · exact hk
    · obtain ⟨_, hjob⟩ := List.getElem?_eq_some_iff.mp hk
      rw [List.getElem_singleton] at hjob
      cases hjob
  | queued hj | cancelled hj => exact hquiet rfl rfl (notifying_setStage hj (by simp))
  | late hj | left hj | replied hj =>
    exact hquiet rfl (by simp) (notifying_setStage hj (by simp))
  | @granted job r _ _ hj =>
    refine hquiet rfl rfl (notifying_setStage hj ?_)
    cases r <;> simp [Request.firstStage]
  | @broken job r st e hj hphysical he =>
    refine hquiet ?_ (by simp) (notifying_setStage hj (by simp))
    have hback : isBack st (.error e) = false := by cases st <;> simp_all [isBack]
    rw [round?_settle hj, hback]
    rfl
  | committed hj | commitFailed hj | rolledBack hj | rollbackFailed hj | releaseFailed hj =>
    refine hquiet ?_ rfl (notifying_setStage hj (by simp))
    rw [round?_settle hj]
    rfl
  | @announced job r st ending outcome records hj hending hback =>
    obtain ⟨hrounds, hcalls⟩ := htold.early (not_settled_of_isBack hj hback)
    refine told_proceed hs (.announced records hj hending hback) hj hending (jobs_setStage _ hj) ?_
      (.inl ⟨[], rfl⟩) (by rw [hcalls]; rfl) (settled_of_isBack hs hj hback) ?_
    · simp [filterMap_hookCall?_roundEffects]
    · rw [hrounds, round?_settle hj, hback, hending]
      simp
  | @notified job r ending round outcome hj =>
    have hset := settled_of_notifying hs hj
    obtain ⟨-, -, hhook⟩ := hs.fits _ _ _ hj
    refine told_proceed hs (.notified hj) hj rfl (jobs_setStage _ hj) ?_ ?_
      (htold.current job r ending round hj) (settled_change hs (.notified hj) hset) ?_
    · simp [filterMap_hookCall?_roundEffects]
    · rw [← hhook]
      exact settle_next round outcome
    · rw [round?_settle hj]
      simpa [isBack] using htold.once

theorem told_history (id : String) (inputs : List (Input σ ρ)) :
    Told (({ id } : Session σ ρ).history inputs) (({ id } : Session σ ρ).after inputs) :=
  (run_induction (P := Told) (Q := fun _ => True) (sound_fresh id) (told_fresh id)
    (fun hs _ hchange htold => told_change hs hchange htold) inputs fun _ _ => trivial).2

end Session
end Transact
