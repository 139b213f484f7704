import Mathlib.Data.List.TakeDrop
import Transact.Proofs.Session.Observers
import Transact.Proofs.Session.Verdict

/-! How far a round of hooks gets. An ordinary failure is noted and the next observer is told; any other
failure ends the round, and those who come later are never told. -/
namespace Transact

variable {σ ρ : Type}

/-- A round goes on after this outcome of a hook. -/
def goesOn : Except Error Unit → Bool
  | .ok () => true
  | .error e => e.isOrdinary

namespace Round

/-- The observers that a round calls when its calls have these outcomes, and where it stands then. -/
def Next.play : Next → List (Except Error Unit) → List Observer × Next
  | .call round, outcome :: rest =>
    let played := (round.settle outcome).2.play rest
    (round.current :: played.1, played.2)
  | .call round, [] => ([round.current], .call round)
  | next, _ => ([], next)

/-- What a round comes to, whatever its calls come to: the outcomes are in the order of registration. -/
structure Plays (hook : Hook) (registry : Registry) (outcomes : List (Except Error Unit)) : Prop where
  /-- Everybody is called once and in order, up to the first failure that is no ordinary error. -/
  called : ((start hook registry).play outcomes).1 =
    registry.observers.take ((outcomes.takeWhile goesOn).length + 1)
  everybody : ((start hook registry).play outcomes).1 = registry.observers ↔
    ∀ outcome ∈ outcomes.dropLast, goesOn outcome = true
  ended : (∀ outcome ∈ outcomes, goesOn outcome = true) → ((start hook registry).play outcomes).2 =
    .ended (noted (failuresOf hook (registry.observers.zip outcomes)))
  aborted : ∀ e, outcomes.find? (!goesOn ·) = some (.error e) →
    ((start hook registry).play outcomes).2 = .aborted e

variable {hook : Hook} {failures : Notification} {observers : List Observer}
  {outcomes : List (Except Error Unit)}

theorem settle_of_goesOn {round : Round} {outcome : Except Error Unit} (hgoes : goesOn outcome = true) :
    (round.settle outcome).2 =
      next round.hook (round.failures ++ failuresOf round.hook [(round.current, outcome)]) round.waiting := by
  cases outcome with
  | ok => simp [settle, failuresOf]
  | error e =>
    have he : e.isOrdinary = true := hgoes
    simp [settle, he, failuresOf, failure]

theorem settle_of_not_goesOn {round : Round} {e : Error} (hgoes : goesOn (.error e) = false) :
    (round.settle (.error e)).2 = .aborted e := by
  have he : e.isOrdinary = false := hgoes
  simp [settle, he]

theorem play_goesOn {o : Observer} {outcome : Except Error Unit} (hgoes : goesOn outcome = true) :
    (next hook failures (o :: observers)).play (outcome :: outcomes) =
      let played := (next hook (failures ++ failuresOf hook [(o, outcome)]) observers).play outcomes
      (o :: played.1, played.2) := by
  rw [next, Next.play, settle_of_goesOn hgoes]

theorem play_stops {o : Observer} {e : Error} (hgoes : goesOn (.error e) = false) :
    (next hook failures (o :: observers)).play (.error e :: outcomes) = ([o], .aborted e) := by
  rw [next, Next.play, settle_of_not_goesOn hgoes]
  cases outcomes <;> rfl

theorem play_called (hlength : outcomes.length = observers.length) :
    ((next hook failures observers).play outcomes).1 =
      observers.take ((outcomes.takeWhile goesOn).length + 1) := by
  induction observers generalizing failures outcomes with
  | nil =>
    obtain rfl := List.length_eq_zero_iff.mp hlength
    rfl
  | cons o rest ih =>
    obtain ⟨outcome, outcomes, rfl⟩ := List.exists_cons_of_length_eq_add_one hlength
    have hlength : outcomes.length = rest.length := by simpa using hlength
    cases hgoes : goesOn outcome with
    | true => simp [play_goesOn hgoes, ih hlength, hgoes]
    | false =>
      cases outcome with
      | ok => cases hgoes
      | error e => simp [play_stops hgoes, hgoes]

theorem play_ended (hlength : outcomes.length = observers.length)
    (hgoes : ∀ outcome ∈ outcomes, goesOn outcome = true) :
    ((next hook failures observers).play outcomes).2 =
      .ended (noted (failures ++ failuresOf hook (observers.zip outcomes))) := by
  induction observers generalizing failures outcomes with
  | nil =>
    obtain rfl := List.length_eq_zero_iff.mp hlength
    simp [next, Next.play, noted, failuresOf]
  | cons o rest ih =>
    obtain ⟨outcome, outcomes, rfl⟩ := List.exists_cons_of_length_eq_add_one hlength
    have hlength : outcomes.length = rest.length := by simpa using hlength
    have hfirst := hgoes outcome List.mem_cons_self
    have hrest := fun outcome h => hgoes outcome (List.mem_cons_of_mem _ h)
    have hzip : failuresOf hook ((o :: rest).zip (outcome :: outcomes)) =
        failuresOf hook [(o, outcome)] ++ failuresOf hook (rest.zip outcomes) := by
      rw [failuresOf, failuresOf, failuresOf, ← List.filterMap_append]
      rfl
    rw [play_goesOn hfirst, hzip, ← List.append_assoc]
    exact ih hlength hrest

theorem play_aborts (hlength : outcomes.length = observers.length) {e : Error}
    (he : outcomes.find? (!goesOn ·) = some (.error e)) :
    ((next hook failures observers).play outcomes).2 = .aborted e := by
  induction observers generalizing failures outcomes with
  | nil =>
    obtain rfl := List.length_eq_zero_iff.mp hlength
    cases he
  | cons o rest ih =>
    obtain ⟨outcome, outcomes, rfl⟩ := List.exists_cons_of_length_eq_add_one hlength
    have hlength : outcomes.length = rest.length := by simpa using hlength
    cases hgoes : goesOn outcome with
    | true =>
      simp only [List.find?_cons, hgoes, Bool.not_true] at he
      rw [play_goesOn hgoes]
      exact ih hlength he
    | false =>
      simp only [List.find?_cons, hgoes, Bool.not_false, Option.some.injEq] at he
      subst he
      rw [play_stops hgoes]

theorem length_le_takeWhile {α : Type} {p : α → Bool} (xs : List α) :
    xs.length ≤ (xs.takeWhile p).length + 1 ↔ ∀ x ∈ xs.dropLast, p x = true := by
  induction xs with
  | nil => simp
  | cons x rest ih =>
    cases rest with
    | nil => simp
    | cons y rest =>
      cases hx : p x with
      | true =>
        rw [List.takeWhile_cons, if_pos hx, List.dropLast_cons_cons, List.forall_mem_cons, ← ih]
        simp only [List.length_cons, hx, true_and]
        omega
      | false => simp [hx]

theorem plays (hook : Hook) (registry : Registry) (hlength : outcomes.length = registry.size) :
    Plays hook registry outcomes where
  called := play_called hlength
  everybody := by
    rw [start, play_called hlength, ← length_le_takeWhile, hlength]
    exact List.take_eq_self_iff _
  ended hgoes := play_ended hlength hgoes
  aborted _ he := play_aborts hlength he

end Round

/-- How the end that a job has brought about is told of: `h` is the run up to the moment `m` with which
the job is done. -/
inductive Telling (h : History σ ρ) (m : Moment σ ρ) (job : Nat) : Prop
  | everybody : h.hookCalls = m.after.registry.observers.map (m.after.phase.hook, ·) → Telling h m job
  /-- Handing the connection back ended by a failure that is no ordinary error: nobody was told. -/
  | nobody (e : Error) : m.input = .settle job (.error e) → e.isOrdinary = false →
      m.before.has Stage.isHandingBack job = true → h.hookCalls = [] → Telling h m job
  /-- A hook ended by such a failure: those who were still waiting were not told. -/
  | partly (e : Error) (ending : Ending) (round : Round) : m.input = .settle job (.error e) →
      e.isOrdinary = false → m.before.stage? job = some (.notifying ending round) →
      h.hookCalls ++ round.waiting.map (m.after.phase.hook, ·) =
        m.after.registry.observers.map (m.after.phase.hook, ·) → Telling h m job

theorem Stage.isHandingBack_of_isPhysical {st : Stage ρ} (hphysical : st.isPhysical = true)
    (hended : st.hasEnded = true) : st.isHandingBack = true := by
  cases st <;> simp_all [isPhysical, hasEnded, ending?, isHandingBack]

namespace Session

variable {s t : Session σ ρ} {i : Input σ ρ} {effects : List (Effect σ ρ)} {job k : Nat} {r : Request σ}
  {old : Stage ρ} {h : History σ ρ}

/-! When the one who brought the end about is done, nobody else is told -/

/-- The end is reached and nobody is on the way to tell of it. -/
def Silent (s : Session σ ρ) : Prop := s.phase ≠ .active ∧ ∀ j, s.has Stage.hasEnded j = false

theorem silent_change (hs : s.Sound) (hchange : Change s i t effects) (hsilent : s.Silent) :
    t.Silent ∧ effects.filterMap Effect.hookCall? = [] := by
  refine ⟨⟨?_, fun j => ?_⟩, ?_⟩
  · rw [phase_stays hs hchange hsilent.1]
    exact hsilent.1
  · by_contra hj
    rcases has_change rfl (fun hgoes => hgoes.ended) hs hchange (by simpa using hj) with hended | hactive
    · simp [hsilent.2 j] at hended
    · exact hsilent.1 hactive
  · -- only one who has brought the end about calls a hook
    have hnobody {job : Nat} {r : Request σ} {st : Stage ρ} (hj : s.jobs[job]? = some ⟨r, st⟩)
        (hended : st.hasEnded = true) : False := by
      have hnone := hsilent.2 job
      rw [has_eq hj, hended] at hnone
      cases hnone
    cases hchange with
    | announced records hj hending => exact (hnobody hj (Stage.hasEnded_of_ending? hending)).elim
    | notified hj => exact (hnobody hj rfl).elim
    | _ => simp

theorem silent_run (hs : s.Sound) (hsilent : s.Silent) (inputs : List (Input σ ρ)) :
    (s.history inputs).hookCalls = [] := by
  refine (run_induction (P := fun h t => t.Silent ∧ h.hookCalls = []) (Q := fun _ => True) hs
    ⟨hsilent, rfl⟩ ?_ inputs fun _ _ => trivial).2.2
  intro h s i t effects hs _ hchange ⟨hsilent, hcalls⟩
  obtain ⟨hafter, hnone⟩ := silent_change hs hchange hsilent
  refine ⟨hafter, ?_⟩
  rw [History.hookCalls_concat, hcalls, Moment.hookCalls, hnone]
  rfl

theorem silent_of_done (hs : s.Sound) (hchange : Change s i t effects)
    (hended : s.has Stage.hasEnded k = true) {answer : Except Error (Answer ρ)}
    (ht : t.jobs[k]? = some ⟨r, .done answer⟩) : t.Silent := by
  have hphase := hs.phase_ne_active_of_ended hended
  refine ⟨by rwa [phase_stays hs hchange hphase], fun j => ?_⟩
  by_contra hj
  have hj : t.has Stage.hasEnded j = true := by simpa using hj
  rcases has_change rfl (fun hgoes => hgoes.ended) hs hchange hj with hbefore | hactive
  · obtain rfl := hs.ender j k hbefore hended
    rw [has_eq ht] at hj
    cases hj
  · exact hphase hactive

/-! How far those who brought the end about have told of it -/

theorem telling_of_done (hs : s.Sound) (hchange : Change s i t effects) (htold : Told h s)
    (hk : s.jobs[k]? = some ⟨r, old⟩) (hended : old.hasEnded = true) {answer : Except Error (Answer ρ)}
    (ht : t.jobs[k]? = some ⟨r, .done answer⟩) :
    Telling (h ++ [⟨s, i, effects, t⟩]) ⟨s, i, effects, t⟩ k := by
  have hphase : t.phase = s.phase :=
    phase_stays hs hchange (hs.phase_ne_active_of_ended (by rw [has_eq hk, hended]))
  have hregistry : t.registry = s.registry :=
    registry_stays hchange (hs.phase_ne_active_of_ended (by rw [has_eq hk, hended]))
  cases hordinary : i.isOrdinary with
  | true =>
    apply Telling.everybody
    rw [hphase, hregistry]
    exact htold.ended hchange hordinary hk hended ht
  | false =>
    have hi : i.job? = some k := by
      by_contra hi
      rw [job_stays hchange hk hi] at ht
      cases ht
      cases hended
    obtain ⟨e, rfl, he⟩ : ∃ e, i = .settle k (.error e) ∧ e.isOrdinary = false := by
      cases i with
      | settle job outcome =>
        cases hi
        cases outcome with
        | ok => cases hordinary
        | error e => exact ⟨e, rfl, hordinary⟩
      | _ => cases hordinary
    have hone {r' : Request σ} {st : Stage ρ} (hj : s.jobs[k]? = some ⟨r', st⟩) : st = old := by
      rw [hk] at hj
      cases hj
      rfl
    cases hchange with
    | idle =>
      rw [hk] at ht
      cases ht
      cases hended
    | broken hj hphysical =>
      obtain rfl := hone hj
      have hback := Stage.isHandingBack_of_isPhysical hphysical hended
      have hset : ¬ s.Settled := fun hset => by
        have hnone := hset.2 k
        rw [has_eq hk, hback] at hnone
        cases hnone
      refine .nobody e rfl he (by rw [has_eq hk, hback]) ?_
      rw [History.hookCalls_concat, (htold.early hset).2, Moment.hookCalls]
      simp
    | @notified _ _ ending round _ hj =>
      obtain rfl := hone hj
      refine .partly e ending round rfl he (stage?_eq hk) ?_
      rw [History.hookCalls_concat, Moment.hookCalls, hphase, hregistry, ← htold.current k r ending round hk]
      simp [filterMap_hookCall?_roundEffects, Round.settle, he, nextCall]
    | @announced _ _ st _ _ records hj hending hback =>
      -- the last answer about the connection is ordinary
      obtain rfl := hone hj
      cases st <;> simp [isBack, he] at hback
    | commitFailed hj hfailed | rollbackFailed hj hfailed | releaseFailed hj hfailed =>
      rw [he] at hfailed
      cases hfailed

/-- What a run has told, whatever has failed in it and how. -/
structure ToldUntil (h : History σ ρ) (s : Session σ ρ) : Prop where
  /-- At any time those who were told are the first in the registry, each was told once, in order. -/
  ordered : h.hookCalls <+: s.registry.observers.map (s.phase.hook, ·)
  /-- Where an end has been brought about, how it was told of is settled when its job is done. -/
  telling : ∀ (pre post : History σ ρ) (m : Moment σ ρ) (job : Nat) (answer : Except Error (Answer ρ)),
    h = pre ++ m :: post → m.before.has Stage.hasEnded job = true →
      m.after.stage? job = some (.done answer) →
        Telling (pre ++ [m]) m job ∧ h.hookCalls = History.hookCalls (pre ++ [m])

/-- A round tells the observers up to the first failure that is no ordinary error, and so does the end
of every session. -/
theorem told_until_failure (hook : Hook) (registry : Registry) (outcomes : List (Except Error Unit))
    (hlength : outcomes.length = registry.size) (id : String) (inputs : List (Input σ ρ)) :
    Round.Plays hook registry outcomes ∧
      ToldUntil (({ id } : Session σ ρ).history inputs) (({ id } : Session σ ρ).after inputs) := by
  refine ⟨Round.plays hook registry hlength, ⟨(told_history id inputs).ordered, ?_⟩⟩
  intro pre post m job answer hsplit hended hdone
  obtain ⟨xs, i, ys, hinputs, rfl, rfl⟩ := history_split hsplit
  have hs : (({ id } : Session σ ρ).after xs).Sound := sound_after (sound_fresh id) xs
  have hchange := step_change (({ id } : Session σ ρ).after xs) i
  obtain ⟨r, old, hk, hold⟩ := has_eq_true_iff.mp hended
  obtain ⟨r', ht⟩ := stage?_eq_some_iff.mp hdone
  have hr : r' = r := by
    obtain ⟨st, hst, -⟩ := job_change hchange hk
    exact congrArg Job.request (Option.some.inj (ht.symm.trans hst))
  subst hr
  refine ⟨telling_of_done hs hchange (told_history id xs) hk hold ht, ?_⟩
  have hrest := history_append ({ id } : Session σ ρ) xs (i :: ys)
  rw [← hinputs, hsplit, List.append_cancel_left_eq, history, List.cons.injEq] at hrest
  have hsilent := silent_run (sound_change hchange hs) (silent_of_done hs hchange hended ht) ys
  rw [hsplit, hrest.2, List.append_cons]
  simp only [History.hookCalls, List.flatMap_append] at hsilent ⊢
  rw [hsilent, List.append_nil]

/-- Two observers are registered. The commit goes well, and so does the release; the first hook is
cancelled while it waits. -/
def dropout : List (Input Unit Unit) :=
  [.register ⟨"A", some ⟨0, "a", "A"⟩⟩, .register ⟨"B", some ⟨1, "b", "B"⟩⟩, .request .commit, .run 0,
    .settle 0 (.ok ()), .settle 0 (.ok ()), .settle 0 (.error .cancelled)]

theorem told_until_failure_dropout :
    [(.error .cancelled : Except Error Unit), .ok ()].length = watched.registry.size ∧
      Round.Plays .onCommit watched.registry [.error .cancelled, .ok ()] ∧
      ToldUntil (({ id := "s" } : Session Unit Unit).history dropout)
        (({ id := "s" } : Session Unit Unit).after dropout) ∧
      ((Round.start .onCommit watched.registry).play [.error .cancelled, .ok ()]).1 = [⟨0, "a", "A"⟩] :=
  have htold := told_until_failure .onCommit watched.registry [.error .cancelled, .ok ()] rfl "s" dropout
  ⟨rfl, htold.1, htold.2, rfl⟩

/-- The failure of one hook silences the observers that come after it, though the end is reached. -/
theorem silenced_dropout :
    (¬ ∀ (hook : Hook) (registry : Registry) (outcomes : List (Except Error Unit)),
        outcomes.length = registry.size →
          ((Round.start hook registry).play outcomes).1 = registry.observers) ∧
      (({ id := "s" } : Session Unit Unit).after dropout).phase = .committed ∧
      (({ id := "s" } : Session Unit Unit).after dropout).stage? 0 = some (.done (.error .cancelled)) ∧
      (({ id := "s" } : Session Unit Unit).after dropout).registry.observers =
        [⟨0, "a", "A"⟩, ⟨1, "b", "B"⟩] ∧
      (({ id := "s" } : Session Unit Unit).history dropout).hookCalls = [(.onCommit, ⟨0, "a", "A"⟩)] := by
  refine ⟨fun hall => ?_, rfl, rfl, rfl, rfl⟩
  have hboth := hall .onCommit watched.registry [.error .cancelled, .ok ()] rfl
  exact absurd hboth (by decide)

end Session
end Transact
