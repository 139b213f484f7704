import Transact.Proofs.Session.Change
import Transact.Session.Alone

/-! The end of a session that nothing else comes between is a program: one call after the other, then
one hook after the other. Here that program is written down, and shown to be what a request does that
runs alone. -/
namespace Transact

variable {σ ρ ω : Type}

namespace Surroundings

/-- Nothing that ends a session fails but by an ordinary error. -/
structure IsOrdinary (env : Surroundings σ ρ ω) : Prop where
  call : ∀ (c : Call σ) (w : ω) (e : Error), c.statement? = none → (env.call c w).1 = .error e →
    e.isOrdinary = true
  hook : ∀ (hook : Hook) (o : Observer) (w : ω) (e : Error), (env.hook hook o w).1 = .error e →
    e.isOrdinary = true

/-- A call of whose answer only the outcome matters. -/
def tell (env : Surroundings σ ρ ω) (c : Call σ) (w : ω) : Except Error Unit × ω :=
  ((env.call c w).1.map fun _ => (), (env.call c w).2)

end Surroundings

/-- The calls that end a session, each with its outcome, the end that they reach, and the world then. -/
structure Finale (σ ω : Type) where
  log : List (Call σ × Except Error Unit)
  ending : Ending
  world : ω

def Finale.after (entry : Call σ × Except Error Unit) (f : Finale σ ω) : Finale σ ω :=
  { f with log := entry :: f.log }

namespace Surroundings

variable (env : Surroundings σ ρ ω)

def discard (ending : Ending) (w : ω) : Finale σ ω :=
  match env.tell .discard w with
  | (outcome, w) => ⟨[(.discard, outcome)], ending, w⟩

def release (ending : Ending) (w : ω) : Finale σ ω :=
  match env.tell .release w with
  | (.ok (), w) => ⟨[(.release, .ok ())], ending, w⟩
  | (.error e, w) => (env.discard ending w).after (.release, .error e)

/-- `commit` is what the commit failed by, if one was tried. -/
def rollBack (commit : Option Error) (w : ω) : Finale σ ω :=
  match env.tell .rollback w with
  | (.ok (), w) => (env.release (.rolledBack commit none) w).after (.rollback, .ok ())
  | (.error e, w) => (env.discard (.rolledBack commit (some e)) w).after (.rollback, .error e)

def finale (w : ω) : Request σ → Finale σ ω
  | .commit =>
    match env.tell .commit w with
    | (.ok (), w) => (env.release .committed w).after (.commit, .ok ())
    | (.error e, w) => (env.rollBack (some e) w).after (.commit, .error e)
  | _ => env.rollBack none w

/-- The observers are told in order, and the failures noted. -/
def announce (hook : Hook) (failures : Notification) : List Observer → ω → Notification × ω
  | [], w => (failures, w)
  | o :: rest, w =>
    match env.hook hook o w with
    | (.ok (), w) => announce hook failures rest w
    | (.error e, w) =>
      announce hook (failures ++ [.mk o.name o.className hook.name e]) rest w

end Surroundings

/-- What is told of the failures of a round. -/
def noted (failures : Notification) : Option Notification :=
  if failures.isEmpty then none else some failures

namespace Effect

/-- Asks nothing of the connection or of an observer, and ends nothing. -/
def isSilent : Effect σ ρ → Bool
  | call _ | notify _ _ | finish _ => false
  | _ => true

end Effect

namespace Run

def calls (run : Run σ ρ ω) : List (Call σ) := run.effects.filterMap Effect.call?

def hookCalls (run : Run σ ρ ω) : List (Hook × Observer) := run.effects.filterMap Effect.hookCall?

/-- How a run ends, and what was asked for in it. -/
structure Ends (run : Run σ ρ ω) (s : Session σ ρ) (calls : List (Call σ))
    (hookCalls : List (Hook × Observer)) (w : ω) (answer : Except Error (Answer ρ)) : Prop where
  session : run.session = s
  calls : run.calls = calls
  hookCalls : run.hookCalls = hookCalls
  world : run.world = w
  answer : run.answer = answer

end Run

namespace Session

variable {env : Surroundings σ ρ ω} {s t u : Session σ ρ} {job fuel : Nat} {w w' w'' : ω}
  {effects before : List (Effect σ ρ)} {r : Request σ} {st : Stage ρ} {p : Phase} {l : Lock}
  {ending : Ending}

/-! Silent effects -/

theorem respond_append (hbefore : ∀ e ∈ before, e.isSilent = true) :
    respond env job (before ++ effects) w = respond env job effects w := by
  induction before with
  | nil => rfl
  | cons e rest ih =>
    have he := hbefore e List.mem_cons_self
    have hrest := ih fun e he => hbefore e (List.mem_cons_of_mem _ he)
    cases e with
    | call | notify | finish => cases he
    | _ => exact hrest

theorem answerIn_append (hbefore : ∀ e ∈ before, e.isSilent = true) :
    Run.answerIn (before ++ effects) = Run.answerIn effects := by
  induction before with
  | nil => rfl
  | cons e rest ih =>
    have he := hbefore e List.mem_cons_self
    have hrest := ih fun e he => hbefore e (List.mem_cons_of_mem _ he)
    cases e with
    | call | notify | finish => cases he
    | _ => exact hrest

theorem filterMap_silent {α : Type} {f : Effect σ ρ → Option α}
    (hf : ∀ e : Effect σ ρ, e.isSilent = true → f e = none)
    (hbefore : ∀ e ∈ before, e.isSilent = true) : before.filterMap f = [] :=
  List.filterMap_eq_nil_iff.mpr fun e he => hf e (hbefore e he)

theorem silent_call? (e : Effect σ ρ) (he : e.isSilent = true) : e.call? = none := by
  cases e with
  | call => cases he
  | _ => rfl

theorem silent_hookCall? (e : Effect σ ρ) (he : e.isSilent = true) : e.hookCall? = none := by
  cases e with
  | notify => cases he
  | _ => rfl

theorem silent_nil : ∀ e ∈ ([] : List (Effect σ ρ)), e.isSilent = true := by simp

theorem silent_log (record : Log.Record) : ∀ e ∈ [(.log record : Effect σ ρ)], e.isSilent = true := by
  simp [Effect.isSilent]

theorem silent_logs (records : List Log.Record) (e : Effect σ ρ)
    (he : e ∈ records.map Effect.log) : e.isSilent = true := by
  obtain ⟨record, -, rfl⟩ := List.mem_map.mp he
  rfl

theorem silent_opening (records : List Log.Record) (n : Nat) :
    ∀ e ∈ records.map Effect.log ++ [(.opened n : Effect σ ρ)], e.isSilent = true := by
  intro e he
  rcases List.mem_append.mp he with he | he
  · exact silent_logs _ e he
  · rw [List.mem_singleton.mp he]
    rfl

theorem silent_hookLogs (records : List Log.Record) (e : Effect σ ρ)
    (he : e ∈ records.map Effect.hookLog) : e.isSilent = true := by
  obtain ⟨record, -, rfl⟩ := List.mem_map.mp he
  rfl

/-! One answer after the other -/

/-- A run that asks for something goes on with the answer. -/
theorem carry_asks {e : Effect σ ρ} {i : Input σ ρ} {calls : List (Call σ)}
    {hookCalls : List (Hook × Observer)} {answer : Except Error (Answer ρ)}
    (hbefore : ∀ e ∈ before, e.isSilent = true) (hfinish : ∀ answer, e ≠ .finish answer)
    (hrespond : respond env job [e] w = (some i, w'))
    (hrest : (carry env job fuel ⟨(s.step i).1, (s.step i).2, w'⟩).Ends t calls hookCalls w'' answer) :
    (carry env job (fuel + 1) ⟨s, before ++ [e], w⟩).Ends t (e.call?.toList ++ calls)
      (e.hookCall?.toList ++ hookCalls) w'' answer := by
  have hcarry : carry env job (fuel + 1) ⟨s, before ++ [e], w⟩ =
      { carry env job fuel ⟨(s.step i).1, (s.step i).2, w'⟩ with
        effects := (before ++ [e]) ++ (carry env job fuel ⟨(s.step i).1, (s.step i).2, w'⟩).effects } := by
    simp only [carry, respond_append hbefore, hrespond]
  have hanswer (rest : List (Effect σ ρ)) : Run.answerIn (before ++ [e] ++ rest) = Run.answerIn rest := by
    rw [List.append_assoc, answerIn_append hbefore]
    cases e with
    | finish answer => exact absurd rfl (hfinish answer)
    | _ => rfl
  rw [hcarry]
  constructor
  · exact hrest.session
  · rw [← hrest.calls]
    simp only [Run.calls, List.filterMap_append, filterMap_silent silent_call? hbefore]
    cases e <;> rfl
  · rw [← hrest.hookCalls]
    simp only [Run.hookCalls, List.filterMap_append, filterMap_silent silent_hookCall? hbefore]
    cases e <;> rfl
  · exact hrest.world
  · rw [← hrest.answer]
    simp only [Run.answer, hanswer]

/-- A run that ends asks for nothing more. -/
theorem carry_ends {answer : Except Error (Answer ρ)} (hbefore : ∀ e ∈ before, e.isSilent = true) :
    (carry env job fuel ⟨s, before ++ [.finish answer], w⟩).Ends s [] [] w answer := by
  have hcarry : carry env job fuel ⟨s, before ++ [.finish answer], w⟩ =
      ⟨s, before ++ [.finish answer], w⟩ := by
    cases fuel with
    | zero => rfl
    | succ fuel =>
      simp only [carry, respond_append hbefore]
      rfl
  rw [hcarry]
  constructor
  · rfl
  · simp [Run.calls, filterMap_silent silent_call? hbefore]
  · simp [Run.hookCalls, filterMap_silent silent_hookCall? hbefore]
  · rfl
  · simp [Run.answer, answerIn_append hbefore, Run.answerIn]

/-! The session while its last job ends it -/

/-- The session with one more job. -/
def joined (s : Session σ ρ) (p : Phase) (l : Lock) (r : Request σ) (st : Stage ρ) : Session σ ρ :=
  { s with phase := p, lock := l, jobs := s.jobs ++ [⟨r, st⟩] }

theorem joined_job : (s.joined p l r st).jobs[s.jobs.length]? = some ⟨r, st⟩ := by
  simp [joined]

theorem modify_last {α : Type} (xs : List α) (x : α) (f : α → α) :
    (xs ++ [x]).modify xs.length f = xs ++ [f x] := by
  induction xs with
  | nil => rfl
  | cons y rest ih => simpa using ih

theorem joined_setStage {st' : Stage ρ} :
    (s.joined p l r st).setStage s.jobs.length st' = s.joined p l r st' := by
  simp only [joined, setStage, modify_last]

theorem joined_setPhase {q : Phase} {st' : Stage ρ} :
    ({ s.joined p l r st with phase := q } : Session σ ρ).setStage s.jobs.length st' =
      s.joined q l r st' := by
  simp only [joined, setStage, modify_last]

theorem joined_setLock {l' : Lock} {st' : Stage ρ} :
    ({ s.joined p l r st with lock := l' } : Session σ ρ).setStage s.jobs.length st' =
      s.joined p l' r st' := by
  simp only [joined, setStage, modify_last]

/-! From the last answer to the first call -/

/-- The run goes through a finale, gives the lock back as `l`, and tells the observers. -/
def Performs (env : Surroundings σ ρ ω) (s : Session σ ρ) (l : Lock) (r : Request σ) (f : Finale σ ω)
    (run : Run σ ρ ω) : Prop :=
  let told := env.announce f.ending.hook [] s.registry.observers f.world
  let answer := ({ s with phase := f.ending.phase } : Session σ ρ).conclusion (noted told.1) r f.ending
  run.Ends (s.joined f.ending.phase l r (.done answer)) (f.log.map Prod.fst)
    (s.registry.observers.map (f.ending.hook, ·)) told.2 answer

theorem roundStage_joined {st : Stage ρ} {next : Round.Next} :
    (s.joined p l r st).roundStage r ending next =
      ({ s with phase := p } : Session σ ρ).roundStage r ending next := rfl

theorem roundEffects_joined {st : Stage ρ} {next : Round.Next} :
    (s.joined p l r st).roundEffects r ending next =
      ({ s with phase := p } : Session σ ρ).roundEffects r ending next := rfl

theorem step_notifying {round : Round} (outcome : Except Error Unit) :
    (s.joined p l r (.notifying ending round)).step (.settle s.jobs.length outcome) =
      (s.joined p l r (({ s with phase := p } : Session σ ρ).roundStage r ending (round.settle outcome).2),
        (round.settle outcome).1.map .hookLog ++
          ({ s with phase := p } : Session σ ρ).roundEffects r ending (round.settle outcome).2) := by
  simp only [step, atJob, joined_job, settle, notifying, proceed_eq, joined_setStage,
    roundStage_joined, roundEffects_joined]

/-- A round runs through the observers that are left. -/
theorem carry_round (henv : env.IsOrdinary) {hook : Hook} (pending : List Observer)
    (failures : Notification) (w : ω) (hfuel : pending.length ≤ fuel)
    (hbefore : ∀ e ∈ before, e.isSilent = true) :
    let told := env.announce hook failures pending w
    let t : Session σ ρ := { s with phase := p }
    (carry env s.jobs.length fuel
      ⟨s.joined p l r (t.roundStage r ending (Round.next hook failures pending)),
        before ++ t.roundEffects r ending (Round.next hook failures pending), w⟩).Ends
      (s.joined p l r (.done (t.conclusion (noted told.1) r ending))) []
      (pending.map (hook, ·)) told.2 (t.conclusion (noted told.1) r ending) := by
  induction pending generalizing before failures fuel w with
  | nil =>
    intro told t
    have hlogs : ∀ e ∈ before ++ (t.closingRecords (noted failures) r ending).map Effect.log,
        e.isSilent = true := by
      intro e he
      rcases List.mem_append.mp he with he | he
      · exact hbefore e he
      · exact silent_logs _ e he
    simp only [Round.next, roundEffects, ← List.append_assoc]
    exact carry_ends hlogs
  | cons o rest ih =>
    intro told t
    obtain ⟨fuel, rfl⟩ : ∃ n, fuel = n + 1 := ⟨fuel - 1, by simp at hfuel; omega⟩
    have hrest : rest.length ≤ fuel := by simpa using hfuel
    have hrespond : respond env s.jobs.length [.notify hook o] w =
        (some (.settle s.jobs.length (env.hook hook o w).1), (env.hook hook o w).2) := rfl
    refine carry_asks hbefore (by simp) hrespond ?_
    have hnext : t.roundStage r ending (Round.next hook failures (o :: rest)) =
      .notifying ending ⟨hook, o, rest, failures⟩ := rfl
    rw [hnext, step_notifying]
    rcases houtcome : env.hook hook o w with ⟨outcome, w'⟩
    cases outcome with
    | ok =>
      have htold : told = env.announce hook failures rest w' := by
        simp only [told, Surroundings.announce, houtcome]
      rw [htold]
      exact ih failures w' hrest silent_nil
    | error e =>
      have he : e.isOrdinary = true := henv.hook hook o w e (by rw [houtcome])
      have htold : told =
          env.announce hook (failures ++ [.mk o.name o.className hook.name e]) rest w' := by
        simp only [told, Surroundings.announce, houtcome]
      rw [htold]
      simp only [Round.settle, he, if_true]
      exact ih _ w' hrest (silent_hookLogs _)

/-! The calls that lead there, last one first -/

variable {l' : Lock}

/-- A call that ends by an ordinary error, or does not fail. -/
theorem carry_call {c : Call σ} {f : Finale σ ω} {outcome : Except Error Unit}
    (hc : c.statement? = none) (hbefore : ∀ e ∈ before, e.isSilent = true)
    (houtcome : env.tell c w = (outcome, w'))
    (hrest : s.Performs env l' r f (carry env s.jobs.length fuel
      ⟨((s.joined p l r st).step (.settle s.jobs.length outcome)).1,
        ((s.joined p l r st).step (.settle s.jobs.length outcome)).2, w'⟩)) :
    s.Performs env l' r (f.after (c, outcome))
      (carry env s.jobs.length (fuel + 1) ⟨s.joined p l r st, before ++ [.call c], w⟩) := by
  have hrespond : respond env s.jobs.length [.call c] w =
      (some (.settle s.jobs.length (env.tell c w).1), (env.tell c w).2) := by
    cases c with
    | execute => cases hc
    | _ => rfl
  rw [houtcome] at hrespond
  exact carry_asks hbefore (by simp) hrespond hrest

theorem tell_ordinary (henv : env.IsOrdinary) {c : Call σ} {e : Error} (hc : c.statement? = none)
    (he : env.tell c w = (.error e, w')) : e.isOrdinary = true := by
  cases houtcome : (env.call c w).1 with
  | ok reply => simp [Surroundings.tell, houtcome, Except.map] at he
  | error e' =>
    simp only [Surroundings.tell, houtcome, Except.map, Prod.mk.injEq, Except.error.injEq] at he
    exact he.1 ▸ henv.call c w e' hc houtcome

theorem performs_announced (henv : env.IsOrdinary) (hl : l.release = (none, l'))
    (hfuel : s.registry.size ≤ fuel) (hbefore : ∀ e ∈ before, e.isSilent = true) :
    s.Performs env l' r ⟨[], ending, w⟩ (carry env s.jobs.length fuel
      ⟨((s.joined ending.phase l r st).announce s.jobs.length r ending).1,
        before ++ ((s.joined ending.phase l r st).announce s.jobs.length r ending).2, w⟩) := by
  have hlock : (s.joined ending.phase l r st).lock.release = (none, l') := hl
  rw [announce_eq, hlock, joined_setLock]
  exact carry_round henv s.registry.observers [] w hfuel hbefore

theorem performs_discard (henv : env.IsOrdinary) (hl : l.release = (none, l'))
    (hfuel : s.registry.size + 1 ≤ fuel) (hbefore : ∀ e ∈ before, e.isSilent = true) :
    s.Performs env l' r (env.discard ending w) (carry env s.jobs.length fuel
      ⟨s.joined ending.phase l r (.discarding ending), before ++ [.call .discard], w⟩) := by
  obtain ⟨fuel, rfl⟩ : ∃ n, fuel = n + 1 := ⟨fuel - 1, by omega⟩
  rcases houtcome : env.tell .discard w with ⟨outcome, w'⟩
  simp only [Surroundings.discard, houtcome]
  apply carry_call (f := ⟨[], ending, w'⟩) rfl hbefore houtcome
  simp only [step, atJob, joined_job, settle]
  cases outcome with
  | ok => exact performs_announced henv hl (by omega) silent_nil
  | error e =>
    have he := tell_ordinary henv rfl houtcome
    simp only [discarding, caught, he, if_true, logged]
    exact performs_announced henv hl (by omega) (silent_log _)

theorem performs_release (henv : env.IsOrdinary) (hl : l.release = (none, l'))
    (hfuel : s.registry.size + 2 ≤ fuel) (hbefore : ∀ e ∈ before, e.isSilent = true) :
    s.Performs env l' r (env.release ending w) (carry env s.jobs.length fuel
      ⟨s.joined ending.phase l r (.releasing ending), before ++ [.call .release], w⟩) := by
  obtain ⟨fuel, rfl⟩ : ∃ n, fuel = n + 1 := ⟨fuel - 1, by omega⟩
  rcases houtcome : env.tell .release w with ⟨outcome, w'⟩
  cases outcome with
  | ok =>
    simp only [Surroundings.release, houtcome]
    apply carry_call (f := ⟨[], ending, w'⟩) rfl hbefore houtcome
    simp only [step, atJob, joined_job, settle]
    exact performs_announced henv hl (by omega) silent_nil
  | error e =>
    have he := tell_ordinary henv rfl houtcome
    simp only [Surroundings.release, houtcome]
    apply carry_call rfl hbefore houtcome
    simp only [step, atJob, joined_job, settle, releasing, caught, he, if_true, logged, ask, joined_setStage]
    exact performs_discard henv hl (by omega) (silent_log _)

theorem performs_rollBack (henv : env.IsOrdinary) (hl : l.release = (none, l')) (commit : Option Error)
    (hfuel : s.registry.size + 3 ≤ fuel) (hbefore : ∀ e ∈ before, e.isSilent = true) :
    s.Performs env l' r (env.rollBack commit w) (carry env s.jobs.length fuel
      ⟨s.joined p l r (.rollingBack commit), before ++ [.call .rollback], w⟩) := by
  obtain ⟨fuel, rfl⟩ : ∃ n, fuel = n + 1 := ⟨fuel - 1, by omega⟩
  rcases houtcome : env.tell .rollback w with ⟨outcome, w'⟩
  cases outcome with
  | ok =>
    simp only [Surroundings.rollBack, houtcome]
    apply carry_call rfl hbefore houtcome
    simp only [step, atJob, joined_job, settle, rollingBack, ask, joined_setPhase]
    exact performs_release henv hl (by omega) silent_nil
  | error e =>
    have he := tell_ordinary henv rfl houtcome
    simp only [Surroundings.rollBack, houtcome]
    apply carry_call rfl hbefore houtcome
    simp only [step, atJob, joined_job, settle, rollingBack, caught, he, if_true, logged, ask,
      joined_setPhase]
    exact performs_discard henv hl (by omega) (silent_log _)

theorem performs_commit (henv : env.IsOrdinary) (hl : l.release = (none, l'))
    (hfuel : s.registry.size + 4 ≤ fuel) (hbefore : ∀ e ∈ before, e.isSilent = true) :
    s.Performs env l' r (env.finale w .commit) (carry env s.jobs.length fuel
      ⟨s.joined p l r .committing, before ++ [.call .commit], w⟩) := by
  obtain ⟨fuel, rfl⟩ : ∃ n, fuel = n + 1 := ⟨fuel - 1, by omega⟩
  rcases houtcome : env.tell .commit w with ⟨outcome, w'⟩
  cases outcome with
  | ok =>
    simp only [Surroundings.finale, houtcome]
    apply carry_call rfl hbefore houtcome
    simp only [step, atJob, joined_job, settle, committing, ask, joined_setPhase]
    exact performs_release henv hl (by omega) silent_nil
  | error e =>
    have he := tell_ordinary henv rfl houtcome
    simp only [Surroundings.finale, houtcome]
    apply carry_call rfl hbefore houtcome
    simp only [step, atJob, joined_job, settle, committing, caught, he, if_true, logged, ask,
      joined_setStage]
    exact performs_rollBack henv hl _ (by omega) (silent_log _)

/-! The finale as a whole -/

theorem release_held {job : Nat} {l : Lock} (hfree : l.isFree = true) :
    ({ l with holder := some job } : Lock).release = (none, l) := by
  obtain ⟨holder, queue⟩ := l
  simp only [Lock.isFree, Bool.and_eq_true, Option.isNone_iff_eq_none] at hfree
  obtain ⟨rfl, hqueue⟩ := hfree
  rcases queue with _ | ⟨⟨k, ticket⟩, rest⟩
  · rfl
  · have hticket : ticket = .cancelled := by simpa using (List.all_eq_true.mp hqueue) (k, ticket)
    subst hticket
    rfl

/-- What is written when a job is opened in an active session. -/
def openingRecords (s : Session σ ρ) : Request σ → List Log.Record
  | .close => [s.leftScope]
  | .orphan => [s.forgotten]
  | _ => []

theorem step_request (hactive : s.phase = .active) (r : Request σ) : s.step (.request r) =
    ({ s with jobs := s.jobs ++ [⟨r, .ready⟩] }, (s.openingRecords r).map .log ++ [.opened s.jobs.length]) := by
  have hactive : s.isActive = true := by simp [isActive, hactive]
  cases r with
  | close | orphan => simp [step, receive, hactive, logged, openingRecords]
  | _ => rfl

theorem step_first (hactive : s.phase = .active) (hfree : s.lock.isFree = true) (r : Request σ) :
    ({ s with jobs := s.jobs ++ [⟨r, .ready⟩] } : Session σ ρ).step (.run s.jobs.length) =
      (s.joined s.phase { s.lock with holder := some s.jobs.length } r r.firstStage,
        [.call r.firstCall]) := by
  let l : Lock := { s.lock with holder := some s.jobs.length }
  have hset : (s.joined s.phase l r .ready).setStage s.jobs.length r.firstStage =
      s.joined s.phase l r r.firstStage := joined_setStage
  have hterminal : s.phase.isTerminal = false := Phase.isTerminal_eq_false_iff.mpr hactive
  simp only [step, atJob, List.getElem?_concat_length, run, Lock.request, hfree, if_true, granted_eq,
    hterminal, Bool.false_eq_true, if_false]
  rw [← hset]
  rfl

theorem Performs.opened {f : Finale σ ω} {run : Run σ ρ ω} {l : Lock}
    (hbefore : ∀ e ∈ before, e.isSilent = true) (hrun : s.Performs env l r f run) :
    s.Performs env l r f { run with effects := before ++ run.effects } where
  session := hrun.session
  calls := by
    rw [← hrun.calls]
    simp only [Run.calls, List.filterMap_append, filterMap_silent silent_call? hbefore, List.nil_append]
  hookCalls := by
    rw [← hrun.hookCalls]
    simp only [Run.hookCalls, List.filterMap_append, filterMap_silent silent_hookCall? hbefore,
      List.nil_append]
  world := hrun.world
  answer := by
    rw [← hrun.answer]
    simp only [Run.answer, answerIn_append hbefore]

/-- A request for the end that runs alone on an active session goes through its finale. -/
theorem alone_finale (henv : env.IsOrdinary) (hactive : s.phase = .active)
    (hfree : s.lock.isFree = true) (hr : r.isEnding = true) :
    s.Performs env s.lock r (env.finale w r) (s.alone env r w) := by
  have hrequest := step_request (ρ := ρ) hactive r
  have hlength : (s.jobs ++ [(⟨r, .ready⟩ : Job σ ρ)]).length ≠ s.jobs.length := by simp
  have hfuel : s.registry.size + 4 ≤ steps { s with jobs := s.jobs ++ [⟨r, .ready⟩] } := by simp [steps]
  have hrun : s.Performs env s.lock r (env.finale w r)
      (carry env s.jobs.length (steps { s with jobs := s.jobs ++ [⟨r, .ready⟩] })
        ⟨s.joined s.phase { s.lock with holder := some s.jobs.length } r r.firstStage,
          [.call r.firstCall], w⟩) := by
    cases r with
    | execute => cases hr
    | commit => exact performs_commit henv (release_held hfree) hfuel silent_nil
    | rollback | close | orphan =>
      exact performs_rollBack henv (release_held hfree) none (by omega) silent_nil
  simp only [alone, hrequest, if_neg hlength, step_first hactive hfree]
  exact hrun.opened (silent_opening _ _)

end Session
end Transact
