import Transact.Proofs.Session.Observers

/-! The records of a session: a failure is carried by one in the very moment in which it comes up,
and the outcome is reported once, when the round of hooks is over. -/
namespace Transact

variable {σ ρ : Type}

namespace Log.Record

def Carries (record : Log.Record) (e : Error) : Prop :=
  record.error = some e ∧ (record.level = 30 ∨ record.level = 40)

def isInfo (record : Log.Record) : Bool := record.level == 20

end Log.Record

@[simp] def Effect.record? : Effect σ ρ → Option Log.Record
  | log record | hookLog record => some record
  | _ => none

/-- The transaction has ended as it was asked to. -/
def Ending.isClean : Ending → Bool
  | committed | rolledBack none none => true
  | _ => false

/-- Somebody waits for the outcome, or would have. -/
def Request.isSpokenFor : Request σ → Bool
  | orphan => false
  | _ => true

namespace Session

/-- The failure that an input brings, of a call for the end of the session or of a hook. -/
def raised (s : Session σ ρ) : Input σ ρ → Option Error
  | .settle job (.error e) => if s.fits (.settle job (.error e)) then some e else none
  | _ => none

def hookError? (s : Session σ ρ) : Input σ ρ → Option Error
  | .settle job (.error e) => if s.isNotifying job then some e else none
  | _ => none

/-- The job's own call for the end of the session has succeeded. -/
def Fulfils (s : Session σ ρ) (i : Input σ ρ) (job : Nat) (r : Request σ) : Prop :=
  i.job? = some job ∧ (∃ st, s.jobs[job]? = some ⟨r, st⟩) ∧ r.isEnding = true ∧
    s.answered i = some (r.firstCall, .ok ())

end Session

namespace Moment

def records (m : Moment σ ρ) : List Log.Record := m.effects.filterMap Effect.record?

def raised (m : Moment σ ρ) : Option Error := m.before.raised m.input

def hookError? (m : Moment σ ρ) : Option Error := m.before.hookError? m.input

end Moment

namespace History

def infos (h : History σ ρ) : List Log.Record := h.flatMap fun m => m.records.filter (·.isInfo)

/-- The failures of hooks, in the order in which they came up. -/
def hookErrors (h : History σ ρ) : List Error := h.filterMap Moment.hookError?

def Fulfilled (h : History σ ρ) (job : Nat) (r : Request σ) : Prop :=
  ∃ m ∈ h, m.before.Fulfils m.input job r

variable {h : History σ ρ} {m : Moment σ ρ} {job : Nat} {r : Request σ}

theorem infos_concat : (h ++ [m] : History σ ρ).infos = h.infos ++ m.records.filter (·.isInfo) := by
  simp [infos]

theorem hookErrors_concat : (h ++ [m] : History σ ρ).hookErrors = h.hookErrors ++ m.hookError?.toList := by
  cases hm : m.hookError? <;> simp [hookErrors, hm]

theorem fulfilled_concat : History.Fulfilled (h ++ [m]) job r ↔
    h.Fulfilled job r ∨ m.before.Fulfils m.input job r := by
  simp only [Fulfilled, List.mem_append, List.mem_singleton, or_and_right, exists_or, exists_eq_left]

end History

namespace Session

variable {s t : Session σ ρ} {i : Input σ ρ} {effects : List (Effect σ ρ)}
  {job k : Nat} {r : Request σ} {st old : Stage ρ} {h : History σ ρ}

/-- Whatever fails leaves a record behind that carries it. -/
theorem raised_carried {e : Error} (hraised : s.raised i = some e) (he : e.isOrdinary = true) :
    ∃ record ∈ (s.step i).2.filterMap Effect.record?, record.Carries e := by
  cases i with
  | settle job outcome =>
    rcases outcome with e' | ⟨⟩
    · simp only [raised, Option.ite_none_right_eq_some, Option.some.injEq] at hraised
      obtain ⟨hfits, rfl⟩ := hraised
      rcases hj : s.jobs[job]? with _ | ⟨r, st⟩
      · simp [fits, stage?, hj] at hfits
      cases st with
      | committing =>
        refine ⟨s.commitFailed e', ?_, rfl, .inr rfl⟩
        simp [step, atJob, hj, settle, committing, caught, he, logged]
      | rollingBack commit =>
        refine ⟨s.rollbackFailed e', ?_, rfl, .inr rfl⟩
        simp [step, atJob, hj, settle, rollingBack, caught, he, logged]
      | releasing ending =>
        refine ⟨s.releaseFailed e', ?_, rfl, .inl rfl⟩
        simp [step, atJob, hj, settle, releasing, caught, he, logged]
      | discarding ending =>
        refine ⟨s.discardFailed e', ?_, rfl, .inr rfl⟩
        simp [step, atJob, hj, settle, discarding, caught, he, logged]
      | notifying ending round =>
        refine ⟨round.warning e', ?_, rfl, .inl rfl⟩
        simp [step, atJob, hj, settle, notifying, Round.settle, he]
      | _ => simp [fits, stage?, hj] at hfits
    · cases hraised
  | _ => cases hraised

/-! The report of the outcome -/

def infos (effects : List (Effect σ ρ)) : List Log.Record :=
  (effects.filterMap Effect.record?).filter (·.isInfo)

/-- What an input leaves to be done of the round of hooks, and for which end. -/
def next? (s : Session σ ρ) : Input σ ρ → Option (Request σ × Ending × Round.Next)
  | .settle job outcome =>
    match s.jobs[job]? with
    | some ⟨r, .notifying ending round⟩ => some (r, ending, (round.settle outcome).2)
    | some ⟨r, st⟩ =>
      if isBack st outcome then
        st.ending?.map fun ending => (r, ending, Round.start ending.hook s.registry)
      else none
    | none => none
  | _ => none

def reports (s : Session σ ρ) : Option (Request σ × Ending × Round.Next) → List Log.Record
  | some (r, ending, .ended failures) =>
    if r.isSpokenFor && ending.isClean then [s.outcome failures] else []
  | _ => []

theorem infos_append (xs ys : List (Effect σ ρ)) : infos (xs ++ ys) = infos xs ++ infos ys := by
  simp [infos]

@[simp] theorem infos_nil : infos ([] : List (Effect σ ρ)) = [] := rfl

@[simp] theorem infos_wakes (woken : Option Nat) : infos (wakes woken : List (Effect σ ρ)) = [] := by
  cases woken <;> rfl

theorem infos_settled (round : Round) (outcome : Except Error Unit) :
    infos ((round.settle outcome).1.map .hookLog : List (Effect σ ρ)) = [] := by
  rcases outcome with e | ⟨⟩
  · cases he : e.isOrdinary with
    | true => simp [Round.settle, he, infos, Log.Record.isInfo, Round.warning]
    | false => simp [Round.settle, he]
  · rfl

theorem infos_closing {ending : Ending} (hsuits : ending.Suits r) (failures : Option Notification) :
    (s.closingRecords failures r ending).filter (·.isInfo) =
      s.reports (some (r, ending, .ended failures)) := by
  have houtcome : (s.outcome failures).isInfo = true := rfl
  have hnotified (f : Notification) : (s.closeNotified f).isInfo = false := rfl
  have hfailed (e : Error) : (s.closeFailed e).isInfo = false := rfl
  cases r <;> rcases ending with _ | ⟨_ | _, _ | _⟩ <;> cases failures <;>
    simp_all [closingRecords, reports, Request.isSpokenFor, Ending.isClean, Ending.Suits]

theorem infos_roundEffects {ending : Ending} (hsuits : ending.Suits r) (next : Round.Next) :
    infos (s.roundEffects r ending next) = s.reports (some (r, ending, next)) := by
  cases next with
  | call round => rfl
  | aborted e => rfl
  | ended failures =>
    rw [← infos_closing hsuits]
    simp [roundEffects, infos, List.filterMap_map, Function.comp_def]

theorem infos_announce {ending : Ending} (hsuits : ending.Suits r) :
    infos (s.announce job r ending).2 =
      s.reports (some (r, ending, Round.start ending.hook s.registry)) := by
  rw [announce_eq, infos_append, infos_wakes, List.nil_append]
  exact infos_roundEffects hsuits _

theorem infos_logged {record : Log.Record} {moved : Moved σ ρ} (hrecord : record.isInfo = false) :
    infos (logged record moved).2 = infos moved.2 := by
  simp [infos, logged, hrecord]

theorem infos_leave (answer : Except Error (Answer ρ)) : infos (s.leave job answer).2 = [] := by
  have hleave : (s.leave job answer).2 = wakes s.lock.release.1 ++ [.finish answer] := rfl
  rw [hleave, infos_append, infos_wakes]
  rfl

theorem infos_caught {e : Error} {handle : Moved σ ρ} :
    infos (s.caught job e handle).2 = if e.isOrdinary then infos handle.2 else [] := by
  unfold caught
  split
  · rfl
  · exact infos_leave _

theorem infos_settle (hs : s.Sound) (outcome : Except Error Unit) :
    infos (s.step (.settle job outcome)).2 = s.reports (s.next? (.settle job outcome)) := by
  simp only [step, atJob, next?]
  rcases hj : s.jobs[job]? with _ | ⟨r, st⟩
  · rfl
  have hfits := hs.fits _ _ _ hj
  cases st with
  | committing | rollingBack =>
    rcases outcome with e | ⟨⟩
    · exact infos_caught.trans (by split <;> rfl)
    · rfl
  | releasing ending =>
    rcases outcome with e | ⟨⟩
    · exact infos_caught.trans (by split <;> rfl)
    · exact infos_announce hfits.2
  | discarding ending =>
    rcases outcome with e | ⟨⟩
    · refine infos_caught.trans ?_
      rw [infos_logged rfl, infos_announce hfits.2]
      cases he : e.isOrdinary <;> simp [isBack, he, Stage.ending?, reports]
    · exact infos_announce hfits.2
  | notifying ending round =>
    simp only [settle, notifying, proceed_eq]
    rw [infos_append, infos_settled, List.nil_append]
    exact infos_roundEffects hfits.2.1 _
  | _ => cases outcome <;> rfl

theorem infos_request (r : Request σ) : infos (s.step (.request r)).2 = [] := by
  simp only [step, receive]
  cases r with
  | close | orphan =>
    dsimp only
    split <;> rfl
  | _ => rfl

/-- Only answers bring a session's outcome nearer. -/
theorem infos_quiet (hchange : Change s i t effects) (hrequest : ∀ r, i ≠ .request r)
    (hsettle : ∀ job outcome, i ≠ .settle job outcome) : infos effects = [] := by
  cases hchange with
  | opened => exact absurd rfl (hrequest _)
  | committed | commitFailed | rolledBack | rollbackFailed | releaseFailed | announced | notified
  | broken => exact absurd rfl (hsettle _ _)
  | late | left | replied =>
    rw [infos_append, infos_wakes]
    rfl
  | _ => rfl

/-- The outcome is reported when the round of hooks is over, and at no other time. -/
theorem infos_step (hs : s.Sound) (i : Input σ ρ) : infos (s.step i).2 = s.reports (s.next? i) := by
  cases i with
  | request r => exact infos_request r
  | settle job outcome => exact infos_settle hs outcome
  | _ => exact infos_quiet (step_change s _) (by simp) (by simp)

/-! The account of the outcome along a run -/

theorem id_change (hchange : Change s i t effects) : t.id = s.id := by
  cases hchange <;> rfl

/-- What the report of an outcome says: the session, its end, the hooks called, those that failed. -/
def summary (h : History σ ρ) (s : Session σ ρ) : List Value :=
  [.text s.id, .text s.phase.name, .int h.hookCalls.length, .int h.hookErrors.length]

/-- Who has asked for the end has got it: no other job's call for it has succeeded, and its own has
if the end is a clean one. -/
def Closed (h : History σ ρ) (job : Nat) (r : Request σ) (ending : Ending) : Prop :=
  ∀ k r', h.Fulfilled k r' ↔ k = job ∧ r' = r ∧ ending.isClean = true

/-- The round of hooks is over, and the outcome reported if it is to be. -/
def Concluded (h : History σ ρ) (s : Session σ ρ) : Prop :=
  ∃ job r ending answer, s.jobs[job]? = some ⟨r, .done answer⟩ ∧ Closed h job r ending ∧
    h.infos.map (·.args) = if r.isSpokenFor && ending.isClean then [summary h s] else []

structure Tally (h : History σ ρ) (s : Session σ ρ) : Prop where
  early : ¬ s.Settled → h.infos = [] ∧ h.hookErrors = []
  active : s.phase = .active → ∀ j r, ¬ h.Fulfilled j r
  ended : ∀ (j : Nat) (r : Request σ) (st : Stage ρ) (ending : Ending), s.jobs[j]? = some ⟨r, st⟩ →
    st.ending? = some ending → Closed h j r ending
  current : ∀ (j : Nat) (r : Request σ) (ending : Ending) (round : Round),
    s.jobs[j]? = some ⟨r, .notifying ending round⟩ →
      h.infos = [] ∧ h.hookErrors.length = round.failures.length
  concluded : s.phase ≠ .active → (∀ k, s.has Stage.hasEnded k = false) → Concluded h s

theorem tally_fresh (id : String) : Tally [] ({ id } : Session σ ρ) where
  early _ := ⟨rfl, rfl⟩
  active _ j r := by simp [History.Fulfilled]
  ended j r st ending hj := by simp at hj
  current j r ending round hj := by simp at hj
  concluded hphase := absurd rfl hphase

theorem fulfilled_same (hnone : ∀ j r, ¬ s.Fulfils i j r) (j : Nat) (r : Request σ) :
    History.Fulfilled (h ++ [⟨s, i, effects, t⟩]) j r ↔ h.Fulfilled j r := by
  rw [History.fulfilled_concat, or_iff_left (hnone j r)]

theorem infos_same (hinfos : infos effects = []) :
    History.infos (h ++ [⟨s, i, effects, t⟩]) = h.infos := by
  rw [History.infos_concat, Moment.records]
  exact (congrArg (h.infos ++ ·) hinfos).trans (List.append_nil _)

theorem hookErrors_same (hnone : s.hookError? i = none) :
    History.hookErrors (h ++ [⟨s, i, effects, t⟩]) = h.hookErrors := by
  rw [History.hookErrors_concat, Moment.hookError?, hnone]
  exact List.append_nil _

/-- A change that leaves alone what is at an end: nothing is told, and nothing is reported. -/
theorem Tally.quiet (htally : Tally h s) (hs : s.Sound) (hchange : Change s i t effects)
    (hinfos : infos effects = []) (hhooks : effects.filterMap Effect.hookCall? = [])
    (herror : s.hookError? i = none) (hnone : ∀ j r, ¬ s.Fulfils i j r) (hphase : t.phase = s.phase)
    (hended : ∀ (j : Nat) (r : Request σ) (st : Stage ρ) (ending : Ending),
      t.jobs[j]? = some ⟨r, st⟩ → st.ending? = some ending →
        ∃ old, s.jobs[j]? = some ⟨r, old⟩ ∧ old.ending? = some ending)
    (hround : ∀ (j : Nat) (r : Request σ) (ending : Ending) (round : Round),
      t.jobs[j]? = some ⟨r, .notifying ending round⟩ → s.jobs[j]? = some ⟨r, .notifying ending round⟩)
    (hopen : ∀ k, s.has Stage.hasEnded k = true → t.has Stage.hasEnded k = true) :
    Tally (h ++ [⟨s, i, effects, t⟩]) t := by
  have hfulfilled (j : Nat) (r : Request σ) :
      History.Fulfilled (h ++ [⟨s, i, effects, t⟩]) j r ↔ h.Fulfilled j r := fulfilled_same hnone j r
  have hreport := infos_same (s := s) (t := t) (i := i) (h := h) hinfos
  have herrors : History.hookErrors (h ++ [⟨s, i, effects, t⟩]) = h.hookErrors := hookErrors_same herror
  have hcalls : History.hookCalls (h ++ [⟨s, i, effects, t⟩]) = h.hookCalls := by
    simp [History.hookCalls_concat, Moment.hookCalls, hhooks]
  constructor
  case early =>
    intro hset
    rw [hreport, herrors]
    exact htally.early fun hbefore => hset (settled_change hs hchange hbefore)
  case active =>
    intro hactive j r
    rw [hfulfilled]
    exact htally.active (hphase ▸ hactive) j r
  case ended =>
    intro j r st ending hj hst k r'
    obtain ⟨old, hold, hbefore⟩ := hended j r st ending hj hst
    rw [hfulfilled]
    exact htally.ended j r old ending hold hbefore k r'
  case current =>
    intro j r ending round hj
    rw [hreport, herrors]
    exact htally.current j r ending round (hround j r ending round hj)
  case concluded =>
    intro hterminal hover
    have hbefore : ∀ k, s.has Stage.hasEnded k = false := by
      intro k
      by_contra hk
      have hk := hopen k (by simpa using hk)
      rw [hover k] at hk
      cases hk
    obtain ⟨job, r, ending, answer, hj, hclosed, hargs⟩ := htally.concluded (hphase ▸ hterminal) hbefore
    refine ⟨job, r, ending, answer, done_stays hchange hj, fun k r' => ?_, ?_⟩
    · rw [hfulfilled]
      exact hclosed k r'
    · rw [hreport, hargs, summary, summary, hcalls, herrors, hphase, id_change hchange]

/-- One job moves, and stands to the end of the transaction as before. -/
theorem Tally.moved (htally : Tally h s) (hs : s.Sound) (hchange : Change s i t effects)
    (hinfos : infos effects = []) (hhooks : effects.filterMap Effect.hookCall? = [])
    (herror : s.hookError? i = none) (hnone : ∀ j r, ¬ s.Fulfils i j r) (hphase : t.phase = s.phase)
    (hj : s.jobs[job]? = some ⟨r, old⟩)
    (hjobs : ∀ k, t.jobs[k]? = if k = job then some ⟨r, st⟩ else s.jobs[k]?)
    (hending : st.ending? = old.ending?) (hround : ∀ ending round, st ≠ .notifying ending round) :
    Tally (h ++ [⟨s, i, effects, t⟩]) t := by
  apply htally.quiet hs hchange hinfos hhooks herror hnone hphase
  · intro k r' st' ending hk hst
    rw [hjobs] at hk
    split at hk
    · subst k
      cases hk
      exact ⟨old, hj, hending ▸ hst⟩
    · exact ⟨st', hk, hst⟩
  · intro k r' ending round hk
    rw [hjobs] at hk
    split at hk
    · exact absurd (congrArg Job.stage (Option.some.inj hk)) (hround ending round)
    · exact hk
  · intro k hk
    obtain ⟨r', st', hk, hst⟩ := has_eq_true_iff.mp hk
    by_cases hkj : k = job
    · subst k
      rw [hj] at hk
      cases hk
      refine has_eq_true_iff.mpr ⟨r, st, by rw [hjobs, if_pos rfl], ?_⟩
      rw [Stage.hasEnded, hending]
      exact hst
    · exact has_eq_true_iff.mpr ⟨r', st', by rw [hjobs, if_neg hkj, hk], hst⟩

/-- The end is reached: whose it is, and whether it is what was asked for, is settled then. -/
theorem Tally.reached (ending : Ending) (htally : Tally h s) (hs : s.Sound)
    (hchange : Change s i t effects) (hinfos : infos effects = []) (herror : s.hookError? i = none)
    (hactive : s.phase = .active) (hjobs : t.jobs[job]? = some ⟨r, st⟩)
    (hback : st.isHandingBack = true) (hending : st.ending? = some ending)
    (hfulfils : ∀ k r', s.Fulfils i k r' ↔ k = job ∧ r' = r ∧ ending.isClean = true) :
    Tally (h ++ [⟨s, i, effects, t⟩]) t := by
  have ht : t.Sound := sound_change hchange hs
  have hhas : t.has Stage.hasEnded job = true := by
    rw [has_eq hjobs]
    exact Stage.hasEnded_of_ending? hending
  have hone {j : Nat} {r' : Request σ} {st' : Stage ρ} (hj : t.jobs[j]? = some ⟨r', st'⟩)
      (hst : st'.hasEnded = true) : j = job ∧ r' = r ∧ st' = st := by
    have hjob : j = job := ht.ender j job (by rw [has_eq hj, hst]) hhas
    subst hjob
    rw [hjobs] at hj
    cases hj
    exact ⟨rfl, rfl, rfl⟩
  obtain ⟨hnoinfo, hnoerror⟩ := htally.early fun hset => hset.1 hactive
  constructor
  case early =>
    intro _
    rw [infos_same hinfos, hookErrors_same herror]
    exact ⟨hnoinfo, hnoerror⟩
  case active => exact fun hstill => absurd hstill (ht.phase_ne_active_of_ended hhas)
  case ended =>
    intro j r' st' ending' hj hst k r''
    obtain ⟨rfl, rfl, rfl⟩ := hone hj (Stage.hasEnded_of_ending? hst)
    rw [hending] at hst
    cases hst
    rw [History.fulfilled_concat, or_iff_right (htally.active hactive k r'')]
    exact hfulfils k r''
  case current =>
    intro j r' ending' round hj
    obtain ⟨-, -, rfl⟩ := hone hj rfl
    cases hback
  case concluded =>
    intro _ hover
    rw [hover job] at hhas
    cases hhas

/-- The failures that a round has noted by the time it goes on. -/
def notedBy : Round.Next → Nat
  | .call round => round.failures.length
  | .ended failures => (failures.getD []).length
  | .aborted _ => 0

theorem notedBy_next (hook : Hook) (failures : Notification) (pending : List Observer) :
    notedBy (Round.next hook failures pending) = failures.length := by
  cases pending with
  | nil => cases failures <;> rfl
  | cons o rest => rfl

/-- The round of hooks begins, goes on, or ends with the report of the outcome. -/
theorem Tally.proceed {ending : Ending} {next : Round.Next} (htally : Tally h s) (hs : s.Sound)
    (hchange : Change s i t effects) (hcomplete : ∀ failures, next = .ended failures →
      History.hookCalls (h ++ [⟨s, i, effects, t⟩]) = s.registry.observers.map (s.phase.hook, ·))
    (hj : s.jobs[job]? = some ⟨r, old⟩) (hending : old.ending? = some ending)
    (hjobs : ∀ k, t.jobs[k]? = if k = job then some ⟨r, s.roundStage r ending next⟩ else s.jobs[k]?)
    (hset : t.Settled) (hnone : ∀ j r, ¬ s.Fulfils i j r) (hbefore : h.infos = [])
    (hinfos : infos effects = s.reports (some (r, ending, next)))
    (hnoted : (History.hookErrors (h ++ [⟨s, i, effects, t⟩])).length = notedBy next)
    (hordinary : ∀ e, next ≠ .aborted e) :
    Tally (h ++ [⟨s, i, effects, t⟩]) t := by
  have hhas : s.has Stage.hasEnded job = true := by
    rw [has_eq hj]
    exact Stage.hasEnded_of_ending? hending
  have hterminal := hs.phase_ne_active_of_ended hhas
  have hphase : t.phase = s.phase := phase_stays hs hchange hterminal
  have hreport : History.infos (h ++ [⟨s, i, effects, t⟩]) = s.reports (some (r, ending, next)) := by
    rw [History.infos_concat, hbefore, List.nil_append, ← hinfos]
    rfl
  have hclosed : Closed (h ++ [⟨s, i, effects, t⟩]) job r ending := by
    intro k r'
    rw [fulfilled_same hnone]
    exact htally.ended job r old ending hj hending k r'
  have hwhose {k : Nat} {r' : Request σ} {st' : Stage ρ} (hk : t.jobs[k]? = some ⟨r', st'⟩)
      (hst : st'.hasEnded = true) : k = job ∧ r' = r ∧ st' = s.roundStage r ending next := by
    rw [hjobs] at hk
    split at hk
    · rename_i hkj
      cases hk
      exact ⟨hkj, rfl, rfl⟩
    · rename_i hkj
      exact absurd (hs.ender k job (by rw [has_eq hk, hst]) hhas) hkj
  constructor
  case early => exact fun hopen => absurd hset hopen
  case active => exact fun hactive => absurd hactive hset.1
  case ended =>
    intro k r' st' ending' hk hst
    obtain ⟨rfl, rfl, rfl⟩ := hwhose hk (Stage.hasEnded_of_ending? hst)
    cases next with
    | call round =>
      cases hst
      exact hclosed
    | _ => cases hst
  case current =>
    intro k r' ending' round hk
    obtain ⟨rfl, rfl, hround⟩ := hwhose hk rfl
    cases next with
    | call next =>
      cases hround
      exact ⟨hreport, hnoted⟩
    | _ => cases hround
  case concluded =>
    intro _ hover
    cases next with
    | call round =>
      have hstill := hover job
      rw [has_eq ((hjobs job).trans (if_pos rfl))] at hstill
      cases hstill
    | aborted e => exact absurd rfl (hordinary e)
    | ended failures =>
      refine ⟨job, r, ending, _, (hjobs job).trans (if_pos rfl), hclosed, ?_⟩
      have hcalls := hcomplete failures rfl
      rw [hreport, reports]
      split
      · rw [List.map_singleton, summary, hcalls, hnoted, hphase, id_change hchange, List.length_map]
        rfl
      · rfl

theorem not_fulfils (h : ∀ c, s.answered i = some (c, .ok ()) → c.isEnd = false) (j : Nat) (r : Request σ) :
    ¬ s.Fulfils i j r := by
  rintro ⟨-, -, hr, hanswered⟩
  have hend := h _ hanswered
  cases r with
  | execute => cases hr
  | _ => cases hend

theorem fulfils_iff (hi : i.job? = some job) (hj : s.jobs[job]? = some ⟨r, old⟩)
    (hr : r.isEnding = true) (k : Nat) (r' : Request σ) :
    s.Fulfils i k r' ↔ k = job ∧ r' = r ∧ s.answered i = some (r.firstCall, .ok ()) := by
  constructor
  · rintro ⟨hk, ⟨st, hst⟩, -, hanswered⟩
    rw [hi] at hk
    cases hk
    rw [hj] at hst
    cases hst
    exact ⟨rfl, rfl, hanswered⟩
  · rintro ⟨rfl, rfl, hanswered⟩
    exact ⟨hi, ⟨old, hj⟩, hr, hanswered⟩

theorem next?_settle_back {ending : Ending} {outcome : Except Error Unit}
    (hj : s.jobs[job]? = some ⟨r, old⟩) (hending : old.ending? = some ending)
    (hback : isBack old outcome = true) :
    s.next? (.settle job outcome) = some (r, ending, Round.start ending.hook s.registry) := by
  cases old <;> simp_all [next?, isBack]

theorem hookError?_settle (hj : s.jobs[job]? = some ⟨r, old⟩) (hold : old.isPhysical = true)
    (outcome : Except Error Unit) : s.hookError? (.settle job outcome) = none := by
  rcases outcome with e | ⟨⟩
  · cases old <;> simp_all [hookError?, isNotifying, stage?, Stage.isPhysical]
  · rfl

theorem hookError?_eq_none_of_not_fits (hfits : s.fits i = false) : s.hookError? i = none := by
  cases i with
  | settle job outcome =>
    rcases outcome with e | ⟨⟩
    · rcases hj : s.jobs[job]? with _ | ⟨r, st⟩
      · simp [hookError?, isNotifying, stage?, hj]
      · cases st <;> simp_all [hookError?, isNotifying, fits, stage?]
    · rfl
  | _ => rfl

theorem Tally.rest (htally : Tally h s) (hs : s.Sound) (hchange : Change s i t effects)
    (hinfos : infos effects = []) (hhooks : effects.filterMap Effect.hookCall? = [])
    (herror : s.hookError? i = none) (hanswered : s.answered i = none) (hphase : t.phase = s.phase)
    (hjobs : t.jobs = s.jobs) : Tally (h ++ [⟨s, i, effects, t⟩]) t := by
  apply htally.quiet hs hchange hinfos hhooks herror (not_fulfils (by simp [hanswered])) hphase
  · intro j r st ending hj hst
    exact ⟨st, hjobs ▸ hj, hst⟩
  · intro j r ending round hj
    exact hjobs ▸ hj
  · intro k hk
    simpa [has, stage?, hjobs] using hk

theorem Tally.opened {records : List Log.Record} (htally : Tally h s) (hs : s.Sound)
    (hchange : Change s (.request r) { s with jobs := s.jobs ++ [{ request := r }] }
      (records.map .log ++ [.opened s.jobs.length]))
    (hinfos : infos (records.map .log ++ [.opened s.jobs.length] : List (Effect σ ρ)) = []) :
    Tally (h ++ [⟨s, .request r, records.map .log ++ [.opened s.jobs.length],
      { s with jobs := s.jobs ++ [{ request := r }] }⟩]) { s with jobs := s.jobs ++ [{ request := r }] } := by
  have hold {k : Nat} {r' : Request σ} {st : Stage ρ}
      (hk : (s.jobs ++ [{ request := r }])[k]? = some ⟨r', st⟩) (hst : st.hasEnded = true) :
      s.jobs[k]? = some ⟨r', st⟩ := by
    rw [List.getElem?_append] at hk
    split at hk
    · exact hk
    · obtain ⟨_, hjob⟩ := List.getElem?_eq_some_iff.mp hk
      rw [List.getElem_singleton] at hjob
      cases hjob
      cases hst
  apply htally.quiet hs hchange hinfos (by simp) rfl (not_fulfils (by simp [answered])) rfl
  · intro j r' st ending hj hst
    exact ⟨st, hold hj (Stage.hasEnded_of_ending? hst), hst⟩
  · intro j r' ending round hj
    exact hold hj rfl
  · intro k hk
    rw [has_opened rfl r k, hk]

theorem notedBy_settle {ending : Ending} {round : Round} {outcome : Except Error Unit}
    (hj : s.jobs[job]? = some ⟨r, .notifying ending round⟩)
    (hordinary : (Input.settle job outcome : Input σ ρ).isOrdinary = true) :
    notedBy (round.settle outcome).2 =
      round.failures.length + (s.hookError? (.settle job outcome)).toList.length := by
  rcases outcome with e | ⟨⟩
  · have he : e.isOrdinary = true := hordinary
    have hnotifying : s.isNotifying job = true := by simp [isNotifying, stage?_eq hj]
    simp [Round.settle, he, notedBy_next, hookError?, hnotifying]
  · exact notedBy_next _ _ _

/-- The connection is back, and the round begins. -/
theorem Tally.announced {ending : Ending} {outcome : Except Error Unit} (htally : Tally h s) (hs : s.Sound)
    (htold : Told h s) (hchange : Change s (.settle job outcome) t effects)
    (hordinary : (Input.settle job outcome : Input σ ρ).isOrdinary = true)
    (hj : s.jobs[job]? = some ⟨r, old⟩) (hending : old.ending? = some ending)
    (hback : isBack old outcome = true) (hset : t.Settled)
    (hjobs : ∀ k, t.jobs[k]? =
      if k = job then some ⟨r, s.roundStage r ending (Round.start ending.hook s.registry)⟩ else s.jobs[k]?)
    (hinfos : infos effects = s.reports (s.next? (.settle job outcome))) :
    Tally (h ++ [⟨s, .settle job outcome, effects, t⟩]) t := by
  obtain ⟨hnoinfo, hnoerror⟩ := htally.early (not_settled_of_isBack hj hback)
  rw [next?_settle_back hj hending hback] at hinfos
  refine htally.proceed hs hchange ?_ hj hending hjobs hset (not_fulfils ?_) hnoinfo hinfos ?_
    (start_ne_aborted _ _)
  · intro failures hnext
    apply htold.ended hchange hordinary hj (Stage.hasEnded_of_ending? hending)
    rw [hjobs job, hnext, if_pos rfl]
    rfl
  · intro c hc
    rw [answered_settle hj (isPhysical_of_isBack hback)] at hc
    cases old <;> simp only [isBack, Stage.call?, Option.map_some, Option.some.injEq, Prod.mk.injEq,
      Bool.false_eq_true] at hback hc <;> exact hc.1 ▸ rfl
  · rw [hookErrors_same (hookError?_settle hj (isPhysical_of_isBack hback) _), hnoerror]
    exact (notedBy_next ending.hook [] s.registry.observers).symm

/-- An observer has been told, and the round goes on. -/
theorem Tally.notified {ending : Ending} {round : Round} {outcome : Except Error Unit} (htally : Tally h s)
    (hs : s.Sound) (htold : Told h s) (hchange : Change s (.settle job outcome) t effects)
    (hordinary : (Input.settle job outcome : Input σ ρ).isOrdinary = true)
    (hj : s.jobs[job]? = some ⟨r, .notifying ending round⟩)
    (hjobs : ∀ k, t.jobs[k]? =
      if k = job then some ⟨r, s.roundStage r ending (round.settle outcome).2⟩ else s.jobs[k]?)
    (hinfos : infos effects = s.reports (s.next? (.settle job outcome))) :
    Tally (h ++ [⟨s, .settle job outcome, effects, t⟩]) t := by
  obtain ⟨hnoinfo, hcount⟩ := htally.current job r ending round hj
  have hnext : s.next? (.settle job outcome) = some (r, ending, (round.settle outcome).2) := by
    simp [next?, hj]
  rw [hnext] at hinfos
  refine htally.proceed hs hchange ?_ hj rfl hjobs (settled_change hs hchange (settled_of_notifying hs hj))
    (not_fulfils ?_) hnoinfo hinfos ?_ (settle_ne_aborted hordinary)
  · intro failures hover
    apply htold.ended hchange hordinary hj rfl
    rw [hjobs job, hover, if_pos rfl]
    rfl
  · simp [answered, hj, Stage.call?]
  · rw [History.hookErrors_concat, List.length_append, hcount, Moment.hookError?]
    exact (notedBy_settle hj hordinary).symm

theorem ending?_of_waiting (h : st = .ready ∨ st = .queued) : st.ending? = none := by
  rcases h with rfl | rfl <;> rfl

theorem tally_change (hs : s.Sound) (hordinary : i.isOrdinary = true) (hchange : Change s i t effects)
    (hinfos : infos effects = s.reports (s.next? i)) (htold : Told h s) (htally : Tally h s) :
    Tally (h ++ [⟨s, i, effects, t⟩]) t := by
  cases hchange with
  | idle hfits =>
    exact htally.rest hs (.idle hfits) rfl rfl (hookError?_eq_none_of_not_fits hfits)
      (answered_eq_none_of_not_fits hfits) rfl rfl
  | refused he => exact htally.rest hs (.refused he) rfl rfl rfl rfl rfl rfl
  | registered hactive ho => exact htally.rest hs (.registered hactive ho) rfl rfl rfl rfl rfl rfl
  | abandoned => exact htally.rest hs .abandoned rfl rfl rfl rfl rfl rfl
  | opened records hopen => exact htally.opened hs (.opened records hopen) hinfos
  | queued hj hbusy =>
    exact htally.moved hs (.queued hj hbusy) rfl rfl rfl (not_fulfils (by simp [answered])) rfl hj
      (jobs_setStage _ hj) rfl (by simp)
  | late hj hl hterminal =>
    have hending : Stage.ending? _ = none := ending?_of_waiting (grant?_waiting hl hj)
    exact htally.moved hs (.late hj hl hterminal) hinfos (by simp) rfl
      (not_fulfils (by simp [answered])) rfl hj (jobs_setStage _ hj) hending.symm (by simp)
  | granted hj hl hactive =>
    have hending : Stage.ending? _ = none := ending?_of_waiting (grant?_waiting hl hj)
    refine htally.moved hs (.granted hj hl hactive) hinfos rfl rfl
      (not_fulfils (by simp [answered])) rfl hj (jobs_setStage _ hj) ?_ ?_
    · rw [hending, Stage.firstStage_ending?]
    · rename_i r _ _
      cases r <;> simp [Request.firstStage]
  | cancelled hj =>
    exact htally.moved hs (.cancelled hj) rfl rfl rfl (not_fulfils (by simp [answered])) rfl hj
      (jobs_setStage _ hj) rfl (by simp)
  | left hj =>
    exact htally.moved hs (.left hj) hinfos (by simp) rfl (not_fulfils (by simp [answered])) rfl hj
      (jobs_setStage _ hj) rfl (by simp)
  | replied hj =>
    have hstatement := (hs.fits _ _ _ hj).2
    refine htally.moved hs (.replied hj) hinfos (by simp) rfl (not_fulfils ?_) rfl hj
      (jobs_setStage _ hj) rfl (by simp)
    intro c hc
    simp only [answered, hj, Option.some.injEq, Prod.mk.injEq] at hc
    rw [← hc.1]
    rename_i r _
    cases r <;> first | rfl | cases hstatement
  | broken hj hphysical he =>
    rw [Input.isOrdinary, he] at hordinary
    cases hordinary
  | @committed job r hj =>
    obtain ⟨hactive, rfl⟩ := hs.fits _ _ _ hj
    refine Tally.reached .committed htally hs (.committed hj) rfl rfl hactive (job_moved hj) rfl rfl ?_
    intro k r'
    rw [fulfils_iff rfl hj rfl]
    simp [answered, hj, Stage.call?, Request.firstCall, Ending.isClean]
  | @commitFailed job r e hj he =>
    refine htally.moved hs (.commitFailed hj he) rfl rfl (hookError?_settle hj rfl _) (not_fulfils ?_)
      rfl hj (jobs_setStage _ hj) rfl (by simp)
    simp [answered, hj, Stage.call?]
  | @rolledBack job r commit hj =>
    obtain ⟨hactive, hr, hcommit⟩ := hs.fits _ _ _ hj
    refine Tally.reached (.rolledBack commit none) htally hs (.rolledBack hj) rfl rfl hactive
      (job_moved hj) rfl rfl ?_
    intro k r'
    rw [fulfils_iff rfl hj hr]
    cases r <;> cases commit <;>
      simp_all [answered, Stage.call?, Request.firstCall, Ending.isClean, Request.isEnding]
  | @rollbackFailed job r commit e hj he =>
    obtain ⟨hactive, hr, -⟩ := hs.fits _ _ _ hj
    refine Tally.reached (.rolledBack commit (some e)) htally hs (.rollbackFailed hj he) rfl
      (hookError?_settle hj rfl _) hactive (job_moved hj) rfl rfl ?_
    intro k r'
    rw [fulfils_iff rfl hj hr]
    simp [answered, hj, Stage.call?, Ending.isClean]
  | @releaseFailed job r ending e hj he =>
    refine htally.moved hs (.releaseFailed hj he) rfl rfl (hookError?_settle hj rfl _) (not_fulfils ?_)
      rfl hj (jobs_setStage _ hj) rfl (by simp)
    simp [answered, hj, Stage.call?]
  | @announced job r st ending outcome records hj hending hback =>
    exact htally.announced hs htold (.announced records hj hending hback) hordinary hj hending hback
      (settled_of_isBack hs hj hback) (jobs_setStage _ hj) hinfos
  | @notified job r ending round outcome hj =>
    exact htally.notified hs htold (.notified hj) hordinary hj (jobs_setStage _ hj) hinfos

theorem tally_history (id : String) (inputs : List (Input σ ρ))
    (hordinary : ∀ i ∈ inputs, i.isOrdinary = true) :
    Tally (({ id } : Session σ ρ).history inputs) (({ id } : Session σ ρ).after inputs) := by
  induction inputs using List.reverseRecOn with
  | nil => exact tally_fresh id
  | append_singleton rest i ih =>
    have hbefore := ih fun j hj => hordinary j (List.mem_append_left _ hj)
    have hs : (({ id } : Session σ ρ).after rest).Sound := sound_after (sound_fresh id) rest
    rw [after_append, history_append]
    exact tally_change hs (hordinary i (by simp)) (step_change _ i) (infos_step hs i)
      (told_history id rest) hbefore

/-- The end was asked for explicitly, or by closing the session; it has succeeded and is over. -/
def IsFinalized (h : History σ ρ) (s : Session σ ρ) : Prop :=
  ∃ (job : Nat) (r : Request σ) (answer : Except Error (Answer ρ)), h.Fulfilled job r ∧
    r.isSpokenFor = true ∧ s.jobs[job]? = some ⟨r, .done answer⟩

/-- What a session's records tell at the end of any run. -/
structure Reported (h : History σ ρ) (s : Session σ ρ) : Prop where
  carried : ∀ (m : Moment σ ρ) (e : Error), m ∈ h → m.raised = some e →
    ∃ record ∈ m.records, record.Carries e
  outcome : IsFinalized h s → h.infos.map (·.args) = [summary h s]
  silent : ¬ IsFinalized h s → h.infos = []

theorem raised_isOrdinary {e : Error} (hordinary : i.isOrdinary = true) (hraised : s.raised i = some e) :
    e.isOrdinary = true := by
  cases i with
  | settle job outcome =>
    rcases outcome with e' | ⟨⟩
    · simp only [raised, Option.ite_none_right_eq_some, Option.some.injEq] at hraised
      rw [← hraised.2]
      exact hordinary
    · cases hraised
  | _ => cases hraised

/-- While somebody is on the way from the end to the last hook, nothing is reported. -/
theorem Tally.unreported (htally : Tally h s) (hk : s.has Stage.hasEnded k = true) : h.infos = [] := by
  obtain ⟨r, st, hj, hst⟩ := has_eq_true_iff.mp hk
  cases st with
  | releasing ending | discarding ending =>
    refine (htally.early fun hset => ?_).1
    have hback := hset.2 k
    rw [has_eq hj] at hback
    cases hback
  | notifying ending round => exact (htally.current k r ending round hj).1
  | _ => cases hst

theorem Tally.outcome (htally : Tally h s) (hfinal : IsFinalized h s) :
    h.infos.map (·.args) = [summary h s] := by
  obtain ⟨job, r, answer, hfulfilled, hspoken, hj⟩ := hfinal
  have hphase : s.phase ≠ .active := fun hactive => htally.active hactive job r hfulfilled
  have hover (k : Nat) : s.has Stage.hasEnded k = false := by
    by_contra hk
    obtain ⟨r', st, hk, hst⟩ := has_eq_true_iff.mp (by simpa using hk)
    obtain ⟨ending, hending⟩ := Option.isSome_iff_exists.mp hst
    obtain ⟨rfl, rfl, -⟩ := (htally.ended k r' st ending hk hending job r).mp hfulfilled
    rw [hj] at hk
    cases hk
    cases hst
  obtain ⟨k, r', ending, answer', hk, hclosed, hargs⟩ := htally.concluded hphase hover
  obtain ⟨rfl, rfl, hclean⟩ := (hclosed job r).mp hfulfilled
  rw [hargs, hspoken, hclean]
  rfl

theorem Tally.silent (htally : Tally h s) (hfinal : ¬ IsFinalized h s) : h.infos = [] := by
  by_cases hactive : s.phase = .active
  · exact (htally.early fun hset => hset.1 hactive).1
  by_cases hover : ∃ k, s.has Stage.hasEnded k = true
  · obtain ⟨k, hk⟩ := hover
    exact htally.unreported hk
  obtain ⟨job, r, ending, answer, hj, hclosed, hargs⟩ :=
    htally.concluded hactive fun k => by simpa using fun hk => hover ⟨k, hk⟩
  rw [if_neg] at hargs
  · exact List.map_eq_nil_iff.mp hargs
  · intro hboth
    obtain ⟨hspoken, hclean⟩ := Bool.and_eq_true_iff.mp hboth
    exact hfinal ⟨job, r, answer, (hclosed job r).mpr ⟨rfl, rfl, hclean⟩, hspoken, hj⟩

theorem reported (id : String) (inputs : List (Input σ ρ))
    (hordinary : ∀ i ∈ inputs, i.isOrdinary = true) :
    Reported (({ id } : Session σ ρ).history inputs) (({ id } : Session σ ρ).after inputs) := by
  have htally := tally_history id inputs hordinary
  constructor
  case carried =>
    intro m e hm hraised
    obtain ⟨xs, i, ys, rfl, rfl⟩ := mem_history hm
    exact raised_carried hraised (raised_isOrdinary (hordinary i (by simp)) hraised)
  case outcome => exact htally.outcome
  case silent => exact htally.silent

end Session
end Transact
