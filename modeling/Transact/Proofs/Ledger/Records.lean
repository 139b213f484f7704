import Transact.Proofs.Ledger.Custody
import Transact.Proofs.Session.Records

/-! No failure is lost on the way from the call that begins a session to the last hook that is told
of its end. -/
namespace Transact

variable {σ ρ : Type}

def Slot.lease? : Slot σ ρ → Option (Lease σ ρ)
  | leased lease => some lease
  | _ => none

namespace Ledger

def Effect.record? : Effect σ ρ → Option Log.Record
  | log record => some record
  | session _ effect => effect.record?
  | _ => none

/-- The failure that an input brings: of the source, of a call on a connection, of a hook. -/
def raised (l : Ledger σ ρ) : Input σ ρ → Option Error
  | .settle slot (.error e) _ =>
    match l.slots[slot]? with
    | some .acquiring => some e
    | some (.opening _ stage) => (@Opening.call? σ stage).map fun _ => e
    | _ => none
  | .session slot i => (l.lease? slot).bind (·.session.raised i)
  | _ => none

/-- What an input is to the session of a slot. -/
def sessionMoment? (l : Ledger σ ρ) (slot : Nat) : Input σ ρ → Option (Transact.Moment σ ρ)
  | .session k i => if k = slot then (l.lease? k).map (·.session.moment i) else none
  | _ => none

namespace Moment

def records (m : Moment σ ρ) : List Log.Record := m.effects.filterMap Effect.record?

def raised (m : Moment σ ρ) : Option Error := m.before.raised m.input

/-- The source has failed for want of a connection, and the call to begin a session fails so. -/
def Refuses (m : Moment σ ρ) (e : Error) : Prop :=
  e.isAcquire = true ∧ (∃ slot id, m.input = .settle slot (.error e) id ∧
    m.before.slots[slot]? = some .acquiring) ∧ .failed e ∈ m.effects

end Moment

/-- What has happened to the session of a slot. -/
def History.session (h : History σ ρ) (slot : Nat) : Transact.History σ ρ :=
  h.filterMap fun m => m.before.sessionMoment? slot m.input

variable {l m : Ledger σ ρ} {i : Input σ ρ} {k c : Nat} {h : History σ ρ} {old new : Slot σ ρ}

theorem History.session_concat {m : Moment σ ρ} : History.session (h ++ [m]) k =
    h.session k ++ (m.before.sessionMoment? k m.input).toList := by
  cases hm : m.before.sessionMoment? k m.input <;> simp [History.session, hm]

/-! Failures -/

theorem filterMap_record?_session (effects : List (Transact.Effect σ ρ)) :
    (effects.map (Effect.session c)).filterMap Effect.record? = effects.filterMap Transact.Effect.record? := by
  rw [List.filterMap_map]
  rfl

theorem proceed_records (settled : List Log.Record × Opening.Next) (connection : Option Nat) (id : String)
    (hcall : connection ≠ none ∨ ∃ e, settled.2 = .failed e) {record : Log.Record} (hrecord : record ∈ settled.1) :
    record ∈ (l.proceed k connection id settled).2.filterMap Effect.record? := by
  obtain ⟨records, next⟩ := settled
  have hmem : record ∈ (records.map (Effect.log : _ → Effect σ ρ)).filterMap Effect.record? := by
    simpa [List.filterMap_map, Function.comp_def, Effect.record?] using hrecord
  cases next <;> cases connection <;> simp_all [proceed, List.filterMap_append]

/-- An opening reports whatever fails, but for a source that says itself that it has no connection. -/
theorem opening_records {stage : Opening} {e : Error} (he : e.isOrdinary = true)
    (hstage : stage = .acquiring → e.isAcquire = false) :
    ∃ record ∈ (stage.settle (.error e)).1, record.Carries e := by
  cases stage with
  | acquiring =>
    simp only [Opening.settle, he, hstage rfl, Bool.not_true, Bool.or_self, Bool.false_eq_true, if_false]
    exact ⟨_, List.mem_singleton_self _, rfl, .inr rfl⟩
  | beginning =>
    simp only [Opening.settle, he, if_true]
    exact ⟨_, List.mem_singleton_self _, rfl, .inr rfl⟩
  | releasing cause =>
    simp only [Opening.settle, he, if_true]
    exact ⟨_, List.mem_singleton_self _, rfl, .inl rfl⟩
  | discarding cause =>
    simp only [Opening.settle, he, if_true]
    exact ⟨_, List.mem_singleton_self _, rfl, .inr rfl⟩

theorem raised_settle {outcome : Except Error Unit} {id : String} {e : Error}
    (hraised : l.raised (.settle k outcome id) = some e) : outcome = .error e ∧
      (l.slots[k]? = some .acquiring ∨ ∃ c stage, l.slots[k]? = some (.opening c stage) ∧ stage ≠ .acquiring) := by
  rcases outcome with e' | ⟨⟩
  · simp only [raised] at hraised
    split at hraised
    · rename_i hk
      exact ⟨congrArg _ (Option.some.inj hraised), .inl hk⟩
    · rename_i c stage hk
      obtain ⟨call, hcall, rfl⟩ := Option.map_eq_some_iff.mp hraised
      refine ⟨rfl, .inr ⟨c, stage, hk, ?_⟩⟩
      rintro rfl
      cases hcall
    · cases hraised
  · cases hraised

theorem raised_carried {e : Error} (hordinary : i.isOrdinary = true) (hraised : l.raised i = some e) :
    (∃ record ∈ (l.moment i).records, record.Carries e) ∨ (l.moment i).Refuses e := by
  cases i with
  | settle k outcome id =>
    obtain ⟨rfl, hk | ⟨c, stage, hk, hstage⟩⟩ := raised_settle hraised
    · cases hacquire : e.isAcquire with
      | true =>
        refine .inr ⟨hacquire, ⟨k, id, rfl, hk⟩, ?_⟩
        simp [moment, step, hk, Opening.settle, hacquire, proceed]
      | false =>
        obtain ⟨record, hrecord, hcarries⟩ := opening_records hordinary fun _ => hacquire
        refine .inl ⟨record, ?_, hcarries⟩
        simp only [moment, Moment.records, step, hk]
        refine proceed_records _ none id (.inr ?_) hrecord
        have he : e.isOrdinary = true := hordinary
        simp [Opening.settle, hacquire, he]
    · obtain ⟨record, hrecord, hcarries⟩ := opening_records hordinary fun h => absurd h hstage
      refine .inl ⟨record, ?_, hcarries⟩
      simp only [moment, Moment.records, step, hk]
      exact proceed_records _ (some c) id (.inl (by simp)) hrecord
  | session k i =>
    obtain ⟨lease, hlease, hraised⟩ := Option.bind_eq_some_iff.mp hraised
    obtain ⟨record, hrecord, hcarries⟩ :=
      Session.raised_carried hraised (Session.raised_isOrdinary hordinary hraised)
    refine .inl ⟨record, ?_, hcarries⟩
    simp only [moment, Moment.records, step, hlease, filterMap_record?_session]
    exact hrecord
  | _ => cases hraised

/-! The sessions of a ledger -/

theorem lease?_eq (l : Ledger σ ρ) (k : Nat) : l.lease? k = (l.slots[k]?).bind Slot.lease? := by
  unfold lease?
  rcases l.slots[k]? with _ | slot
  · rfl
  · cases slot <;> rfl

theorem lease?_sets (hsets : Sets l m k new) (j : Nat) :
    m.lease? j = if j = k then new.lease? else l.lease? j := by
  rw [lease?_eq, lease?_eq, hsets j]
  split <;> rfl

/-- No session comes to be in the slot but a new one. -/
def IsFresh (new : Slot σ ρ) : Prop := ∀ lease, new.lease? = some lease → ∃ id, lease.session = { id }

theorem proceed_sets {connection : Option Nat} {id : String} {settled : List Log.Record × Opening.Next}
    (hk : l.slots[k]? = some old) : (l.proceed k connection id settled).1 = l ∨
      ∃ new, Sets l (l.proceed k connection id settled).1 k new ∧ IsFresh new := by
  obtain ⟨records, next⟩ := settled
  cases next with
  | call stage call =>
    cases connection with
    | some c => exact .inr ⟨_, sets_put hk, by simp [IsFresh, Slot.lease?]⟩
    | none => exact .inl rfl
  | opened =>
    cases connection with
    | some c =>
      refine .inr ⟨_, sets_put hk, fun lease hlease => ⟨id, ?_⟩⟩
      cases hlease
      rfl
    | none => exact .inl rfl
  | failed e =>
    refine .inr ⟨.failed, ?_, by simp [IsFresh, Slot.lease?]⟩
    cases connection <;> exact sets_put hk

/-- What is not about a session sets at most a slot that has none. -/
theorem step_opening (hi : ∀ slot j, i ≠ .session slot j) : (l.step i).1 = l ∨
    ∃ k new, Sets l (l.step i).1 k new ∧ l.lease? k = none ∧ IsFresh new := by
  have hnew : l.lease? l.slots.length = none := by simp [lease?]
  cases i with
  | begin => exact .inr ⟨_, _, sets_append, hnew, by simp [IsFresh, Slot.lease?]⟩
  | wrap c id =>
    refine .inr ⟨_, _, sets_append, hnew, fun lease hlease => ⟨id, ?_⟩⟩
    cases hlease
    rfl
  | session slot j => exact absurd rfl (hi slot j)
  | acquired slot c =>
    simp only [step]
    split
    · rename_i hk
      refine (proceed_sets hk).imp_right ?_
      rintro ⟨new, hsets, hfresh⟩
      exact ⟨slot, new, hsets, by simp [lease?, hk], hfresh⟩
    · exact .inl rfl
  | settle slot outcome id =>
    simp only [step]
    split
    · rename_i hk
      refine (proceed_sets hk).imp_right ?_
      rintro ⟨new, hsets, hfresh⟩
      exact ⟨slot, new, hsets, by simp [lease?, hk], hfresh⟩
    · rename_i hk
      refine (proceed_sets hk).imp_right ?_
      rintro ⟨new, hsets, hfresh⟩
      exact ⟨slot, new, hsets, by simp [lease?, hk], hfresh⟩
    · exact .inl rfl

/-- What has happened to the sessions is a run of each, from its beginning. -/
structure Runs (h : History σ ρ) (l : Ledger σ ρ) : Prop where
  unused : ∀ k, l.lease? k = none → h.session k = []
  run : ∀ k lease, l.lease? k = some lease → ∃ id inputs, (∀ i ∈ inputs, i.isOrdinary = true) ∧
    h.session k = ({ id } : Session σ ρ).history inputs ∧ lease.session = ({ id } : Session σ ρ).after inputs

theorem Runs.opening (hruns : Runs h l) (hi : ∀ slot j, i ≠ .session slot j) :
    Runs (h ++ [l.moment i]) (l.step i).1 := by
  have hsame (k : Nat) : History.session (h ++ [l.moment i]) k = h.session k := by
    have hnone : l.sessionMoment? k i = none := by
      cases i with
      | session slot j => exact absurd rfl (hi slot j)
      | _ => rfl
    rw [History.session_concat, moment, hnone]
    exact List.append_nil _
  rcases step_opening (l := l) hi with hstep | ⟨slot, new, hsets, hnone, hfresh⟩
  · rw [hstep]
    exact ⟨fun k hk => (hsame k).trans (hruns.unused k hk), fun k => hsame k ▸ hruns.run k⟩
  constructor
  case unused =>
    intro k hk
    rw [hsame]
    rw [lease?_sets hsets] at hk
    split at hk
    · subst k
      exact hruns.unused slot hnone
    · exact hruns.unused k hk
  case run =>
    intro k lease hk
    rw [hsame]
    rw [lease?_sets hsets] at hk
    split at hk
    · subst k
      obtain ⟨id, hid⟩ := hfresh lease hk
      exact ⟨id, [], by simp, hruns.unused slot hnone, hid⟩
    · exact hruns.run k lease hk

theorem Runs.session (hruns : Runs h l) {slot : Nat} {i : Transact.Input σ ρ}
    (hordinary : i.isOrdinary = true) :
    Runs (h ++ [l.moment (.session slot i)]) (l.step (.session slot i)).1 := by
  cases hlease : l.lease? slot with
  | none =>
    have hstep : (l.step (.session slot i)).1 = l := by simp [step, hlease]
    have hsame (k : Nat) : History.session (h ++ [l.moment (.session slot i)]) k = h.session k := by
      rw [History.session_concat]
      simp [moment, sessionMoment?, hlease]
    rw [hstep]
    exact ⟨fun k hk => (hsame k).trans (hruns.unused k hk), fun k => hsame k ▸ hruns.run k⟩
  | some lease =>
    have hstep : (l.step (.session slot i)).1 =
        l.put slot (.leased { lease with session := (lease.session.step i).1 }) := by
      simp [step, hlease]
    have hsets : Sets l (l.put slot (.leased { lease with session := (lease.session.step i).1 })) slot _ :=
      sets_put (lease?_eq_some_iff.mp hlease)
    rw [hstep]
    have hmoment (k : Nat) : History.session (h ++ [l.moment (.session slot i)]) k =
        h.session k ++ if slot = k then [lease.session.moment i] else [] := by
      rw [History.session_concat]
      simp only [moment, sessionMoment?, hlease]
      split <;> rfl
    constructor
    case unused =>
      intro k hk
      rw [lease?_sets hsets] at hk
      split at hk
      · cases hk
      · rename_i hne
        rw [hmoment, if_neg (Ne.symm hne), List.append_nil]
        exact hruns.unused k hk
    case run =>
      intro k lease' hk
      rw [lease?_sets hsets] at hk
      rw [hmoment]
      split at hk
      · subst k
        cases hk
        obtain ⟨id, inputs, hinputs, hhistory, hsession⟩ := hruns.run slot lease hlease
        refine ⟨id, inputs ++ [i], ?_, ?_, ?_⟩
        · intro j hj
          rcases List.mem_append.mp hj with hj | hj
          · exact hinputs j hj
          · rw [List.mem_singleton.mp hj]
            exact hordinary
        · rw [if_pos rfl, Session.history_append, hhistory, ← hsession]
          rfl
        · rw [Session.after_append, ← hsession]
          rfl
      · rename_i hne
        rw [if_neg (Ne.symm hne), List.append_nil]
        exact hruns.run k lease' hk

theorem runs_history (inputs : List (Input σ ρ)) (hordinary : ∀ i ∈ inputs, i.isOrdinary = true) :
    Runs (({} : Ledger σ ρ).history inputs) (({} : Ledger σ ρ).after inputs) := by
  induction inputs using List.reverseRecOn with
  | nil => exact ⟨fun _ _ => rfl, fun k lease hk => by simp [after, lease?] at hk⟩
  | append_singleton rest i ih =>
    have hruns := ih fun j hj => hordinary j (List.mem_append_left _ hj)
    have hi : i.isOrdinary = true := hordinary i (by simp)
    rw [after_append, history_append]
    cases i with
    | session slot i => exact hruns.session hi
    | _ => exact hruns.opening (by simp)

theorem mem_history {inputs : List (Input σ ρ)} {m : Moment σ ρ} (h : m ∈ l.history inputs) :
    ∃ xs i ys, inputs = xs ++ i :: ys ∧ m = (l.after xs).moment i := by
  induction inputs generalizing l with
  | nil => cases h
  | cons i rest ih =>
    rcases List.mem_cons.mp h with rfl | hrest
    · exact ⟨[], i, rest, rfl, rfl⟩
    · obtain ⟨xs, j, ys, hinputs, hm⟩ := ih hrest
      exact ⟨i :: xs, j, ys, congrArg (i :: ·) hinputs, hm⟩

/-- What the records tell at the end of any run: no failure vanishes, and the outcome of a session
is reported once, if it is one to report. -/
structure Traced (h : History σ ρ) (l : Ledger σ ρ) : Prop where
  carried : ∀ (m : Moment σ ρ) (e : Error), m ∈ h → m.raised = some e →
    (∃ record ∈ m.records, record.Carries e) ∨ m.Refuses e
  reported : ∀ (k : Nat) (lease : Lease σ ρ), l.lease? k = some lease →
    Session.Reported (h.session k) lease.session

theorem traced (inputs : List (Input σ ρ)) (hordinary : ∀ i ∈ inputs, i.isOrdinary = true) :
    Traced (({} : Ledger σ ρ).history inputs) (({} : Ledger σ ρ).after inputs) := by
  constructor
  case carried =>
    intro m e hm hraised
    obtain ⟨xs, i, ys, rfl, rfl⟩ := mem_history hm
    exact raised_carried (hordinary i (by simp)) hraised
  case reported =>
    intro k lease hk
    obtain ⟨id, xs, hxs, hhistory, hsession⟩ := (runs_history inputs hordinary).run k lease hk
    rw [hhistory, hsession]
    exact Session.reported id xs hxs

/-- The source has no connection; a session is committed, but cannot be handed back, and one of its
two hooks fails; a session does not come to be. -/
def troubles : List (Input Unit Unit) :=
  let broken : Except Error Unit := .error (.given .driver [] none)
  let observer (key : Nat) : Component := ⟨"Observer", some ⟨key, "o", "Observer"⟩⟩
  [.begin, .settle 0 (.error (.given .acquire [] none)) "",
    .begin, .acquired 1 0, .settle 1 (.ok ()) "a", .session 1 (.register (observer 0)),
    .session 1 (.register (observer 1)), .session 1 (.request .commit), .session 1 (.run 0),
    .session 1 (.settle 0 (.ok ())), .session 1 (.settle 0 broken), .session 1 (.settle 0 broken),
    .session 1 (.settle 0 broken), .session 1 (.settle 0 (.ok ())),
    .begin, .acquired 2 1, .settle 2 broken "b", .settle 2 broken "b", .settle 2 (.ok ()) "b"]

theorem traced_troubles :
    (∀ i ∈ troubles, i.isOrdinary = true) ∧
      Traced (({} : Ledger Unit Unit).history troubles) (({} : Ledger Unit Unit).after troubles) ∧
      ((({} : Ledger Unit Unit).history troubles).session 1).infos.map (·.args) =
        [[.text "a", .text "committed", .int 2, .int 1]] ∧
      ((({} : Ledger Unit Unit).history troubles).filterMap Moment.raised).length = 6 := by
  have hordinary : ∀ i ∈ troubles, i.isOrdinary = true := by decide
  exact ⟨hordinary, traced troubles hordinary, rfl, rfl⟩

end Ledger
end Transact
