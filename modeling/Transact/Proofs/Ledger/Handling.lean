import Transact.Proofs.Session.Custody
import Transact.Ledger

/-! What one step does to the slots of a ledger: it changes one of them at most, and handles the
connection that stands there and no other. -/
namespace Transact

variable {σ ρ : Type}

/-- The call on the connection that an opening waits for. -/
def Opening.call? : Opening → Option (Call σ)
  | acquiring => none
  | beginning => some .begin
  | releasing _ => some .release
  | discarding _ => some .discard

/-- What comes of an answer to a call that an opening waited for. -/
theorem Opening.settle_cases {stage : Opening} {c : Call σ} {outcome : Except Error Unit}
    (hc : stage.call? = some c) (hordinary : ∀ e, outcome = .error e → e.isOrdinary = true) :
    ((stage.settle outcome).2 = .opened ∧ stage = .beginning ∧ c.next outcome = none ∧
        c.keeps outcome = true) ∨
      (∃ (cause : Error) (after : Opening) (call : Call Empty),
        (stage.settle outcome).2 = .call after call ∧
          (after = .releasing cause ∨ after = .discarding cause) ∧
            after.call? = some (call.plain : Call σ) ∧ c.next outcome = some call.plain ∧
              c.keeps outcome = false) ∨
      ∃ e, (stage.settle outcome).2 = .failed e ∧ c.next outcome = none ∧
        c.keeps outcome = false := by
  cases outcome with
  | ok =>
    cases stage <;> cases hc
    · exact .inl ⟨rfl, rfl, rfl, rfl⟩
    · exact .inr (.inr ⟨_, rfl, rfl, rfl⟩)
    · exact .inr (.inr ⟨_, rfl, rfl, rfl⟩)
  | error e =>
    have he := hordinary e rfl
    cases stage with
    | acquiring => cases hc
    | beginning =>
      cases hc
      refine .inr (.inl ⟨e, .releasing e, .release, ?_, .inl rfl, rfl, ?_, rfl⟩)
      · simp only [Opening.settle, he, if_true]
      · simp [Call.next, he, Call.plain]
    | releasing cause =>
      cases hc
      refine .inr (.inl ⟨cause, .discarding cause, .discard, ?_, .inr rfl, rfl, ?_, rfl⟩)
      · simp only [Opening.settle, he, if_true]
      · simp [Call.next, he, Call.plain]
    | discarding cause =>
      cases hc
      refine .inr (.inr ⟨.beginFailed cause, ?_, rfl, rfl⟩)
      simp only [Opening.settle, he, if_true]

namespace Slot

def connection? : Slot σ ρ → Option Nat
  | opening c _ => some c
  | leased lease => some lease.connection
  | _ => none

/-- The call that is under way on the slot's connection. -/
def calling : Slot σ ρ → Option (Call σ)
  | opening _ stage => stage.call?
  | leased lease => lease.session.calling
  | _ => none

def InUse : Slot σ ρ → Prop
  | opening _ .beginning => True
  | leased lease => lease.session.phase = .active
  | _ => False

def Sound : Slot σ ρ → Prop
  | opening _ .acquiring => False
  | leased lease => lease.session.Sound
  | _ => True

end Slot

namespace Ledger

@[simp] def Effect.call? : Effect σ ρ → Option (Nat × Call σ)
  | call c k => some (c, k)
  | session c (.call k) => some (c, k)
  | _ => none

variable {l m : Ledger σ ρ} {i : Input σ ρ} {k c : Nat} {old new : Slot σ ρ}

/-- The call that an input answers, with its connection. -/
def answered (l : Ledger σ ρ) : Input σ ρ → Option (Nat × Call σ × Except Error Unit)
  | .settle slot outcome _ =>
    match l.slots[slot]? with
    | some (.opening c stage) => stage.call?.map fun call => (c, call, outcome)
    | _ => none
  | .session slot i =>
    (l.lease? slot).bind fun lease =>
      (lease.session.answered i).map fun entry => (lease.connection, entry)
  | _ => none

/-- The connection that an input brings. -/
def arrived (l : Ledger σ ρ) : Input σ ρ → Option Nat
  | .acquired slot c =>
    match l.slots[slot]? with
    | some .acquiring => some c
    | _ => none
  | .wrap c _ => some c
  | _ => none

/-- Nothing fails but by an ordinary error. -/
def Input.isOrdinary : Input σ ρ → Bool
  | .settle _ (.error e) _ => e.isOrdinary
  | .session _ i => i.isOrdinary
  | _ => true

/-- The slot is set, or added at the end. -/
def Sets (l m : Ledger σ ρ) (k : Nat) (new : Slot σ ρ) : Prop :=
  ∀ j : Nat, m.slots[j]? = if j = k then some new else l.slots[j]?

theorem sets_put (h : l.slots[k]? = some old) : Sets l (l.put k new) k new := by
  intro j
  have hlt := (List.getElem?_eq_some_iff.mp h).1
  simp only [put, List.getElem?_set]
  by_cases hj : j = k
  · subst j
    simp [hlt]
  · simp [hj, Ne.symm hj]

theorem sets_append : Sets l { l with slots := l.slots ++ [new] } l.slots.length new := by
  intro j
  rw [List.getElem?_append]
  by_cases hj : j = l.slots.length
  · subst j
    simp
  · rw [if_neg hj]
    split
    · rfl
    · rw [List.getElem?_eq_none (by simp; omega), List.getElem?_eq_none (by omega)]

/-- What a step does to the connections, and by which slot: nothing; a slot that has none keeps
none; one comes; one stays, and some of its calls may end and begin; one is given up. -/
inductive Handling (l : Ledger σ ρ) (i : Input σ ρ) (m : Ledger σ ρ) (calls : List (Nat × Call σ)) :
    Prop
  | idle : m = l → calls = [] → l.answered i = none → l.arrived i = none → Handling l i m calls
  | empty (k : Nat) (new : Slot σ ρ) : Sets l m k new →
      (∀ old, l.slots[k]? = some old → old.connection? = none) → new.connection? = none →
      calls = [] → l.answered i = none → l.arrived i = none → Handling l i m calls
  | comes (k c : Nat) (new : Slot σ ρ) : Sets l m k new →
      (∀ old, l.slots[k]? = some old → old.connection? = none) → new.connection? = some c →
      new.Sound → Custody new.InUse new.calling [] → calls = new.calling.toList.map (c, ·) →
      l.answered i = none → l.arrived i = some c → Handling l i m calls
  | stays (k c : Nat) (old new : Slot σ ρ) (entry : Option (Call σ × Except Error Unit))
      (begun : List (Call σ)) : l.slots[k]? = some old → Sets l m k new →
      old.connection? = some c → new.connection? = some c → new.Sound →
      (∀ log, Custody old.InUse old.calling log →
        Custody new.InUse new.calling (log ++ entry.toList)) →
      calls = begun.map (c, ·) →
      old.calling.toList ++ begun = (entry.map Prod.fst).toList ++ new.calling.toList →
      l.answered i = entry.map (c, ·) → l.arrived i = none → Handling l i m calls
  | givenUp (k c : Nat) (old new : Slot σ ρ) (call : Call σ) (outcome : Except Error Unit) :
      l.slots[k]? = some old → Sets l m k new → old.connection? = some c →
      new.connection? = none → old.calling = some call →
      (∀ log, Custody old.InUse old.calling log → HandedBack (log ++ [(call, outcome)])) →
      calls = [] → l.answered i = some (c, call, outcome) → l.arrived i = none → Handling l i m calls

theorem filterMap_call?_session (effects : List (Transact.Effect σ ρ)) :
    (effects.map (Effect.session c)).filterMap Effect.call? =
      (effects.filterMap Transact.Effect.call?).map (c, ·) := by
  induction effects with
  | nil => rfl
  | cons e rest ih =>
    cases e <;> simp_all [List.filterMap_cons]

theorem handling_settle {stage : Opening} {outcome : Except Error Unit} {id : String}
    (hk : l.slots[k]? = some (.opening c stage)) (hsound : (Slot.opening c stage : Slot σ ρ).Sound)
    (hordinary : ∀ e, outcome = .error e → e.isOrdinary = true) :
    Handling l (.settle k outcome id) (l.proceed k (some c) id (stage.settle outcome)).1
      ((l.proceed k (some c) id (stage.settle outcome)).2.filterMap Effect.call?) := by
  have hcall : ∃ call : Call σ, stage.call? = some call := by
    cases stage with
    | acquiring => cases hsound
    | _ => exact ⟨_, rfl⟩
  obtain ⟨call, hcall⟩ := hcall
  have hanswered : l.answered (.settle k outcome id) = some (c, call, outcome) := by
    simp [answered, hk, hcall]
  have hcustody {q : Prop} {log : List (Call σ × Except Error Unit)}
      (hlog : Custody (Slot.opening c stage : Slot σ ρ).InUse
        (Slot.opening c stage : Slot σ ρ).calling log)
      (hq : q ↔ (Slot.opening c stage : Slot σ ρ).InUse ∧ call.keeps outcome = true) :
      Custody q (call.next outcome) (log ++ [(call, outcome)]) := by
    rw [Slot.calling, hcall] at hlog
    exact hlog.answer (fun e he _ => hordinary e he) hq
  rcases Opening.settle_cases hcall hordinary with ⟨hsettle, rfl, hnext, hkeeps⟩ |
    ⟨cause, after, next, hsettle, hafter, hcall', hnext, hkeeps⟩ | ⟨e, hsettle, hnext, hkeeps⟩
  · refine .stays k c _ (.leased ⟨{ id }, c⟩) (some (call, outcome)) [] hk ?_ rfl rfl
      (Session.sound_fresh id) (fun log hlog => ?_) ?_ ?_ hanswered rfl
    · simp only [proceed, hsettle]
      exact sets_put hk
    · have hnew := hcustody (q := (Slot.leased ⟨{ id }, c⟩ : Slot σ ρ).InUse) hlog
        ⟨fun _ => ⟨trivial, hkeeps⟩, fun _ => rfl⟩
      rwa [hnext] at hnew
    · simp [hsettle, proceed, List.filterMap_cons]
    · simp [Slot.calling, hcall, Session.calling]
  · have hend : ¬ (Slot.opening c after : Slot σ ρ).InUse := by
      rcases hafter with rfl | rfl <;> exact not_false
    refine .stays k c _ (.opening c after) (some (call, outcome)) [next.plain] hk ?_ rfl rfl ?_
      (fun log hlog => ?_) ?_ ?_ hanswered rfl
    · simp only [proceed, hsettle]
      exact sets_put hk
    · rcases hafter with rfl | rfl <;> trivial
    · have hnew := hcustody (q := (Slot.opening c after : Slot σ ρ).InUse) hlog
        (by simp [hend, hkeeps])
      rwa [hnext, ← hcall'] at hnew
    · simp [hsettle, proceed]
    · simp [Slot.calling, hcall, hcall']
  · refine .givenUp k c _ .failed call outcome hk ?_ rfl rfl hcall (fun log hlog => ?_) ?_ hanswered
      rfl
    · simp only [proceed, hsettle]
      exact sets_put hk
    · have hnew := hcustody (q := False) hlog (by simp [hkeeps])
      exact hnew.back not_false hnext
    · simp [hsettle, proceed, List.filterMap_cons]

theorem lease?_eq_some_iff {lease : Lease σ ρ} :
    l.lease? k = some lease ↔ l.slots[k]? = some (.leased lease) := by
  unfold lease?
  split <;> simp_all

theorem handling_session {lease : Lease σ ρ} {i : Transact.Input σ ρ}
    (hk : l.slots[k]? = some (.leased lease)) (hsound : lease.session.Sound)
    (hordinary : i.isOrdinary = true) :
    Handling l (.session k i) (l.put k (.leased { lease with session := (lease.session.step i).1 }))
      (((lease.session.step i).2.map (Effect.session lease.connection)).filterMap Effect.call?) := by
  have hchange := Session.step_change lease.session i
  refine .stays k lease.connection _ _ (lease.session.answered i)
    ((lease.session.step i).2.filterMap Transact.Effect.call?) hk (sets_put hk) rfl rfl
    (Session.sound_change hchange hsound) (fun log hlog => ?_) (filterMap_call?_session _)
    (Session.calls_change hsound hchange) ?_ rfl
  · exact Session.custody_change hsound hchange hordinary hlog
  · simp [answered, lease?_eq_some_iff.mpr hk]

theorem no_connection_at_end (old : Slot σ ρ) (hold : l.slots[l.slots.length]? = some old) :
    old.connection? = none := by
  rw [List.getElem?_eq_none (Nat.le_refl _)] at hold
  cases hold

theorem no_connection_acquiring (hk : l.slots[k]? = some .acquiring) (old : Slot σ ρ)
    (hold : l.slots[k]? = some old) : old.connection? = none := by
  rw [hk] at hold
  cases hold
  rfl

theorem handling_acquired (l : Ledger σ ρ) (k c : Nat) :
    Handling l (.acquired k c) (l.step (.acquired k c)).1
      ((l.step (.acquired k c)).2.filterMap Effect.call?) := by
  simp only [step]
  split
  · rename_i hk
    have hcustody : Custody (Slot.opening c .beginning : Slot σ ρ).InUse
        (Slot.opening c .beginning : Slot σ ρ).calling [] :=
      custody_using clean_nil trivial (by simp [Slot.calling, Opening.call?, Call.isBack])
    have harrived : l.arrived (.acquired k c) = some c := by simp [arrived, hk]
    exact .comes k c (.opening c .beginning) (sets_put hk) (no_connection_acquiring hk) rfl trivial
      hcustody rfl rfl harrived
  · rename_i hk
    refine .idle rfl rfl rfl ?_
    unfold arrived
    split <;> simp_all

/-- The source has no connection to give. -/
theorem handling_unacquired {e : Error} {id : String} (hk : l.slots[k]? = some .acquiring) :
    Handling l (.settle k (.error e) id) (l.proceed k none id (Opening.acquiring.settle (.error e))).1
      ((l.proceed k none id (Opening.acquiring.settle (.error e))).2.filterMap Effect.call?) := by
  have hfailed : ∃ e', (Opening.acquiring.settle (.error e)).2 = .failed e' := by
    simp only [Opening.settle]
    split <;> exact ⟨_, rfl⟩
  obtain ⟨e', hsettle⟩ := hfailed
  have hanswered : l.answered (.settle k (.error e) id) = none := by simp [answered, hk]
  refine .empty k .failed ?_ (no_connection_acquiring hk) rfl ?_ hanswered rfl
  · simp only [proceed, hsettle]
    exact sets_put hk
  · simp [proceed, hsettle, List.filterMap_cons]

/-- Every step handles one connection at most, and keeps account of it. -/
theorem handling_step (hsound : ∀ (k : Nat) (slot : Slot σ ρ), l.slots[k]? = some slot → slot.Sound)
    (hordinary : i.isOrdinary = true) :
    Handling l i (l.step i).1 ((l.step i).2.filterMap Effect.call?) := by
  cases i with
  | begin =>
    exact .empty l.slots.length .acquiring sets_append no_connection_at_end rfl rfl rfl rfl
  | wrap c id =>
    have hcustody : Custody (Slot.leased ⟨{ id }, c⟩ : Slot σ ρ).InUse
        (Slot.leased ⟨{ id }, c⟩ : Slot σ ρ).calling [] :=
      custody_using clean_nil rfl (by simp [Slot.calling, Session.calling])
    exact .comes l.slots.length c (.leased ⟨{ id }, c⟩) sets_append no_connection_at_end rfl
      (Session.sound_fresh id) hcustody rfl rfl rfl
  | acquired k c => exact handling_acquired l k c
  | settle k outcome id =>
    simp only [step]
    split
    · rename_i hk
      cases outcome with
      | ok => exact .idle rfl rfl (by simp [answered, hk]) rfl
      | error e => exact handling_unacquired hk
    · rename_i c stage hk
      apply handling_settle hk (hsound k _ hk)
      intro e he
      subst he
      exact hordinary
    · refine .idle rfl rfl ?_ rfl
      unfold answered
      split <;> simp_all
  | session k i =>
    simp only [step]
    split
    · rename_i lease hk
      have hk := lease?_eq_some_iff.mp hk
      exact handling_session hk (hsound k _ hk) hordinary
    · rename_i hk
      exact .idle rfl rfl (by simp [answered, hk]) rfl

end Ledger
end Transact
