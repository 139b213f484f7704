import Transact.Proofs.Ledger.Handling

/-! No connection is lost and none is handed back twice: at any time of any run each one that came
is in one slot or back where it came from. -/
namespace Transact.Ledger

variable {σ ρ : Type}

/-- One input of a run, between the ledger that it met and the ledger that it left. -/
structure Moment (σ ρ : Type) where
  before : Ledger σ ρ
  input : Input σ ρ
  effects : List (Effect σ ρ)
  after : Ledger σ ρ

abbrev History (σ ρ : Type) := List (Moment σ ρ)

def moment (l : Ledger σ ρ) (i : Input σ ρ) : Moment σ ρ := ⟨l, i, (l.step i).2, (l.step i).1⟩

def after (l : Ledger σ ρ) : List (Input σ ρ) → Ledger σ ρ
  | [] => l
  | i :: rest => (l.step i).1.after rest

def history (l : Ledger σ ρ) : List (Input σ ρ) → History σ ρ
  | [] => []
  | i :: rest => l.moment i :: (l.step i).1.history rest

/-- Keeps what is about the connection. -/
def about {α : Type} (c : Nat) (entries : List (Nat × α)) : List α :=
  entries.filterMap fun entry => if entry.1 = c then some entry.2 else none

namespace Moment

def answered (m : Moment σ ρ) : Option (Nat × Call σ × Except Error Unit) := m.before.answered m.input

def arrived (m : Moment σ ρ) : Option Nat := m.before.arrived m.input

def calls (m : Moment σ ρ) : List (Nat × Call σ) := m.effects.filterMap Effect.call?

end Moment

namespace History

def arrived (h : History σ ρ) : List Nat := h.filterMap Moment.arrived

/-- The calls on the connection that have ended, each with its outcome. -/
def log (h : History σ ρ) (c : Nat) : List (Call σ × Except Error Unit) :=
  about c (h.filterMap Moment.answered)

/-- The calls on the connection that were begun. -/
def calls (h : History σ ρ) (c : Nat) : List (Call σ) := about c (h.flatMap Moment.calls)

variable {h : History σ ρ} {m : Moment σ ρ} {c : Nat}

theorem arrived_concat : (h ++ [m] : History σ ρ).arrived = h.arrived ++ m.arrived.toList := by
  cases hm : m.arrived <;> simp [arrived, hm]

theorem log_concat : History.log (h ++ [m]) c = h.log c ++ about c m.answered.toList := by
  cases hm : m.answered <;> simp [log, about, hm]

theorem calls_concat : History.calls (h ++ [m]) c = h.calls c ++ about c m.calls := by
  simp [calls, about]

end History

variable {l m : Ledger σ ρ} {i : Input σ ρ} {k c d : Nat} {slot old new : Slot σ ρ}

theorem about_same {α : Type} (entries : List α) : about c (entries.map (c, ·)) = entries := by
  simp [about, List.filterMap_map]

theorem about_other {α : Type} (hne : d ≠ c) (entries : List α) :
    about c (entries.map (d, ·)) = [] := by
  simp [about, List.filterMap_map, hne]

theorem after_append (l : Ledger σ ρ) (xs ys : List (Input σ ρ)) :
    l.after (xs ++ ys) = (l.after xs).after ys := by
  induction xs generalizing l with
  | nil => rfl
  | cons i rest ih => exact ih _

theorem history_append (l : Ledger σ ρ) (xs ys : List (Input σ ρ)) :
    l.history (xs ++ ys) = l.history xs ++ (l.after xs).history ys := by
  induction xs generalizing l with
  | nil => rfl
  | cons i rest ih => exact congrArg (l.moment i :: ·) (ih _)

def Has (l : Ledger σ ρ) (k c : Nat) (slot : Slot σ ρ) : Prop :=
  l.slots[k]? = some slot ∧ slot.connection? = some c

/-- Where a connection is: it never came, or one slot has it, or it is back and no slot has it. -/
inductive Whereabouts (h : History σ ρ) (l : Ledger σ ρ) (c : Nat) : Prop
  | strange : c ∉ h.arrived → (∀ j slot, ¬ l.Has j c slot) → h.log c = [] → h.calls c = [] →
      Whereabouts h l c
  | held (k : Nat) (slot : Slot σ ρ) : c ∈ h.arrived →
      (∀ j other, l.Has j c other ↔ j = k ∧ other = slot) →
      Custody slot.InUse slot.calling (h.log c) →
      h.calls c = (h.log c).map Prod.fst ++ slot.calling.toList → Whereabouts h l c
  | back : c ∈ h.arrived → (∀ j slot, ¬ l.Has j c slot) → HandedBack (h.log c) →
      h.calls c = (h.log c).map Prod.fst → Whereabouts h l c

structure Kept (h : History σ ρ) (l : Ledger σ ρ) : Prop where
  sound : ∀ (k : Nat) (slot : Slot σ ρ), l.slots[k]? = some slot → slot.Sound
  whereabouts : ∀ c, Whereabouts h l c

theorem kept_empty : Kept [] ({} : Ledger σ ρ) where
  sound k slot hk := by simp at hk
  whereabouts c := .strange (by simp [History.arrived]) (by simp [Has]) rfl rfl

section Step

variable {h : History σ ρ} {effects : List (Effect σ ρ)} {calls : List (Nat × Call σ)}
  {entry : Option (Call σ × Except Error Unit)} {begun : List (Call σ)}

theorem arrived_step (harrived : l.arrived i = none) :
    History.arrived (h ++ [⟨l, i, effects, m⟩]) = h.arrived := by
  simp [History.arrived_concat, Moment.arrived, harrived]

theorem mem_arrived_step (harrived : l.arrived i = some d) :
    c ∈ History.arrived (h ++ [⟨l, i, effects, m⟩]) ↔ c ∈ h.arrived ∨ c = d := by
  simp [History.arrived_concat, Moment.arrived, harrived]

theorem log_step (hanswered : l.answered i = entry.map (d, ·)) (c : Nat) :
    History.log (h ++ [⟨l, i, effects, m⟩]) c = h.log c ++ if d = c then entry.toList else [] := by
  rw [History.log_concat, Moment.answered, hanswered]
  cases entry with
  | none => simp [about]
  | some entry => split <;> simp_all [about]

theorem log_same (hanswered : l.answered i = none) (c : Nat) :
    History.log (h ++ [⟨l, i, effects, m⟩]) c = h.log c := by
  simp [History.log_concat, Moment.answered, hanswered, about]

theorem calls_step (hcalls : effects.filterMap Effect.call? = begun.map (d, ·)) (c : Nat) :
    History.calls (h ++ [⟨l, i, effects, m⟩]) c = h.calls c ++ if d = c then begun else [] := by
  rw [History.calls_concat, Moment.calls, hcalls]
  split
  · subst d
    rw [about_same]
  · rename_i hne
    rw [about_other hne]

theorem calls_same (hcalls : effects.filterMap Effect.call? = []) (c : Nat) :
    History.calls (h ++ [⟨l, i, effects, m⟩]) c = h.calls c := by
  simp [History.calls_concat, Moment.calls, hcalls, about]

/-- A step says nothing of a connection that it neither handles nor brings. -/
theorem Whereabouts.frame {h' : History σ ρ} (hwhere : Whereabouts h l c)
    (hhas : ∀ j slot, m.Has j c slot ↔ l.Has j c slot) (harrived : c ∈ h'.arrived ↔ c ∈ h.arrived)
    (hlog : h'.log c = h.log c) (hcalls : h'.calls c = h.calls c) : Whereabouts h' m c := by
  cases hwhere with
  | strange hnew hnone hempty hbegun =>
    rw [← hlog] at hempty
    rw [← hcalls] at hbegun
    exact .strange (harrived.not.mpr hnew) (fun j slot => (hhas j slot).not.mpr (hnone j slot))
      hempty hbegun
  | held k slot hcame honly hcustody hbegun =>
    rw [← hlog] at hcustody hbegun
    rw [← hcalls] at hbegun
    exact .held k slot (harrived.mpr hcame) (fun j other => (hhas j other).trans (honly j other))
      hcustody hbegun
  | back hcame hnone hback hbegun =>
    rw [← hlog] at hback hbegun
    rw [← hcalls] at hbegun
    exact .back (harrived.mpr hcame) (fun j slot => (hhas j slot).not.mpr (hnone j slot)) hback hbegun

/-- One that is in a slot is in no other, and all is known of it. -/
theorem Whereabouts.of_has (hwhere : Whereabouts h l c) (hhas : l.Has k c slot) :
    c ∈ h.arrived ∧ (∀ j other, l.Has j c other ↔ j = k ∧ other = slot) ∧
      Custody slot.InUse slot.calling (h.log c) ∧
        h.calls c = (h.log c).map Prod.fst ++ slot.calling.toList := by
  cases hwhere with
  | strange _ hnone => exact absurd hhas (hnone k slot)
  | held k' slot' hcame honly hcustody hbegun =>
    obtain ⟨rfl, rfl⟩ := (honly k slot).mp hhas
    exact ⟨hcame, honly, hcustody, hbegun⟩
  | back _ hnone => exact absurd hhas (hnone k slot)

theorem sound_sets (hsets : Sets l m k new)
    (hsound : ∀ (j : Nat) (slot : Slot σ ρ), l.slots[j]? = some slot → slot.Sound)
    (hnew : new.Sound) (j : Nat) (slot : Slot σ ρ) (hj : m.slots[j]? = some slot) : slot.Sound := by
  rw [hsets j] at hj
  split at hj
  · cases hj
    exact hnew
  · exact hsound j slot hj

theorem sound_of_no_connection (hnew : new.connection? = none) : new.Sound := by
  cases new with
  | opening => cases hnew
  | leased => cases hnew
  | _ => trivial

/-- Only the slot that is set can get a connection or lose it. -/
theorem has_sets (hsets : Sets l m k new) (j : Nat) (slot : Slot σ ρ) :
    m.Has j c slot ↔ if j = k then slot = new ∧ new.connection? = some c else l.Has j c slot := by
  unfold Has
  rw [hsets j]
  split
  · constructor
    · rintro ⟨hslot, hc⟩
      cases hslot
      exact ⟨rfl, hc⟩
    · rintro ⟨rfl, hc⟩
      exact ⟨rfl, hc⟩
  · rfl

theorem has_other (hsets : Sets l m k new) (hnew : new.connection? ≠ some c)
    (hold : ∀ old, l.slots[k]? = some old → old.connection? ≠ some c) (j : Nat) (slot : Slot σ ρ) :
    m.Has j c slot ↔ l.Has j c slot := by
  rw [has_sets hsets]
  split
  · subst j
    constructor
    · exact fun hslot => absurd hslot.2 hnew
    · exact fun hslot => absurd hslot.2 (hold slot hslot.1)
  · rfl

/-- A slot without a connection is of no account. -/
theorem Kept.empty (hkept : Kept h l) (hsets : Sets l m k new)
    (hold : ∀ old, l.slots[k]? = some old → old.connection? = none) (hnew : new.connection? = none)
    (hcalls : effects.filterMap Effect.call? = []) (hanswered : l.answered i = none)
    (harrived : l.arrived i = none) : Kept (h ++ [⟨l, i, effects, m⟩]) m where
  sound := sound_sets hsets hkept.sound (sound_of_no_connection hnew)
  whereabouts c := by
    refine (hkept.whereabouts c).frame (has_other hsets (by simp [hnew]) fun old hk => ?_) ?_ ?_ ?_
    · rw [hold old hk]
      simp
    · rw [arrived_step harrived]
    · exact log_same hanswered c
    · exact calls_same hcalls c

/-- A connection comes that was never there before. -/
theorem Kept.comes (hkept : Kept h l) (hsets : Sets l m k new)
    (hold : ∀ old, l.slots[k]? = some old → old.connection? = none)
    (hnew : new.connection? = some d) (hsound : new.Sound)
    (hcustody : Custody new.InUse new.calling [])
    (hcalls : effects.filterMap Effect.call? = new.calling.toList.map (d, ·))
    (hanswered : l.answered i = none) (harrived : l.arrived i = some d) (hfresh : d ∉ h.arrived) :
    Kept (h ++ [⟨l, i, effects, m⟩]) m where
  sound := sound_sets hsets hkept.sound hsound
  whereabouts c := by
    by_cases hc : d = c
    · subst d
      cases hkept.whereabouts c with
      | held _ _ hcame => exact absurd hcame hfresh
      | back hcame => exact absurd hcame hfresh
      | strange _ hnone hlog hbegun =>
        refine .held k new ((mem_arrived_step harrived).mpr (.inr rfl)) (fun j other => ?_) ?_ ?_
        · rw [has_sets hsets]
          split <;> simp_all
        · rw [log_same hanswered, hlog]
          exact hcustody
        · rw [log_same hanswered, calls_step hcalls, hlog, hbegun, if_pos rfl]
          rfl
    · have hother : new.connection? ≠ some c := by simpa [hnew] using hc
      refine (hkept.whereabouts c).frame (has_other hsets hother fun old hk => ?_) ?_ ?_ ?_
      · rw [hold old hk]
        simp
      · rw [mem_arrived_step harrived]
        exact or_iff_left (Ne.symm hc)
      · exact log_same hanswered c
      · rw [calls_step hcalls, if_neg hc, List.append_nil]

/-- A connection stays in its slot, where calls on it end and begin. -/
theorem Kept.stays (hkept : Kept h l) (hk : l.slots[k]? = some old) (hsets : Sets l m k new)
    (hold : old.connection? = some d) (hnew : new.connection? = some d) (hsound : new.Sound)
    (hcustody : ∀ log, Custody old.InUse old.calling log →
      Custody new.InUse new.calling (log ++ entry.toList))
    (hcalls : effects.filterMap Effect.call? = begun.map (d, ·))
    (hcalling : old.calling.toList ++ begun = (entry.map Prod.fst).toList ++ new.calling.toList)
    (hanswered : l.answered i = entry.map (d, ·)) (harrived : l.arrived i = none) :
    Kept (h ++ [⟨l, i, effects, m⟩]) m where
  sound := sound_sets hsets hkept.sound hsound
  whereabouts c := by
    by_cases hc : d = c
    · subst d
      obtain ⟨hcame, honly, hlog, hbegun⟩ := (hkept.whereabouts c).of_has ⟨hk, hold⟩
      refine .held k new (by rwa [arrived_step harrived]) (fun j other => ?_) ?_ ?_
      · rw [has_sets hsets]
        split <;> simp_all
      · rw [log_step hanswered, if_pos rfl]
        exact hcustody _ hlog
      · have hmap : entry.toList.map Prod.fst = (entry.map Prod.fst).toList := by cases entry <;> rfl
        rw [log_step hanswered, calls_step hcalls, if_pos rfl, if_pos rfl, hbegun, List.append_assoc,
          hcalling, List.map_append, List.append_assoc, hmap]
    · have hother : new.connection? ≠ some c := by simpa [hnew] using hc
      refine (hkept.whereabouts c).frame (has_other hsets hother fun slot hslot => ?_) ?_ ?_ ?_
      · rw [hk] at hslot
        cases hslot
        simpa [hold] using hc
      · rw [arrived_step harrived]
      · rw [log_step hanswered, if_neg hc, List.append_nil]
      · rw [calls_step hcalls, if_neg hc, List.append_nil]

/-- A connection leaves its slot when it is back. -/
theorem Kept.givenUp (hkept : Kept h l) {call : Call σ} {outcome : Except Error Unit}
    (hk : l.slots[k]? = some old) (hsets : Sets l m k new) (hold : old.connection? = some d)
    (hnew : new.connection? = none) (hcalling : old.calling = some call)
    (hcustody : ∀ log, Custody old.InUse old.calling log → HandedBack (log ++ [(call, outcome)]))
    (hcalls : effects.filterMap Effect.call? = [])
    (hanswered : l.answered i = some (d, call, outcome)) (harrived : l.arrived i = none) :
    Kept (h ++ [⟨l, i, effects, m⟩]) m where
  sound := sound_sets hsets hkept.sound (sound_of_no_connection hnew)
  whereabouts c := by
    have hentry : l.answered i = (some (call, outcome)).map (d, ·) := hanswered
    by_cases hc : d = c
    · subst d
      obtain ⟨hcame, honly, hlog, hbegun⟩ := (hkept.whereabouts c).of_has ⟨hk, hold⟩
      refine .back (by rwa [arrived_step harrived]) (fun j other => ?_) ?_ ?_
      · rw [has_sets hsets]
        split <;> simp_all
      · rw [log_step hentry, if_pos rfl]
        exact hcustody _ hlog
      · rw [log_step hentry, calls_same hcalls, if_pos rfl, hbegun, hcalling, List.map_append]
        rfl
    · refine (hkept.whereabouts c).frame (has_other hsets (by simp [hnew]) fun slot hslot => ?_) ?_ ?_ ?_
      · rw [hk] at hslot
        cases hslot
        simpa [hold] using hc
      · rw [arrived_step harrived]
      · rw [log_step hentry, if_neg hc, List.append_nil]
      · exact calls_same hcalls c

theorem Kept.step (hkept : Kept h l) (hordinary : i.isOrdinary = true)
    (hfresh : ∀ c, l.arrived i = some c → c ∉ h.arrived) : Kept (h ++ [l.moment i]) (l.step i).1 := by
  cases handling_step hkept.sound hordinary with
  | idle hsame hcalls hanswered harrived =>
    rw [hsame]
    refine ⟨hkept.sound, fun c => (hkept.whereabouts c).frame (fun _ _ => .rfl) ?_ ?_ ?_⟩
    · exact iff_of_eq (congrArg (c ∈ ·) (arrived_step harrived))
    · exact log_same hanswered c
    · exact calls_same hcalls c
  | empty k new hsets hold hnew hcalls hanswered harrived =>
    exact hkept.empty hsets hold hnew hcalls hanswered harrived
  | comes k c new hsets hold hnew hsound hcustody hcalls hanswered harrived =>
    exact hkept.comes hsets hold hnew hsound hcustody hcalls hanswered harrived (hfresh c harrived)
  | stays k c old new entry begun hk hsets hold hnew hsound hcustody hcalls hcalling hanswered
      harrived =>
    exact hkept.stays hk hsets hold hnew hsound hcustody hcalls hcalling hanswered harrived
  | givenUp k c old new call outcome hk hsets hold hnew hcalling hcustody hcalls hanswered harrived =>
    exact hkept.givenUp hk hsets hold hnew hcalling hcustody hcalls hanswered harrived

end Step

theorem kept_history (inputs : List (Input σ ρ)) (hordinary : ∀ i ∈ inputs, i.isOrdinary = true)
    (hfresh : (({} : Ledger σ ρ).history inputs).arrived.Nodup) :
    Kept (({} : Ledger σ ρ).history inputs) (({} : Ledger σ ρ).after inputs) := by
  induction inputs using List.reverseRecOn with
  | nil => exact kept_empty
  | append_singleton rest i ih =>
    rw [history_append] at hfresh ⊢
    rw [after_append]
    change (History.arrived (_ ++ [(({} : Ledger σ ρ).after rest).moment i])).Nodup at hfresh
    rw [History.arrived_concat, List.nodup_append] at hfresh
    obtain ⟨hrest, -, hnew⟩ := hfresh
    refine (ih (fun j hj => hordinary j (List.mem_append_left _ hj)) hrest).step
      (hordinary i (List.mem_append_right _ (List.mem_singleton_self i))) fun c hc hmem => ?_
    exact hnew c hmem c (Option.mem_toList.mpr hc) rfl

/-- The slot holds the connection with an active session. -/
def Holds (l : Ledger σ ρ) (k c : Nat) : Prop :=
  ∃ lease, l.lease? k = some lease ∧ lease.connection = c ∧ lease.session.phase = .active

/-- No call on the connection is under way. -/
def Idle (l : Ledger σ ρ) (c : Nat) : Prop :=
  ∀ (k : Nat) (slot : Slot σ ρ), l.slots[k]? = some slot → slot.connection? = some c →
    slot.calling = none

/-- How a connection fares at the end of any run. -/
structure Accounted (h : History σ ρ) (l : Ledger σ ρ) (c : Nat) : Prop where
  idle : l.Idle c →
    (∃ k, (∀ j, l.Holds j c ↔ j = k) ∧ ∀ call ∈ h.calls c, call.isBack = false) ∨
      (∀ j, ¬ l.Holds j c) ∧ HandedBack (h.log c)
  ended : l.Idle c → h.calls c = (h.log c).map Prod.fst
  never_released : ∀ entry ∈ h.log c, IsSpoiling entry → .release ∉ h.calls c
  ordered : Ordered (h.calls c)

theorem Holds.has (hholds : l.Holds k c) : ∃ slot, l.Has k c slot ∧ slot.InUse := by
  obtain ⟨lease, hk, hc, hactive⟩ := hholds
  exact ⟨.leased lease, ⟨lease?_eq_some_iff.mp hk, congrArg some hc⟩, hactive⟩

/-- A slot that uses its connection, and waits for nothing, has an active session. -/
theorem holds_of_use (hhas : l.Has k c slot) (huse : slot.InUse) (hnone : slot.calling = none) :
    l.Holds k c := by
  obtain ⟨hk, hc⟩ := hhas
  cases slot with
  | leased lease => exact ⟨lease, lease?_eq_some_iff.mpr hk, Option.some.inj hc, huse⟩
  | opening c stage =>
    cases stage with
    | beginning => cases hnone
    | _ => cases huse
  | _ => cases huse

theorem accounted_held {h : History σ ρ} (honly : ∀ j other, l.Has j c other ↔ j = k ∧ other = slot)
    (hcustody : Custody slot.InUse slot.calling (h.log c))
    (hcalls : h.calls c = (h.log c).map Prod.fst ++ slot.calling.toList) : Accounted h l c := by
  have hhas : l.Has k c slot := (honly k slot).mpr ⟨rfl, rfl⟩
  have hnone (hidle : l.Idle c) : slot.calling = none := hidle k slot hhas.1 hhas.2
  constructor
  case idle =>
    intro hidle
    have hcalling := hnone hidle
    rw [hcalling] at hcustody hcalls
    rw [hcalls, Option.toList_none, List.append_nil]
    by_cases huse : slot.InUse
    · refine .inl ⟨k, fun j => ?_, fun call hcall => ?_⟩
      · constructor
        · intro hj
          obtain ⟨other, hother, -⟩ := hj.has
          exact ((honly j other).mp hother).1
        · rintro rfl
          exact holds_of_use hhas huse hcalling
      · obtain ⟨entry, hentry, rfl⟩ := List.mem_map.mp hcall
        exact (hcustody.using_ huse).1.inHand entry hentry
    · refine .inr ⟨fun j hj => ?_, hcustody.back huse rfl⟩
      obtain ⟨other, hother, huse'⟩ := hj.has
      rw [((honly j other).mp hother).2] at huse'
      exact huse huse'
  case ended =>
    intro hidle
    rw [hcalls, hnone hidle, Option.toList_none, List.append_nil]
  case never_released =>
    intro entry hentry hspoiling
    rw [hcalls]
    exact hcustody.never_released hentry hspoiling
  case ordered =>
    rw [hcalls]
    exact hcustody.ordered

theorem accounted_back {h : History σ ρ} (hnone : ∀ j slot, ¬ l.Has j c slot)
    (hback : HandedBack (h.log c)) (hcalls : h.calls c = (h.log c).map Prod.fst) :
    Accounted h l c := by
  constructor
  case idle =>
    refine fun _ => .inr ⟨fun j hj => ?_, hback⟩
    obtain ⟨slot, hslot, -⟩ := hj.has
    exact hnone j slot hslot
  case ended => exact fun _ => hcalls
  case never_released =>
    intro entry hentry hspoiling
    have hcustody : Custody False none (h.log c) := custody_back hback not_false
    rw [hcalls]
    simpa using hcustody.never_released hentry hspoiling
  case ordered =>
    rw [hcalls]
    exact hback.ordered

theorem Kept.account {h : History σ ρ} (hkept : Kept h l) (hc : c ∈ h.arrived) :
    Accounted h l c := by
  cases hkept.whereabouts c with
  | strange hnew => exact absurd hc hnew
  | held k slot _ honly hcustody hcalls => exact accounted_held honly hcustody hcalls
  | back _ hnone hback hcalls => exact accounted_back hnone hback hcalls

/-- Every connection that came is accounted for, if each came once and nothing fails but by an
ordinary error. -/
theorem accounted (inputs : List (Input σ ρ)) (hordinary : ∀ i ∈ inputs, i.isOrdinary = true)
    (hfresh : (({} : Ledger σ ρ).history inputs).arrived.Nodup) :
    ∀ c ∈ (({} : Ledger σ ρ).history inputs).arrived,
      Accounted (({} : Ledger σ ρ).history inputs) (({} : Ledger σ ρ).after inputs) c :=
  fun _ hc => (kept_history inputs hordinary hfresh).account hc

/-- Two sessions are begun: the first one's rollback fails, the second does not come to be. -/
def mishap : List (Input Unit Unit) :=
  let broken : Except Error Unit := .error (.given .driver [] none)
  [.begin, .begin, .acquired 0 0, .acquired 1 1, .settle 0 (.ok ()) "a", .settle 1 broken "b",
    .session 0 (.request .rollback), .session 0 (.run 0), .settle 1 broken "b",
    .session 0 (.settle 0 broken), .settle 1 (.ok ()) "b", .session 0 (.settle 0 broken)]

theorem accounted_mishap :
    (∀ i ∈ mishap, i.isOrdinary = true) ∧
      (({} : Ledger Unit Unit).history mishap).arrived = [0, 1] ∧
      (∀ c ∈ (({} : Ledger Unit Unit).history mishap).arrived,
        Accounted (({} : Ledger Unit Unit).history mishap) (({} : Ledger Unit Unit).after mishap) c) ∧
      (({} : Ledger Unit Unit).history mishap).calls 0 = [.begin, .rollback, .discard] ∧
      (({} : Ledger Unit Unit).history mishap).calls 1 = [.begin, .release, .discard] := by
  have hordinary : ∀ i ∈ mishap, i.isOrdinary = true := by decide
  have harrived : (({} : Ledger Unit Unit).history mishap).arrived = [0, 1] := rfl
  have hfresh : (({} : Ledger Unit Unit).history mishap).arrived.Nodup := by
    rw [harrived]
    decide
  exact ⟨hordinary, harrived, accounted mishap hordinary hfresh, rfl, rfl⟩

end Transact.Ledger
