import Transact.Proofs.Ledger.Scripts

/-! Sessions do not influence each other: each slot sees of a run what it would see if nothing else
had been done. -/
namespace Transact.Ledger

variable {σ ρ ω : Type} (scripts : Nat → Surroundings σ ρ ω) {l m : Ledger σ ρ} {k j c d : Nat}
  {slot : Slot σ ρ} {t : Turn σ} {x y : Scene σ ρ ω}

/-! What a turn comes to depends on the slot and its connection's world alone -/

/-- An input that is meant for one slot, whichever. -/
inductive IsAddressed : (Nat → Input σ ρ) → Option Nat → Prop
  | acquired (c : Nat) : IsAddressed (fun k => .acquired k c) (some c)
  | settle (outcome : Except Error Unit) (id : String) : IsAddressed (fun k => .settle k outcome id) none
  | session (i : Transact.Input σ ρ) : IsAddressed (fun k => .session k i) none

/-- The connections that a slot may have to do with: its own, or else the one that is brought. -/
def Allows (slot : Slot σ ρ) (brought : Option Nat) (c : Nat) : Prop :=
  c ∈ slot.connection? ∨ c ∈ brought ∧ slot.connection? = none

/-- What becomes of a slot, and what is wanted. -/
structure Outcome (slot : Slot σ ρ) (brought : Option Nat) (new : Option (Slot σ ρ))
    (effects : List (Effect σ ρ)) : Prop where
  new_allowed : ∀ s ∈ new, ∀ c ∈ s.connection?, Allows slot brought c
  effects_allowed : ∀ e ∈ effects, ∀ c ∈ e.connection?, Allows slot brought c
  unnumbered : effects.map Effect.alone = effects

theorem outcome_idle (brought : Option Nat) : Outcome slot brought none [] := by
  constructor <;> simp

theorem proceed_outcome (slot : Slot σ ρ) (brought connection : Option Nat) (id : String)
    (settled : List Log.Record × Opening.Next) (hconnection : ∀ c ∈ connection, Allows slot brought c) :
    ∃ new effects, Outcome slot brought new effects ∧ ∀ (l : Ledger σ ρ) (k : Nat),
      l.proceed k connection id settled = (new.elim l (l.put k), effects) := by
  obtain ⟨records, next⟩ := settled
  have hlogs {last : List (Effect σ ρ)} (hlast : ∀ e ∈ last, ∀ c ∈ e.connection?, Allows slot brought c) :
      ∀ e ∈ records.map (Effect.log : _ → Effect σ ρ) ++ last, ∀ c ∈ e.connection?, Allows slot brought c := by
    intro e he
    rcases List.mem_append.mp he with he | he
    · obtain ⟨record, -, rfl⟩ := List.mem_map.mp he
      simp [Effect.connection?]
    · exact hlast e he
  cases connection with
  | none =>
    cases next with
    | failed e =>
      exact ⟨some .failed, _, ⟨by simp [Slot.connection?], hlogs (by simp [Effect.connection?]),
        by simp [Effect.alone]⟩, fun l k => rfl⟩
    | _ => exact ⟨none, [], outcome_idle brought, fun l k => rfl⟩
  | some c =>
    have hc := hconnection c rfl
    cases next with
    | call stage call =>
      exact ⟨some (.opening c stage), _, ⟨by simpa [Slot.connection?] using hc,
        hlogs (by simpa [Effect.connection?] using hc), by simp [Effect.alone]⟩, fun l k => rfl⟩
    | opened =>
      exact ⟨some (.leased ⟨{ id }, c⟩), _, ⟨by simpa [Slot.connection?] using hc,
        hlogs (by simpa [Effect.connection?] using hc), by simp [Effect.alone]⟩, fun l k => rfl⟩
    | failed e =>
      exact ⟨some .failed, _, ⟨by simp [Slot.connection?], hlogs (by simp [Effect.connection?]),
        by simp [Effect.alone]⟩, fun l k => rfl⟩

theorem step_outcome (slot : Slot σ ρ) {i : Nat → Input σ ρ} {brought : Option Nat} (hi : IsAddressed i brought) :
    ∃ new effects, Outcome slot brought new effects ∧ ∀ (l : Ledger σ ρ) (k : Nat),
      l.slots[k]? = some slot → l.step (i k) = (new.elim l (l.put k), effects) := by
  cases hi with
  | acquired c =>
    cases slot with
    | acquiring =>
      obtain ⟨new, effects, houtcome, hstep⟩ := proceed_outcome (.acquiring : Slot σ ρ) (some c) (some c) ""
        (Opening.acquiring.settle (.ok ())) (by simp [Allows, Slot.connection?])
      exact ⟨new, effects, houtcome, fun l k hk => by simpa [step, hk] using hstep l k⟩
    | _ => exact ⟨none, [], outcome_idle _, fun l k hk => by simp [step, hk]⟩
  | settle outcome id =>
    cases slot with
    | acquiring =>
      obtain ⟨new, effects, houtcome, hstep⟩ := proceed_outcome (.acquiring : Slot σ ρ) none none id
        (Opening.acquiring.settle outcome) (by simp)
      exact ⟨new, effects, houtcome, fun l k hk => by simpa [step, hk] using hstep l k⟩
    | opening c stage =>
      obtain ⟨new, effects, houtcome, hstep⟩ := proceed_outcome (.opening c stage : Slot σ ρ) none (some c) id
        (stage.settle outcome) (by simp [Allows, Slot.connection?])
      exact ⟨new, effects, houtcome, fun l k hk => by simpa [step, hk] using hstep l k⟩
    | _ => exact ⟨none, [], outcome_idle _, fun l k hk => by simp [step, hk]⟩
  | session i =>
    cases slot with
    | leased lease =>
      refine ⟨some (.leased { lease with session := (lease.session.step i).1 }),
        (lease.session.step i).2.map (.session lease.connection), ⟨?_, ?_, ?_⟩, fun l k hk => ?_⟩
      · simp [Allows, Slot.connection?]
      · simp only [List.mem_map]
        rintro _ ⟨e, -, rfl⟩
        simp [Allows, Effect.connection?, Slot.connection?]
      · simp [Effect.alone]
      · simp [step, lease?_eq_some_iff.mpr hk]
    | _ => exact ⟨none, [], outcome_idle _, fun l k hk => by simp [step, lease?, hk]⟩

/-- The world of the slot's connection is as it was left. -/
def turned (slot : Slot σ ρ) (w : Option ω) (worlds : Nat → ω) : Nat → ω :=
  match slot.connection?, w with
  | some c, some w => Function.update worlds c w
  | _, _ => worlds

theorem turned_none (worlds : Nat → ω) : turned slot none worlds = worlds := by
  unfold turned
  split <;> simp_all

/-- The turn comes to that input, and so leaves the world of the slot's connection, whatever the others
are. -/
structure Played (worlds : Nat → ω) (slot : Slot σ ρ) (t : Turn σ) (i : Option (Nat → Input σ ρ))
    (w : Option ω) : Prop where
  addressed : ∀ input ∈ i, ∃ brought, IsAddressed input brought ∧ ∀ c ∈ brought, t = .acquired (.ok c)
  played : ∀ others : Nat → ω, (∀ c ∈ slot.connection?, others c = worlds c) →
    play scripts others slot t = (i, turned slot w others)

theorem played_nothing (worlds : Nat → ω) (hplay : ∀ others, play scripts others slot t = (none, others)) :
    Played scripts worlds slot t none none :=
  ⟨by simp, fun others _ => by rw [turned_none, hplay]⟩

theorem played_input (worlds : Nat → ω) {input : Nat → Input σ ρ} {brought : Option Nat}
    (hinput : IsAddressed input brought) (hbrought : ∀ c ∈ brought, t = .acquired (.ok c))
    (hplay : ∀ others, play scripts others slot t = (some input, others)) :
    Played scripts worlds slot t (some input) none := by
  refine ⟨?_, fun others _ => by rw [turned_none, hplay]⟩
  rintro _ ⟨⟩
  exact ⟨brought, hinput, hbrought⟩

theorem played (worlds : Nat → ω) (slot : Slot σ ρ) (t : Turn σ) : ∃ i w, Played scripts worlds slot t i w := by
  cases slot with
  | acquiring =>
    cases t with
    | acquired outcome =>
      cases outcome with
      | ok c => exact ⟨_, _, played_input scripts worlds (.acquired c) (by simp) fun _ => rfl⟩
      | error e => exact ⟨_, _, played_input scripts worlds (.settle (.error e) "") (by simp) fun _ => rfl⟩
    | _ => exact ⟨_, _, played_nothing scripts worlds fun _ => rfl⟩
  | opening c stage =>
    cases t with
    | proceed id =>
      cases hcall : (stage.call? : Option (Call σ)) with
      | none => exact ⟨_, _, played_nothing scripts worlds fun _ => by simp [play, hcall]⟩
      | some call =>
        refine ⟨some fun k => .settle k (((scripts c).call call (worlds c)).1.map fun _ => ()) id,
          some ((scripts c).call call (worlds c)).2, ?_, fun others hothers => ?_⟩
        · rintro input ⟨⟩
          exact ⟨none, .settle _ id, by simp⟩
        · simp [play, hcall, turned, Slot.connection?, hothers c rfl]
    | _ => exact ⟨_, _, played_nothing scripts worlds fun _ => rfl⟩
  | leased lease =>
    obtain ⟨s, c⟩ := lease
    cases t with
    | answer job =>
      refine ⟨(Session.respond (scripts c) job (s.pending job) (worlds c)).1.map fun i k => .session k i,
        some (Session.respond (scripts c) job (s.pending job) (worlds c)).2, ?_, fun others hothers => ?_⟩
      · intro input hinput
        obtain ⟨i, -, rfl⟩ := Option.map_eq_some_iff.mp hinput
        exact ⟨none, .session i, by simp⟩
      · simp [play, turned, Slot.connection?, hothers c rfl]
    | request r => exact ⟨_, _, played_input scripts worlds (.session (.request r)) (by simp) fun _ => rfl⟩
    | run job => exact ⟨_, _, played_input scripts worlds (.session (.run job)) (by simp) fun _ => rfl⟩
    | abandon job => exact ⟨_, _, played_input scripts worlds (.session (.abandon job)) (by simp) fun _ => rfl⟩
    | interrupt job => exact ⟨_, _, played_input scripts worlds (.session (.interrupt job)) (by simp) fun _ => rfl⟩
    | register o => exact ⟨_, _, played_input scripts worlds (.session (.register o)) (by simp) fun _ => rfl⟩
    | _ => exact ⟨_, _, played_nothing scripts worlds fun _ => rfl⟩
  | failed => cases t <;> exact ⟨_, _, played_nothing scripts worlds fun _ => rfl⟩

theorem Outcome.mono {brought more : Option Nat} {new : Option (Slot σ ρ)} {effects : List (Effect σ ρ)}
    (h : Outcome slot brought new effects) (hmore : ∀ c ∈ brought, c ∈ more) :
    Outcome slot more new effects where
  new_allowed s hs c hc := (h.new_allowed s hs c hc).imp_right (.imp_left (hmore c))
  effects_allowed e he c hc := (h.effects_allowed e he c hc).imp_right (.imp_left (hmore c))
  unnumbered := h.unnumbered

/-- Wherever the slot stands, its turn does the same to it and to its connection's world. -/
theorem turn_outcome (worlds : Nat → ω) (slot : Slot σ ρ) (t : Turn σ) :
    ∃ new effects w, Outcome slot t.connection? new effects ∧
      ∀ (x : Scene σ ρ ω) (k : Nat), x.ledger.slots[k]? = some slot →
        (∀ c ∈ slot.connection?, x.worlds c = worlds c) →
          x.step scripts (.turn k t) = (⟨new.elim x.ledger (x.ledger.put k), turned slot w x.worlds⟩, effects) := by
  obtain ⟨i, w, haddressed, hplay⟩ := played scripts worlds slot t
  cases i with
  | none =>
    refine ⟨none, [], w, outcome_idle _, fun x k hk hworlds => ?_⟩
    simp [Scene.step, hk, hplay x.worlds hworlds]
  | some input =>
    obtain ⟨brought, hinput, hbrought⟩ := haddressed input rfl
    obtain ⟨new, effects, houtcome, hstep⟩ := step_outcome slot hinput
    refine ⟨new, effects, w, houtcome.mono fun c hc => ?_, fun x k hk hworlds => ?_⟩
    · rw [hbrought c hc]
      rfl
    · simp [Scene.step, hk, hplay x.worlds hworlds, Scene.feed, hstep x.ledger k hk]

/-! No two slots have to do with one connection -/

structure Apart (brought : List Nat) (x : Scene σ ρ ω) : Prop where
  known : ∀ (k c : Nat) (s : Slot σ ρ), x.ledger.slots[k]? = some s → c ∈ s.connection? → c ∈ brought
  apart : ∀ (k j c : Nat) (s s' : Slot σ ρ), x.ledger.slots[k]? = some s →
    x.ledger.slots[j]? = some s' → c ∈ s.connection? → c ∈ s'.connection? → k = j

theorem apart_empty (worlds : Nat → ω) : Apart [] ({ worlds } : Scene σ ρ ω) where
  known := by simp
  apart := by simp

/-- One slot is set, and has its connection or a new one. -/
theorem Apart.sets {brought more : List Nat} (h : Apart brought x) {new : Slot σ ρ}
    (hsets : Sets x.ledger y.ledger k new) (hmore : ∀ c ∈ brought, c ∈ more)
    (hnew : ∀ c ∈ new.connection?, c ∈ more ∧
      ∀ j s, x.ledger.slots[j]? = some s → c ∈ s.connection? → j = k) : Apart more y where
  known j c s hj hc := by
    rw [hsets j] at hj
    split at hj
    · cases hj
      exact (hnew c hc).1
    · exact hmore c (h.known j c s hj hc)
  apart i j c s s' hi hj hc hc' := by
    rw [hsets i] at hi
    rw [hsets j] at hj
    split at hi <;> split at hj
    · subst i j; rfl
    · cases hi
      subst i
      exact ((hnew c hc).2 j s' hj hc').symm
    · cases hj
      subst j
      exact (hnew c hc').2 i s hi hc
    · exact h.apart i j c s s' hi hj hc hc'

theorem Apart.step {brought : List Nat} (h : Apart brought x) (cue : Cue σ)
    (hfresh : ∀ c ∈ cue.connection?, c ∉ brought) :
    Apart (brought ++ cue.connection?.toList) (x.step scripts cue).1 := by
  have hmore (c : Nat) (hc : c ∈ brought) : c ∈ brought ++ cue.connection?.toList :=
    List.mem_append_left _ hc
  have hsame {y : Scene σ ρ ω} (hy : y.ledger = x.ledger) : Apart (brought ++ cue.connection?.toList) y :=
    ⟨fun k c s hk hc => hmore c (h.known k c s (hy ▸ hk) hc),
      fun k j c s s' hk hj => h.apart k j c s s' (hy ▸ hk) (hy ▸ hj)⟩
  cases cue with
  | begin => exact h.sets sets_append hmore (by simp [Slot.connection?])
  | wrap c id =>
    refine h.sets sets_append hmore fun d hd => ?_
    obtain rfl : c = d := Option.some.inj hd
    refine ⟨by simp [Cue.connection?], fun j s hj hc => ?_⟩
    exact absurd (h.known j c s hj hc) (hfresh c rfl)
  | turn k t =>
    cases hk : x.ledger.slots[k]? with
    | none => exact hsame (by simp [Scene.step, hk])
    | some slot =>
      obtain ⟨new, effects, w, houtcome, hstep⟩ := turn_outcome scripts x.worlds slot t
      rw [hstep x k hk fun _ _ => rfl]
      cases new with
      | none => exact hsame rfl
      | some new =>
        refine h.sets (sets_put hk) hmore fun c hc => ?_
        rcases houtcome.new_allowed new rfl c hc with hown | ⟨hbrought, -⟩
        · exact ⟨hmore c (h.known k c slot hk hown), fun j s hj hc => h.apart j k c s slot hj hk hc hown⟩
        · have hcue : c ∈ (Cue.turn k t).connection? := hbrought
          refine ⟨List.mem_append_right _ (Option.mem_toList.mpr hcue), fun j s hj hc => ?_⟩
          exact absurd (h.known j c s hj hc) (hfresh c hcue)

/-! The run of one slot alone -/

/-- The second scene has the one slot of the first, with its connection as it is there; so are those
that have not been brought yet. -/
structure Mirrors (k : Nat) (brought : List Nat) (x y : Scene σ ρ ω) : Prop where
  slots : y.ledger.slots = (x.ledger.slots[k]?).toList
  fresh : ∀ c, c ∉ brought → y.worlds c = x.worlds c
  world : ∀ slot c, x.ledger.slots[k]? = some slot → c ∈ slot.connection? → y.worlds c = x.worlds c

theorem Mirrors.world? {brought : List Nat} (h : Mirrors k brought x y) : y.world? 0 = x.world? k := by
  have hslots := h.slots
  cases hk : x.ledger.slots[k]? with
  | none => simp [Scene.world?, hslots, hk]
  | some slot =>
    cases hc : slot.connection? with
    | none => simp [Scene.world?, hslots, hk, hc]
    | some c => simp [Scene.world?, hslots, hk, hc, h.world slot c hk hc]

theorem turned_of_not_mem {w : Option ω} {worlds : Nat → ω} (hc : c ∉ slot.connection?) :
    turned slot w worlds c = worlds c := by
  cases hd : slot.connection? with
  | none => simp [turned, hd]
  | some d =>
    have hne : c ≠ d := by
      rintro rfl
      exact hc hd
    cases w <;> simp [turned, hd, hne]

theorem turned_of_mem {w : Option ω} {worlds others : Nat → ω} (hc : c ∈ slot.connection?)
    (hsame : others c = worlds c) : turned slot w others c = turned slot w worlds c := by
  unfold turned
  rw [show slot.connection? = some c from hc]
  cases w <;> simp [hsame]

/-- A step of another slot leaves the one and its connection as they are. -/
theorem frame_step {brought : List Nat} (hapart : Apart brought x) (cue : Cue σ)
    (hfresh : ∀ c ∈ cue.connection?, c ∉ brought) (hother : cue.slot x.ledger.slots.length ≠ k) :
    (x.step scripts cue).1.ledger.slots[k]? = x.ledger.slots[k]? ∧
      (∀ c, c ∉ brought → (x.step scripts cue).1.worlds c = x.worlds c) ∧
      ∀ slot c, x.ledger.slots[k]? = some slot → c ∈ slot.connection? →
        (x.step scripts cue).1.worlds c = x.worlds c ∧
          ∀ e ∈ (x.step scripts cue).2, c ∉ e.connection? := by
  cases cue with
  | begin =>
    refine ⟨?_, fun _ _ => rfl, fun slot c hk hc => ⟨rfl, by simp [Scene.step, Scene.feed, Ledger.step, Effect.connection?]⟩⟩
    exact (sets_append k).trans (if_neg (Ne.symm hother))
  | wrap d id =>
    refine ⟨(sets_append k).trans (if_neg (Ne.symm hother)), fun _ _ => rfl, fun slot c hk hc => ⟨rfl, ?_⟩⟩
    have hne : c ≠ d := by
      rintro rfl
      exact hfresh c rfl (hapart.known k c slot hk hc)
    simp [Scene.step, Scene.feed, Ledger.step, Effect.connection?, Ne.symm hne]
  | turn j t =>
    cases hj : x.ledger.slots[j]? with
    | none => simp [Scene.step, hj]
    | some slot =>
      obtain ⟨new, effects, w, houtcome, hstep⟩ := turn_outcome scripts x.worlds slot t
      rw [hstep x j hj fun _ _ => rfl]
      have hown {c : Nat} {s : Slot σ ρ} (hk : x.ledger.slots[k]? = some s) (hc : c ∈ s.connection?) :
          c ∉ slot.connection? := fun hmem => hother (hapart.apart j k c slot s hj hk hmem hc)
      refine ⟨?_, fun c hc => turned_of_not_mem fun hmem => hc (hapart.known j c slot hj hmem),
        fun s c hk hc => ⟨turned_of_not_mem (hown hk hc), fun e he hmem => ?_⟩⟩
      · cases new with
        | none => rfl
        | some new => exact (sets_put hj k).trans (if_neg (Ne.symm hother))
      · rcases houtcome.effects_allowed e he c hmem with hslot | ⟨hbrought, -⟩
        · exact hown hk hc hslot
        · exact hfresh c hbrought (hapart.known k c s hk hc)

theorem Mirrors.other {brought : List Nat} (h : Mirrors k brought x y) (hapart : Apart brought x) (cue : Cue σ)
    (hfresh : ∀ c ∈ cue.connection?, c ∉ brought) (hother : cue.slot x.ledger.slots.length ≠ k) :
    Mirrors k (brought ++ cue.connection?.toList) (x.step scripts cue).1 y := by
  obtain ⟨hslot, hnew, hworld⟩ := frame_step scripts hapart cue hfresh hother
  refine ⟨by rw [hslot, h.slots], fun c hc => ?_, fun slot c hk hc => ?_⟩
  · have hc : c ∉ brought := fun hmem => hc (List.mem_append_left _ hmem)
    rw [hnew c hc, h.fresh c hc]
  · rw [hslot] at hk
    rw [(hworld slot c hk hc).1, h.world slot c hk hc]

/-- A slot comes, with no connection or one that is new. -/
theorem Mirrors.comes {brought more : List Nat} (h : Mirrors k brought x y) (hk : x.ledger.slots.length = k)
    {new : Slot σ ρ} (hnew : ∀ c ∈ new.connection?, c ∉ brought) (hmore : ∀ c ∈ brought, c ∈ more) :
    Mirrors k more { x with ledger := { x.ledger with slots := x.ledger.slots ++ [new] } }
      { y with ledger := { y.ledger with slots := y.ledger.slots ++ [new] } } := by
  have hnone : x.ledger.slots[k]? = none := List.getElem?_eq_none (Nat.le_of_eq hk)
  have hset : (x.ledger.slots ++ [new])[k]? = some new := by simp [← hk]
  have hslots := h.slots
  rw [hnone] at hslots
  refine ⟨?_, fun c hc => h.fresh c fun hmem => hc (hmore c hmem), fun slot c hslot hc => ?_⟩
  · simp [hset, hslots]
  · obtain rfl : new = slot := Option.some.inj (hset.symm.trans hslot)
    exact h.fresh c (hnew c hc)

/-- The slot that is there has its turn, and may get a connection that is new. -/
theorem Mirrors.moves {brought more : List Nat} (h : Mirrors k brought x y) (hk : x.ledger.slots[k]? = some slot)
    {new : Option (Slot σ ρ)} {w : Option ω}
    (hnew : ∀ s ∈ new, ∀ c ∈ s.connection?, c ∈ slot.connection? ∨ c ∉ brought) (hmore : ∀ c ∈ brought, c ∈ more) :
    Mirrors k more ⟨new.elim x.ledger (x.ledger.put k), turned slot w x.worlds⟩
      ⟨new.elim y.ledger (y.ledger.put 0), turned slot w y.worlds⟩ := by
  have hslots := h.slots
  rw [hk] at hslots
  have hown : ∀ c ∈ slot.connection?, turned slot w y.worlds c = turned slot w x.worlds c :=
    fun c hc => turned_of_mem hc (h.world slot c hk hc)
  have hfresh : ∀ c, c ∉ brought → turned slot w y.worlds c = turned slot w x.worlds c := by
    intro c hc
    by_cases hmem : c ∈ slot.connection?
    · exact hown c hmem
    · rw [turned_of_not_mem hmem, turned_of_not_mem hmem, h.fresh c hc]
  cases new with
  | none =>
    refine ⟨h.slots, fun c hc => hfresh c fun hmem => hc (hmore c hmem), fun s c hs hc => ?_⟩
    obtain rfl : slot = s := Option.some.inj (hk.symm.trans hs)
    exact hown c hc
  | some new =>
    have hset : (x.ledger.put k new).slots[k]? = some new := (sets_put hk k).trans (if_pos rfl)
    refine ⟨?_, fun c hc => hfresh c fun hmem => hc (hmore c hmem), fun s c hs hc => ?_⟩
    · simp only [Option.elim, hset]
      simp [Ledger.put, hslots]
    · obtain rfl : new = s := Option.some.inj (hset.symm.trans hs)
      exact (hnew new rfl c hc).elim (hown c) (hfresh c)

theorem Mirrors.same {brought : List Nat} (h : Mirrors k brought x y) (cue : Cue σ)
    (hfresh : ∀ c ∈ cue.connection?, c ∉ brought) (hsame : cue.slot x.ledger.slots.length = k) :
    Mirrors k (brought ++ cue.connection?.toList) (x.step scripts cue).1 (y.step scripts cue.alone).1 ∧
      (x.step scripts cue).2.map Effect.alone = (y.step scripts cue.alone).2.map Effect.alone := by
  have hmore (c : Nat) (hc : c ∈ brought) : c ∈ brought ++ cue.connection?.toList := List.mem_append_left _ hc
  cases cue with
  | begin => exact ⟨h.comes hsame (by simp [Slot.connection?]) hmore, rfl⟩
  | wrap d id => exact ⟨h.comes hsame hfresh hmore, rfl⟩
  | turn j t =>
    obtain rfl : j = k := hsame
    have hslots := h.slots
    cases hk : x.ledger.slots[j]? with
    | none =>
      rw [hk] at hslots
      have hx : x.step scripts (.turn j t) = (x, []) := by simp [Scene.step, hk]
      have hy : y.step scripts (.turn 0 t) = (y, []) := by simp [Scene.step, hslots]
      rw [show (Cue.turn j t).alone = .turn 0 t from rfl, hx, hy]
      exact ⟨⟨h.slots, fun c hc => h.fresh c fun hmem => hc (hmore c hmem), h.world⟩, rfl⟩
    | some slot =>
      obtain ⟨new, effects, w, houtcome, hstep⟩ := turn_outcome scripts x.worlds slot t
      rw [hk] at hslots
      have hx := hstep x j hk fun _ _ => rfl
      have hy := hstep y 0 (by simp [hslots]) fun c hc => h.world slot c hk hc
      rw [show (Cue.turn j t).alone = .turn 0 t from rfl, hx, hy]
      refine ⟨h.moves hk (fun s hs c hc => ?_) hmore, rfl⟩
      exact (houtcome.new_allowed s hs c hc).imp_right fun hbrought => hfresh c hbrought.1

theorem Cue.alone_alone (cue : Cue σ) : cue.alone.alone = cue.alone := by
  cases cue <;> rfl

namespace Scene

/-- The run so far and the slot's own run have come to the same for the slot. -/
structure Accord (worlds : Nat → ω) (k : Nat) (brought : List Nat)
    (h : History σ ρ ω) (x : Scene σ ρ ω) : Prop where
  apart : Apart brought x
  mirrors : Mirrors k brought x (Walk.after (Scene.step scripts) { worlds } (h.own k))
  sights : h.sights k = (Walk.history (Scene.step scripts) { worlds } (h.own k)).map (Moment.sight 0)

theorem accord_empty (worlds : Nat → ω) (k : Nat) :
    Accord scripts worlds k [] [] ({ worlds } : Scene σ ρ ω) where
  apart := apart_empty worlds
  mirrors := ⟨by simp [History.own, Walk.after], fun _ _ => rfl, by simp⟩
  sights := rfl

theorem Accord.step {worlds : Nat → ω} {brought : List Nat} {h : History σ ρ ω}
    (hd : Accord scripts worlds k brought h x) (cue : Cue σ) (hfresh : ∀ c ∈ cue.connection?, c ∉ brought) :
    Accord scripts worlds k (brought ++ cue.connection?.toList) (h ++ [Walk.move (Scene.step scripts) x cue])
      (x.step scripts cue).1 := by
  have hapart := hd.apart.step scripts cue hfresh
  by_cases hslot : cue.slot x.ledger.slots.length = k
  · have hconcerns : Moment.concerns k (Walk.move (Scene.step scripts) x cue) = true := by
      simp [Moment.concerns, Walk.move, hslot]
    have hown : (h ++ [Walk.move (Scene.step scripts) x cue]).own k = h.own k ++ [cue.alone] := by
      simp only [History.own, List.filter_append, List.filter_cons_of_pos hconcerns, List.filter_nil, List.map_append]
      rfl
    obtain ⟨hmirrors, heffects⟩ := hd.mirrors.same scripts cue hfresh hslot
    refine ⟨hapart, ?_, ?_⟩
    · rw [hown, Walk.after_append]
      exact hmirrors
    · have hsight : Moment.sight k (Walk.move (Scene.step scripts) x cue) = Moment.sight 0
          (Walk.move (Scene.step scripts) (Walk.after (Scene.step scripts) { worlds } (h.own k)) cue.alone) := by
        simp only [Moment.sight, Walk.move, Cue.alone_alone, heffects, hmirrors.world?, hmirrors.slots]
        cases (x.step scripts cue).1.ledger.slots[k]? <;> rfl
      rw [hown, Walk.history_append, List.map_append, ← hd.sights]
      simp [History.sights, hconcerns, hsight, Walk.history]
  · have hconcerns : Moment.concerns k (Walk.move (Scene.step scripts) x cue) = false := by
      simp [Moment.concerns, Walk.move, hslot]
    have hown : (h ++ [Walk.move (Scene.step scripts) x cue]).own k = h.own k := by
      simp [History.own, hconcerns]
    refine ⟨hapart, ?_, ?_⟩
    · rw [hown]
      exact hd.mirrors.other scripts hd.apart cue hfresh hslot
    · rw [hown, ← hd.sights]
      simp [History.sights, hconcerns]

theorem accord_run (worlds : Nat → ω) (k : Nat) (cues : List (Cue σ))
    (hdistinct : (cues.filterMap Cue.connection?).Nodup) :
    Accord scripts worlds k (cues.filterMap Cue.connection?)
      (Walk.history (Scene.step scripts) { worlds } cues) (Walk.after (Scene.step scripts) { worlds } cues) := by
  induction cues using List.reverseRecOn with
  | nil => exact accord_empty scripts worlds k
  | append_singleton rest cue ih =>
    rw [List.filterMap_append, List.nodup_append] at hdistinct
    obtain ⟨hrest, -, hfresh⟩ := hdistinct
    have hlast : [cue].filterMap Cue.connection? = cue.connection?.toList := by
      cases hc : cue.connection? <;> simp [hc]
    rw [Walk.after_append, Walk.history_append, List.filterMap_append, hlast]
    refine (ih hrest).step scripts cue fun c hc hmem => hfresh c hmem c ?_ rfl
    rw [hlast]
    exact Option.mem_toList.mpr hc

end Scene

/-- Of a run the slot sees what it sees where nothing but its own is done, it is left so and its
connection's world is, and no step of another slot does anything to them. -/
structure Independent (k : Nat) (worlds : Nat → ω)
    (h : Scene.History σ ρ ω) (x : Scene σ ρ ω) : Prop where
  sights : h.sights k = (Walk.history (Scene.step scripts) { worlds } (h.own k)).map (Scene.Moment.sight 0)
  slot : (Walk.after (Scene.step scripts) { worlds } (h.own k)).ledger.slots = (x.ledger.slots[k]?).toList
  world : (Walk.after (Scene.step scripts) { worlds } (h.own k)).world? 0 = x.world? k
  others : ∀ m ∈ h, Scene.Moment.concerns k m = false →
    m.after.ledger.slots[k]? = m.before.ledger.slots[k]? ∧ m.after.world? k = m.before.world? k ∧
      ∀ s ∈ m.before.ledger.slots[k]?, ∀ c ∈ s.connection?, ∀ e ∈ m.effects, c ∉ e.connection?

theorem independent (worlds : Nat → ω) (cues : List (Cue σ))
    (hdistinct : (cues.filterMap Cue.connection?).Nodup) (k : Nat) :
    Independent scripts k worlds (Walk.history (Scene.step scripts) { worlds } cues)
      (Walk.after (Scene.step scripts) { worlds } cues) := by
  have haccord := Scene.accord_run scripts worlds k cues hdistinct
  refine ⟨haccord.sights, haccord.mirrors.slots, haccord.mirrors.world?, fun m hm hother => ?_⟩
  obtain ⟨xs, cue, ys, rfl, rfl⟩ := Walk.mem_history hm
  rw [List.filterMap_append, List.nodup_append] at hdistinct
  obtain ⟨hxs, -, hfresh⟩ := hdistinct
  have hapart := (Scene.accord_run scripts worlds k xs hxs).apart
  obtain ⟨hslot, -, hworld⟩ := frame_step scripts hapart cue
    (fun c hc hmem => hfresh c hmem c (List.mem_filterMap.mpr ⟨cue, List.mem_cons_self, hc⟩) rfl)
    (by simpa [Scene.Moment.concerns, Walk.move] using hother)
  refine ⟨hslot, ?_, fun s hs c hc => (hworld s c hs hc).2⟩
  simp only [Walk.move, Scene.world?, hslot]
  cases hs : (Walk.after (Scene.step scripts) { worlds } xs).ledger.slots[k]? with
  | none => rfl
  | some s =>
    cases hc : s.connection? with
    | none => simp [hc]
    | some c => simp [hc, (hworld s c hs hc).1]

/-- The connections count what they are asked; the first one's commits fail. -/
def counting (c : Nat) : Surroundings Unit Unit Nat where
  call call n := (if c = 0 ∧ call = .commit then .error (.given .driver [] none) else .ok (), n + 1)
  hook _ _ n := (.ok (), n + 1)

/-- Two sessions in turns, where one is not committed and the other is. -/
def crossing : List (Cue Unit) :=
  [.begin, .begin, .turn 0 (.acquired (.ok 0)), .turn 1 (.acquired (.ok 1)), .turn 1 (.proceed "b"),
    .turn 0 (.proceed "a"), .turn 0 (.request .commit), .turn 1 (.request (.execute ())), .turn 0 (.run 0),
    .turn 1 (.run 0), .turn 0 (.answer 0), .turn 1 (.answer 0), .turn 1 (.request .commit), .turn 1 (.run 1),
    .turn 0 (.answer 0), .turn 1 (.answer 1), .turn 0 (.answer 0), .turn 1 (.answer 1)]

theorem independent_crossing :
    (crossing.filterMap Cue.connection?).Nodup ∧
      (∀ k, Independent counting k (fun _ => 0)
        (Walk.history (Scene.step counting) { worlds := fun _ => 0 } crossing)
        (Walk.after (Scene.step counting) { worlds := fun _ => 0 } crossing)) ∧
      (Walk.after (Scene.step counting) { worlds := fun _ => 0 } crossing).ledger.slots.map
          (fun slot => match slot with | .leased lease => some lease.session.phase | _ => none) =
        [some .rolledBack, some .committed] := by
  have hdistinct : (crossing.filterMap Cue.connection?).Nodup := by decide
  exact ⟨hdistinct, independent counting (fun _ => 0) crossing hdistinct, rfl⟩

end Transact.Ledger
