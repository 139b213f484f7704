import Transact.Proofs.Simulation.Blocks

/-! A task that has control, among all that is under way: how its frames come and go, and what may
happen around them. -/
namespace Transact.Simulation

/-- What the blocks depend on. -/
structure Core where
  ledger : Ledger Query Value
  context : Value
  strands : List Strand

def Task.strand (t : Task) : Strand := ⟨t.inherited, t.context, t.frames⟩

def World.core (w : World) : Core := ⟨w.ledger, w.context, w.tasks.map Task.strand⟩

variable {c d e : Core} {l : Ledger Query Value} {outer v : Value} {frames rest : List Frame} {f : Frame}
  {s j t : Nat} {x : Strand} {outside : Option Value}

/-- No session loses its id, and no task what was bound where it was made. -/
structure Follows (c d : Core) : Prop where
  id : ∀ s id, c.ledger.id? s = some id → d.ledger.id? s = some id
  outer : c.strands.map Strand.outer <+: d.strands.map Strand.outer

theorem Follows.refl (c : Core) : Follows c c := ⟨fun _ _ h => h, List.prefix_refl _⟩

theorem Follows.trans (h : Follows c d) (h' : Follows d e) : Follows c e :=
  ⟨fun s id hid => h'.id s id (h.id s id hid), h.outer.trans h'.outer⟩

/-- Jobs are opened and tasks made for them, and nothing else that a task is in the middle of. -/
structure Grows (c d : Core) : Prop where
  context : d.context = c.context
  keeps : Ledger.Keeps none c.ledger d.ledger
  strands : ∃ more, d.strands = c.strands ++ more ∧ Sound d.ledger more ∧
    ∀ key ∈ more.flatMap Strand.jobs, ¬ c.ledger.Knows key.1 key.2

theorem grows_ledger (hcontext : d.context = c.context) (hstrands : d.strands = c.strands)
    (hkeeps : Ledger.Keeps none c.ledger d.ledger) : Grows c d :=
  ⟨hcontext, hkeeps, [], by simp [hstrands], sound_nil _, by simp⟩

theorem Grows.refl (c : Core) : Grows c c := grows_ledger rfl rfl (.refl _ _)

theorem grows_of_eq (h : d = c) : Grows c d := h ▸ .refl c

theorem Grows.trans (h : Grows c d) (h' : Grows d e) : Grows c e := by
  obtain ⟨more, hmore, hsound, hnew⟩ := h.strands
  obtain ⟨more', hmore', hsound', hnew'⟩ := h'.strands
  refine ⟨h'.context.trans h.context, h.keeps.trans h'.keeps, more ++ more', ?_, ?_, ?_⟩
  · rw [hmore', hmore, List.append_assoc]
  · refine (hsound.keeps h'.keeps (by simp)).append hsound' fun key hkey hmem => ?_
    exact hnew' key hmem (hsound.knows key hkey)
  · intro key hkey
    rw [List.flatMap_append, List.mem_append] at hkey
    rcases hkey with hkey | hkey
    · exact hnew key hkey
    · exact fun hknows => hnew' key hkey (h.keeps.knows _ _ hknows)

theorem Grows.follows (h : Grows c d) : Follows c d := by
  obtain ⟨more, hmore, -⟩ := h.strands
  refine ⟨h.keeps.id, ?_⟩
  rw [hmore, List.map_append]
  exact List.prefix_append _ _

theorem Grows.sound (h : Grows c d) (hsound : Sound c.ledger c.strands) : Sound d.ledger d.strands := by
  obtain ⟨more, hmore, hnews, hnew⟩ := h.strands
  rw [hmore]
  exact (hsound.keeps h.keeps (by simp)).append hnews fun key hkey hmem =>
    hnew key hmem (hsound.knows key hkey)

/-- The task has control in these frames. -/
structure Stands (t : Nat) (outer : Value) (c : Core) (frames : List Frame) : Prop where
  there : (c.strands[t]?).map Strand.outer = some outer
  sound : Sound c.ledger (⟨outer, c.context, frames⟩ :: c.strands.eraseIdx t)

theorem Stands.lt (h : Stands t outer c frames) : t < c.strands.length := by
  obtain ⟨x, hx, -⟩ := Option.map_eq_some_iff.mp h.there
  exact (List.getElem?_eq_some_iff.mp hx).1

theorem Stands.stacked (h : Stands t outer c frames) : Stacked c.ledger outer frames :=
  h.sound.stacked ⟨outer, c.context, frames⟩ List.mem_cons_self

theorem Stands.context (h : Stands t outer c frames) : c.context = bound c.ledger outer frames :=
  h.sound.bound ⟨outer, c.context, frames⟩ List.mem_cons_self

theorem Stands.grows (h : Stands t outer c frames) (hgrows : Grows c d) : Stands t outer d frames := by
  obtain ⟨more, hmore, hnews, hnew⟩ := hgrows.strands
  constructor
  · rw [hmore, List.getElem?_append_left h.lt]
    exact h.there
  · rw [hmore, List.eraseIdx_append_of_lt_length h.lt, hgrows.context, ← List.cons_append]
    exact (h.sound.keeps hgrows.keeps (by simp)).append hnews fun key hkey hmem =>
      hnew key hmem (h.sound.knows key hkey)

/-- The frames differ in no job. -/
theorem Stands.refit (h : Stands t outer c frames) (hstacked : Stacked c.ledger outer rest)
    (hbound : bound c.ledger outer rest = bound c.ledger outer frames) (hjobs : jobsOf rest = jobsOf frames) :
    Stands t outer c rest := by
  obtain ⟨⟨-, hcontext⟩, hapart, hothers⟩ := sound_cons.mp h.sound
  refine ⟨h.there, sound_cons.mpr ⟨⟨hstacked, hcontext.trans hbound.symm⟩, ?_, hothers⟩⟩
  simpa only [Strand.jobs, hjobs] using hapart

theorem Stands.push (h : Stands t outer c rest) (f : Frame) (hf : f.job? = none) (hfits : f.Fits c.ledger outer rest) :
    Stands t outer c (f :: rest) :=
  h.refit ⟨hfits, h.stacked⟩ (bound_cons (Frame.block?_eq_none hf)) (jobsOf_cons hf)

theorem Stands.pop (h : Stands t outer c (f :: rest)) (hf : f.job? = none) : Stands t outer c rest :=
  h.refit h.stacked.2 (bound_cons (Frame.block?_eq_none hf)).symm (jobsOf_cons hf).symm

/-- The task has control in a job, inside its block or outside; `outside` is what it keeps. -/
structure Amid (t : Nat) (outer : Value) (s j : Nat) (outside : Option Value) (c : Core) (frames : List Frame) :
    Prop where
  below : Stands t outer { c with context := outside.getD c.context } frames
  inside : ∀ v ∈ outside, c.context = idOf c.ledger s
  knows : c.ledger.Knows s j
  fresh : (s, j) ∉ jobsOf frames ∧ (s, j) ∉ (c.strands.eraseIdx t).flatMap Strand.jobs

theorem Amid.out (h : Amid t outer s j outside c frames) :
    Amid t outer s j none { c with context := outside.getD c.context } frames :=
  ⟨h.below, by simp, h.knows, h.fresh⟩

/-- A job that has not been in its block goes into it. -/
theorem Amid.into (h : Amid t outer s j none c frames) :
    Amid t outer s j (some c.context) { c with context := idOf c.ledger s } frames :=
  ⟨h.below, fun _ _ => rfl, h.knows, h.fresh⟩

theorem Amid.stands (h : Amid t outer s j outside c frames) (hnotifies : outside.isSome = c.ledger.notifies s j) :
    Stands t outer c (.job s j outside :: frames) := by
  obtain ⟨⟨hstacked, hcontext⟩, ⟨hnodup, hapart⟩, hothers⟩ := sound_cons.mp h.below.sound
  have hfits : (Frame.job s j outside).Fits c.ledger outer frames := by
    refine ⟨h.knows, ?_⟩
    rw [← hnotifies]
    cases outside with
    | none => rfl
    | some v => exact congrArg some hcontext
  refine ⟨h.below.there, sound_cons.mpr ⟨⟨⟨hfits, hstacked⟩, ?_⟩, ⟨?_, ?_⟩, hothers⟩⟩
  · cases outside with
    | none => exact hcontext
    | some v => exact h.inside v rfl
  · exact List.nodup_cons.mpr ⟨h.fresh.1, hnodup⟩
  · simp only [Strand.jobs, jobsOf_job, List.mem_cons]
    rintro key (rfl | hkey)
    · exact h.fresh.2
    · exact hapart key hkey

theorem Stands.amid (h : Stands t outer c (.job s j outside :: frames)) : Amid t outer s j outside c frames := by
  obtain ⟨⟨⟨⟨hknows, houtside⟩, hstacked⟩, hcontext⟩, ⟨hnodup, hapart⟩, hothers⟩ := sound_cons.mp h.sound
  simp only [Strand.jobs, jobsOf_job, List.nodup_cons] at hnodup
  simp only [Strand.jobs, jobsOf_job, List.forall_mem_cons] at hapart
  refine ⟨⟨h.there, sound_cons.mpr ⟨⟨hstacked, ?_⟩, ⟨hnodup.2, hapart.2⟩, hothers⟩⟩, ?_, hknows, hnodup.1, hapart.1⟩
  · cases outside with
    | none => exact hcontext
    | some v =>
      split at houtside
      · exact Option.some.inj houtside
      · cases houtside
  · rintro v ⟨⟩
    exact hcontext

theorem Stands.inside (h : Stands t outer c (.job s j outside :: frames)) :
    outside.isSome = c.ledger.notifies s j := h.stacked.inside List.mem_cons_self

/-- A job that was not there before has no frame yet. -/
theorem Stands.opened (h : Stands t outer c frames) (hgrows : Grows c d) (hstrands : d.strands = c.strands)
    (hnew : ¬ c.ledger.Knows s j) (hknows : d.ledger.Knows s j) : Amid t outer s j none d frames := by
  refine ⟨h.grows hgrows, by simp, hknows, fun hmem => ?_, fun hmem => ?_⟩
  · exact hnew (h.stacked.knows (s, j) hmem)
  · rw [hstrands] at hmem
    exact hnew ((sound_cons.mp h.sound).2.2.knows (s, j) hmem)

/-- The job itself is moved. -/
theorem Amid.moved (h : Amid t outer s j outside c frames)
    (hkeeps : Ledger.Keeps (some (s, j)) c.ledger l) : Amid t outer s j outside { c with ledger := l } frames := by
  have hmoved : ∀ key ∈ (⟨outer, outside.getD c.context, frames⟩ :: c.strands.eraseIdx t).flatMap Strand.jobs,
      some (s, j) ≠ some key := by
    rintro key hkey ⟨⟩
    rw [List.flatMap_cons, List.mem_append] at hkey
    exact hkey.elim h.fresh.1 h.fresh.2
  refine ⟨⟨h.below.there, h.below.sound.keeps hkeeps hmoved⟩, fun v hv => ?_, hkeeps.knows s j h.knows, h.fresh⟩
  rw [idOf_kept hkeeps.id h.knows]
  exact h.inside v hv

end Transact.Simulation
