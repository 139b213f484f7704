import Transact.Proofs.Ledger.Jobs
import Transact.Simulation.Run

/-! The blocks that a task is inside of: in each a session calls its hooks, and its id is bound there.
What a task has bound is what its frames say. -/
namespace Transact.Simulation

variable {l m n : Ledger Query Value} {outer v : Value} {frames rest : List Frame} {f : Frame} {s j t : Nat}

namespace Frame

def job? : Frame → Option (Nat × Nat)
  | job s j _ => some (s, j)
  | _ => none

def block? : Frame → Option Nat
  | job s _ (some _) => some s
  | _ => none

/-- Is a hook, or what it does. -/
def isHook : Frame → Bool
  | hook _ _ | act _ _ _ _ => true
  | _ => false

/-- Is where hooks are called. -/
def isCaller : Frame → Bool
  | job _ _ outside => outside.isSome
  | round _ => true
  | _ => false

theorem block?_eq_none (h : f.job? = none) : f.block? = none := by
  cases f with
  | job => cases h
  | _ => rfl

end Frame

def jobsOf (frames : List Frame) : List (Nat × Nat) := frames.filterMap Frame.job?

def blocks (frames : List Frame) : List Nat := frames.filterMap Frame.block?

def idOf (l : Ledger Query Value) (s : Nat) : Value := ((l.id? s).map .text).getD .null

/-- The id that is bound inside the frames: that of the innermost block, or else the one outside of
them all. -/
def bound (l : Ledger Query Value) (outer : Value) (frames : List Frame) : Value :=
  ((blocks frames).head?.map (idOf l)).getD outer

theorem bound_cons (h : f.block? = none) : bound l outer (f :: rest) = bound l outer rest := by
  simp [bound, blocks, h]

theorem jobsOf_cons (h : f.job? = none) : jobsOf (f :: rest) = jobsOf rest := by
  simp [jobsOf, h]

@[simp] theorem jobsOf_job {outside : Option Value} :
    jobsOf (.job s j outside :: rest) = (s, j) :: jobsOf rest := rfl

/-- Where a frame may stand. A job is inside its block while it is in its round of hooks, and keeps
what is bound outside. -/
def Frame.Fits (l : Ledger Query Value) (outer : Value) (rest : List Frame) : Frame → Prop
  | .job s j outside => l.Knows s j ∧ outside = if l.notifies s j then some (bound l outer rest) else none
  | .hook _ _ | .act _ _ _ _ => ∃ f ∈ rest.head?, f.isCaller = true
  | _ => True

def Stacked (l : Ledger Query Value) (outer : Value) : List Frame → Prop
  | [] => True
  | f :: rest => f.Fits l outer rest ∧ Stacked l outer rest

theorem Stacked.knows (h : Stacked l outer frames) : ∀ key ∈ jobsOf frames, l.Knows key.1 key.2 := by
  induction frames with
  | nil => simp [jobsOf]
  | cons f rest ih =>
    cases f with
    | job s j outside =>
      simp only [jobsOf_job, List.mem_cons]
      rintro key (rfl | hkey)
      · exact h.1.1
      · exact ih h.2 key hkey
    | _ => exact ih h.2

theorem Stacked.inside {outside : Option Value} (h : Stacked l outer frames) (hjob : .job s j outside ∈ frames) :
    outside.isSome = l.notifies s j := by
  induction frames with
  | nil => cases hjob
  | cons f rest ih =>
    rcases List.mem_cons.mp hjob with rfl | hrest
    · rw [h.1.2]
      cases l.notifies s j <;> rfl
    · exact ih h.2 hrest

theorem Stacked.knows_block (h : Stacked l outer frames) : ∀ s ∈ blocks frames, ∃ j, l.Knows s j := by
  intro s hs
  obtain ⟨f, hf, hblock⟩ := List.mem_filterMap.mp hs
  cases f with
  | job s' j outside =>
    cases outside with
    | none => cases hblock
    | some v =>
      obtain rfl := Option.some.inj hblock
      exact ⟨j, h.knows (s', j) (List.mem_filterMap.mpr ⟨_, hf, rfl⟩)⟩
  | _ => cases hblock

theorem idOf_eq_text (h : l.Knows s j) : ∃ id, l.id? s = some id ∧ idOf l s = .text id := by
  obtain ⟨id, hid⟩ := h.id?
  exact ⟨id, hid, by simp [idOf, hid]⟩

theorem idOf_kept (hids : ∀ s id, l.id? s = some id → m.id? s = some id) (h : l.Knows s j) :
    idOf m s = idOf l s := by
  obtain ⟨id, hid, heq⟩ := idOf_eq_text h
  rw [heq]
  simp [idOf, hids s id hid]

theorem bound_kept (hids : ∀ s id, l.id? s = some id → m.id? s = some id) (h : Stacked l outer frames) :
    bound m outer frames = bound l outer frames := by
  have hknows := h.knows_block
  unfold bound
  cases hblocks : blocks frames with
  | nil => rfl
  | cons s more =>
    obtain ⟨j, hj⟩ := hknows s (by simp [hblocks])
    simp [idOf_kept hids hj]

theorem Stacked.keeps {moved : Option (Nat × Nat)} (hkeeps : Ledger.Keeps moved l m)
    (hmoved : ∀ key ∈ jobsOf frames, moved ≠ some key) (h : Stacked l outer frames) : Stacked m outer frames := by
  induction frames with
  | nil => trivial
  | cons f rest ih =>
    obtain ⟨hfits, hrest⟩ := h
    cases f with
    | job s j outside =>
      have hne : moved ≠ some (s, j) := hmoved (s, j) (by simp)
      refine ⟨⟨hkeeps.knows s j hfits.1, ?_⟩, ih (fun key hkey => hmoved key (List.mem_cons_of_mem _ hkey)) hrest⟩
      rw [hkeeps.notifies s j hfits.1 hne, bound_kept hkeeps.id hrest]
      exact hfits.2
    | _ => exact ⟨hfits, ih hmoved hrest⟩

/-! All that is under way -/

/-- What is under way in a task, and the ids bound in it and where it was made. -/
structure Strand where
  outer : Value
  context : Value
  frames : List Frame

def Strand.jobs (x : Strand) : List (Nat × Nat) := jobsOf x.frames

/-- Each strand has bound what its frames say, and no job is in two places. -/
structure Sound (l : Ledger Query Value) (xs : List Strand) : Prop where
  stacked : ∀ x ∈ xs, Stacked l x.outer x.frames
  bound : ∀ x ∈ xs, x.context = bound l x.outer x.frames
  distinct : (xs.flatMap Strand.jobs).Nodup

variable {x : Strand} {xs ys : List Strand}

theorem sound_nil (l : Ledger Query Value) : Sound l [] := ⟨by simp, by simp, by simp⟩

theorem Sound.knows (h : Sound l xs) : ∀ key ∈ xs.flatMap Strand.jobs, l.Knows key.1 key.2 := by
  intro key hkey
  obtain ⟨x, hx, hkey⟩ := List.mem_flatMap.mp hkey
  exact (h.stacked x hx).knows key hkey

theorem Sound.keeps {moved : Option (Nat × Nat)} (hkeeps : Ledger.Keeps moved l m)
    (hmoved : ∀ key ∈ xs.flatMap Strand.jobs, moved ≠ some key) (h : Sound l xs) : Sound m xs where
  stacked x hx := (h.stacked x hx).keeps hkeeps fun key hkey =>
    hmoved key (List.mem_flatMap.mpr ⟨x, hx, hkey⟩)
  bound x hx := (h.bound x hx).trans (bound_kept hkeeps.id (h.stacked x hx)).symm
  distinct := h.distinct

theorem Sound.perm (hperm : xs.Perm ys) (h : Sound l xs) : Sound l ys where
  stacked x hx := h.stacked x (hperm.mem_iff.mpr hx)
  bound x hx := h.bound x (hperm.mem_iff.mpr hx)
  distinct := (hperm.flatMap_right _).nodup_iff.mp h.distinct

theorem Sound.append (h : Sound l xs) (h' : Sound l ys)
    (hdistinct : ∀ key ∈ xs.flatMap Strand.jobs, key ∉ ys.flatMap Strand.jobs) : Sound l (xs ++ ys) where
  stacked x hx := (List.mem_append.mp hx).elim (h.stacked x) (h'.stacked x)
  bound x hx := (List.mem_append.mp hx).elim (h.bound x) (h'.bound x)
  distinct := by
    rw [List.flatMap_append]
    exact List.nodup_append.mpr ⟨h.distinct, h'.distinct, fun key hkey key' hkey' heq =>
      hdistinct key hkey (heq ▸ hkey')⟩

theorem sound_cons : Sound l (x :: xs) ↔ (Stacked l x.outer x.frames ∧ x.context = bound l x.outer x.frames) ∧
    (x.jobs.Nodup ∧ ∀ key ∈ x.jobs, key ∉ xs.flatMap Strand.jobs) ∧ Sound l xs := by
  constructor
  · intro h
    have hdistinct := h.distinct
    rw [List.flatMap_cons, List.nodup_append] at hdistinct
    obtain ⟨hx, hxs, hapart⟩ := hdistinct
    exact ⟨⟨h.stacked x (by simp), h.bound x (by simp)⟩, ⟨hx, fun key hkey hmem => hapart key hkey key hmem rfl⟩,
      fun y hy => h.stacked y (by simp [hy]), fun y hy => h.bound y (by simp [hy]), hxs⟩
  · rintro ⟨⟨hstacked, hbound⟩, ⟨hnodup, hapart⟩, hxs⟩
    refine ⟨List.forall_mem_cons.mpr ⟨hstacked, hxs.stacked⟩, List.forall_mem_cons.mpr ⟨hbound, hxs.bound⟩, ?_⟩
    rw [List.flatMap_cons, List.nodup_append]
    exact ⟨hnodup, hxs.distinct, fun key hkey key' hkey' heq => hapart key hkey (heq ▸ hkey')⟩

end Transact.Simulation
