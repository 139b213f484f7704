import Mathlib.Data.List.Perm.Basic
import Transact.Proofs.Simulation.Turns
import Transact.Proofs.Walk
import Transact.Simulation.Script

/-! The course of a world: turn by turn as it runs, and whatever is done with it where nothing runs. -/
namespace Transact.Simulation

/-- A world, and whose turn it is. -/
structure Machine where
  world : World
  turn : World.Turn := .idle

inductive Happening where
  | turn
  | take (task : String) (step : Step)
  | startWaiting
  | release (session : Nat)

/-- What was written between two worlds, in order. -/
def World.since (before after : World) : List Written :=
  (after.logs.take (after.logs.length - before.logs.length)).reverse

namespace Machine

def start (adapted : Bool) : Machine := { world := { adapted } }

def next (m : Machine) : Happening → Machine
  | .turn =>
    match m.world.turn m.turn with
    | some (world, turn) => { world, turn }
    | none => m
  | .take task step =>
    match m.turn with
    | .idle => { m with world := (m.world.take task step).2 }
    | _ => m
  | .startWaiting =>
    match m.turn with
    | .idle => { m with world := { m.world with journal := [], logs := [] }.startWaiting }
    | _ => m
  | .release s =>
    match m.turn with
    | .idle => { m with world := m.world.release s true }
    | _ => m

def step (m : Machine) (i : Happening) : Machine × List Written :=
  (m.next i, m.world.since (m.next i).world)

/-- What is under way in a task. -/
def strand? (t : Nat) (m : Machine) : Option Strand :=
  (m.world.tasks[t]?).map fun task =>
    match m.turn with
    | .running u next => if u = t then ⟨task.inherited, m.world.context, next.frames⟩ else task.strand
    | .idle => task.strand

/-- All that is under way is as its frames say. -/
def Sound (m : Machine) : Prop :=
  match m.turn with
  | .idle => Simulation.Sound m.world.ledger m.world.core.strands
  | .running t next => ∃ outer, Stands t outer m.world.core next.frames

end Machine

variable {w u : World} {t k : Nat} {outer : Value} {frames : List Frame} {l : Ledger Query Value}

namespace World

/-! What is done where nothing runs -/

theorem stacked_plain (h : ∀ f ∈ frames, f.job? = none ∧ f.isHook = false) : Stacked l outer frames := by
  induction frames with
  | nil => trivial
  | cons f rest ih =>
    obtain ⟨⟨hjob, hhook⟩, hrest⟩ := List.forall_mem_cons.mp h
    refine ⟨?_, ih hrest⟩
    cases f with
    | job => cases hjob
    | hook | act => cases hhook
    | _ => trivial

theorem grows_addTask {task : Task} (hcontext : task.context = task.inherited)
    (hplain : ∀ f ∈ task.frames, f.job? = none ∧ f.isHook = false) : Grows w.core (w.addTask task).2.core := by
  have hjobs : jobsOf task.frames = [] := List.filterMap_eq_nil_iff.mpr fun f hf => (hplain f hf).1
  have hblocks : blocks task.frames = [] :=
    List.filterMap_eq_nil_iff.mpr fun f hf => Frame.block?_eq_none (hplain f hf).1
  refine ⟨rfl, .refl _ _, [task.strand], by simp [core, addTask, enqueue], ?_, ?_⟩
  · refine sound_cons.mpr ⟨⟨stacked_plain hplain, ?_⟩, ?_, sound_nil _⟩
    · simpa [Task.strand, bound, hblocks] using hcontext
    · simp [Strand.jobs, Task.strand, hjobs]
  · simp [Strand.jobs, Task.strand, hjobs]

theorem grows_leave (s : Nat) (w : World) : Grows w.core (w.leave s).core :=
  grows_addTask rfl (by simp [Frame.job?, Frame.isHook])

theorem grows_startTask (name : String) (purpose : Purpose) (work : Work) (w : World) :
    Grows w.core (w.startTask name purpose work).2.core :=
  grows_addTask rfl (by simp [Frame.job?, Frame.isHook])

theorem grows_foldl {α : Type} {f : World → α → World} (hf : ∀ w a, Grows w.core (f w a).core) (xs : List α)
    (w : World) : Grows w.core (xs.foldl f w).core := by
  induction xs generalizing w with
  | nil => exact .refl _
  | cons a rest ih => exact (hf w a).trans (ih _)

theorem grows_startWaiting (w : World) : Grows w.core w.startWaiting.core := by
  refine grows_foldl (fun w i => ?_) w.ready { w with ready := [] }
  cases i with
  | leave s => exact grows_leave s w
  | _ => exact .refl _

theorem core_readied (t : Nat) (i : Item) :
    ((w.setTask t fun task => { task with state := .ready }).enqueue i).core = w.core :=
  (core_setTask (k := t) fun _ => rfl : (w.setTask t fun task => { task with state := .ready }).core = w.core)

theorem grows_freePoint (w : World) (point : String) : Grows w.core (w.freePoint point).core :=
  grows_foldl (fun _ t => grows_of_eq (core_readied t _)) _ { w with held := remove point w.held }

theorem grows_cancelTask (name : String) (w : World) : Grows w.core (w.cancelTask name).2.core := by
  unfold cancelTask
  simp only
  split
  · exact .refl _
  · split
    · rename_i wait hwait
      cases wait with
      | turn s j =>
        have habandon : Grows w.core (w.stepSession s (.abandon j)).2.core :=
          grows_stepLedger (.session s (.abandon j)) rfl
        exact habandon.trans (grows_of_eq (core_readied _ _))
      | _ => exact grows_of_eq (core_readied _ _)
    · exact .refl _

theorem grows_orFailed {α : Type} (found : Except Error α) {use : α → Shown × World}
    (h : ∀ a, Grows w.core (use a).2.core) : Grows w.core (orFailed found w use).2.core := by
  cases found with
  | ok a => exact h a
  | error e => exact .refl _

theorem grows_take (task : String) (step : Step) (w : World) : Grows w.core (w.take task step).2.core := by
  cases step with
  | begin name => exact grows_startTask _ _ _ _
  | enter name closing => exact grows_startTask _ _ _ _
  | wrap name id => exact grows_startTask _ _ _ _
  | dispose => exact grows_startTask _ _ _ _
  | «exit» name =>
    simp only [take]
    split
    · exact .refl _
    · exact grows_startTask _ _ _ _
  | executor | clone | executorInfo | ensureOpen | compareValue | registryInfo => exact grows_orFailed _ fun _ => .refl _
  | compare a b => exact grows_orFailed _ fun _ => grows_orFailed _ fun _ => .refl _
  | execute | ask | dispatch => exact grows_orFailed _ fun _ => grows_startTask _ _ _ _
  | statements name =>
    simp only [take]
    split <;> exact .refl _
  | observer | hold | fail | registry => exact .refl _
  | register => exact grows_orFailed _ fun _ => grows_orFailed _ fun _ => grows_registerWith _ _ _
  | registerValue => exact grows_orFailed _ fun _ => grows_registerWith _ _ _
  | sessionInfo name =>
    refine grows_orFailed _ fun s => ?_
    split <;> exact .refl _
  | drop name inLoop =>
    refine grows_orFailed _ fun s => ?_
    have hdrop := grows_of_eq (core_dropScope (w := { w with sessionNames := remove name w.sessionNames }) name)
    exact hdrop.trans (grows_release _ _ _)
  | finalizer => exact grows_orFailed _ fun _ => grows_forget _ _
  | free points => exact grows_foldl grows_freePoint points w
  | cancel name => exact grows_cancelTask name w
  | enlist => exact grows_orFailed _ fun _ => grows_orFailed _ fun _ => grows_of_eq (core_enlistIn _ _ _)
  | enlistValue => exact grows_orFailed _ fun _ => grows_of_eq (core_enlistIn _ _ _)

/-! A turn -/

theorem getElem?_strands : w.core.strands[t]? = (w.tasks[t]?).map Task.strand := by
  simp [core]

/-- A task that runs on takes with it what it had bound. -/
theorem stands_resumed {task : Task} (h : Sound w.ledger w.core.strands) (ht : w.tasks[t]? = some task) :
    Stands t task.inherited { w with context := task.context }.core task.frames := by
  have hstrand : w.core.strands[t]? = some task.strand := by rw [getElem?_strands, ht]; rfl
  obtain ⟨hlt, hget⟩ := List.getElem?_eq_some_iff.mp hstrand
  refine ⟨by rw [show ({ w with context := task.context } : World).core.strands = w.core.strands from rfl, hstrand]; rfl,
    h.perm ?_⟩
  have hperm := (List.getElem_cons_eraseIdx_perm hlt).symm
  rwa [hget] at hperm

theorem task_of_stands (h : Stands t outer w.core frames) :
    ∃ task, w.tasks[t]? = some task ∧ task.inherited = outer := by
  obtain ⟨x, hx, hxouter⟩ := Option.map_eq_some_iff.mp h.there
  rw [getElem?_strands] at hx
  obtain ⟨task, ht, rfl⟩ := Option.map_eq_some_iff.mp hx
  exact ⟨task, ht, hxouter⟩

/-- A task that gives up control keeps what it has bound. -/
theorem sound_kept (h : Stands t outer w.core frames) {f : Task → Task}
    (hf : ∀ task, (f task).strand = ⟨task.inherited, w.context, frames⟩) :
    Sound w.ledger (w.setTask t f).core.strands ∧
      (w.setTask t f).core.strands.map Strand.outer = w.core.strands.map Strand.outer := by
  have hlt := h.lt
  obtain ⟨task, ht, houter⟩ := task_of_stands h
  obtain ⟨htask, hget⟩ := List.getElem?_eq_some_iff.mp ht
  have hset : (w.setTask t f).core.strands = w.core.strands.set t ⟨outer, w.context, frames⟩ := by
    apply List.ext_getElem?
    intro k
    simp only [core, setTask, List.getElem?_map, List.getElem?_modify, List.getElem?_set, List.length_map]
    by_cases hk : t = k
    · subst k
      simp [hf, hget, houter, htask]
    · simp [hk]
  refine ⟨?_, ?_⟩
  · rw [hset]
    exact h.sound.perm (List.set_perm_cons_eraseIdx hlt _).symm
  · apply List.ext_getElem?
    intro k
    rw [hset, List.getElem?_map, List.getElem?_map, List.getElem?_set]
    split
    · rename_i hk
      subst k
      exact h.there.symm
    · rfl

/-- Nothing that is under way is other than before, but for what has control no more. -/
theorem sound_idle {v : World} (hledger : v.ledger = w.ledger) (hsound : Sound w.ledger v.core.strands)
    (houter : v.core.strands.map Strand.outer = w.core.strands.map Strand.outer) :
    Machine.Sound ⟨v, .idle⟩ ∧ Follows w.core v.core := by
  refine ⟨?_, fun _ _ hid => ?_, houter ▸ List.prefix_refl _⟩
  · show Sound v.ledger v.core.strands
    rwa [hledger]
  · show v.ledger.id? _ = _
    rwa [hledger]

theorem sound_same {v : World} (h : Sound w.ledger w.core.strands) (hledger : v.core.ledger = w.core.ledger)
    (hstrands : v.core.strands = w.core.strands) : Machine.Sound ⟨v, .idle⟩ ∧ Follows w.core v.core :=
  sound_idle hledger (hstrands ▸ h) (by rw [hstrands])

theorem core_relay (t : Nat) (task : Task) : (w.relay t task).core = w.core := by
  unfold relay
  split
  · split
    · exact core_readied _ _
    · rfl
  · rfl

theorem sound_reap (h : Sound w.ledger w.core.strands) (task : Task) :
    Machine.Sound ⟨w.reap task, .idle⟩ ∧ Follows w.core (w.reap task).core := by
  unfold reap
  split
  · rename_i e _
    split
    · exact sound_same h rfl rfl
    · have hcore := core_report (w := { w with context := task.inherited }) (backgroundFailed e)
      exact sound_same h (congrArg Core.ledger hcore :) (congrArg Core.strands hcore :)
  · exact sound_same h rfl rfl

theorem core_finishTask (t : Nat) (detached : Bool) (outcome : Outcome) :
    (w.finishTask t detached outcome).core = (w.setTask t fun task =>
      { task with state := .finished outcome, frames := [], context := w.context }).core := by
  unfold finishTask
  simp only
  split
  · split <;> rfl
  · rfl

/-- The first that is ready has its turn. -/
theorem sound_ready {y : Turn} (h : Sound w.ledger w.core.strands) (hturn : w.turn .idle = some (u, y)) :
    Machine.Sound ⟨u, y⟩ ∧ Follows w.core u.core := by
  cases hready : w.ready with
  | nil =>
    simp only [turn, hready] at hturn
    cases hturn
  | cons item rest =>
    simp only [turn, hready] at hturn
    cases item with
    | resume t signal =>
      cases ht : w.tasks[t]? with
      | none =>
        simp only [ht] at hturn
        cases hturn
        exact sound_same h rfl rfl
      | some task =>
        simp only [ht] at hturn
        cases hturn
        have hturns := turns_resume (stands_resumed (w := { w with ready := rest }) h ht) signal
        exact ⟨⟨_, hturns.stands⟩, hturns.follows.id, hturns.follows.outer⟩
    | reap t =>
      cases hturn
      cases w.tasks[t]? with
      | none => exact sound_same h rfl rfl
      | some task => exact sound_reap (w := { w with ready := rest }) h task
    | relay t =>
      cases hturn
      cases w.tasks[t]? with
      | none => exact sound_same h rfl rfl
      | some task =>
        have hcore := core_relay (w := { w with ready := rest }) t task
        exact sound_same h (congrArg Core.ledger hcore :) (congrArg Core.strands hcore :)
    | leave s =>
      cases hturn
      have hgrows := grows_leave s { w with ready := rest }
      exact ⟨hgrows.sound h, hgrows.follows⟩

/-- The task that has control goes on, or gives it up. -/
theorem sound_running {next : Next} {y : Turn} (h : Stands t outer w.core next.frames)
    (hturn : w.turn (.running t next) = some (u, y)) : Machine.Sound ⟨u, y⟩ ∧ Follows w.core u.core := by
  obtain ⟨task, ht, -⟩ := task_of_stands h
  simp only [turn, ht] at hturn
  cases next with
  | suspend wait frames =>
    obtain ⟨hsound, houters⟩ := sound_kept h
      (f := fun task => { task with frames, state := .suspended wait, context := w.context }) fun _ => rfl
    cases wait <;> cases hturn <;> exact sound_idle rfl hsound houters
  | go frames outcome =>
    cases frames with
    | nil =>
      cases hturn
      obtain ⟨hsound, houters⟩ := sound_kept h
        (f := fun task => { task with state := .finished outcome, frames := [], context := w.context }) fun _ => rfl
      have hcore := core_finishTask (w := w) t (task.role == .detached) outcome
      have hstrands : (w.finishTask t (task.role == .detached) outcome).idle.core.strands = _ :=
        (congrArg Core.strands hcore :)
      refine sound_idle (congrArg Core.ledger hcore :) ?_ ?_
      · rw [hstrands]
        exact hsound
      · rw [hstrands]
        exact houters
    | cons frame frames =>
      cases hturn
      have hturns := turns_deliver h outcome
      exact ⟨⟨outer, hturns.stands⟩, hturns.follows⟩

theorem sound_turn {x y : Turn} (h : Machine.Sound ⟨w, x⟩) (hturn : w.turn x = some (u, y)) :
    Machine.Sound ⟨u, y⟩ ∧ Follows w.core u.core := by
  cases x with
  | idle => exact sound_ready h hturn
  | running t next =>
    obtain ⟨outer, h⟩ := h
    exact sound_running h hturn

theorem sound_next {m : Machine} (h : m.Sound) (i : Happening) :
    (m.next i).Sound ∧ Follows m.world.core (m.next i).world.core := by
  obtain ⟨w, x⟩ := m
  have hstays : Machine.Sound ⟨w, x⟩ ∧ Follows w.core w.core := ⟨h, .refl _⟩
  cases i with
  | turn =>
    simp only [Machine.next]
    split
    · exact sound_turn h ‹_›
    · exact hstays
  | take task step =>
    cases x with
    | idle =>
      have hgrows := grows_take task step w
      exact ⟨hgrows.sound h, hgrows.follows⟩
    | running => exact hstays
  | startWaiting =>
    cases x with
    | idle =>
      have hgrows := grows_startWaiting { w with journal := [], logs := [] }
      exact ⟨hgrows.sound h, hgrows.follows⟩
    | running => exact hstays
  | release s =>
    cases x with
    | idle =>
      have hgrows := grows_release s true w
      exact ⟨hgrows.sound h, hgrows.follows⟩
    | running => exact hstays

end World

/-! A whole course -/

abbrev Course := List (Move Machine Happening Written)

def Course.states (h : Course) : List Machine := h.flatMap fun m => [m.before, m.after]

namespace Machine

theorem next_stuck {m : Machine} (h : m.world.turn m.turn = none) : m.next .turn = m := by
  simp [next, h]

/-- Turn by turn, the world runs. -/
theorem after_turns (n : Nat) (m : Machine) :
    (Walk.after step m (List.replicate n .turn)).world = m.world.run n m.turn := by
  induction n generalizing m with
  | zero => rfl
  | succ n ih =>
    have hafter : (Walk.after step m (List.replicate (n + 1) .turn)).world =
        (m.next .turn).world.run n (m.next .turn).turn := ih (m.next .turn)
    cases hturn : m.world.turn m.turn with
    | none =>
      rw [hafter, next_stuck hturn]
      cases n <;> simp [World.run, hturn]
    | some later =>
      rw [hafter]
      simp [World.run, next, hturn]

theorem sound_start (adapted : Bool) : (start adapted).Sound := Simulation.sound_nil _

theorem Sound.strand {m : Machine} {x : Strand} (h : m.Sound) (hx : m.strand? t = some x) :
    (∃ xs, Simulation.Sound m.world.ledger xs ∧ x ∈ xs) ∧
      (m.world.core.strands.map Strand.outer)[t]? = some x.outer := by
  obtain ⟨w, y⟩ := m
  obtain ⟨task, ht, rfl⟩ := Option.map_eq_some_iff.mp hx
  have hstrand : w.core.strands[t]? = some task.strand := by rw [World.getElem?_strands, ht]; rfl
  have houter : (w.core.strands.map Strand.outer)[t]? = some task.inherited := by
    rw [List.getElem?_map, hstrand]; rfl
  cases y with
  | idle => exact ⟨⟨_, h, List.mem_of_getElem? hstrand⟩, houter⟩
  | running u next =>
    obtain ⟨outer, h⟩ := h
    by_cases hu : u = t
    · subst hu
      simp only [if_true]
      refine ⟨⟨_, h.sound, ?_⟩, houter⟩
      obtain ⟨task', ht', rfl⟩ := World.task_of_stands h
      obtain rfl : task = task' := Option.some.inj (ht.symm.trans ht')
      exact List.mem_cons_self
    · simp only [if_neg hu]
      refine ⟨⟨_, h.sound, List.mem_cons_of_mem _ ?_⟩, houter⟩
      exact List.mem_eraseIdx_iff_getElem?.mpr ⟨t, Ne.symm hu, hstrand⟩

/-- Throughout a course all is sound, and followed by what comes after. -/
theorem sound_course (adapted : Bool) (happenings : List Happening) :
    (Walk.after step (start adapted) happenings).Sound ∧
      ∀ a ∈ Course.states (Walk.history step (start adapted) happenings),
        a.Sound ∧ Follows a.world.core (Walk.after step (start adapted) happenings).world.core := by
  refine Walk.run_induction
    (P := fun h z => z.Sound ∧ ∀ a ∈ Course.states h, a.Sound ∧ Follows a.world.core z.world.core)
    (Q := fun _ => True) ⟨sound_start adapted, by simp [Course.states]⟩ ?_ happenings (by simp)
  rintro h m i - ⟨hsound, hstates⟩
  obtain ⟨hnext, hfollows⟩ := World.sound_next hsound i
  refine ⟨hnext, fun a ha => ?_⟩
  simp only [Course.states, List.flatMap_append, List.flatMap_singleton, List.mem_append, List.mem_cons,
    List.not_mem_nil, or_false] at ha
  rcases ha with ha | rfl | rfl
  · exact ⟨(hstates a ha).1, (hstates a ha).2.trans hfollows⟩
  · exact ⟨hsound, hfollows⟩
  · exact ⟨hnext, .refl _⟩

end Machine
end Transact.Simulation
