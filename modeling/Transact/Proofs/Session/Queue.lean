import Mathlib.Data.List.Basic
import Transact.Session.Lock

/-! What is true of a lock at all times, and what each operation does to who holds it and who
queues for it. -/
namespace Transact.Lock

variable {l m n : Lock} {job : Nat}

/-- The jobs in the queue, in order of arrival. -/
def names (l : Lock) : List Nat := l.queue.map Prod.fst

/-- Only the first in the queue may be woken, and only while nobody holds the lock; then, if the
first is not woken, it has given up. -/
structure Sound (l : Lock) : Prop where
  distinct : l.names.Nodup
  later : ∀ w ∈ l.queue.tail, w.2 ≠ .woken
  held : l.holder ≠ none → ∀ w ∈ l.queue, w.2 ≠ .woken
  awake : l.holder = none → ∀ w, l.queue.head? = some w → w.2 ≠ .waiting

theorem sound_empty : Sound {} := ⟨by simp [names], by simp, by simp, by simp⟩

/-- From `l` to `m` only `job` has changed its place: it now holds the lock or not, and queues
for it or not. -/
structure Follows (l m : Lock) (job : Nat) (holds queues : Bool) : Prop where
  sound : m.Sound
  holder : ∀ k, m.holder = some k ↔ if k = job then holds = true else l.holder = some k
  names : ∀ k, k ∈ m.names ↔ if k = job then queues = true else k ∈ l.names

theorem Follows.refl {holds queues : Bool} (hl : l.Sound) (hholds : l.holder = some job ↔ holds)
    (hqueues : job ∈ l.names ↔ queues) : l.Follows l job holds queues where
  sound := hl
  holder k := by split <;> simp_all
  names k := by split <;> simp_all

theorem Follows.trans {p q p' q' : Bool} (h : l.Follows m job p q) (h' : m.Follows n job p' q') :
    l.Follows n job p' q' where
  sound := h'.sound
  holder k := by
    rw [h'.holder, h.holder]
    split <;> simp_all
  names k := by
    rw [h'.names, h.names]
    split <;> simp_all

theorem names_drop : (l.drop job).names = l.names.filter (· != job) := by
  simp only [names, drop, List.filter_map]
  rfl

theorem mem_names_drop {k : Nat} : k ∈ (l.drop job).names ↔ k ∈ l.names ∧ k ≠ job := by
  simp [names_drop]

theorem drop_queue_sublist : (l.drop job).queue.Sublist l.queue := List.filter_sublist

theorem drop_later (hl : l.Sound) : ∀ w ∈ (l.drop job).queue.tail, w.2 ≠ .woken :=
  fun w hw => hl.later w (drop_queue_sublist.tail.subset hw)

theorem isFree_holder (h : l.isFree = true) : l.holder = none := by
  simp only [isFree, Bool.and_eq_true, Option.isNone_iff_eq_none] at h
  exact h.1

/-- A free lock has no queue but those that gave up. -/
theorem isFree_queue (h : l.isFree = true) : ∀ w ∈ l.queue, w.2 = .cancelled := by
  simp only [isFree, Bool.and_eq_true, List.all_eq_true, beq_iff_eq] at h
  exact h.2

theorem follows_hold (hl : l.Sound) (hfree : l.isFree = true) (hjob : job ∉ l.names) :
    l.Follows { l with holder := some job } job true false where
  sound := {
    distinct := hl.distinct
    later := hl.later
    held := fun _ w hw => by simp [isFree_queue hfree w hw]
    awake := by simp }
  holder k := by
    split
    · subst k; simp
    · rename_i hne
      simp [isFree_holder hfree, Ne.symm hne]
  names k := by
    split
    · subst k; exact iff_of_false hjob Bool.false_ne_true
    · exact Iff.rfl

theorem woken_first (hl : l.Sound) (h : l.isWoken job = true) :
    l.holder = none ∧ ∃ rest, l.queue = (job, .woken) :: rest := by
  have hmem : (job, Ticket.woken) ∈ l.queue := by simpa [isWoken] using h
  have hnone : l.holder = none := by
    by_contra hsome
    exact hl.held hsome _ hmem rfl
  refine ⟨hnone, ?_⟩
  cases hq : l.queue with
  | nil => simp [hq] at hmem
  | cons w rest =>
    rw [hq, List.mem_cons] at hmem
    rcases hmem with rfl | hmem
    · exact ⟨rest, rfl⟩
    · exact absurd rfl (hl.later (job, .woken) (by rwa [hq]))

theorem follows_take (hl : l.Sound) (h : l.isWoken job = true) :
    l.Follows (l.take job) job true false := by
  obtain ⟨hnone, rest, hq⟩ := woken_first hl h
  have hdistinct : ((l.drop job).names).Nodup := names_drop ▸ hl.distinct.filter _
  have hasleep : ∀ w ∈ (l.drop job).queue, w.2 ≠ .woken := by
    intro w hw
    have hw : w ∈ l.queue ∧ w.1 ≠ job := by simpa [drop] using hw
    rw [hq, List.mem_cons] at hw
    rcases hw with ⟨rfl | hrest, hne⟩
    · exact absurd rfl hne
    · exact hl.later w (by rwa [hq])
  refine ⟨⟨hdistinct, drop_later hl, fun _ => hasleep, by simp [take]⟩, fun k => ?_, fun k => ?_⟩
  · split
    · subst k; simp [take]
    · rename_i hne
      simp [take, hnone, Ne.symm hne]
  · have hnames : k ∈ (l.take job).names ↔ k ∈ l.names ∧ k ≠ job := mem_names_drop
    rw [hnames]
    split <;> simp_all

theorem follows_enqueue (hl : l.Sound) (hbusy : l.isFree = false) (hjob : job ∉ l.names)
    (hholder : l.holder ≠ some job) :
    l.Follows { l with queue := l.queue ++ [(job, .waiting)] } job false true where
  sound := {
    distinct := by
      have := hl.distinct
      simp_all [names, List.nodup_append]
      grind
    later := by
      intro w hw
      rcases hq : l.queue with _ | ⟨v, rest⟩
      · simp [hq] at hw
      · rcases (by simpa [hq] using hw : w ∈ rest ∨ w = (job, .waiting)) with hw | rfl
        · exact hl.later w (by simpa [hq] using hw)
        · simp
    held := by
      intro hsome w hw
      rcases (by simpa using hw : w ∈ l.queue ∨ w = (job, .waiting)) with hw | rfl
      · exact hl.held hsome w hw
      · simp
    awake := by
      intro hnone w hw
      rcases hq : l.queue with _ | ⟨v, rest⟩
      · simp_all [isFree]
      · exact hl.awake hnone w (by simpa [hq] using hw) }
  holder k := by split <;> simp_all
  names k := by split <;> simp_all [names]

theorem wakeFirst_names : l.wakeFirst.2.names = l.names := by
  unfold wakeFirst
  split <;> simp_all [names]

theorem wakeFirst_holder : l.wakeFirst.2.holder = l.holder := by
  unfold wakeFirst
  split <;> rfl

/-- Waking the first of a queue in which nobody behind the first is woken. -/
theorem wakeFirst_sound (hdistinct : l.names.Nodup) (hlater : ∀ w ∈ l.queue.tail, w.2 ≠ .woken)
    (hnone : l.holder = none) : l.wakeFirst.2.Sound where
  distinct := by rwa [wakeFirst_names]
  later := by
    unfold wakeFirst
    split
    · rename_i rest hq
      simpa [hq] using hlater
    · exact hlater
  held h := absurd (wakeFirst_holder.trans hnone) h
  awake _ w hw := by
    unfold wakeFirst at hw
    split at hw
    · simp_all [eq_comm]
    · rename_i hfirst
      intro hwaiting
      obtain ⟨j, t⟩ := w
      obtain ⟨rest, hrest⟩ := List.head?_eq_some_iff.mp hw
      exact hfirst j rest (by simp_all)

@[simp] theorem release_holder (l : Lock) : l.release.2.holder = none := wakeFirst_holder

@[simp] theorem leave_holder (l : Lock) (job : Nat) : (l.leave job).2.holder = l.holder := by
  unfold leave
  dsimp only
  split
  · exact wakeFirst_holder
  · rfl

theorem follows_release (hl : l.Sound) (hholder : l.holder = some job) (hjob : job ∉ l.names) :
    l.Follows l.release.2 job false false where
  sound := wakeFirst_sound (l := { l with holder := none }) hl.distinct hl.later rfl
  holder k := by
    rw [release_holder]
    split <;> simp_all [eq_comm]
  names k := by
    unfold release
    rw [wakeFirst_names]
    split
    · subst k; exact iff_of_false hjob Bool.false_ne_true
    · exact Iff.rfl

theorem follows_leave (hl : l.Sound) (hholder : l.holder ≠ some job) :
    l.Follows (l.leave job).2 job false false := by
  have hdistinct : ((l.drop job).names).Nodup := names_drop ▸ hl.distinct.filter _
  unfold leave
  dsimp only
  split
  · rename_i hnone
    have hnone : (l.drop job).holder = none := by simpa using hnone
    refine ⟨wakeFirst_sound hdistinct (drop_later hl) hnone, fun k => ?_, fun k => ?_⟩
    · rw [wakeFirst_holder]
      split <;> simp_all [drop]
    · rw [wakeFirst_names, mem_names_drop]
      split <;> simp_all
  · rename_i hsome
    have hsome : l.holder ≠ none := by simpa [drop] using hsome
    refine ⟨⟨hdistinct, drop_later hl, fun _ w hw => hl.held hsome w (drop_queue_sublist.subset hw),
      fun h => absurd h hsome⟩, fun k => ?_, fun k => ?_⟩
    · split <;> simp_all [drop]
    · rw [mem_names_drop]
      split <;> simp_all

theorem abandon_names (job : Nat) (l : Lock) : (l.abandon job).names = l.names := by
  simp only [names, abandon, List.map_map]
  apply List.map_congr_left
  intro w _
  simp only [Function.comp_apply]
  split <;> simp_all

/-- One who stops waiting keeps its place until it runs. -/
theorem abandon_sound (hl : l.Sound) : (l.abandon job).Sound where
  distinct := by
    rw [abandon_names]
    exact hl.distinct
  later := by
    intro w hw
    simp only [abandon, ← List.map_tail, List.mem_map] at hw
    obtain ⟨v, hv, rfl⟩ := hw
    split
    · simp
    · exact hl.later v hv
  held hsome := by
    intro w hw
    simp only [abandon, List.mem_map] at hw
    obtain ⟨v, hv, rfl⟩ := hw
    split
    · simp
    · exact hl.held hsome v hv
  awake hnone := by
    intro w hw
    simp only [abandon, List.head?_map, Option.map_eq_some_iff] at hw
    obtain ⟨v, hv, rfl⟩ := hw
    split
    · simp
    · exact hl.awake hnone v hv

end Transact.Lock
