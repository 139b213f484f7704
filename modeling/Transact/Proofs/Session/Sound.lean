import Transact.Proofs.Session.Change

/-! What holds of a session at all times: the lock is with the one job that is in its critical
part, the queue is made of the jobs that wait, each stage fits where the transaction stands, and
one job at most has brought about its end. -/
namespace Transact.Session

variable {σ ρ : Type} {s t : Session σ ρ} {i : Input σ ρ} {effects : List (Effect σ ρ)}
  {job k : Nat} {r : Request σ} {st old : Stage ρ} {l : Lock} {p : Phase}

/-- The job is there and its stage is of the kind. -/
def has (s : Session σ ρ) (kind : Stage ρ → Bool) (job : Nat) : Bool := (s.stage? job).any kind

theorem has_eq (h : s.jobs[job]? = some ⟨r, st⟩) (kind : Stage ρ → Bool) : s.has kind job = kind st := by
  simp [has, stage?_eq h]

theorem has_eq_true_iff {kind : Stage ρ → Bool} :
    s.has kind job = true ↔ ∃ r st, s.jobs[job]? = some ⟨r, st⟩ ∧ kind st = true := by
  rw [has, Option.any_eq_true]
  constructor
  · rintro ⟨st, hst, hkind⟩
    obtain ⟨r, hr⟩ := stage?_eq_some_iff.mp hst
    exact ⟨r, st, hr, hkind⟩
  · rintro ⟨r, st, h, hkind⟩
    exact ⟨st, stage?_eq h, hkind⟩

theorem has_setStage (h : s.jobs[job]? = some ⟨r, old⟩) (kind : Stage ρ → Bool) (k : Nat) :
    (s.setStage job st).has kind k = if k = job then kind st else s.has kind k := by
  simp only [has, stage?, jobs_setStage old h]
  split <;> simp

/-- The lock, the stages of the jobs and the phase tell the same. -/
structure Sound (s : Session σ ρ) : Prop where
  lock : s.lock.Sound
  holder : ∀ j : Nat, s.lock.holder = some j ↔ s.has Stage.holdsLock j = true
  queue : ∀ j : Nat, j ∈ s.lock.names ↔ s.has Stage.isQueued j = true
  fits : ∀ (j : Nat) (r : Request σ) (st : Stage ρ), s.jobs[j]? = some ⟨r, st⟩ → st.Fits r s.phase
  ender : ∀ j k : Nat, s.has Stage.hasEnded j = true → s.has Stage.hasEnded k = true → j = k

theorem sound_fresh (id : String) : Sound ({ id } : Session σ ρ) where
  lock := Lock.sound_empty
  holder := by simp [has, stage?]
  queue := by simp [Lock.names, has, stage?]
  fits := by simp
  ender := by simp [has, stage?]

namespace Sound

theorem holder_unique (hs : s.Sound) (hj : s.has Stage.holdsLock job = true)
    (hk : s.has Stage.holdsLock k = true) : k = job := by
  have hj := (hs.holder job).mpr hj
  have hk := (hs.holder k).mpr hk
  exact Option.some.inj (hk.symm.trans hj)

theorem phase_ne_active_of_ended (hs : s.Sound) (h : s.has Stage.hasEnded job = true) :
    s.phase ≠ .active := by
  obtain ⟨r, st, hj, hst⟩ := has_eq_true_iff.mp h
  obtain ⟨ending, hending⟩ := Option.isSome_iff_exists.mp hst
  rw [(hs.fits _ _ _ hj).phase_eq hending]
  exact ending.phase_ne_active

/-- The lock stays as it is when the job's stage says the same of it. -/
theorem follows_same (hs : s.Sound) (hj : s.jobs[job]? = some ⟨r, old⟩)
    (hhold : st.holdsLock = old.holdsLock) (hqueue : st.isQueued = old.isQueued) :
    s.lock.Follows s.lock job st.holdsLock st.isQueued :=
  .refl hs.lock (by rw [hs.holder, has_eq hj, hhold]) (by rw [hs.queue, has_eq hj, hqueue])

theorem not_queued (hs : s.Sound) (hj : s.jobs[job]? = some ⟨r, old⟩) (h : old.isQueued = false) :
    job ∉ s.lock.names := by
  rw [hs.queue, has_eq hj, h]
  exact Bool.false_ne_true

theorem not_holder (hs : s.Sound) (hj : s.jobs[job]? = some ⟨r, old⟩) (h : old.holdsLock = false) :
    s.lock.holder ≠ some job := by
  rw [Ne, hs.holder, has_eq hj, h]
  exact Bool.false_ne_true

theorem follows_grant (hs : s.Sound) (hl : s.grant? job = some l) : s.lock.Follows l job true false := by
  rcases grant?_cases hl with ⟨hst, hfree, rfl⟩ | ⟨-, hwoken, rfl⟩
  · obtain ⟨r, hj⟩ := stage?_eq_some_iff.mp hst
    exact Lock.follows_hold hs.lock hfree (hs.not_queued hj rfl)
  · exact Lock.follows_take hs.lock hwoken

theorem grant_holder (hs : s.Sound) (hl : s.grant? job = some l) : s.lock.holder = none := by
  rcases grant?_cases hl with ⟨-, hfree, -⟩ | ⟨-, hwoken, -⟩
  · exact Lock.isFree_holder hfree
  · exact (Lock.woken_first hs.lock hwoken).1

theorem follows_release (hs : s.Sound) (hj : s.jobs[job]? = some ⟨r, old⟩)
    (h : old.holdsLock = true) : s.lock.Follows s.lock.release.2 job false false := by
  have hholder : s.lock.holder = some job := by rw [hs.holder, has_eq hj, h]
  apply Lock.follows_release hs.lock hholder
  apply hs.not_queued hj
  cases old <;> simp_all [Stage.holdsLock, Stage.isQueued]

theorem follows_pass (hs : s.Sound) (hl : s.grant? job = some l) :
    s.lock.Follows l.release.2 job false false := by
  have h := hs.follows_grant hl
  apply h.trans
  apply Lock.follows_release h.sound
  · simp [h.holder]
  · simp [h.names]

/-- While a job holds the lock of an active session, every other one is outside. -/
theorem fits_other (hs : s.Sound) (hhold : s.has Stage.holdsLock job = true)
    (hactive : s.phase = .active) (hk : s.jobs[k]? = some ⟨r, st⟩) (hne : k ≠ job) : st.Fits r p := by
  have hfree : st.holdsLock = false := by
    by_contra hst
    have hst : st.holdsLock = true := by simpa using hst
    exact hne (hs.holder_unique hhold (by rw [has_eq hk, hst]))
  have hopen : st.hasEnded = false := by
    by_contra hst
    have hst : st.hasEnded = true := by simpa using hst
    exact hs.phase_ne_active_of_ended (by rw [has_eq hk, hst]) hactive
  exact Stage.fits_of_outside hfree hopen

/-- A job changes its stage: what must be true of the new one for the session to stay sound. The
transaction's phase changes only under the lock. -/
theorem move (hs : s.Sound) (hj : s.jobs[job]? = some ⟨r, old⟩)
    (hlock : s.lock.Follows l job st.holdsLock st.isQueued) (hfits : st.Fits r p)
    (hphase : p = s.phase ∨ old.holdsLock = true ∧ s.phase = .active)
    (hended : st.hasEnded = true → old.hasEnded = true ∨ s.phase = .active) :
    ({ s with phase := p, lock := l }.setStage job st).Sound := by
  have hhas (kind : Stage ρ → Bool) (k : Nat) :
      ({ s with phase := p, lock := l }.setStage job st).has kind k =
        if k = job then kind st else s.has kind k :=
    has_setStage (s := { s with phase := p, lock := l }) hj kind k
  constructor
  case lock => exact hlock.sound
  case holder =>
    intro k
    rw [hhas, setStage_lock, hlock.holder k]
    split
    · rfl
    · exact hs.holder k
  case queue =>
    intro k
    rw [hhas, setStage_lock, hlock.names k]
    split
    · rfl
    · exact hs.queue k
  case fits =>
    intro k r' st' hk
    rw [jobs_setStage (s := { s with phase := p, lock := l }) old hj] at hk
    split at hk
    · cases hk
      exact hfits
    · rename_i hne
      rcases hphase with rfl | ⟨hhold, hactive⟩
      · exact hs.fits k r' st' hk
      · exact hs.fits_other (by rw [has_eq hj, hhold]) hactive hk hne
  case ender =>
    intro k m hk hm
    rw [hhas] at hk hm
    have hother {n : Nat} (hst : st.hasEnded = true) (hn : s.has Stage.hasEnded n = true) :
        job = n := by
      rcases hended hst with hold | hactive
      · exact hs.ender job n (by rw [has_eq hj, hold]) hn
      · exact absurd hactive (hs.phase_ne_active_of_ended hn)
    split at hk <;> split at hm
    · subst k m; rfl
    · subst k; exact hother hk hm
    · subst m; exact (hother hm hk).symm
    · exact hs.ender k m hk hm

theorem move_open (hs : s.Sound) (hj : s.jobs[job]? = some ⟨r, old⟩)
    (hlock : s.lock.Follows l job st.holdsLock st.isQueued) (hfits : st.Fits r p)
    (hphase : p = s.phase ∨ old.holdsLock = true ∧ s.phase = .active) (hopen : st.hasEnded = false) :
    ({ s with phase := p, lock := l }.setStage job st).Sound :=
  hs.move hj hlock hfits hphase (by simp [hopen])

end Sound

theorem has_opened {kind : Stage ρ → Bool} (hkind : kind .ready = false) (r : Request σ) (k : Nat) :
    ({ s with jobs := s.jobs ++ [{ request := r }] } : Session σ ρ).has kind k = s.has kind k := by
  simp only [has, stage?, List.getElem?_append]
  split
  · rfl
  · rename_i hk
    have hnone : s.jobs[k]? = none := List.getElem?_eq_none (by omega)
    rw [hnone]
    cases h : k - s.jobs.length <;> simp [hkind]

theorem sound_opened (hs : s.Sound) (r : Request σ) :
    ({ s with jobs := s.jobs ++ [{ request := r }] } : Session σ ρ).Sound where
  lock := hs.lock
  holder j := by rw [has_opened rfl]; exact hs.holder j
  queue j := by rw [has_opened rfl]; exact hs.queue j
  fits j r' st' hj := by
    simp only [List.getElem?_append] at hj
    split at hj
    · exact hs.fits j r' st' hj
    · obtain ⟨_, hjob⟩ := List.getElem?_eq_some_iff.mp hj
      rw [List.getElem_singleton] at hjob
      cases hjob
      trivial
  ender j k hj hk := by
    rw [has_opened rfl] at hj hk
    exact hs.ender j k hj hk

section Round

theorem round_hook_of_next {hook : Hook} {failures : Notification} {os : List Observer}
    {round : Round} (h : Round.next hook failures os = .call round) : round.hook = hook := by
  cases os <;> simp [Round.next] at h
  simp [← h]

theorem round_hook_of_settle {round next : Round} {outcome : Except Error Unit}
    (h : (round.settle outcome).2 = .call next) : next.hook = round.hook := by
  unfold Round.settle at h
  split at h
  · exact round_hook_of_next h
  · split at h
    · exact round_hook_of_next h
    · cases h

variable {ending : Ending} {next : Round.Next}

@[simp] theorem roundStage_holdsLock : (s.roundStage r ending next).holdsLock = false := by
  cases next <;> rfl

@[simp] theorem roundStage_isQueued : (s.roundStage r ending next).isQueued = false := by
  cases next <;> rfl

theorem roundStage_fits (hphase : s.phase = ending.phase) (hsuits : ending.Suits r)
    (hhook : ∀ round, next = .call round → round.hook = ending.hook) :
    (s.roundStage r ending next).Fits r s.phase := by
  cases next with
  | call round => exact ⟨hphase, hsuits, hhook round rfl⟩
  | ended => trivial
  | aborted => trivial

end Round

theorem sound_change (h : Change s i t effects) (hs : s.Sound) : t.Sound := by
  cases h with
  | idle => exact hs
  | refused => exact hs
  | registered => exact ⟨hs.lock, hs.holder, hs.queue, hs.fits, hs.ender⟩
  | opened => exact sound_opened hs _
  | @abandoned job =>
    refine ⟨Lock.abandon_sound hs.lock, hs.holder, fun j => ?_, hs.fits, hs.ender⟩
    rw [Lock.abandon_names]
    exact hs.queue j
  | queued hj hbusy =>
    have hlock := Lock.follows_enqueue hs.lock hbusy (hs.not_queued hj rfl) (hs.not_holder hj rfl)
    exact hs.move_open hj hlock trivial (.inl rfl) rfl
  | late hj hl => exact hs.move_open hj (hs.follows_pass hl) trivial (.inl rfl) rfl
  | @granted job r old l hj hl hactive =>
    refine hs.move hj (p := s.phase) ?_ ?_ (.inl rfl) ?_
    · simpa using hs.follows_grant hl
    · rw [hactive]
      exact Stage.firstStage_fits r
    · simp [Stage.hasEnded]
  | cancelled hj => exact hs.move_open hj (hs.follows_same hj rfl rfl) trivial (.inl rfl) rfl
  | left hj =>
    have hlock := Lock.follows_leave hs.lock (hs.not_holder hj rfl)
    exact hs.move_open hj hlock trivial (.inl rfl) rfl
  | replied hj => exact hs.move_open hj (hs.follows_release hj rfl) trivial (.inl rfl) rfl
  | broken hj hphysical =>
    have hlock := hs.follows_release hj (Stage.holdsLock_of_isPhysical hphysical)
    exact hs.move_open hj hlock trivial (.inl rfl) rfl
  | committed hj | rolledBack hj | rollbackFailed hj =>
    obtain ⟨hactive, hr⟩ := hs.fits _ _ _ hj
    have hlock := hs.follows_same hj rfl rfl
    exact hs.move hj hlock ⟨rfl, hr⟩ (.inr ⟨rfl, hactive⟩) fun _ => .inr hactive
  | commitFailed hj =>
    obtain ⟨hactive, hr⟩ := hs.fits _ _ _ hj
    refine hs.move_open hj (hs.follows_same hj rfl rfl) ⟨hactive, ?_⟩ (.inl rfl) rfl
    simp [hr, Request.isEnding]
  | releaseFailed hj =>
    have hfits := hs.fits _ _ _ hj
    exact hs.move hj (hs.follows_same hj rfl rfl) hfits (.inl rfl) fun _ => .inl rfl
  | @announced job r old ending outcome records hj hending hback =>
    have hfits := hs.fits _ _ _ hj
    have hended := Stage.hasEnded_of_ending? hending
    refine hs.move hj (p := s.phase) ?_ ?_ (.inl rfl) fun _ => .inl hended
    · simpa using hs.follows_release hj (Stage.holdsLock_of_isPhysical (isPhysical_of_isBack hback))
    · exact roundStage_fits (hfits.phase_eq hending) (hfits.suits hending)
        fun round => round_hook_of_next
  | @notified job r ending round outcome hj =>
    obtain ⟨hphase, hsuits, hhook⟩ := hs.fits _ _ _ hj
    refine hs.move hj (p := s.phase) (l := s.lock) ?_ ?_ (.inl rfl) fun _ => .inl rfl
    · exact hs.follows_same hj roundStage_holdsLock roundStage_isQueued
    · exact roundStage_fits hphase hsuits fun next hnext => (round_hook_of_settle hnext).trans hhook

end Transact.Session
