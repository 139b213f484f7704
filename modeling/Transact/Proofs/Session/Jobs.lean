import Transact.Proofs.Session.History

/-! Single jobs along a run: each was opened by one request, keeps it, and never moves again once
it has ended. -/
namespace Transact

variable {σ ρ : Type}

def History.Opened (h : History σ ρ) (job : Nat) (r : Request σ) : Prop :=
  ∃ m ∈ h, m.input = .request r ∧ Effect.opened job ∈ m.effects

theorem History.Opened.concat {h : History σ ρ} {job : Nat} {r : Request σ} (hopened : h.Opened job r)
    (m : Moment σ ρ) : History.Opened (h ++ [m]) job r := by
  obtain ⟨n, hn, hinput⟩ := hopened
  exact ⟨n, List.mem_append_left _ hn, hinput⟩

namespace Session

variable {s t : Session σ ρ} {i : Input σ ρ} {effects : List (Effect σ ρ)}
  {job k : Nat} {r : Request σ} {st old : Stage ρ} {h : History σ ρ} {l : Lock}

/-- A job that is there stays where it is, or is the one that the input moves. -/
theorem job_change (hchange : Change s i t effects) (hk : s.jobs[k]? = some ⟨r, old⟩) :
    ∃ st, t.jobs[k]? = some ⟨r, st⟩ ∧ (st = old ∨ i.job? = some k ∧ old.Goes r st) := by
  cases change_moves hchange with
  | rest hjobs _ => exact ⟨old, by rw [hjobs, hk], .inl rfl⟩
  | opened r' _ hjobs _ =>
    have hlt := (List.getElem?_eq_some_iff.mp hk).1
    exact ⟨old, by rw [hjobs, List.getElem?_append_left hlt, hk], .inl rfl⟩
  | moved job r' old' st hi hj hgoes hjobs _ =>
    by_cases hkj : k = job
    · subst k
      rw [hk] at hj
      cases hj
      exact ⟨st, by rw [hjobs, if_pos rfl], .inr ⟨hi, hgoes⟩⟩
    · exact ⟨old, by rw [hjobs, if_neg hkj, hk], .inl rfl⟩

theorem job_stays (hchange : Change s i t effects) (hk : s.jobs[k]? = some ⟨r, old⟩)
    (hi : i.job? ≠ some k) : t.jobs[k]? = some ⟨r, old⟩ := by
  obtain ⟨st, ht, rfl | ⟨hmove, -⟩⟩ := job_change hchange hk
  · exact ht
  · exact absurd hmove hi

theorem done_stays {answer : Except Error (Answer ρ)} (hchange : Change s i t effects)
    (hk : s.jobs[k]? = some ⟨r, .done answer⟩) : t.jobs[k]? = some ⟨r, .done answer⟩ := by
  obtain ⟨st, ht, rfl | ⟨-, hgoes⟩⟩ := job_change hchange hk
  · exact ht
  · cases hgoes.not_done

/-- A call is begun by the job that moves, which then waits for it. -/
theorem call_lands (hchange : Change s i t effects) {c : Call σ}
    (hc : c ∈ effects.filterMap Effect.call?) :
    ∃ (job : Nat) (r : Request σ) (st : Stage ρ), i.job? = some job ∧
      t.jobs[job]? = some ⟨r, st⟩ ∧ st.call? r = some c := by
  cases change_moves hchange with
  | rest _ hcalls => simp [hcalls] at hc
  | opened _ _ _ hcalls => simp [hcalls] at hc
  | moved job r old st hi hj _ hjobs hcalls =>
    rw [hcalls, Option.mem_toList] at hc
    exact ⟨job, r, st, hi, by rw [hjobs, if_pos rfl], hc⟩

theorem job_opened (hchange : Change s i t effects) (hk : t.jobs[k]? = some ⟨r, st⟩)
    (hnone : s.jobs[k]? = none) :
    i = .request r ∧ st = .ready ∧ .opened k ∈ effects := by
  cases change_moves hchange with
  | rest hjobs _ =>
    rw [hjobs, hnone] at hk
    cases hk
  | moved job r' old' st' hi hj hgoes hjobs _ =>
    rw [hjobs] at hk
    split at hk
    · subst k
      rw [hnone] at hj
      cases hj
    · rw [hnone] at hk
      cases hk
  | opened r' hi hjobs _ =>
    subst hi
    rw [hjobs] at hk
    have hle : s.jobs.length ≤ k := List.getElem?_eq_none_iff.mp hnone
    rw [List.getElem?_append_right hle] at hk
    obtain ⟨hlt, hjob⟩ := List.getElem?_eq_some_iff.mp hk
    have hlast : k = s.jobs.length := by
      simp only [List.length_singleton] at hlt
      omega
    rw [List.getElem_singleton] at hjob
    cases hjob
    refine ⟨rfl, rfl, ?_⟩
    cases hchange with
    | idle => simp at hjobs
    | opened records => simp [hlast]

theorem job_after (inputs : List (Input σ ρ)) (hk : s.jobs[k]? = some ⟨r, old⟩) :
    ∃ st, (s.after inputs).jobs[k]? = some ⟨r, st⟩ := by
  induction inputs generalizing s old with
  | nil => exact ⟨old, hk⟩
  | cons i rest ih =>
    obtain ⟨st, hst, -⟩ := job_change (step_change s i) hk
    exact ih hst

theorem opened_history (id : String) (inputs : List (Input σ ρ)) (k : Nat) (r : Request σ)
    (st : Stage ρ) (hk : (({ id } : Session σ ρ).after inputs).jobs[k]? = some ⟨r, st⟩) :
    (({ id } : Session σ ρ).history inputs).Opened k r := by
  refine (run_induction (Q := fun _ => True)
    (P := fun h s => ∀ k r st, s.jobs[k]? = some ⟨r, st⟩ → h.Opened k r) (sound_fresh id) (by simp) ?_
    inputs fun _ _ => trivial).2 k r st hk
  intro h s i t effects _ _ hchange ih k r st hk
  cases hold : s.jobs[k]? with
  | none =>
    obtain ⟨rfl, -, hopened⟩ := job_opened hchange hk hold
    exact ⟨_, List.mem_append_right _ (List.mem_singleton_self _), rfl, hopened⟩
  | some job =>
    obtain ⟨st', ht, -⟩ := job_change hchange hold
    rw [ht] at hk
    cases hk
    exact (ih k _ _ hold).concat _

/-- A statement that is under way ends with what the store replies to it. -/
theorem forwarding_change (hchange : Change s i t effects) (hk : s.jobs[k]? = some ⟨r, .forwarding⟩) :
    t.jobs[k]? = some ⟨r, .forwarding⟩ ∨ ∃ outcome, i = .reply k outcome ∧
      .finish (outcome.map .reply) ∈ effects ∧ t.jobs[k]? = some ⟨r, .done (outcome.map .reply)⟩ := by
  by_cases hi : i.job? = some k
  · cases hchange with
    | idle => exact .inl hk
    | @replied job r' outcome hj =>
      cases hi
      rw [hk] at hj
      cases hj
      exact .inr ⟨outcome, rfl, by simp, job_moved hk⟩
    | late hj hl | granted hj hl =>
      cases hi
      have := grant?_waiting hl hk
      simp_all
    | broken hj hphysical =>
      cases hi
      rw [hk] at hj
      cases hj
      cases hphysical
    | announced records hj hending =>
      cases hi
      rw [hk] at hj
      cases hj
      cases hending
    | _ => simp_all [Input.job?]
  · exact .inl (job_stays hchange hk hi)

end Session
end Transact
