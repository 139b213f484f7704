import Transact.Proofs.Session.History

/-! Who answers for a connection. It is in use, or on its way back, or back; which of these follows
from the calls that have ended on it, the one that is under way, and whether somebody uses it. -/
namespace Transact

variable {σ ρ : Type}

namespace Call

/-- Hands the connection back. -/
def isBack : Call σ → Bool
  | release | discard => true
  | _ => false

/-- The call that an answer is followed by at once. -/
def next : Call σ → Except Error Unit → Option (Call σ)
  | commit, .ok () | rollback, .ok () => some release
  | begin, .error e => if e.isOrdinary then some release else none
  | commit, .error e => if e.isOrdinary then some rollback else none
  | rollback, .error e | release, .error e => if e.isOrdinary then some discard else none
  | _, _ => none

/-- Whether the connection goes on being used after an answer. -/
def keeps : Call σ → Except Error Unit → Bool
  | begin, .ok () | execute _, _ | commit, .error _ => true
  | _, _ => false

end Call

/-- A rollback that failed. -/
def IsSpoiling (entry : Call σ × Except Error Unit) : Prop :=
  entry.1 = .rollback ∧ ∃ e, entry.2 = .error e

/-- Nothing was done to hand the connection back. -/
def InHand (log : List (Call σ × Except Error Unit)) : Prop := ∀ entry ∈ log, entry.1.isBack = false

/-- Nor has its rollback failed. -/
structure Clean (log : List (Call σ × Except Error Unit)) : Prop where
  inHand : InHand log
  sane : ∀ entry ∈ log, ¬ IsSpoiling entry

/-- The three ways in which a connection is handed back. -/
inductive HandedBack : List (Call σ × Except Error Unit) → Prop
  | released {log : List (Call σ × Except Error Unit)} : Clean log →
      HandedBack (log ++ [(.release, .ok ())])
  | discarded {log : List (Call σ × Except Error Unit)} {e : Error} {outcome : Except Error Unit} :
      Clean log → HandedBack (log ++ [(.release, .error e), (.discard, outcome)])
  | spoiled {log : List (Call σ × Except Error Unit)} {entry : Call σ × Except Error Unit}
      {outcome : Except Error Unit} : InHand log → entry ∈ log → IsSpoiling entry →
      HandedBack (log ++ [(.discard, outcome)])

/-- It must be discarded: its release has just failed, or its rollback has. -/
inductive Condemned : List (Call σ × Except Error Unit) → Prop
  | unreleased {log : List (Call σ × Except Error Unit)} {e : Error} : Clean log →
      Condemned (log ++ [(.release, .error e)])
  | spoiled {log : List (Call σ × Except Error Unit)} {entry : Call σ × Except Error Unit} :
      InHand log → entry ∈ log → IsSpoiling entry → Condemned log

/-- What is known of a connection: whether it is in use, the call under way, those that ended. -/
structure Custody (inUse : Prop) (calling : Option (Call σ)) (log : List (Call σ × Except Error Unit)) :
    Prop where
  using_ : inUse → Clean log ∧ ∀ c ∈ calling, c.isBack = false
  returning : ¬ inUse → ∀ c ∈ calling, c.isBack = true
  releasing : calling = some .release → Clean log
  discarding : calling = some .discard → Condemned log
  back : ¬ inUse → calling = none → HandedBack log

theorem clean_nil : Clean ([] : List (Call σ × Except Error Unit)) where
  inHand _ hentry := by cases hentry
  sane _ hentry := by cases hentry

theorem Clean.concat {log : List (Call σ × Except Error Unit)} {entry : Call σ × Except Error Unit}
    (hlog : Clean log) (hback : entry.1.isBack = false) (hsane : ¬ IsSpoiling entry) :
    Clean (log ++ [entry]) := by
  refine ⟨fun x hx => ?_, fun x hx => ?_⟩
  · rcases List.mem_append.mp hx with hx | hx
    · exact hlog.inHand x hx
    · rw [List.mem_singleton.mp hx]
      exact hback
  · rcases List.mem_append.mp hx with hx | hx
    · exact hlog.sane x hx
    · rw [List.mem_singleton.mp hx]
      exact hsane

variable {p q : Prop} {c : Call σ} {outcome : Except Error Unit}
  {log : List (Call σ × Except Error Unit)}

theorem custody_using (hlog : Clean log) (hp : p) {calling : Option (Call σ)}
    (hcalling : ∀ c ∈ calling, c.isBack = false) : Custody p calling log where
  using_ _ := ⟨hlog, hcalling⟩
  returning hnot := absurd hp hnot
  releasing _ := hlog
  discarding hc := by
    have := hcalling _ hc
    cases this
  back hnot := absurd hp hnot

theorem custody_releasing (hlog : Clean log) (hp : ¬ p) : Custody p (some .release) log where
  using_ h := absurd h hp
  returning _ c hc := by cases hc; rfl
  releasing _ := hlog
  discarding hc := by cases hc
  back _ hc := by cases hc

theorem custody_discarding (hlog : Condemned log) (hp : ¬ p) : Custody p (some .discard) log where
  using_ h := absurd h hp
  returning _ c hc := by cases hc; rfl
  releasing hc := by cases hc
  discarding _ := hlog
  back _ hc := by cases hc

theorem custody_back (hlog : HandedBack log) (hp : ¬ p) : Custody p none log where
  using_ h := absurd h hp
  returning _ c hc := by cases hc
  releasing hc := by cases hc
  discarding hc := by cases hc
  back _ _ := hlog

theorem Clean.condemned {e : Error} (hlog : Clean log) :
    Condemned (log ++ [((.rollback : Call σ), .error e)]) := by
  refine .spoiled (fun entry hentry => ?_) (List.mem_append_right _ (List.mem_singleton_self _))
    ⟨rfl, e, rfl⟩
  rcases List.mem_append.mp hentry with hentry | hentry
  · exact hlog.inHand entry hentry
  · rw [List.mem_singleton.mp hentry]
    rfl

theorem Condemned.discarded (hlog : Condemned log) :
    HandedBack (log ++ [((.discard : Call σ), outcome)]) := by
  cases hlog with
  | unreleased hlog =>
    rw [List.append_assoc]
    exact .discarded hlog
  | spoiled hlog hentry hspoiling => exact .spoiled hlog hentry hspoiling

/-- An answer moves a connection on. -/
theorem Custody.answer (hcustody : Custody p (some c) log)
    (hordinary : ∀ e, outcome = .error e → c.statement? = none → e.isOrdinary = true)
    (hq : q ↔ p ∧ c.keeps outcome = true) : Custody q (c.next outcome) (log ++ [(c, outcome)]) := by
  have hnot (h : c.keeps outcome = false) : ¬ q := by simp [hq, h]
  have huse (hback : c.isBack = false) : p := by
    by_contra hp
    rw [hcustody.returning hp c rfl] at hback
    cases hback
  have hclean (hback : c.isBack = false) : Clean log := (hcustody.using_ (huse hback)).1
  cases c with
  | begin =>
    have hlog : Clean (log ++ [(.begin, outcome)]) := (hclean rfl).concat rfl (by simp [IsSpoiling])
    cases outcome with
    | ok => exact custody_using hlog (hq.mpr ⟨huse rfl, rfl⟩) (by simp [Call.next])
    | error e =>
      rw [Call.next, if_pos (hordinary e rfl rfl)]
      exact custody_releasing hlog (hnot rfl)
  | execute statement =>
    have hlog : Clean (log ++ [(.execute statement, outcome)]) :=
      (hclean rfl).concat rfl (by simp [IsSpoiling])
    exact custody_using hlog (hq.mpr ⟨huse rfl, rfl⟩) (by simp [Call.next])
  | commit =>
    have hlog : Clean (log ++ [(.commit, outcome)]) := (hclean rfl).concat rfl (by simp [IsSpoiling])
    cases outcome with
    | ok => exact custody_releasing hlog (hnot rfl)
    | error e =>
      rw [Call.next, if_pos (hordinary e rfl rfl)]
      exact custody_using hlog (hq.mpr ⟨huse rfl, rfl⟩) (by simp [Call.isBack])
  | rollback =>
    cases outcome with
    | ok =>
      have hlog : Clean (log ++ [(.rollback, .ok ())]) :=
        (hclean rfl).concat rfl (by simp [IsSpoiling])
      exact custody_releasing hlog (hnot rfl)
    | error e =>
      rw [Call.next, if_pos (hordinary e rfl rfl)]
      exact custody_discarding (hclean rfl).condemned (hnot rfl)
  | release =>
    have hlog := hcustody.releasing rfl
    cases outcome with
    | ok => exact custody_back (.released hlog) (hnot rfl)
    | error e =>
      rw [Call.next, if_pos (hordinary e rfl rfl)]
      exact custody_discarding (.unreleased hlog) (hnot rfl)
  | discard =>
    have hlog := hcustody.discarding rfl
    exact custody_back hlog.discarded (hnot rfl)

/-- After a call that hands the connection back there is a discard at most, and only after a release. -/
def Ordered (calls : List (Call σ)) : Prop :=
  calls.Pairwise fun a b => a.isBack = true → a = .release ∧ b = .discard

theorem InHand.ordered_append (hlog : InHand log) {calls : List (Call σ)} (hcalls : Ordered calls) :
    Ordered (log.map Prod.fst ++ calls) := by
  have hkeep {a : Call σ} (ha : a ∈ log.map Prod.fst) : a.isBack = false := by
    obtain ⟨entry, hentry, rfl⟩ := List.mem_map.mp ha
    exact hlog entry hentry
  refine List.pairwise_append.mpr ⟨?_, hcalls, fun a ha b _ hback => ?_⟩
  · refine List.Pairwise.imp_of_mem (R := fun _ _ => True) (fun ha _ _ hback => ?_)
      (List.pairwise_of_forall fun _ _ => trivial)
    rw [hkeep ha] at hback
    cases hback
  · rw [hkeep ha] at hback
    cases hback

theorem HandedBack.ordered (hlog : HandedBack log) : Ordered (log.map Prod.fst) := by
  cases hlog with
  | released hlog =>
    rw [List.map_append]
    exact hlog.inHand.ordered_append (by simp [Ordered])
  | discarded hlog =>
    rw [List.map_append]
    exact hlog.inHand.ordered_append (by simp [Ordered])
  | spoiled hlog =>
    rw [List.map_append]
    exact hlog.ordered_append (by simp [Ordered])

theorem Custody.ordered {calling : Option (Call σ)} (hcustody : Custody p calling log) :
    Ordered (log.map Prod.fst ++ calling.toList) := by
  by_cases hp : p
  · have hlog := (hcustody.using_ hp).1
    exact hlog.inHand.ordered_append (by cases calling <;> simp [Ordered])
  cases calling with
  | none => simpa using (hcustody.back hp rfl).ordered
  | some c =>
    cases c with
    | release => exact (hcustody.releasing rfl).inHand.ordered_append (by simp [Ordered])
    | discard =>
      cases hcustody.discarding rfl with
      | unreleased hlog =>
        rw [List.map_append, List.append_assoc]
        exact hlog.inHand.ordered_append (by simp [Ordered])
      | spoiled hlog => exact hlog.ordered_append (by simp [Ordered])
    | _ => cases hcustody.returning hp _ rfl

theorem InHand.not_released (hlog : InHand log) : .release ∉ log.map Prod.fst := by
  intro hmem
  obtain ⟨entry, hentry, heq⟩ := List.mem_map.mp hmem
  have hback := hlog entry hentry
  rw [heq] at hback
  cases hback

theorem Clean.not_spoiled {entry : Call σ × Except Error Unit} {tail : List (Call σ × Except Error Unit)}
    (hlog : Clean log) (htail : ∀ x ∈ tail, x.1 ≠ .rollback) (hentry : entry ∈ log ++ tail) :
    ¬ IsSpoiling entry := by
  rcases List.mem_append.mp hentry with hentry | hentry
  · exact hlog.sane entry hentry
  · exact fun hspoiling => htail entry hentry hspoiling.1

/-- A connection whose rollback failed is never released. -/
theorem Custody.never_released {calling : Option (Call σ)} (hcustody : Custody p calling log)
    {entry : Call σ × Except Error Unit} (hentry : entry ∈ log) (hspoiling : IsSpoiling entry) :
    .release ∉ log.map Prod.fst ++ calling.toList := by
  have hclean (hlog : Clean log) : False := hlog.sane entry hentry hspoiling
  by_cases hp : p
  · exact absurd (hcustody.using_ hp).1 hclean
  cases calling with
  | none =>
    rw [Option.toList_none, List.append_nil]
    cases hcustody.back hp rfl with
    | released hlog => exact absurd hspoiling (hlog.not_spoiled (by simp) hentry)
    | discarded hlog => exact absurd hspoiling (hlog.not_spoiled (by simp) hentry)
    | spoiled hlog =>
      rw [List.map_append, List.mem_append, not_or]
      exact ⟨hlog.not_released, by simp⟩
  | some c =>
    cases c with
    | release => exact absurd (hcustody.releasing rfl) hclean
    | discard =>
      cases hcustody.discarding rfl with
      | unreleased hlog => exact absurd hspoiling (hlog.not_spoiled (by simp) hentry)
      | spoiled hlog =>
        rw [List.mem_append, not_or]
        exact ⟨hlog.not_released, by simp⟩
    | _ => cases hcustody.returning hp _ rfl

namespace Session

variable {s t : Session σ ρ} {i : Input σ ρ} {effects : List (Effect σ ρ)}

/-- Each answer is followed by the call that is due. -/
theorem calling_after (hs : s.Sound) (hchange : Change s i t effects)
    (hanswered : s.answered i = some (c, outcome)) : t.calling = c.next outcome := by
  have ht : t.Sound := sound_change hchange hs
  cases hchange with
  | idle hfits => simp [answered_eq_none_of_not_fits hfits] at hanswered
  | @replied job r result hj =>
    have hr := (hs.fits _ _ _ hj).2
    rw [calling_eq_none (Lock.release_holder _)]
    cases r <;> simp_all [answered, Request.firstCall, Request.isEnding]
    obtain ⟨rfl, -⟩ := hanswered
    rfl
  | @broken job r st e hj hphysical he =>
    rw [calling_eq_none (Lock.release_holder _)]
    rw [answered_settle hj hphysical] at hanswered
    cases st <;> simp_all [Stage.call?, Stage.isPhysical]
    all_goals
      obtain ⟨rfl, rfl⟩ := hanswered
      simp [Call.next, he]
  | committed hj | rolledBack hj =>
    rw [calling_eq ht (job_moved hj) rfl]
    simp [answered, hj, Stage.call?] at hanswered
    obtain ⟨rfl, rfl⟩ := hanswered
    rfl
  | rollbackFailed hj he =>
    rw [calling_eq ht (job_moved hj) rfl]
    simp [answered, hj, Stage.call?] at hanswered
    obtain ⟨rfl, rfl⟩ := hanswered
    simp [Call.next, he, Stage.call?]
  | commitFailed hj he | releaseFailed hj he =>
    rw [calling_eq ht (job_moved (p := s.phase) (l := s.lock) hj) rfl]
    simp [answered, hj, Stage.call?] at hanswered
    obtain ⟨rfl, rfl⟩ := hanswered
    simp [Call.next, he, Stage.call?]
  | @announced job r st ending result records hj hending hback =>
    rw [calling_eq_none (Lock.release_holder _)]
    rw [answered_settle hj (isPhysical_of_isBack hback)] at hanswered
    cases st <;> simp_all [Stage.call?, isBack]
    · obtain ⟨rfl, rfl⟩ := hanswered
      cases result with
      | ok => rfl
      | error => cases hback
    · obtain ⟨rfl, rfl⟩ := hanswered
      rfl
  | _ => simp_all [answered, Stage.call?]

theorem active_of_begun (hchange : Change s i t effects) (hanswered : s.answered i = none)
    (hc : c ∈ effects.filterMap Effect.call?) : s.phase = .active := by
  cases hchange with
  | granted hj hl hactive => exact hactive
  | committed hj | commitFailed hj | rolledBack hj | rollbackFailed hj | releaseFailed hj =>
    simp [answered, hj, Stage.call?] at hanswered
  | _ => simp at hc

theorem isBack_of_calling (hs : s.Sound) (hc : s.calling = some c) :
    s.phase = .active ↔ c.isBack = false := by
  obtain ⟨job, hholder, hawaited⟩ := Option.bind_eq_some_iff.mp hc
  obtain ⟨⟨r, st⟩, hj, hcall⟩ := Option.bind_eq_some_iff.mp hawaited
  rw [(hs.fits _ _ _ hj).active_iff hcall]
  cases c <;> simp [Call.isBack]

theorem ordinary_of_answered (hs : s.Sound) (hi : i.isOrdinary = true) {e : Error}
    (hanswered : s.answered i = some (c, .error e)) (hc : c.statement? = none) :
    e.isOrdinary = true := by
  cases i with
  | reply job result =>
    rcases hj : s.jobs[job]? with _ | ⟨r, st⟩
    · simp [answered, hj] at hanswered
    · cases st <;> simp [answered, hj] at hanswered
      obtain ⟨rfl, -⟩ := hanswered
      have hr := (hs.fits _ _ _ hj).2
      cases r <;> simp_all [Request.firstCall, Request.isEnding, Call.statement?]
  | settle job result =>
    rcases hj : s.jobs[job]? with _ | ⟨r, st⟩
    · simp [answered, hj] at hanswered
    · cases st <;> simp [answered, hj, Stage.call?] at hanswered
      all_goals
        obtain ⟨-, rfl⟩ := hanswered
        exact hi
  | _ => cases hanswered

theorem ne_begin_of_answered (hanswered : s.answered i = some (c, outcome)) : c ≠ .begin := by
  obtain ⟨job, r, st, -, -, hcall⟩ := exists_of_answered hanswered
  rintro rfl
  cases st <;> simp [Stage.call?] at hcall
  cases r <;> cases hcall

/-- If an input makes a call fail that is no statement, it does so by an ordinary error. -/
def Mild (s : Session σ ρ) (i : Input σ ρ) : Prop :=
  ∀ (c : Call σ) (e : Error), s.answered i = some (c, .error e) → c.statement? = none →
    e.isOrdinary = true

theorem mild_of_isOrdinary (hs : s.Sound) (hi : i.isOrdinary = true) : s.Mild i :=
  fun _ _ hanswered hc => ordinary_of_answered hs hi hanswered hc

/-- The phase stays active with an answer exactly when the connection is kept. -/
theorem active_after (hs : s.Sound) (hchange : Change s i t effects) (hmild : s.Mild i)
    (hanswered : s.answered i = some (c, outcome)) :
    t.phase = .active ↔ s.phase = .active ∧ c.keeps outcome = true := by
  have hphase := phase_change hs hchange
  rw [hanswered] at hphase
  have hback := isBack_of_calling hs (calling_of_answered hs hanswered)
  cases c with
  | begin => exact absurd rfl (ne_begin_of_answered hanswered)
  | execute => simp [hphase, Phase.next, Call.keeps]
  | commit => cases outcome <;> simp [hphase, Phase.next, Call.keeps]
  | rollback =>
    cases outcome with
    | ok => simp [hphase, Phase.next, Call.keeps]
    | error e =>
      have he := hmild _ e hanswered rfl
      simp [hphase, Phase.next, Call.keeps, he]
  | release | discard =>
    simp [Call.isBack] at hback
    simp [hphase, Phase.next, hback]

/-- A session keeps account of its connection. -/
theorem custody_mild (hs : s.Sound) (hchange : Change s i t effects) (hmild : s.Mild i)
    (hcustody : Custody (s.phase = .active) s.calling log) :
    Custody (t.phase = .active) t.calling (log ++ (s.answered i).toList) := by
  have ht : t.Sound := sound_change hchange hs
  cases hanswered : s.answered i with
  | some entry =>
    obtain ⟨c, outcome⟩ := entry
    rw [calling_of_answered hs hanswered] at hcustody
    rw [calling_after hs hchange hanswered]
    apply hcustody.answer _ (active_after hs hchange hmild hanswered)
    intro e he hc
    subst he
    exact hmild c e hanswered hc
  | none =>
    have hphase := phase_change hs hchange
    rw [hanswered] at hphase
    have hphase : t.phase = s.phase := hphase
    rw [Option.toList_none, List.append_nil, hphase]
    by_cases hactive : s.phase = .active
    · apply custody_using (hcustody.using_ hactive).1 hactive
      intro c hc
      exact (isBack_of_calling ht hc).mp (hphase.trans hactive)
    · -- an ended session begins nothing of its own accord
      have hcalls := calls_change hs hchange
      have hnew : effects.filterMap Effect.call? = [] := by
        rw [List.eq_nil_iff_forall_not_mem]
        intro c hc
        exact hactive (active_of_begun hchange hanswered hc)
      rw [hanswered, hnew, List.append_nil] at hcalls
      have hcalling : t.calling = s.calling := by
        apply Option.ext
        intro c
        rw [← Option.mem_toList, ← Option.mem_toList, hcalls]
        rfl
      rw [hcalling]
      exact hcustody

theorem custody_change (hs : s.Sound) (hchange : Change s i t effects) (hi : i.isOrdinary = true)
    (hcustody : Custody (s.phase = .active) s.calling log) :
    Custody (t.phase = .active) t.calling (log ++ (s.answered i).toList) :=
  custody_mild hs hchange (mild_of_isOrdinary hs hi) hcustody

end Session
end Transact
