import Transact.Proofs.Session.Implicit
import Transact.Proofs.Session.Observers

/-! A scope leaves no transaction open and commits none: whatever its block has done, the session has
ended when it is left, the connection is back, and the caller sees how the block ended. -/
namespace Transact

variable {σ ρ ω α : Type}

/-- A connection that was only used is handed back by a rollback. -/
theorem Clean.rolledBack {log : List (Call σ × Except Error Unit)} (hlog : Clean log)
    (env : Surroundings σ ρ ω) (w : ω) : HandedBack (log ++ (env.rollBack none w).log) := by
  unfold Surroundings.rollBack
  split
  · rename_i world _
    have hclean : Clean (log ++ [((.rollback : Call σ), .ok ())]) :=
      hlog.concat rfl (by simp [IsSpoiling])
    simp only [Finale.after, Surroundings.release]
    split
    · rw [List.append_cons]
      exact .released hclean
    · rw [List.append_cons]
      exact .discarded hclean
  · simp only [Finale.after, Surroundings.discard]
    rw [List.append_cons]
    exact hlog.condemned.discarded

theorem rollBack_isEnd (env : Surroundings σ ρ ω) (w : ω) :
    ((env.rollBack none w).log.map Prod.fst).filter Call.isEnd = [.rollback] := by
  unfold Surroundings.rollBack
  split
  · simp only [Finale.after, Surroundings.release]
    split <;> rfl
  · rfl

namespace Session

variable {s : Session σ ρ} {env : Surroundings σ ρ ω}

theorem holdsLock_of_isDone (st : Stage ρ) (h : st.isDone = true) : st.holdsLock = false := by
  cases st with
  | done => rfl
  | _ => cases h

theorem isQueued_of_isDone (st : Stage ρ) (h : st.isDone = true) : st.isQueued = false := by
  cases st with
  | done => rfl
  | _ => cases h

theorem isFree_of_done (hs : s.Sound) (hdone : ∀ j ∈ s.jobs, j.stage.isDone = true) :
    s.lock.isFree = true := by
  have hnone (kind : Stage ρ → Bool) (hkind : ∀ st, st.isDone = true → kind st = false) (k : Nat) :
      s.has kind k = false := by
    by_contra hk
    obtain ⟨r, st, hj, hst⟩ := has_eq_true_iff.mp (by simpa using hk)
    have := hkind st (hdone _ (List.mem_of_getElem? hj))
    rw [hst] at this
    cases this
  have hholder : s.lock.holder = none := by
    rw [Option.eq_none_iff_forall_ne_some]
    intro k hk
    have hhold := (hs.holder k).mp hk
    rw [hnone Stage.holdsLock holdsLock_of_isDone] at hhold
    cases hhold
  have hqueue : s.lock.queue = [] := by
    rw [List.eq_nil_iff_forall_not_mem]
    intro ticket hticket
    have hwaits := (hs.queue ticket.1).mp (List.mem_map_of_mem hticket)
    rw [hnone Stage.isQueued isQueued_of_isDone] at hwaits
    cases hwaits
  simp [Lock.isFree, hholder, hqueue]

/-- The calls by which a session is closed, each with its outcome. -/
def closingLog (env : Surroundings σ ρ ω) (s : Session σ ρ) (w : ω) : List (Call σ × Except Error Unit) :=
  if s.isActive then (env.rollBack none w).log else []

/-- How a session stands that has had the history `h` in its block, and was `s` at the block's end. -/
structure Left (env : Surroundings σ ρ ω) (h : History σ ρ) (s : Session σ ρ) (w : ω)
    (run : Run σ ρ ω) : Prop where
  terminal : run.session.phase.isTerminal = true
  committed : run.session.phase = .committed ↔ (.commit, .ok ()) ∈ h.log
  /-- What the block has left open is rolled back, once. -/
  rolledBack : s.phase = .active → run.calls.filter Call.isEnd = [.rollback]
  untouched : s.phase.isTerminal = true → run = ⟨s, [], w⟩
  calls : h.calls ++ run.calls = (h.log ++ s.closingLog env w).map Prod.fst
  back : HandedBack (h.log ++ s.closingLog env w)
  told : h.hookCalls ++ run.hookCalls = h.accepted.map (run.session.phase.hook, ·)

theorem done_of_after {id : String} {inputs : List (Input σ ρ)} {j : Nat}
    (hdone : ∀ j ∈ (({ id } : Session σ ρ).after inputs).jobs, j.stage.isDone = true)
    (hj : (({ id } : Session σ ρ).history inputs).Reaches j) : ∃ (r : Request σ)
      (answer : Except Error (Answer ρ)),
      (({ id } : Session σ ρ).after inputs).jobs[j]? = some ⟨r, .done answer⟩ := by
  obtain ⟨r, st, hst, -⟩ := pursued_history id inputs j hj
  have hended := hdone _ (List.mem_of_getElem? hst)
  cases st <;> cases hended
  exact ⟨r, _, hst⟩

/-- A session whose block has ended it is left as it is. -/
theorem left_ended (id : String) (inputs : List (Input σ ρ)) (w : ω)
    (hordinary : ∀ i ∈ inputs, i.isOrdinary = true)
    (hdone : ∀ j ∈ (({ id } : Session σ ρ).after inputs).jobs, j.stage.isDone = true)
    (hphase : (({ id } : Session σ ρ).after inputs).phase ≠ .active) (env : Surroundings σ ρ ω) :
    Left env (({ id } : Session σ ρ).history inputs) (({ id } : Session σ ρ).after inputs) w
      ((({ id } : Session σ ρ).after inputs).alone env .close w) := by
  have hstart : ({ id } : Session σ ρ).Sound := sound_fresh id
  have hsound := sound_after hstart inputs
  have hterminal := Phase.isTerminal_iff.mpr hphase
  have hrun := alone_ended hterminal rfl env w (r := .close)
  have hclosing : (({ id } : Session σ ρ).after inputs).closingLog env w = [] := by
    simp [closingLog, isActive, hphase]
  have hfree := Lock.isFree_holder (isFree_of_done hsound hdone)
  have hset := settled_of_free hsound hphase hfree
  obtain ⟨j, hj⟩ := (race_history id inputs hordinary).2.closed hphase
  obtain ⟨r, answer, hjob⟩ := done_of_after hdone hj
  have htold := (complete_history id inputs hordinary j r answer hj hjob).2
  rw [hrun]
  constructor
  case terminal => exact hterminal
  case committed => simpa [next_eq_committed] using decided_history id inputs .committed (by simp)
  case rolledBack => exact fun hactive => absurd hactive hphase
  case untouched => exact fun _ => rfl
  case calls =>
    rw [hclosing, List.append_nil, calls_history hstart rfl, calling_eq_none hfree]
    simp [Run.calls]
  case back =>
    rw [hclosing, List.append_nil]
    exact handedBack_of_settled id inputs hordinary hset
  case told =>
    rw [htold, registry_history]
    simp [Run.hookCalls]

/-- A session that is still active is rolled back, and its observers told, when its scope is left. -/
theorem left_active (id : String) (inputs : List (Input σ ρ)) (w : ω)
    (hordinary : ∀ i ∈ inputs, i.isOrdinary = true)
    (hdone : ∀ j ∈ (({ id } : Session σ ρ).after inputs).jobs, j.stage.isDone = true)
    (hactive : (({ id } : Session σ ρ).after inputs).phase = .active) {env : Surroundings σ ρ ω}
    (henv : env.IsOrdinary) :
    Left env (({ id } : Session σ ρ).history inputs) (({ id } : Session σ ρ).after inputs) w
      ((({ id } : Session σ ρ).after inputs).alone env .close w) := by
  have hstart : ({ id } : Session σ ρ).Sound := sound_fresh id
  have hsound := sound_after hstart inputs
  have hfree := isFree_of_done hsound hdone
  have hrun := ends_alone henv hactive hfree (r := .close) rfl w
  have hcalling := calling_eq_none (Lock.isFree_holder hfree)
  have hclosing : (({ id } : Session σ ρ).after inputs).closingLog env w = (env.rollBack none w).log := by
    simp [closingLog, isActive, hactive]
  have hclean := ((custody_history id inputs hordinary).using_ hactive).1
  have hquiet := ((told_history id inputs).early fun hset => hset.1 hactive).2
  have hcommitted := decided_history id inputs .committed (by simp)
  constructor
  case terminal => rw [hrun.session]; rfl
  case committed =>
    have hnot : ¬ (({ id } : Session σ ρ).after inputs).phase = .committed := by simp [hactive]
    rw [hcommitted] at hnot
    rw [hrun.session]
    simpa [next_eq_committed, joined] using hnot
  case rolledBack =>
    intro _
    rw [hrun.calls]
    exact rollBack_isEnd env w
  case untouched =>
    intro hterminal
    exact absurd hactive (Phase.isTerminal_iff.mp hterminal)
  case calls =>
    rw [hclosing, hrun.calls, calls_history hstart rfl, hcalling, List.map_append]
    simp
  case back =>
    rw [hclosing]
    exact hclean.rolledBack env w
  case told =>
    rw [hquiet, hrun.hookCalls, hrun.session, registry_history, List.nil_append]
    rfl

/-- If a session is begun the block runs, and however it ends, that is what the caller sees. -/
theorem scope_exit (block : Block σ ρ α) (opening : Opening.Attempt) (env : Surroundings σ ρ ω)
    (henv : env.IsOrdinary) (id : String) (w : ω)
    (hordinary : ∀ i ∈ block.inputs, i.isOrdinary = true)
    (hdone : ∀ j ∈ (({ id } : Session σ ρ).after block.inputs).jobs, j.stage.isDone = true) :
    (∀ e, opening.outcome = .error e → block.scope opening env id w = ⟨none, .error e⟩) ∧
      (opening.outcome = .ok () → ∃ run, block.scope opening env id w = ⟨some run, block.outcome⟩ ∧
        Left env (({ id } : Session σ ρ).history block.inputs)
          (({ id } : Session σ ρ).after block.inputs) w run) := by
  refine ⟨fun e hfailed => by simp only [Block.scope, hfailed], fun hbegun => ?_⟩
  have hfree := isFree_of_done (sound_after (sound_fresh id) block.inputs) hdone
  have hexit := exit_eq henv (.inr hfree) block.outcome w
  refine ⟨(({ id } : Session σ ρ).after block.inputs).alone env .close w, ?_, ?_⟩
  · simp only [Block.scope, hbegun, trace_eq, hexit]
  · by_cases hactive : (({ id } : Session σ ρ).after block.inputs).phase = .active
    · exact left_active id block.inputs w hordinary hdone hactive henv
    · exact left_ended id block.inputs w hordinary hdone hactive env

/-- A statement fails, and then the block is cancelled. -/
def deserted : Block Unit Unit Unit where
  inputs := [.register ⟨"A", some ⟨0, "a", "A"⟩⟩, .request (.execute ()), .run 0,
    .reply 0 (.error (.given .driver [] none)), .register ⟨"B", some ⟨1, "b", "B"⟩⟩]
  outcome := .error .cancelled

theorem scope_exit_deserted :
    wreck.IsOrdinary ∧ (∀ i ∈ deserted.inputs, i.isOrdinary = true) ∧
      (∀ j ∈ (({ id := "s" } : Session Unit Unit).after deserted.inputs).jobs, j.stage.isDone = true) ∧
      (Opening.attempt (.ok ()) fun _ => .ok ()).outcome = .ok () ∧
      ∃ run, deserted.scope (Opening.attempt (.ok ()) fun _ => .ok ()) wreck "s" () =
          ⟨some run, .error .cancelled⟩ ∧
        Left wreck (({ id := "s" } : Session Unit Unit).history deserted.inputs)
          (({ id := "s" } : Session Unit Unit).after deserted.inputs) () run := by
  have hordinary : ∀ i ∈ deserted.inputs, i.isOrdinary = true := by decide
  have hdone : ∀ j ∈ (({ id := "s" } : Session Unit Unit).after deserted.inputs).jobs,
      j.stage.isDone = true := by decide
  have hbegun : (Opening.attempt (.ok ()) fun _ => .ok ()).outcome = .ok () := rfl
  exact ⟨wreck_isOrdinary, hordinary, hdone, hbegun,
    (scope_exit deserted _ wreck wreck_isOrdinary "s" () hordinary hdone).2 hbegun⟩

end Session
end Transact
