import Transact.Proofs.Session.Jobs

/-! Which records say whose they are, and where the round of hooks begins and ends among what a
session wants done. -/
namespace Transact

variable {σ ρ : Type}

def Stage.isNotifying : Stage ρ → Bool
  | notifying _ _ => true
  | _ => false

/-- A session's own records name the session; what is reported of its hooks does not. -/
def Effect.Spoken (id : String) : Effect σ ρ → Prop
  | log r => r.sessionId = .text id
  | hookLog r => r.sessionId = .null
  | _ => True

namespace Session

variable {s t : Session σ ρ} {i : Input σ ρ} {effects rest : List (Effect σ ρ)} {job k : Nat}
  {r : Request σ} {st : Stage ρ} {notifying inside : Bool}

/-! The records -/

theorem spoken_wakes (woken : Option Nat) : ∀ e ∈ (wakes woken : List (Effect σ ρ)), e.Spoken s.id := by
  simp [wakes, Effect.Spoken]

theorem spoken_closing (failures : Option Notification) (r : Request σ) (ending : Ending) :
    ∀ record ∈ s.closingRecords failures r ending, record.sessionId = .text s.id := by
  have houtcome : (s.outcome failures).sessionId = .text s.id := rfl
  have hnotified (f : Notification) : (s.closeNotified f).sessionId = .text s.id := rfl
  have hfailed (e : Error) : (s.closeFailed e).sessionId = .text s.id := rfl
  cases r <;> rcases ending with _ | ⟨_ | _, _ | _⟩ <;> cases failures <;>
    simp [closingRecords, houtcome, hnotified, hfailed]

theorem spoken_roundEffects (r : Request σ) (ending : Ending) (next : Round.Next) :
    ∀ e ∈ s.roundEffects r ending next, e.Spoken s.id := by
  cases next with
  | ended failures =>
    simp only [roundEffects, List.mem_append, List.mem_map, List.mem_singleton]
    rintro _ (⟨record, hrecord, rfl⟩ | rfl)
    · exact spoken_closing failures r ending record hrecord
    · trivial
  | _ => simp [roundEffects, Effect.Spoken]

theorem spoken_announce (r : Request σ) (ending : Ending) :
    ∀ e ∈ (s.announce job r ending).2, e.Spoken s.id := by
  simp only [announce_eq, List.mem_append]
  rintro e (he | he)
  · exact spoken_wakes _ e he
  · exact spoken_roundEffects r ending _ e he

theorem spoken_leave (answer : Except Error (Answer ρ)) : ∀ e ∈ (s.leave job answer).2, e.Spoken s.id := by
  have hleave : (s.leave job answer).2 = wakes s.lock.release.1 ++ [.finish answer] := rfl
  simp only [hleave, List.mem_append, List.mem_singleton]
  rintro e (he | rfl)
  · exact spoken_wakes _ e he
  · trivial

theorem spoken_caught {e : Error} {record : Log.Record} {handle : Moved σ ρ}
    (hrecord : record.sessionId = .text s.id) (hhandle : ∀ e ∈ handle.2, e.Spoken s.id) :
    ∀ x ∈ (s.caught job e (logged record handle)).2, x.Spoken s.id := by
  unfold caught
  split
  · simp only [logged, List.mem_cons]
    rintro x (rfl | hx)
    · exact hrecord
    · exact hhandle x hx
  · exact spoken_leave _

theorem spoken_round (round : Round) (outcome : Except Error Unit) :
    ∀ record ∈ (round.settle outcome).1, record.sessionId = .null := by
  rcases outcome with e | ⟨⟩
  · have hwarning : (round.warning e).sessionId = .null := rfl
    cases he : e.isOrdinary <;> simp [Round.settle, he, hwarning]
  · simp [Round.settle]

theorem spoken_settle (job : Nat) (outcome : Except Error Unit) :
    ∀ e ∈ (s.step (.settle job outcome)).2, e.Spoken s.id := by
  have hask (u : Session σ ρ) (st : Stage ρ) (call : Call σ) : ∀ e ∈ (u.ask job st call).2, e.Spoken s.id := by
    simp [ask, Effect.Spoken]
  simp only [step, atJob]
  rcases hj : s.jobs[job]? with _ | ⟨r, st⟩
  · simp
  cases st with
  | committing | rollingBack =>
    rcases outcome with e | ⟨⟩
    · exact spoken_caught rfl (hask _ _ _)
    · exact hask _ _ _
  | releasing ending =>
    rcases outcome with e | ⟨⟩
    · exact spoken_caught rfl (hask _ _ _)
    · exact spoken_announce r ending
  | discarding ending =>
    rcases outcome with e | ⟨⟩
    · exact spoken_caught rfl (spoken_announce r ending)
    · exact spoken_announce r ending
  | notifying ending round =>
    simp only [settle, Session.notifying, proceed_eq, List.mem_append, List.mem_map]
    rintro _ (⟨record, hrecord, rfl⟩ | he)
    · exact spoken_round round outcome record hrecord
    · exact spoken_roundEffects r ending _ _ he
  | _ => simp [settle]

theorem spoken_quiet (hchange : Change s i t effects) (hrequest : ∀ r, i ≠ .request r)
    (hsettle : ∀ job outcome, i ≠ .settle job outcome) : ∀ e ∈ effects, e.Spoken s.id := by
  cases hchange with
  | opened => exact absurd rfl (hrequest _)
  | committed | commitFailed | rolledBack | rollbackFailed | releaseFailed | announced | notified
  | broken => exact absurd rfl (hsettle _ _)
  | late | left | replied =>
    simp only [List.mem_append, List.mem_singleton]
    rintro e (he | rfl)
    · exact spoken_wakes _ e he
    · trivial
  | _ => simp [Effect.Spoken]

/-- Only of a session that was forgotten there is a record that does not name it. -/
theorem step_spoken (hi : i ≠ .request .orphan) : ∀ e ∈ (s.step i).2, e.Spoken s.id := by
  cases i with
  | settle job outcome => exact spoken_settle job outcome
  | request r =>
    have hleft : s.leftScope.sessionId = .text s.id := rfl
    cases r with
    | orphan => exact absurd rfl hi
    | close =>
      simp only [step, receive]
      split <;> simp [logged, Effect.Spoken, hleft]
    | _ => simp [step, receive, Effect.Spoken]
  | _ => exact spoken_quiet (step_change s _) (by simp) (by simp)

theorem request_cases (s : Session σ ρ) (r : Request σ) : s.step (.request r) = (s, []) ∨
    ∃ (t : Session σ ρ) (records : List Log.Record), t.jobs = s.jobs ++ [{ request := r }] ∧
      s.step (.request r) = (t, records.map .log ++ [.opened s.jobs.length]) := by
  have hchange := step_change s (.request r)
  generalize s.step (.request r) = moved at hchange ⊢
  obtain ⟨t, effects⟩ := moved
  cases hchange with
  | idle => exact .inl rfl
  | opened records => exact .inr ⟨_, records, rfl, rfl⟩

/-! The round of hooks -/

/-- Carried out in their order, the effects take a job that is in its round of hooks if `inside` to
where it is so if `notifying`: a hook's report comes from inside, the session's own from outside. -/
def Leads (notifying : Bool) : Bool → List (Effect σ ρ) → Prop
  | inside, [] => inside = notifying
  | inside, .call _ :: _ => inside = false ∧ notifying = false
  | _, .notify _ _ :: _ => notifying = true
  | _, .finish _ :: _ => True
  | _, .log _ :: rest => Leads notifying false rest
  | inside, .hookLog _ :: rest => inside = true ∧ Leads notifying inside rest
  | inside, _ :: rest => Leads notifying inside rest

theorem leads_logs (records : List Log.Record) (hrest : ∀ inside, Leads notifying inside rest) :
    Leads notifying inside (records.map .log ++ rest) := by
  induction records generalizing inside with
  | nil => exact hrest inside
  | cons record records ih => exact ih

theorem leads_hookLogs (records : List Log.Record) (hrest : Leads notifying true rest) :
    Leads notifying true (records.map .hookLog ++ rest) := by
  induction records with
  | nil => exact hrest
  | cons record records ih => exact ⟨rfl, ih⟩

theorem leads_wakes (woken : Option Nat) (hrest : Leads notifying inside rest) :
    Leads notifying inside (wakes woken ++ rest) := by
  cases woken <;> exact hrest

theorem isNotifying_eq (hj : s.jobs[job]? = some ⟨r, st⟩) :
    s.isNotifying job = st.isNotifying := by
  simp only [isNotifying, stage?_eq hj]
  cases st <;> rfl

theorem leads_roundEffects {ending : Ending} {next : Round.Next}
    (hj : t.jobs[job]? = some ⟨r, s.roundStage r ending next⟩) :
    Leads (t.isNotifying job) inside (s.roundEffects r ending next) := by
  rw [isNotifying_eq hj]
  cases next with
  | call round => rfl
  | ended failures => exact leads_logs _ fun _ => trivial
  | aborted e => trivial

theorem change_leads (hchange : Change s i t effects) (hi : i.job? = some job) :
    Leads (t.isNotifying job) (s.isNotifying job) effects := by
  cases hchange with
  | idle => rfl
  | refused | registered | opened | abandoned => cases hi
  | queued hj =>
    obtain rfl := Option.some.inj hi
    rw [isNotifying_eq hj, isNotifying_eq (job_moved hj)]
    rfl
  | late hj | left hj | replied hj | broken hj =>
    apply leads_wakes
    trivial
  | cancelled hj => trivial
  | @granted job r st l hj hl =>
    obtain rfl := Option.some.inj hi
    rw [isNotifying_eq hj, isNotifying_eq (job_moved hj)]
    rcases grant?_waiting hl hj with rfl | rfl <;> cases r <;> exact ⟨rfl, rfl⟩
  | committed hj | rolledBack hj =>
    obtain rfl := Option.some.inj hi
    rw [isNotifying_eq hj, isNotifying_eq (job_moved hj)]
    exact ⟨rfl, rfl⟩
  | commitFailed hj | rollbackFailed hj | releaseFailed hj =>
    obtain rfl := Option.some.inj hi
    rw [isNotifying_eq hj, isNotifying_eq (job_moved hj)]
    exact ⟨rfl, rfl⟩
  | announced records hj hending hback =>
    obtain rfl := Option.some.inj hi
    rw [List.append_assoc]
    apply leads_logs
    intro inside
    apply leads_wakes
    exact leads_roundEffects (job_moved hj)
  | notified hj =>
    obtain rfl := Option.some.inj hi
    rw [isNotifying_eq hj]
    apply leads_hookLogs
    exact leads_roundEffects (job_moved hj)

end Session
end Transact
