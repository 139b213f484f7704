import Transact.Proofs.Ledger.Records
import Transact.Proofs.Session.Verdict

/-! What a call to begin a session comes to, whatever the source and the connection answer: a session on
the connection that the source gave, or an error, and then the connection is back, unless a failure came
in between that is no ordinary error. -/
namespace Transact

variable {σ ρ : Type}

/-- Why there is no session: what the source answered, the calls on its connection with their outcomes,
and what is raised. -/
inductive Refused : Except Error Unit → List (Call σ × Except Error Unit) → Error → Prop
  | unobtained (e : Error) :
      Refused (.error e) [] (if e.isAcquire || !e.isOrdinary then e else .acquireFailed e)
  | handedBack {e : Error} {back : List (Call σ × Except Error Unit)} : e.isOrdinary = true →
      GivenBack back → (∀ entry ∈ back, ∀ e', entry.2 = .error e' → e'.isOrdinary = true) →
      Refused (.ok ()) ((.begin, .error e) :: back) (.beginFailed e)
  /-- What is no ordinary error ends everything at once: nothing is handed back. -/
  | kept {e : Error} : e.isOrdinary = false → Refused (.ok ()) [(.begin, .error e)] e
  | unreleased {e e' : Error} : e.isOrdinary = true → e'.isOrdinary = false →
      Refused (.ok ()) [(.begin, .error e), (.release, .error e')] e'
  | undiscarded {e e' e'' : Error} : e.isOrdinary = true → e'.isOrdinary = true →
      e''.isOrdinary = false →
      Refused (.ok ()) [(.begin, .error e), (.release, .error e'), (.discard, .error e'')] e''

namespace Refused

variable {log : List (Call σ × Except Error Unit)} {e : Error}

/-- Where all failures are ordinary, the connection is back, and it is told why. -/
theorem handed_back (h : Refused (.ok ()) log e)
    (hordinary : ∀ entry ∈ log, ∀ e', entry.2 = .error e' → e'.isOrdinary = true) :
    ∃ (cause : Error) (back : List (Call σ × Except Error Unit)),
      log = (.begin, .error cause) :: back ∧ GivenBack back ∧ e = .beginFailed cause := by
  have hno {c : Call σ} {e' : Error} (he' : e'.isOrdinary = false) : (c, .error e') ∉ log := by
    intro hmem
    rw [hordinary _ hmem e' rfl] at he'
    cases he'
  cases h with
  | handedBack _ hback => exact ⟨_, _, rfl, hback, rfl⟩
  | kept he => exact absurd List.mem_cons_self (hno he)
  | unreleased _ he => exact absurd (List.mem_cons_of_mem _ List.mem_cons_self) (hno he)
  | undiscarded _ _ he =>
    exact absurd (List.mem_cons_of_mem _ (List.mem_cons_of_mem _ List.mem_cons_self)) (hno he)

end Refused

namespace Opening

/-- Where an opening stands after these calls on its connection. -/
inductive Stands : List (Call σ × Except Error Unit) → Opening → Prop
  | beginning : Stands [] beginning
  | releasing {e : Error} : e.isOrdinary = true → Stands [(.begin, .error e)] (releasing e)
  | discarding {e e' : Error} : e.isOrdinary = true → e'.isOrdinary = true →
      Stands [(.begin, .error e), (.release, .error e')] (discarding e)

/-- How an opening goes on after these calls on its connection. -/
inductive Leads (log : List (Call σ × Except Error Unit)) : Next → Prop
  | call {stage : Opening} {call : Call Empty} : Stands log stage →
      stage.call? = some (call.plain : Call σ) → Leads log (.call stage call)
  | opened : log = [(.begin, .ok ())] → Leads log .opened
  | failed {e : Error} : Refused (.ok ()) log e → Leads log (.failed e)

theorem Stands.settle {log : List (Call σ × Except Error Unit)} {stage : Opening} {c : Call σ}
    (h : Stands log stage) (hc : stage.call? = some c) (outcome : Except Error Unit) :
    Leads (log ++ [(c, outcome)]) (stage.settle outcome).2 := by
  cases h with
  | beginning =>
    cases hc
    cases outcome with
    | ok => exact .opened rfl
    | error e =>
      cases he : e.isOrdinary <;> simp only [Opening.settle, he, if_true, Bool.false_eq_true, if_false]
      · exact .failed (.kept he)
      · exact .call (.releasing he) rfl
  | releasing he =>
    cases hc
    cases outcome with
    | ok => exact .failed (.handedBack he .released (by simp))
    | error e' =>
      cases he' : e'.isOrdinary <;> simp only [Opening.settle, he', if_true, Bool.false_eq_true, if_false]
      · exact .failed (.unreleased he he')
      · exact .call (.discarding he he') rfl
  | @discarding _ e' he he' =>
    cases hc
    cases outcome with
    | ok => exact .failed (.handedBack he (.discarded e' (.ok ())) (by simp [he']))
    | error e'' =>
      cases he'' : e''.isOrdinary <;> simp only [Opening.settle, he'', if_true, Bool.false_eq_true, if_false]
      · exact .failed (.undiscarded he he' he'')
      · exact .failed (.handedBack he (.discarded e' (.error e'')) (by simp [he', he'']))

/-- A begin for which the source and the connection answer at once. -/
structure Attempted (acquired : Except Error Unit) (answer : Call Empty → Except Error Unit)
    (attempt : Attempt) : Prop where
  begun : attempt.outcome = .ok () → acquired = .ok () ∧
    attempt.calls.map (fun call => (call, answer call)) = [(.begin, .ok ())]
  refused : ∀ e, attempt.outcome = .error e →
    Refused acquired (attempt.calls.map fun call => (call, answer call)) e

theorem plain_eq (call : Call Empty) : call.plain = call := by
  cases call with
  | execute statement => cases statement
  | _ => rfl

theorem Stands.length_le {log : List (Call σ × Except Error Unit)} {stage : Opening}
    (h : Stands log stage) : log.length ≤ 2 := by
  cases h <;> simp

/-- With one call less to go each time, an opening comes to its end. -/
theorem Stands.follow (answer : Call Empty → Except Error Unit) {log : List (Call Empty × Except Error Unit)}
    {stage : Opening} {c : Call Empty} (h : Stands log stage) (hc : stage.call? = some c) {fuel : Nat}
    (hfuel : 3 ≤ fuel + log.length) :
    let rest := Opening.follow answer fuel stage (answer c)
    let calls := log ++ (c :: rest.calls).map fun call => (call, answer call)
    (rest.outcome = .ok () ∧ calls = [(.begin, .ok ())]) ∨
      ∃ e, rest.outcome = .error e ∧ Refused (.ok ()) calls e := by
  induction fuel generalizing log stage c with
  | zero =>
    have hlength := h.length_le
    omega
  | succ fuel ih =>
    intro rest calls
    have hleads := h.settle hc (answer c)
    rcases hsettle : stage.settle (answer c) with ⟨records, next⟩
    rw [hsettle] at hleads
    simp only [rest, calls, Opening.follow, hsettle]
    cases hleads with
    | @call stage' call hstands hcall =>
      rw [plain_eq] at hcall
      have hrest := ih hstands hcall (by simp; omega)
      simpa using hrest
    | opened hlog => exact .inl ⟨rfl, by simpa using hlog⟩
    | failed hrefused => exact .inr ⟨_, rfl, by simpa using hrefused⟩

theorem attempted (acquired : Except Error Unit) (answer : Call Empty → Except Error Unit) :
    Attempted acquired answer (attempt acquired answer) := by
  cases acquired with
  | error e =>
    have hrefused : (attempt (.error e) answer).calls = [] ∧ (attempt (.error e) answer).outcome =
        .error (if e.isAcquire || !e.isOrdinary then e else .acquireFailed e) := by
      cases h : e.isAcquire || !e.isOrdinary <;> simp [attempt, Opening.follow, Opening.settle, h]
    constructor
    case begun => simp [hrefused.2]
    case refused =>
      intro e' he'
      rw [hrefused.2] at he'
      cases he'
      rw [hrefused.1]
      exact .unobtained e
  | ok =>
    have hstands : Stands ([] : List (Call Empty × Except Error Unit)) beginning := .beginning
    have hcourse := hstands.follow answer rfl (Nat.le_refl 3)
    have houtcome : (attempt (.ok ()) answer).outcome = (follow answer 3 beginning (answer .begin)).outcome := rfl
    constructor
    case begun =>
      intro hok
      rcases hcourse with ⟨-, hcalls⟩ | ⟨e, herror, -⟩
      · exact ⟨rfl, hcalls⟩
      · rw [houtcome, herror] at hok
        cases hok
    case refused =>
      intro e he
      rcases hcourse with ⟨hok, -⟩ | ⟨e', herror, hrefused⟩
      · rw [houtcome, hok] at he
        cases he
      · rw [houtcome, herror] at he
        cases he
        exact hrefused

end Opening

namespace Ledger

/-! What the openings of a run come to -/

/-- The input is about the opening in the slot. -/
def Input.opens (k : Nat) : Input σ ρ → Bool
  | .acquired slot _ | .settle slot _ _ => slot == k
  | _ => false

/-- What the source answers by an input. -/
def obtained (l : Ledger σ ρ) : Input σ ρ → Option (Except Error Nat)
  | .acquired slot c =>
    match l.slots[slot]? with
    | some .acquiring => some (.ok c)
    | _ => none
  | .settle slot (.error e) _ =>
    match l.slots[slot]? with
    | some .acquiring => some (.error e)
    | _ => none
  | _ => none

/-- What an opening has met with: the answers of the source, the calls that have ended and those that
were begun, each with its connection. -/
structure Course (σ : Type) where
  obtained : List (Except Error Nat) := []
  log : List (Nat × Call σ × Except Error Unit) := []
  calls : List (Nat × Call σ) := []

namespace Course

/-- The source gave one connection, and there are no calls but on that one; the last may be under way. -/
def on (c : Nat) (log : List (Call σ × Except Error Unit)) (calling : Option (Call σ)) : Course σ where
  obtained := [.ok c]
  log := log.map (c, ·)
  calls := (log.map Prod.fst ++ calling.toList).map (c, ·)

def add (course : Course σ) (m : Moment σ ρ) : Course σ where
  obtained := course.obtained ++ (m.before.obtained m.input).toList
  log := course.log ++ m.answered.toList
  calls := course.calls ++ m.calls

end Course

/-- The course of the opening in the slot. -/
def History.course (h : History σ ρ) (k : Nat) : Course σ :=
  let own := h.filter fun m => m.input.opens k
  ⟨own.filterMap fun m => m.before.obtained m.input, own.filterMap Moment.answered, own.flatMap Moment.calls⟩

/-- What is known of a slot from the course of its opening. -/
inductive Follows (course : Course σ) : Option (Slot σ ρ) → Prop
  | absent : course = {} → Follows course none
  | acquiring : course = {} → Follows course (some .acquiring)
  | opening {c : Nat} {log : List (Call σ × Except Error Unit)} {stage : Opening} : stage.Stands log →
      course = .on c log stage.call? → Follows course (some (.opening c stage))
  | leased {lease : Lease σ ρ} : Follows course (some (.leased lease))
  | failed : Follows course (some .failed)

/-- An opening ends with this error: the source had no connection, or its connection was refused. -/
inductive Course.Fails (course : Course σ) (e : Error) : Prop
  | unobtained (e' : Error) : course = { obtained := [.error e'] } → Refused (σ := σ) (.error e') [] e →
      Fails course e
  | refused (c : Nat) (log : List (Call σ × Except Error Unit)) : course = .on c log none →
      Refused (.ok ()) log e → Fails course e

variable {l : Ledger σ ρ} {i : Input σ ρ} {h : History σ ρ} {course : Course σ} {m : Moment σ ρ} {k c : Nat}

theorem course_concat : History.course (h ++ [m]) k =
    if m.input.opens k then (h.course k).add m else h.course k := by
  cases hopens : m.input.opens k with
  | true =>
    cases hobtained : m.before.obtained m.input <;> cases hanswered : m.answered <;>
      simp [History.course, Course.add, hopens, hobtained, hanswered]
  | false => simp [History.course, hopens]

/-- What a moment brings for the opening that it is about. -/
structure Course.Brings (course : Course σ) (m : Moment σ ρ) (k : Nat) : Prop where
  failed : ∀ e, .failed e ∈ m.effects → course.Fails e ∧ m.after.slots[k]? = some .failed
  began : ∀ c, .began c ∈ m.effects → course = .on c [(.begin, .ok ())] none ∧
    ∃ id, m.after.slots[k]? = some (.leased ⟨{ id }, c⟩)

theorem sets_apart {new : Slot σ ρ} {n : Ledger σ ρ} {j : Nat} (hsets : Sets l n j new) (hne : k ≠ j) :
    n.slots[k]? = l.slots[k]? := by
  rw [hsets k, if_neg hne]

theorem proceed_apart {old : Slot σ ρ} {j : Nat} {connection : Option Nat} {id : String}
    {settled : List Log.Record × Opening.Next} (hj : l.slots[j]? = some old) (hne : k ≠ j) :
    (l.proceed j connection id settled).1.slots[k]? = l.slots[k]? := by
  have hcases : (l.proceed j connection id settled).1 = l ∨
      ∃ new, Sets l (l.proceed j connection id settled).1 j new ∧ IsFresh new := proceed_sets hj
  rcases hcases with hsame | ⟨new, hsets, -⟩
  · rw [hsame]
  · exact sets_apart hsets hne

/-- What is not about the opening leaves what is known of its slot. -/
theorem follows_apart (hfollows : Follows course l.slots[k]?) (hopens : i.opens k = false) :
    Follows course (l.step i).1.slots[k]? := by
  cases i with
  | begin =>
    simp only [step, sets_append k]
    split
    · subst k
      rw [List.getElem?_eq_none (Nat.le_refl _)] at hfollows
      cases hfollows with
      | absent hempty => exact .acquiring hempty
    · exact hfollows
  | wrap c id =>
    simp only [step, sets_append k]
    split
    · exact .leased
    · exact hfollows
  | acquired slot c =>
    have hne : k ≠ slot := by rintro rfl; simp [Input.opens] at hopens
    simp only [step]
    split
    · rename_i hslot
      rwa [proceed_apart hslot hne]
    · exact hfollows
  | settle slot outcome id =>
    have hne : k ≠ slot := by rintro rfl; simp [Input.opens] at hopens
    simp only [step]
    split
    · rename_i hslot
      rwa [proceed_apart hslot hne]
    · rename_i hslot
      rwa [proceed_apart hslot hne]
    · exact hfollows
  | session slot j =>
    simp only [step]
    split
    · rename_i lease hlease
      rw [sets_put (lease?_eq_some_iff.mp hlease) k]
      split
      · exact .leased
      · exact hfollows
    · exact hfollows

/-- An input that meets nothing that waits for it. -/
theorem brings_idle (hfollows : Follows course l.slots[k]?) (hstep : l.step i = (l, []))
    (hobtained : l.obtained i = none) (hanswered : l.answered i = none) :
    Follows (course.add (l.moment i)) (l.step i).1.slots[k]? ∧
      Course.Brings (course.add (l.moment i)) (l.moment i) k := by
  have hadd : course.add (l.moment i) = course := by
    simp [Course.add, moment, Moment.answered, Moment.calls, hobtained, hanswered, hstep]
  rw [hadd, hstep]
  refine ⟨hfollows, ⟨fun e he => ?_, fun c hc => ?_⟩⟩
  · simp [moment, hstep] at he
  · simp [moment, hstep] at hc

/-- An input that moves the opening: records are logged, and at last it is asked for something or ends. -/
theorem brings_moved {old new : Slot σ ρ} {records : List Log.Record} {last : List (Effect σ ρ)}
    (hslot : l.slots[k]? = some old) (hstep : l.step i = (l.put k new, records.map .log ++ last))
    (hfollows : Follows course (some new))
    (hfailed : ∀ e, .failed e ∈ last → course.Fails e ∧ new = .failed)
    (hbegan : ∀ c, .began c ∈ last → course = .on c [(.begin, .ok ())] none ∧
      ∃ id, new = .leased ⟨{ id }, c⟩) :
    Follows course (l.step i).1.slots[k]? ∧ Course.Brings course (l.moment i) k := by
  have hnew : (l.put k new).slots[k]? = some new := by rw [sets_put hslot k, if_pos rfl]
  rw [hstep, hnew]
  refine ⟨hfollows, ⟨fun e he => ?_, fun c hc => ?_⟩⟩
  · have he : .failed e ∈ last := by simpa [moment, hstep] using he
    obtain ⟨hfails, rfl⟩ := hfailed e he
    exact ⟨hfails, by simpa [moment, hstep] using hnew⟩
  · have hc : .began c ∈ last := by simpa [moment, hstep] using hc
    obtain ⟨hcourse, id, rfl⟩ := hbegan c hc
    exact ⟨hcourse, id, by simpa [moment, hstep] using hnew⟩

theorem brings_acquired (hslot : l.slots[k]? = some .acquiring) (c : Nat) :
    Follows (Course.add {} (l.moment (.acquired k c))) (l.step (.acquired k c)).1.slots[k]? ∧
      Course.Brings (Course.add {} (l.moment (.acquired k c))) (l.moment (.acquired k c)) k := by
  have hstep : l.step (.acquired k c) =
      (l.put k (.opening c .beginning), [].map .log ++ [.call c .begin]) := by
    simp only [step, hslot]
    rfl
  have hadd : Course.add {} (l.moment (.acquired k c)) =
      Course.on c [] (Opening.call? (σ := σ) .beginning) := by
    simp [Course.add, Course.on, moment, Moment.answered, Moment.calls, obtained, hslot, hstep, answered,
      Opening.call?]
  rw [hadd]
  exact brings_moved hslot hstep (.opening .beginning rfl) (by simp) (by simp)

/-- The source has no connection to give. -/
theorem brings_unobtained (hslot : l.slots[k]? = some .acquiring) (e : Error) (id : String) :
    Follows (Course.add {} (l.moment (.settle k (.error e) id))) (l.step (.settle k (.error e) id)).1.slots[k]? ∧
      Course.Brings (Course.add {} (l.moment (.settle k (.error e) id))) (l.moment (.settle k (.error e) id)) k := by
  obtain ⟨records, hsettle⟩ : ∃ records, Opening.acquiring.settle (.error e) =
      (records, .failed (if e.isAcquire || !e.isOrdinary then e else .acquireFailed e)) := by
    simp only [Opening.settle]
    split <;> exact ⟨_, rfl⟩
  have hstep : l.step (.settle k (.error e) id) = (l.put k .failed, records.map .log ++
      [.failed (if e.isAcquire || !e.isOrdinary then e else .acquireFailed e)]) := by
    simp only [step, hslot, hsettle, proceed]
  have hadd : Course.add {} (l.moment (.settle k (.error e) id)) = { obtained := [.error e] } := by
    simp [Course.add, moment, Moment.answered, Moment.calls, obtained, hslot, hstep, answered]
  rw [hadd]
  refine brings_moved hslot hstep .failed (fun e' he' => ⟨?_, rfl⟩) (by simp)
  cases List.mem_singleton.mp he'
  exact .unobtained e rfl (.unobtained e)

/-- The connection answers a call of the opening. -/
theorem brings_opening {stage : Opening} {log : List (Call σ × Except Error Unit)}
    (hslot : l.slots[k]? = some (.opening c stage)) (hstands : stage.Stands log)
    (outcome : Except Error Unit) (id : String) :
    Follows ((Course.on c log stage.call?).add (l.moment (.settle k outcome id)))
        (l.step (.settle k outcome id)).1.slots[k]? ∧
      Course.Brings ((Course.on c log stage.call?).add (l.moment (.settle k outcome id)))
        (l.moment (.settle k outcome id)) k := by
  obtain ⟨call, hcall⟩ : ∃ call : Call σ, stage.call? = some call := by cases hstands <;> exact ⟨_, rfl⟩
  have hanswered : l.answered (.settle k outcome id) = some (c, call, outcome) := by
    simp [answered, hslot, hcall]
  have hobtained : l.obtained (.settle k outcome id) = none := by
    cases outcome <;> simp [obtained, hslot]
  -- the call has ended, and `calling` is the one that comes next
  have hadd (calling : Option (Call σ))
      (hcalls : (l.moment (.settle k outcome id)).calls = calling.toList.map (c, ·)) :
      (Course.on c log stage.call?).add (l.moment (.settle k outcome id)) =
        .on c (log ++ [(call, outcome)]) calling := by
    have hentry : (l.moment (.settle k outcome id)).answered = some (c, call, outcome) := hanswered
    have hnone : (l.moment (.settle k outcome id)).before.obtained (.settle k outcome id) = none := hobtained
    have hinput : (l.moment (.settle k outcome id)).input = .settle k outcome id := rfl
    simp [Course.add, Course.on, hcall, hcalls, hentry, hnone, hinput]
  have hleads := hstands.settle hcall outcome
  rcases hsettle : stage.settle outcome with ⟨records, next⟩
  rw [hsettle] at hleads
  cases hleads with
  | @call stage' call' hstands' hcall' =>
    have hstep : l.step (.settle k outcome id) =
        (l.put k (.opening c stage'), records.map .log ++ [.call c call'.plain]) := by
      simp only [step, hslot, hsettle, proceed]
    rw [hadd stage'.call? (by simp [Moment.calls, moment, hstep, hcall'])]
    exact brings_moved hslot hstep (.opening hstands' rfl) (by simp) (by simp)
  | opened hlog =>
    have hstep : l.step (.settle k outcome id) = (l.put k (.leased ⟨{ id }, c⟩),
        records.map .log ++ [.log (Opening.began id), .began c]) := by
      simp only [step, hslot, hsettle, proceed]
    rw [hadd none (by simp [Moment.calls, moment, hstep, List.filterMap_cons]), hlog]
    refine brings_moved hslot hstep .leased (by simp) fun d hd => ?_
    obtain rfl : d = c := by simpa using hd
    exact ⟨rfl, id, rfl⟩
  | @failed e hrefused =>
    have hstep : l.step (.settle k outcome id) = (l.put k .failed, records.map .log ++ [.failed e]) := by
      simp only [step, hslot, hsettle, proceed]
    rw [hadd none (by simp [Moment.calls, moment, hstep, List.filterMap_cons])]
    refine brings_moved hslot hstep .failed (fun e' he' => ⟨?_, rfl⟩) (by simp)
    cases List.mem_singleton.mp he'
    exact .refused c _ rfl hrefused

theorem follows_brings (hfollows : Follows course l.slots[k]?) (hopens : i.opens k = true) :
    Follows (course.add (l.moment i)) (l.step i).1.slots[k]? ∧
      Course.Brings (course.add (l.moment i)) (l.moment i) k := by
  cases i with
  | acquired slot c =>
    obtain rfl : slot = k := by simpa [Input.opens] using hopens
    rcases hslot : l.slots[slot]? with _ | (_ | _ | _ | _)
    case some.acquiring =>
      rw [hslot] at hfollows
      cases hfollows with
      | acquiring hempty =>
        subst hempty
        exact brings_acquired hslot c
    all_goals exact brings_idle hfollows (by simp [step, hslot]) (by simp [obtained, hslot]) rfl
  | settle slot outcome id =>
    obtain rfl : slot = k := by simpa [Input.opens] using hopens
    rcases hslot : l.slots[slot]? with _ | (_ | ⟨c, stage⟩ | _ | _)
    case some.acquiring =>
      cases outcome with
      | ok =>
        exact brings_idle hfollows (by simp [step, hslot, proceed, Opening.settle]) rfl (by simp [answered, hslot])
      | error e =>
        rw [hslot] at hfollows
        cases hfollows with
        | acquiring hempty =>
          subst hempty
          exact brings_unobtained hslot e id
    case some.opening =>
      rw [hslot] at hfollows
      cases hfollows with
      | opening hstands hcourse =>
        subst hcourse
        exact brings_opening hslot hstands outcome id
    all_goals
      exact brings_idle hfollows (by simp [step, hslot]) (by cases outcome <;> simp [obtained, hslot])
        (by simp [answered, hslot])
  | _ => cases hopens

theorem follows_history (inputs : List (Input σ ρ)) (k : Nat) :
    Follows ((({} : Ledger σ ρ).history inputs).course k) (({} : Ledger σ ρ).after inputs).slots[k]? := by
  induction inputs using List.reverseRecOn with
  | nil => exact .absent rfl
  | append_singleton rest i ih =>
    rw [after_append, history_append]
    change Follows (History.course (_ ++ [moment _ i]) k) _
    cases hopens : i.opens k with
    | true =>
      rw [course_concat, if_pos (show (moment _ i).input.opens k = true from hopens)]
      exact (follows_brings ih hopens).1
    | false =>
      rw [course_concat, if_neg (by simp [moment, hopens])]
      exact follows_apart ih hopens

theorem history_split {inputs : List (Input σ ρ)} {pre post : History σ ρ}
    (h : l.history inputs = pre ++ m :: post) : ∃ xs i, pre = l.history xs ∧ m = (l.after xs).moment i := by
  induction inputs generalizing l pre with
  | nil => simp [history] at h
  | cons i rest ih =>
    cases pre with
    | nil =>
      rw [history, List.nil_append, List.cons.injEq] at h
      exact ⟨[], i, rfl, h.1.symm⟩
    | cons n pre =>
      rw [history, List.cons_append, List.cons.injEq] at h
      obtain ⟨xs, j, hpre, hm⟩ := ih h.2
      exact ⟨i :: xs, j, by rw [history, ← hpre, h.1], hm⟩

theorem brings_history (inputs : List (Input σ ρ)) {pre post : History σ ρ}
    (hsplit : ({} : Ledger σ ρ).history inputs = pre ++ m :: post) (hopens : m.input.opens k = true) :
    Course.Brings (History.course (pre ++ [m]) k) m k := by
  obtain ⟨xs, i, rfl, rfl⟩ := history_split hsplit
  rw [course_concat, if_pos hopens]
  exact (follows_brings (follows_history xs k) hopens).2

/-- What has come, in a run, of the call to begin a session that has the slot: a failure of it is
reported or a session begun with the last of the moments `pre ++ [m]`. -/
structure Begins (h : History σ ρ) (k : Nat) : Prop where
  refused : ∀ (pre post : History σ ρ) (m : Moment σ ρ) (e : Error), h = pre ++ m :: post →
    m.input.opens k = true → .failed e ∈ m.effects →
      (History.course (pre ++ [m]) k).Fails e ∧ m.after.slots[k]? = some .failed
  /-- If nothing has failed but by an ordinary error, the connection is back before that is reported. -/
  handed_back : ∀ (pre post : History σ ρ) (m : Moment σ ρ) (e : Error) (c : Nat), h = pre ++ m :: post →
    m.input.opens k = true → .failed e ∈ m.effects → .ok c ∈ (History.course (pre ++ [m]) k).obtained →
      (∀ entry ∈ (History.course (pre ++ [m]) k).log, ∀ e', entry.2.2 = .error e' → e'.isOrdinary = true) →
        ∃ (cause : Error) (back : List (Call σ × Except Error Unit)),
          History.course (pre ++ [m]) k = .on c ((.begin, .error cause) :: back) none ∧ GivenBack back ∧
            e = .beginFailed cause
  began : ∀ (pre post : History σ ρ) (m : Moment σ ρ) (c : Nat), h = pre ++ m :: post →
    m.input.opens k = true → .began c ∈ m.effects →
      History.course (pre ++ [m]) k = .on c [(.begin, .ok ())] none ∧
        ∃ id, m.after.slots[k]? = some (.leased ⟨{ id }, c⟩)

/-- A call to begin a session ends with a session on its connection or with an error, and hands the
connection back as far as no failure comes in between that is no ordinary error. -/
theorem begun_or_refused (acquired : Except Error Unit) (answer : Call Empty → Except Error Unit)
    (inputs : List (Input σ ρ)) (k : Nat) :
    Opening.Attempted acquired answer (Opening.attempt acquired answer) ∧
      Begins (({} : Ledger σ ρ).history inputs) k := by
  refine ⟨Opening.attempted acquired answer, ?_⟩
  constructor
  case refused =>
    intro pre post m e hsplit hopens he
    exact (brings_history inputs hsplit hopens).failed e he
  case handed_back =>
    intro pre post m e c hsplit hopens he hc hordinary
    obtain ⟨hfails, -⟩ := (brings_history inputs hsplit hopens).failed e he
    cases hfails with
    | unobtained e' hcourse => simp [hcourse] at hc
    | refused d log hcourse hrefused =>
      obtain rfl : c = d := by simpa [hcourse, Course.on] using hc
      obtain ⟨cause, back, rfl, hback, rfl⟩ := hrefused.handed_back fun entry hentry =>
        hordinary (c, entry) (by simpa [hcourse, Course.on] using hentry)
      exact ⟨cause, back, hcourse, hback, rfl⟩
  case began =>
    intro pre post m c hsplit hopens hc
    exact (brings_history inputs hsplit hopens).began c hc

/-- Three sessions are to be begun at once: the source has nothing for the first, the store refuses the
second, whose connection can be neither released nor discarded, and the third is begun. -/
def arrivals : List (Input Unit Unit) :=
  let broken : Except Error Unit := .error (.given .driver [] none)
  [.begin, .begin, .begin, .acquired 1 7, .settle 0 broken "", .acquired 2 8, .settle 1 broken "",
    .settle 1 broken "", .settle 2 (.ok ()) "s", .settle 1 broken ""]

theorem begun_or_refused_arrivals :
    Opening.Attempted (.ok ()) (fun _ => .error .cancelled)
        (Opening.attempt (.ok ()) fun _ => .error .cancelled) ∧
      Begins (({} : Ledger Unit Unit).history arrivals) 1 ∧
      (({} : Ledger Unit Unit).history arrivals).course 0 =
        { obtained := [.error (.given .driver [] none)] } ∧
      (({} : Ledger Unit Unit).history arrivals).course 1 =
        .on 7 [(.begin, .error (.given .driver [] none)), (.release, .error (.given .driver [] none)),
          (.discard, .error (.given .driver [] none))] none ∧
      (({} : Ledger Unit Unit).history arrivals).course 2 = .on 8 [(.begin, .ok ())] none := by
  have hbegun := begun_or_refused (.ok ()) (fun _ => .error .cancelled) arrivals 1
  exact ⟨hbegun.1, hbegun.2, rfl, rfl, rfl⟩

/-- The begin is cancelled after the source has given its connection. -/
def abandoned : List (Input Unit Unit) :=
  [.begin, .acquired 0 7, .settle 0 (.error .cancelled) ""]

/-- A connection that was acquired is not handed back, and there is no session on it. -/
theorem unreturned_abandoned :
    (¬ ∀ (answer : Call Empty → Except Error Unit) (e : Error),
        (Opening.attempt (.ok ()) answer).outcome = .error e →
          .release ∈ (Opening.attempt (.ok ()) answer).calls) ∧
      (({} : Ledger Unit Unit).after abandoned).slots[0]? = some .failed ∧
      (({} : Ledger Unit Unit).history abandoned).arrived = [7] ∧
      (({} : Ledger Unit Unit).history abandoned).calls 7 = [.begin] ∧
      (({} : Ledger Unit Unit).history abandoned).course 0 =
        .on 7 [(.begin, .error .cancelled)] none := by
  refine ⟨fun hall => ?_, rfl, rfl, rfl, rfl⟩
  have hreleased := hall (fun _ => .error .cancelled) .cancelled rfl
  exact absurd hreleased (by decide)

end Ledger
end Transact
