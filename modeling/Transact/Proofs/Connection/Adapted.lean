import Transact.Connection
import Transact.Proofs.Database.Reliability

/-! A store behind adapted connections: each call goes to the points that the adapter takes it to. Where the points
keep what a store must keep, so do the calls. -/
namespace Transact

variable {ω : Type}

def Call.map {σ τ : Type} (f : σ → τ) : Call σ → Call τ
  | .begin => .begin
  | .execute s => .execute (f s)
  | .commit => .commit
  | .rollback => .rollback
  | .release => .release
  | .discard => .discard

namespace Connection

/-- A call that goes to one point is answered as that point answers. -/
theorem perform_once (answer : Point → ω → Except Error Unit × ω) {c : Connection} {call : Call Query} {p : Point}
    {q : Option Query} (hstart : c.start call = .ok { point := p, query := q }) (hpoint : p ≠ .invalidate) (w : ω) :
    (c.perform answer call w).2 = answer p w := by
  have hsettle (outcome : Except Error Unit) :
      ∃ d, c.settle { point := p, query := q } outcome = (d, .answered outcome) := by
    cases p with
    | invalidate => exact absurd rfl hpoint
    | close => cases outcome <;> exact ⟨_, rfl⟩
    | _ => exact ⟨_, rfl⟩
  obtain ⟨d, hd⟩ := hsettle (answer p w).1
  simp only [perform, hstart, finish, hd]

/-- A connection that is discarded is closed whether or not it could be invalidated, and the failure that is told is
that of one of the two. -/
theorem perform_discard (answer : Point → ω → Except Error Unit × ω) {c : Connection} (hc : c.adapted = true) (w : ω) :
    (c.perform answer .discard w).2 =
      (closeOutcome (failureOf (answer .invalidate w).1) (answer .close (answer .invalidate w).2).1,
        (answer .close (answer .invalidate w).2).2) := by
  have hstart : c.start .discard = .ok { point := .invalidate } := by simp only [start, hc, if_true]
  simp only [perform, hstart, finish]
  rfl

end Connection

/-- A store as its points answer. A statement comes with its own; what the others return means nothing. -/
structure RawStore (ω : Type) where
  reach : Nat → Point → Option Sql.Statement → ω → Except Error Sql.Result × ω

namespace RawStore

variable {raw : RawStore ω} {a : Account ω} {word : Sql.Statement → Query} {c other : Nat}
  {call : Call Sql.Statement} {outcome : Except Error Sql.Result} {w w' : ω}

/-- The point's answer as the adapter gets to know it, which hands on what a statement returned. -/
def answer (raw : RawStore ω) (c : Nat) (s : Option Sql.Statement) (p : Point) (x : ω × Except Error Sql.Result) :
    Except Error Unit × ω × Except Error Sql.Result :=
  let (outcome, w) := raw.reach c p s x.1
  (outcome.map fun _ => (), w, outcome)

/-- A connection is adapted anew for the session that begins on it. -/
def link (kept : RawTransaction) : Call Sql.Statement → Connection
  | .begin => { adapted := true }
  | _ => { adapted := true, transaction := kept }

/-- The store with, for each connection, the transaction that its adapter keeps. Statements are worded for the
adapter, which takes them as they are. -/
def adapted (raw : RawStore ω) (word : Sql.Statement → Query) : Store (ω × (Nat → RawTransaction)) where
  call c call x :=
    let (connection, outcome, w, answer) :=
      (link (x.2 c) call).perform (raw.answer c call.statement?) (call.map word) (x.1, .ok {})
    (outcome.bind fun _ => answer, w, Function.update x.2 c connection.transaction)

/-- The point that a call goes to, with its statement, if it goes to one only. -/
inductive Leads : Call Sql.Statement → Point → Option Sql.Statement → Prop
  | begin : Leads .begin .begin none
  | execute (s : Sql.Statement) : Leads (.execute s) .execute (some s)
  | commit : Leads .commit .transactionCommit none
  | rollback : Leads .rollback .transactionRollback none
  /-- Of a transaction that is not active, the connection drops what there is. -/
  | inactive : Leads .rollback .rollback none
  | release : Leads .release .close none

/-- What the points make of a call. -/
inductive Reached (raw : RawStore ω) (c : Nat) (w : ω) : Call Sql.Statement → Except Error Sql.Result → ω → Prop
  | once {call : Call Sql.Statement} {p : Point} {s : Option Sql.Statement} {outcome : Except Error Sql.Result}
      {w' : ω} : Leads call p s → raw.reach c p s w = (outcome, w') → Reached raw c w call outcome w'
  /-- Nothing has begun that could be committed. -/
  | early : Reached raw c w .commit (.error .commitBeforeBegin) w
  | closed {earlier later outcome : Except Error Sql.Result} {v w' : ω} :
      raw.reach c .invalidate none w = (earlier, v) → raw.reach c .close none v = (later, w') →
      (∀ e, outcome = .error e → earlier = .error e ∨ later = .error e) → Reached raw c w .discard outcome w'

theorem reached_once {p : Point} {q : Option Query} (kept : Nat → RawTransaction)
    (hleads : Leads call p call.statement?)
    (hstart : (link (kept c) call).start (call.map word) = .ok { point := p, query := q }) :
    raw.Reached c w call ((raw.adapted word).call c call (w, kept)).1 ((raw.adapted word).call c call (w, kept)).2.1 := by
  have hpoint : p ≠ .invalidate := by
    rintro rfl
    cases hleads
  have hperform := Connection.perform_once (raw.answer c call.statement?) hstart hpoint (w, .ok {})
  rcases hreach : raw.reach c p call.statement? w with ⟨outcome, w'⟩
  refine .once hleads ?_
  simp only [adapted, hperform, answer, hreach]
  cases outcome <;> rfl

theorem reached_early {kept : Nat → RawTransaction} (habsent : kept c = .absent) :
    raw.Reached c w .commit
      ((raw.adapted word).call c .commit (w, kept)).1 ((raw.adapted word).call c .commit (w, kept)).2.1 := by
  have hstart : (link (kept c) .commit).start .commit = .error .commitBeforeBegin := by
    simp only [link, Connection.start, habsent, if_true]
  have hearly : (raw.adapted word).call c .commit (w, kept) =
      (.error .commitBeforeBegin, w, Function.update kept c (kept c)) := by
    simp only [adapted, Call.map, Connection.perform, hstart]
    rfl
  rw [hearly]
  exact .early

theorem reached_discard (kept : Nat → RawTransaction) :
    raw.Reached c w .discard
      ((raw.adapted word).call c .discard (w, kept)).1 ((raw.adapted word).call c .discard (w, kept)).2.1 := by
  have hperform := Connection.perform_discard (raw.answer c none) (c := link (kept c) .discard) rfl (w, .ok {})
  rcases hinvalidate : raw.reach c .invalidate none w with ⟨earlier, v⟩
  rcases hclose : raw.reach c .close none v with ⟨later, w'⟩
  have hworld : ((raw.adapted word).call c .discard (w, kept)).2.1 = w' := by
    simp only [adapted, Call.map, Call.statement?, hperform, answer, hinvalidate, hclose]
  rw [hworld]
  refine .closed hinvalidate hclose fun e he => ?_
  simp only [adapted, Call.map, Call.statement?, hperform, answer, hinvalidate, hclose] at he
  cases later with
  | error => exact .inr he
  | ok =>
    cases earlier with
    | error => exact .inl he
    | ok => cases he

theorem reached (raw : RawStore ω) (word : Sql.Statement → Query) (c : Nat) (call : Call Sql.Statement)
    (x : ω × (Nat → RawTransaction)) : raw.Reached c x.1 call
      ((raw.adapted word).call c call x).1 ((raw.adapted word).call c call x).2.1 := by
  obtain ⟨w, kept⟩ := x
  cases call with
  | begin => exact reached_once kept .begin rfl
  | execute s => exact reached_once kept (.execute s) rfl
  | commit =>
    by_cases habsent : kept c = .absent
    · exact reached_early habsent
    · refine reached_once (q := none) kept .commit ?_
      simp only [link, Call.map, Connection.start, habsent, if_true, if_false]
  | rollback =>
    by_cases hactive : kept c = .active
    · refine reached_once (q := none) kept .rollback ?_
      simp only [link, Call.map, Connection.start, hactive, if_true]
    · refine reached_once (q := none) kept .inactive ?_
      simp only [link, Call.map, Connection.start, hactive, if_true, if_false]
  | release => exact reached_once kept .release rfl
  | discard => exact reached_discard kept

/-- What the points of a store keep. A connection that is closed is handed out again only when what it had changed
has been dropped. -/
structure Lawful (raw : RawStore ω) (a : Account ω) : Prop where
  ordinary : ∀ {c : Nat} {p : Point} {w w' : ω} {e : Error}, raw.reach c p none w = (.error e, w') → p ≠ .execute →
    e.isOrdinary = true
  executed : ∀ {c : Nat} {s : Sql.Statement} {w w' : ω} {result : Sql.Result},
    raw.reach c .execute (some s) w = (.ok result, w') → s.apply (a.seen w c) = .ok (result, a.seen w' c)
  refused : ∀ {c : Nat} {s : Sql.Statement} {w w' : ω} {e : Error},
    raw.reach c .execute (some s) w = (.error e, w') → a.seen w' c = a.seen w c
  answers : ∀ (c : Nat) (s : Sql.Statement) (w : ω), s.isQuestion = true → s.IsBound →
    ∃ result, (raw.reach c .execute (some s) w).1 = .ok result
  unpublished : ∀ {c : Nat} {p : Point} {s : Option Sql.Statement} {w w' : ω} {outcome : Except Error Sql.Result},
    raw.reach c p s w = (outcome, w') → p ≠ .commit → p ≠ .transactionCommit → a.committed w' = a.committed w
  commits : ∀ {c : Nat} {w w' : ω} {result : Sql.Result}, raw.reach c .transactionCommit none w = (.ok result, w') →
    a.committed w' = a.seen w c ∧ a.pending w' c = none
  refuses : ∀ {c : Nat} {w w' : ω} {e : Error}, raw.reach c .transactionCommit none w = (.error e, w') →
    a.committed w' = a.committed w
  rollsBack : ∀ {c : Nat} {p : Point} {w w' : ω} {result : Sql.Result}, p = .transactionRollback ∨ p = .rollback →
    raw.reach c p none w = (.ok result, w') → a.pending w' c = none
  hands : ∀ {c : Nat} {p : Point} {w w' : ω} {outcome : Except Error Sql.Result}, p = .begin ∨ p = .close →
    raw.reach c p none w = (outcome, w') → a.pending w c = none → a.pending w' c = none
  resets : ∀ {c : Nat} {w w' : ω} {outcome : Except Error Sql.Result}, raw.reach c .close none w = (outcome, w') →
    a.isAvailable w' c → a.pending w' c = none
  others : ∀ {c other : Nat} {p : Point} {s : Option Sql.Statement} {w w' : ω} {outcome : Except Error Sql.Result},
    raw.reach c p s w = (outcome, w') → other ≠ c →
      a.pending w' other = a.pending w other ∧ (a.isAvailable w' other → a.isAvailable w other)

namespace Reached

variable {s : Sql.Statement} {result : Sql.Result} {e : Error}

theorem executed (h : raw.Reached c w (.execute s) outcome w') : raw.reach c .execute (some s) w = (outcome, w') := by
  cases h with
  | once hleads hreach =>
    cases hleads
    exact hreach

theorem committed (h : raw.Reached c w .commit outcome w') :
    raw.reach c .transactionCommit none w = (outcome, w') ∨ outcome = .error .commitBeforeBegin ∧ w' = w := by
  cases h with
  | once hleads hreach =>
    cases hleads
    exact .inl hreach
  | early => exact .inr ⟨rfl, rfl⟩

theorem ordinary (h : raw.Reached c w call outcome w') (hlaws : raw.Lawful a) (hcall : call.statement? = none)
    (he : outcome = .error e) : e.isOrdinary = true := by
  subst he
  cases h with
  | once hleads hreach =>
    cases hleads with
    | execute => cases hcall
    | _ => exact hlaws.ordinary hreach nofun
  | early => rfl
  | closed hinvalidate hclose hfailed =>
    rcases hfailed e rfl with rfl | rfl
    · exact hlaws.ordinary hinvalidate nofun
    · exact hlaws.ordinary hclose nofun

theorem unpublished (h : raw.Reached c w call outcome w') (hlaws : raw.Lawful a) (hcall : call ≠ .commit) :
    a.committed w' = a.committed w := by
  cases h with
  | once hleads hreach =>
    cases hleads with
    | commit => exact absurd rfl hcall
    | _ => exact hlaws.unpublished hreach nofun nofun
  | early => rfl
  | closed hinvalidate hclose =>
    exact (hlaws.unpublished hclose nofun nofun).trans (hlaws.unpublished hinvalidate nofun nofun)

theorem rolledBack (h : raw.Reached c w .rollback outcome w') (hlaws : raw.Lawful a) (hresult : outcome = .ok result) :
    a.pending w' c = none := by
  subst hresult
  cases h with
  | once hleads hreach =>
    cases hleads with
    | rollback => exact hlaws.rollsBack (.inl rfl) hreach
    | inactive => exact hlaws.rollsBack (.inr rfl) hreach

theorem handed (h : raw.Reached c w call outcome w') (hlaws : raw.Lawful a) (hcall : call = .begin ∨ call = .release)
    (hnone : a.pending w c = none) : a.pending w' c = none := by
  cases h with
  | once hleads hreach =>
    cases hleads with
    | begin => exact hlaws.hands (.inl rfl) hreach hnone
    | release => exact hlaws.hands (.inr rfl) hreach hnone
    | _ => simp at hcall
  | _ => simp at hcall

theorem discarded (h : raw.Reached c w .discard outcome w') (hlaws : raw.Lawful a) (havailable : a.isAvailable w' c) :
    a.pending w' c = none := by
  cases h with
  | once hleads => cases hleads
  | closed _ hclose => exact hlaws.resets hclose havailable

theorem others (h : raw.Reached c w call outcome w') (hlaws : raw.Lawful a) (hne : other ≠ c) :
    a.pending w' other = a.pending w other ∧ (a.isAvailable w' other → a.isAvailable w other) := by
  cases h with
  | once _ hreach => exact hlaws.others hreach hne
  | early => exact ⟨rfl, id⟩
  | closed hinvalidate hclose =>
    obtain ⟨hpending, havailable⟩ := hlaws.others hinvalidate hne
    obtain ⟨hpending', havailable'⟩ := hlaws.others hclose hne
    exact ⟨hpending'.trans hpending, havailable ∘ havailable'⟩

end Reached
end RawStore

/-- Adapters change nothing of what is told of a store. -/
def Account.adapted {κ : Type} (a : Account ω) : Account (ω × κ) where
  committed x := a.committed x.1
  pending x := a.pending x.1
  isAvailable x := a.isAvailable x.1

/-- A store whose points keep what they must is reliable behind its adapters. -/
theorem RawStore.Lawful.reliable {raw : RawStore ω} {a : Account ω} (h : raw.Lawful a) (word : Sql.Statement → Query) :
    (raw.adapted word).Reliable a.adapted where
  ordinary c call x e hcall he := (reached raw word c call x).ordinary h hcall he
  executed c s x result hresult := h.executed ((reached raw word c (.execute s) x).executed.trans (by rw [hresult]))
  refused c s x e he := h.refused ((reached raw word c (.execute s) x).executed.trans (by rw [he]))
  answers c s x hs hbound := by
    obtain ⟨result, hresult⟩ := h.answers c s x.1 hs hbound
    rw [(reached raw word c (.execute s) x).executed] at hresult
    exact ⟨result, hresult⟩
  unpublished c call x hcall := (reached raw word c call x).unpublished h hcall
  commits c x result hresult := by
    rcases (reached raw word c .commit x).committed with hreach | ⟨herror, -⟩
    · rw [hresult] at hreach
      exact h.commits hreach
    · cases hresult.symm.trans herror
  refuses c x e he := by
    rcases (reached raw word c .commit x).committed with hreach | ⟨-, hworld⟩
    · rw [he] at hreach
      exact h.refuses hreach
    · exact congrArg a.committed hworld
  rollsBack c x result hresult := (reached raw word c .rollback x).rolledBack h hresult
  hands c call x hcall hnone := (reached raw word c call x).handed h hcall hnone
  discards c x havailable := (reached raw word c .discard x).discarded h havailable
  others c other call x hne := (reached raw word c call x).others h hne

namespace Database

/-- The call that the database answers at a point. -/
def callAt (s : Option Sql.Statement) : Point → Option (Call Sql.Statement)
  | .begin => some .begin
  | .execute => s.map .execute
  | .commit | .transactionCommit => some .commit
  | .rollback | .transactionRollback => some .rollback
  | .release | .close => some .release
  | .discard | .invalidate => some .discard

def raw : RawStore Database where
  reach c p s d :=
    match callAt s p with
    | some call => d.call c call
    | none => (.ok {}, d)

variable {d d' : Database} {c : Nat} {p : Point} {s : Option Sql.Statement} {outcome : Except Error Sql.Result}

theorem reach_cases (h : raw.reach c p s d = (outcome, d')) :
    (outcome = .ok {} ∧ d' = d) ∨ ∃ call, callAt s p = some call ∧ Simulation.Shared.store.call c call d = (outcome, d') := by
  cases hcall : callAt s p with
  | none =>
    simp only [raw, hcall, Prod.mk.injEq] at h
    exact .inl ⟨h.1.symm, h.2.symm⟩
  | some call =>
    simp only [raw, hcall] at h
    exact .inr ⟨call, rfl, h⟩

theorem lawful : raw.Lawful account where
  ordinary {c p d d' e} h _ := by
    rcases reach_cases h with ⟨hok, -⟩ | ⟨call, hcall, h⟩
    · cases hok
    · have hbare : call.statement? = none := by cases p <;> cases hcall <;> rfl
      exact reliable.ordinary c call d e hbare (congrArg Prod.fst h)
  executed {c s d d' result} h := by
    obtain rfl : (d.execute c s).2 = d' := congrArg Prod.snd h
    exact reliable.executed c s d result (congrArg Prod.fst h)
  refused {c s d d' e} h := by
    obtain rfl : (d.execute c s).2 = d' := congrArg Prod.snd h
    exact reliable.refused c s d e (congrArg Prod.fst h)
  answers := reliable.answers
  unpublished {c p s d d' outcome} h hcommit htransaction := by
    rcases reach_cases h with ⟨-, rfl⟩ | ⟨call, hcall, h⟩
    · rfl
    · have hother : call ≠ .commit := by
        rintro rfl
        cases p with
        | execute => cases s <;> cases hcall
        | commit => exact hcommit rfl
        | transactionCommit => exact htransaction rfl
        | _ => cases hcall
      obtain rfl := congrArg Prod.snd h
      exact reliable.unpublished c call d hother
  commits {c d d' result} h := by
    obtain rfl : (d.commit c).2 = d' := congrArg Prod.snd h
    exact reliable.commits c d result (congrArg Prod.fst h)
  refuses {c d d' e} h := by
    obtain rfl : (d.commit c).2 = d' := congrArg Prod.snd h
    exact reliable.refuses c d e (congrArg Prod.fst h)
  rollsBack {c p d d' result} hp h := by
    have hfinish : d.finish c = d' := by rcases hp with rfl | rfl <;> exact congrArg Prod.snd h
    exact hfinish ▸ pending_finish
  hands {c p d d' outcome} hp h hnone := by
    rcases hp with rfl | rfl
    · obtain rfl : d = d' := congrArg Prod.snd h
      exact hnone
    · obtain rfl : d.finish c = d' := congrArg Prod.snd h
      exact pending_finish
  resets {c d d' outcome} h _ := by
    obtain rfl : d.finish c = d' := congrArg Prod.snd h
    exact pending_finish
  others {c other p s d d' outcome} h hne := by
    rcases reach_cases h with ⟨-, rfl⟩ | ⟨call, -, h⟩
    · exact ⟨rfl, id⟩
    · obtain rfl := congrArg Prod.snd h
      exact reliable.others c other call d hne

end Database
end Transact
