import Transact.Proofs.Ledger.Records
import Transact.Proofs.Session.Voice

/-! What every step of a ledger leaves as it is: the ids of its sessions, the jobs that they have, and
which of them are in their round of hooks, but for the one that is moved. -/
namespace Transact.Ledger

variable {σ ρ : Type} {l m n : Ledger σ ρ} {s j k : Nat} {id : String} {lease : Lease σ ρ}

def id? (l : Ledger σ ρ) (s : Nat) : Option String := (l.lease? s).map (·.session.id)

/-- The session has that job. -/
def Knows (l : Ledger σ ρ) (s j : Nat) : Prop :=
  ∃ lease job, l.lease? s = some lease ∧ lease.session.jobs[j]? = some job

def notifies (l : Ledger σ ρ) (s j : Nat) : Bool := ((l.lease? s).map (·.session.isNotifying j)).getD false

theorem id?_eq (h : l.lease? s = some lease) : l.id? s = some lease.session.id := by simp [id?, h]

theorem notifies_eq (h : l.lease? s = some lease) : l.notifies s j = lease.session.isNotifying j := by
  simp [notifies, h]

theorem Knows.id? (h : l.Knows s j) : ∃ id, l.id? s = some id := by
  obtain ⟨lease, job, hlease, -⟩ := h
  exact ⟨lease.session.id, id?_eq hlease⟩

structure Keeps (moved : Option (Nat × Nat)) (l m : Ledger σ ρ) : Prop where
  id : ∀ s id, l.id? s = some id → m.id? s = some id
  knows : ∀ s j, l.Knows s j → m.Knows s j
  notifies : ∀ s j, l.Knows s j → moved ≠ some (s, j) → m.notifies s j = l.notifies s j

theorem Keeps.refl (moved : Option (Nat × Nat)) (l : Ledger σ ρ) : Keeps moved l l :=
  ⟨fun _ _ h => h, fun _ _ h => h, fun _ _ _ _ => rfl⟩

theorem Keeps.trans (h : Keeps none l m) (h' : Keeps none m n) : Keeps none l n where
  id s id hid := h'.id s id (h.id s id hid)
  knows s j hknows := h'.knows s j (h.knows s j hknows)
  notifies s j hknows _ := by
    rw [h'.notifies s j (h.knows s j hknows) (by simp), h.notifies s j hknows (by simp)]

def Input.moved? : Input σ ρ → Option (Nat × Nat)
  | session s i => i.job?.map (s, ·)
  | _ => none

/-- Sessions are kept if each that is there is so, or is moved on by an input. -/
theorem keeps_of_leases {moved : Option (Nat × Nat)}
    (h : ∀ s lease, l.lease? s = some lease → m.lease? s = some lease ∨
      ∃ i, (∀ j, i.job? = some j → moved = some (s, j)) ∧
        m.lease? s = some { lease with session := (lease.session.step i).1 }) : Keeps moved l m where
  id s id hid := by
    obtain ⟨lease, hlease, rfl⟩ := Option.map_eq_some_iff.mp hid
    rcases h s lease hlease with hsame | ⟨i, -, hmoved⟩
    · exact id?_eq hsame
    · rw [id?_eq hmoved, Session.id_change (Session.step_change lease.session i)]
  knows s j hknows := by
    obtain ⟨lease, ⟨r, old⟩, hlease, hj⟩ := hknows
    rcases h s lease hlease with hsame | ⟨i, -, hmoved⟩
    · exact ⟨lease, _, hsame, hj⟩
    · obtain ⟨st, hst, -⟩ := Session.job_change (Session.step_change lease.session i) hj
      exact ⟨_, _, hmoved, hst⟩
  notifies s j hknows hne := by
    obtain ⟨lease, ⟨r, old⟩, hlease, hj⟩ := hknows
    rcases h s lease hlease with hsame | ⟨i, hi, hmoved⟩
    · rw [notifies_eq hsame, notifies_eq hlease]
    · have hstays := Session.job_stays (Session.step_change lease.session i) hj fun hmove => hne (hi j hmove)
      rw [notifies_eq hmoved, notifies_eq hlease, Session.isNotifying_eq hstays, Session.isNotifying_eq hj]

theorem lease?_session (hlease : l.lease? k = some lease) (i : Transact.Input σ ρ) :
    (l.step (.session k i)).1.lease? s =
      if s = k then some { lease with session := (lease.session.step i).1 } else l.lease? s := by
  simp only [step, hlease]
  exact lease?_sets (sets_put (lease?_eq_some_iff.mp hlease)) s

theorem step_keeps (l : Ledger σ ρ) (i : Input σ ρ) : Keeps i.moved? l (l.step i).1 := by
  by_cases hi : ∃ k x, i = .session k x
  · obtain ⟨k, x, rfl⟩ := hi
    cases hk : l.lease? k with
    | none =>
      have hstep : (l.step (.session k x)).1 = l := by simp [step, hk]
      rw [hstep]
      exact .refl _ l
    | some lease =>
      apply keeps_of_leases
      intro s lease' hlease
      rw [lease?_session hk]
      by_cases hs : s = k
      · subst hs
        obtain rfl := Option.some.inj (hk.symm.trans hlease)
        exact .inr ⟨x, fun j hj => by simp [Input.moved?, hj], if_pos rfl⟩
      · exact .inl (by rw [if_neg hs, hlease])
  · rcases step_opening fun k x h => hi ⟨k, x, h⟩ with hstep | ⟨k, new, hsets, hnone, -⟩
    · rw [hstep]
      exact .refl _ l
    · apply keeps_of_leases
      intro s lease hlease
      rw [lease?_sets hsets]
      by_cases hs : s = k
      · rw [hs, hnone] at hlease
        cases hlease
      · exact .inl (by rw [if_neg hs, hlease])

end Transact.Ledger
