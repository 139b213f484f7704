/-! Computations that may fail, one after the other: what the success or the failure of the whole says of its parts. -/
namespace Transact

variable {ε α β : Type} {xs : List α}

theorem made_of_bind {x : Except ε α} {f : α → Except ε β} {b : β} (h : x >>= f = .ok b) :
    ∃ a, x = .ok a ∧ f a = .ok b := by
  cases x with
  | error e => cases h
  | ok a => exact ⟨a, rfl, h⟩

theorem mapM_ok {f : α → Except ε β} {g : α → β} (h : ∀ x ∈ xs, f x = .ok (g x)) : xs.mapM f = .ok (xs.map g) := by
  induction xs with
  | nil => rfl
  | cons x rest ih =>
    rw [List.mapM_cons, h x List.mem_cons_self, ih fun y hy => h y (List.mem_cons_of_mem _ hy)]
    rfl

theorem forM_ok_iff {f : α → Except ε Unit} : xs.forM f = .ok () ↔ ∀ x ∈ xs, f x = .ok () := by
  induction xs with
  | nil => simp [List.forM, pure, Except.pure]
  | cons x rest ih =>
    have hcons : (x :: rest).forM f = (f x >>= fun _ => rest.forM f) := rfl
    rw [hcons, List.forall_mem_cons]
    cases hx : f x with
    | error e => simp [Bind.bind, Except.bind]
    | ok => simpa [Bind.bind, Except.bind] using ih

theorem forM_error {f : α → Except ε Unit} {e : ε} (h : xs.forM f = .error e) : ∃ x ∈ xs, f x = .error e := by
  induction xs with
  | nil => cases h
  | cons x rest ih =>
    have hcons : (x :: rest).forM f = (f x >>= fun _ => rest.forM f) := rfl
    rw [hcons] at h
    cases hx : f x with
    | error e' =>
      rw [hx] at h
      cases h
      exact ⟨x, List.mem_cons_self, hx⟩
    | ok =>
      rw [hx] at h
      obtain ⟨y, hy, hf⟩ := ih h
      exact ⟨y, List.mem_cons_of_mem _ hy, hf⟩

/-- What every step keeps holds where all of them have succeeded. -/
theorem foldlM_induction {P : β → Prop} {f : β → α → Except ε β} {start result : β} (h : xs.foldlM f start = .ok result)
    (hstart : P start) (hstep : ∀ b x b', P b → f b x = .ok b' → P b') : P result := by
  induction xs generalizing start with
  | nil =>
    obtain rfl := Except.ok.inj h
    exact hstart
  | cons x rest ih =>
    rw [List.foldlM_cons] at h
    obtain ⟨next, hnext, h⟩ := made_of_bind h
    exact ih h (hstep start x next hstart hnext)

end Transact
