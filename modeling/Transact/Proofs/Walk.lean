import Mathlib.Data.List.Induction

/-! Systems that go on by steps: what they come to along a list of inputs, and each step on the way
with the state before it and the state after it. -/
namespace Transact

/-- One step of a run. -/
structure Move (S I E : Type) where
  before : S
  input : I
  effects : List E
  after : S

namespace Walk

variable {S I E : Type} {step : S → I → S × List E}

def move (step : S → I → S × List E) (s : S) (i : I) : Move S I E := ⟨s, i, (step s i).2, (step s i).1⟩

def after (step : S → I → S × List E) (s : S) : List I → S
  | [] => s
  | i :: rest => after step (step s i).1 rest

def history (step : S → I → S × List E) (s : S) : List I → List (Move S I E)
  | [] => []
  | i :: rest => move step s i :: history step (step s i).1 rest

theorem after_append (s : S) (xs ys : List I) :
    after step s (xs ++ ys) = after step (after step s xs) ys := by
  induction xs generalizing s with
  | nil => rfl
  | cons i rest ih => exact ih _

theorem history_append (s : S) (xs ys : List I) :
    history step s (xs ++ ys) = history step s xs ++ history step (after step s xs) ys := by
  induction xs generalizing s with
  | nil => rfl
  | cons i rest ih => exact congrArg (move step s i :: ·) (ih _)

/-- Every step of a run comes after a shorter run. -/
theorem history_split {s : S} {inputs : List I} {pre post : List (Move S I E)} {m : Move S I E}
    (h : history step s inputs = pre ++ m :: post) :
    ∃ xs i ys, inputs = xs ++ i :: ys ∧ pre = history step s xs ∧ m = move step (after step s xs) i := by
  induction inputs generalizing s pre with
  | nil => simp [history] at h
  | cons i rest ih =>
    cases pre with
    | nil =>
      rw [history, List.nil_append, List.cons.injEq] at h
      exact ⟨[], i, rest, rfl, rfl, h.1.symm⟩
    | cons n pre =>
      rw [history, List.cons_append, List.cons.injEq] at h
      obtain ⟨xs, j, ys, hinputs, hpre, hm⟩ := ih h.2
      refine ⟨i :: xs, j, ys, by rw [hinputs, List.cons_append], ?_, hm⟩
      rw [history, ← hpre, h.1]

theorem mem_history {s : S} {inputs : List I} {m : Move S I E} (h : m ∈ history step s inputs) :
    ∃ xs i ys, inputs = xs ++ i :: ys ∧ m = move step (after step s xs) i := by
  obtain ⟨pre, post, hsplit⟩ := List.append_of_mem h
  obtain ⟨xs, i, ys, hinputs, -, hm⟩ := history_split hsplit
  exact ⟨xs, i, ys, hinputs, hm⟩

/-- What holds at the start and is kept by every step holds of every run. -/
theorem run_induction {P : List (Move S I E) → S → Prop} {Q : I → Prop} {s : S} (start : P [] s)
    (step_keeps : ∀ {h s i}, Q i → P h s → P (h ++ [move step s i]) (step s i).1)
    (inputs : List I) (hok : ∀ i ∈ inputs, Q i) :
    P (history step s inputs) (after step s inputs) := by
  induction inputs using List.reverseRecOn with
  | nil => exact start
  | append_singleton rest i ih =>
    rw [after_append, history_append]
    exact step_keeps (hok i (by simp)) (ih fun j hj => hok j (List.mem_append_left _ hj))

end Walk
end Transact
