/-
  FormIntake — rules one after the other.

  A validation is a row of requirements, each with the defect that it reports;
  the first that fails decides.  `require_eq_ok` and `bind_eq_ok` turn a
  validation that passes into the conjunction of its requirements.
-/
import FormIntake.Validation.Error

namespace FormIntake.Validation

/-- The outcome of checking an answer. -/
abbrev Verdict := Except AnswerDefect Unit

/-- Report the defect unless the condition holds. -/
def require (condition : Bool) (defect : AnswerDefect) : Verdict :=
  if condition then .ok () else .error defect

@[simp] theorem require_eq_ok {c : Bool} {d : AnswerDefect} : require c d = .ok () ↔ c = true := by
  cases c <;> simp [require]

/-- A check that depends on the value found by another one passes iff the other
    finds a value and the check of that value passes. -/
theorem bind_eq_ok {ε α β : Type} {x : Except ε α} {f : α → Except ε β} {b : β} :
    (x >>= f) = .ok b ↔ ∃ a, x = .ok a ∧ f a = .ok b := by
  cases x with
  | error e => exact ⟨nofun, fun ⟨_, h, _⟩ => nomatch h⟩
  | ok a => exact ⟨fun h => ⟨a, rfl, h⟩, fun ⟨_, h, h'⟩ => by cases h; exact h'⟩

/-- A check of every item passes iff the check of each item does. -/
theorem forM_eq_ok {ε α : Type} {f : α → Except ε Unit} {xs : List α} :
    xs.forM f = .ok () ↔ ∀ x ∈ xs, f x = .ok () := by
  induction xs with
  | nil => simp [List.forM, pure, Except.pure]
  | cons x xs ih =>
    change (f x >>= fun _ => xs.forM f) = .ok () ↔ _
    rw [bind_eq_ok, List.forall_mem_cons, ← ih]
    exact ⟨fun ⟨_, h, h'⟩ => ⟨h, h'⟩, fun ⟨h, h'⟩ => ⟨(), h, h'⟩⟩

end FormIntake.Validation
