/-
  FormIntake — cutting a text at a character.

  `splitFirst` cuts at the first occurrence only: what it returns, joined by
  that character, is the text again (`splitFirst_eq_some_iff`).
-/
namespace FormIntake.Text

/-- The characters before and after the first `sep`, if there is one. -/
def splitFirst (sep : Char) (cs : List Char) : Option (List Char × List Char) :=
  match cs.dropWhile (· != sep) with
  | [] => none
  | _ :: after => some (cs.takeWhile (· != sep), after)

@[simp] theorem splitFirst_nil (sep : Char) : splitFirst sep [] = none := rfl

theorem splitFirst_cons (sep c : Char) (cs : List Char) :
    splitFirst sep (c :: cs) =
      if c = sep then some ([], cs) else (splitFirst sep cs).map fun p => (c :: p.1, p.2) := by
  by_cases h : c = sep
  · simp [splitFirst, h]
  · simp only [splitFirst, List.dropWhile_cons, List.takeWhile_cons, bne_iff_ne, ne_eq, h,
      not_false_eq_true, if_true, if_false]
    cases cs.dropWhile (· != sep) <;> rfl

/-- The cut is at the first `sep`: there is none before it, and nothing is lost. -/
theorem splitFirst_eq_some_iff {sep : Char} {cs before after : List Char} :
    splitFirst sep cs = some (before, after) ↔ cs = before ++ sep :: after ∧ sep ∉ before := by
  induction cs generalizing before with
  | nil => simp
  | cons c cs ih =>
    rw [splitFirst_cons]
    by_cases h : c = sep
    · cases before with
      | nil => simp [h]
      | cons b before => simp only [h, if_true]; simp; grind
    · cases before with
      | nil => simp [h]
      | cons b before => simp [h, ih]; grind

/-- The characters without the leading and trailing `mark`s. -/
def trimMark (mark : Char) (cs : List Char) : List Char :=
  ((cs.dropWhile (· == mark)).reverse.dropWhile (· == mark)).reverse

end FormIntake.Text
