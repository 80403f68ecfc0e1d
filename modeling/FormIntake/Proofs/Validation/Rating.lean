/-
  FormIntake — which ratings a field takes.

  The format of a rating is that of the numbers from one on, written as they are
  (`matches_ratingFormat_iff`).  A number is read digit by digit and must fit in 32 bits; one
  that does not is no rating, whatever its last digits are.  `RatingOptions.check_iff_numeral`
  puts both together: a field takes the numbers from one to its number of steps, each in one
  spelling.
-/
import FormIntake.Proofs.Digits
import FormIntake.Proofs.Text.Pattern
import FormIntake.Validation.Numeric

namespace FormIntake

open Validation Text Text.Pattern

variable {cs : List Char} {answer : String}

/-- **The format of a rating**: the numbers from one on, as they are written. -/
theorem matches_ratingFormat_iff : Matches ratingFormat cs ↔ ∃ n, 1 ≤ n ∧ cs = digits n := by
  rw [ratingFormat, matches_one_andThen_iff]
  simp only [matches_many_one_iff, Bool.and_eq_true, bne_iff_ne]
  constructor
  · rintro ⟨c, rest, rfl, ⟨hc, hne⟩, hrest⟩
    have hdigits : ∀ d ∈ c :: rest, d.isDigit = true := List.forall_mem_cons.2 ⟨hc, hrest⟩
    have hvalue : digits (value (c :: rest)) = c :: rest :=
      digits_value (List.cons_ne_nil c rest) hdigits (by simpa using hne)
    refine ⟨value (c :: rest), ?_, hvalue.symm⟩
    rw [Nat.one_le_iff_ne_zero]
    intro hzero
    rw [hzero] at hvalue
    exact hne (List.cons.inj hvalue).1.symm
  · rintro ⟨n, hn, rfl⟩
    have hhead := head?_digits_ne hn
    have hdigits : ∀ d ∈ digits n, d.isDigit = true := fun _ => isDigit_of_mem_digits
    obtain ⟨c, rest, hcs⟩ := List.exists_cons_of_ne_nil (digits_ne_nil n)
    rw [hcs] at hhead hdigits
    obtain ⟨hc, hrest⟩ := List.forall_mem_cons.1 hdigits
    exact ⟨c, rest, hcs, ⟨hc, by simpa using hhead⟩, hrest⟩

namespace RatingOptions

variable {o : RatingOptions}

/-- The check of a number as it is written compares it with the steps and with the
    greatest number there is. -/
theorem check_eq_ok_iff : o.check answer = .ok () ↔
    ∃ n, 1 ≤ n ∧ n ≤ o.steps ∧ n ≤ largestRating ∧ answer = toString n := by
  have hread : ∀ n m : Nat, readUpTo? largestRating (digits n) = some m ↔ m = n ∧ m ≤ largestRating := by
    intro n m
    rw [readUpTo?_eq_some_iff (digits_ne_nil n) fun _ => isDigit_of_mem_digits, value_digits]
  rw [check, require_eq_ok, Bool.and_eq_true, accepts_iff, matches_ratingFormat_iff,
    Option.any_eq_true]
  simp only [eq_toString_iff, decide_eq_true_eq]
  constructor
  · rintro ⟨⟨n, hn, hcs⟩, m, hm, hsteps⟩
    rw [hcs, hread] at hm
    obtain ⟨rfl, hmax⟩ := hm
    exact ⟨m, hn, hsteps, hmax, hcs⟩
  · rintro ⟨n, hn, hsteps, hmax, hcs⟩
    refine ⟨⟨n, hn, hcs⟩, n, ?_, hsteps⟩
    rw [hcs, hread]
    exact ⟨rfl, hmax⟩

/-- What is not taken is no rating. -/
theorem check_eq_error_iff : o.check answer = .error .rating ↔ o.check answer ≠ .ok () := by
  rw [check, require]
  split
  · simp
  · simp

/-- **Which ratings a field takes**: the numbers from one to its number of steps, written
    without sign and without leading zeros.  In particular it takes no number that does
    not fit in 32 bits, and a field without steps takes nothing. -/
theorem check_iff_numeral (steps : UInt32) (answer : String) :
    (check ⟨steps.toNat⟩ answer = .ok () ↔ ∃ n, 1 ≤ n ∧ n ≤ steps.toNat ∧ answer = toString n) ∧
      (check ⟨steps.toNat⟩ answer = .error .rating ↔ check ⟨steps.toNat⟩ answer ≠ .ok ()) ∧
      (∀ k : Nat, check ⟨steps.toNat⟩ (toString (2 ^ 32 + k)) = .error .rating) ∧
      check ⟨0⟩ answer = .error .rating := by
  have hlargest : steps.toNat ≤ largestRating := Nat.le_of_lt_succ steps.toNat_lt
  refine ⟨?_, check_eq_error_iff, ?_, ?_⟩
  · rw [check_eq_ok_iff]
    constructor
    · rintro ⟨n, hn, hsteps, -, rfl⟩
      exact ⟨n, hn, hsteps, rfl⟩
    · rintro ⟨n, hn, hsteps, rfl⟩
      exact ⟨n, hn, hsteps, hsteps.trans hlargest, rfl⟩
  · intro k
    rw [check_eq_error_iff, ne_eq, check_eq_ok_iff]
    rintro ⟨n, -, -, hmax, heq⟩
    have hn := eq_of_toString_eq heq
    rw [largestRating] at hmax
    omega
  · rw [check_eq_error_iff, ne_eq, check_eq_ok_iff]
    rintro ⟨n, hn, hsteps, -⟩
    exact absurd (hn.trans hsteps) (by simp)

/-- The last number of 32 bits is a rating; one beyond them with the low bits of one is none. -/
example : check ⟨4294967295⟩ "4294967295" = .ok () ∧
    check ⟨4294967295⟩ "4294967297" = .error .rating := by
  decide

end RatingOptions

end FormIntake
