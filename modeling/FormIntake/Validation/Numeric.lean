/-
  FormIntake — texts, numbers and ratings as answers.

  A number is written in ASCII digits, leading zeros allowed; a decimal has no
  leading zeros but may have a sign and a fraction; a rating is a whole number
  from one to the number of steps.
-/
import FormIntake.Field.Basic
import FormIntake.Text.Pattern
import FormIntake.Validation.Require

namespace FormIntake

open Validation

/-- Check the number of characters of a text. -/
def CountBound.checkText (b : CountBound) (answer : String) : Verdict :=
  require (b.holds answer.length) .textLength

/-- Check a whole number. -/
def NumberOptions.check (o : NumberOptions) (answer : String) : Verdict := do
  let ds := answer.toList
  require (ds.all Char.isDigit) .numberFormat
  match o.rule with
  | none => pure ()
  | some .length => require (o.length.holds ds.length) .numberLength
  | some .range => do
    require (!ds.isEmpty) .numberUnreadable
    require (o.range.holds (Double.ofDecimal false (Text.value ds) 0)) .numberRange

/-- How a decimal is written. -/
def decimalFormat : Text.Pattern :=
  let digit := Text.Pattern.one Char.isDigit
  let whole := .either (.char '0') (.andThen (.one fun c => c.isDigit && c != '0') (.many digit))
  .andThen (.option (.char '-'))
    (.andThen whole (.option (.andThen (.char '.') (.some digit))))

/-- The value of a decimal: the digits before and after the point as one number,
    with as many places as there are digits after the point. -/
def readDecimal (cs : List Char) : Double :=
  let digits := cs.filter Char.isDigit
  let places := ((cs.dropWhile (· != '.')).drop 1).length
  Double.ofDecimal (cs.head? == some '-') (Text.value digits) (-places)

/-- Check a decimal. -/
def DecimalOptions.check (o : DecimalOptions) (answer : String) : Verdict := do
  require (decimalFormat.accepts answer.toList) .decimalFormat
  require (!o.ranged || o.range.holds (readDecimal answer.toList)) .decimalRange

/-- How a rating is written: in digits, the first of them no zero. -/
def ratingFormat : Text.Pattern :=
  .andThen (.one fun c => c.isDigit && c != '0') (.many (.one Char.isDigit))

/-- The greatest number that an answer to a rating can be: one of 32 bits. -/
def largestRating : Nat := 0xFFFFFFFF

/-- Check a rating. -/
def RatingOptions.check (o : RatingOptions) (answer : String) : Verdict :=
  let ds := answer.toList
  require (ratingFormat.accepts ds && (Text.readUpTo? largestRating ds).any (· ≤ o.steps)) .rating

end FormIntake
