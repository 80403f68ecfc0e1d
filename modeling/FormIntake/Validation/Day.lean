/-
  FormIntake — dates as answers.
-/
import FormIntake.Field.Basic
import FormIntake.Text.DecimalDigit
import FormIntake.Text.Pattern
import FormIntake.Validation.Require

namespace FormIntake

open Validation

/-- How a date is written: two digits, a capital and two small letters, four
    digits, with spaces between.  The digits of every script will do here; those
    that are not ASCII digits are refused as no date. -/
def dateFormat : Text.Pattern :=
  let digit := .one Text.isDecimalDigit
  .sequence
    [.times digit 2, .char ' ', .one Char.isUpper, .times (.one Char.isLower) 2, .char ' ',
      .times digit 4]

namespace DateOptions

/-- The date is in the range that is allowed today. -/
def inRange (o : DateOptions) (today d : Date) : Bool :=
  match o.rule with
  | none => true
  | some .noPast => today ≤ d
  | some .noFuture => d ≤ today
  | some .between => (o.first.all fun first => first ≤ d) && o.last.all fun last => d ≤ last

/-- Check a date. -/
def check (o : DateOptions) (today : Date) (answer : String) : Verdict := do
  require (dateFormat.accepts answer.toList) .dateFormat
  match Date.ofDayMonthYear? answer.toList with
  | none => .error .dateCalendar
  | some d => do
    require (o.inRange today d) .dateRange
    require (!o.closed.contains d.weekday) .dateWeekday

end DateOptions

end FormIntake
