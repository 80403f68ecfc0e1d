/-
  FormIntake — days of the week.
-/
import FormIntake.Calendar.Date
import FormIntake.Text.AsciiCase

namespace FormIntake

/-- A day of the week. -/
inductive Weekday where
  | monday
  | tuesday
  | wednesday
  | thursday
  | friday
  | saturday
  | sunday
  deriving DecidableEq, Repr

namespace Weekday

/-- The days of the week, Monday first. -/
def all : List Weekday := [monday, tuesday, wednesday, thursday, friday, saturday, sunday]

/-- The English name. -/
def name : Weekday → String
  | monday => "Monday"
  | tuesday => "Tuesday"
  | wednesday => "Wednesday"
  | thursday => "Thursday"
  | friday => "Friday"
  | saturday => "Saturday"
  | sunday => "Sunday"

/-- The first three letters of the name. -/
def shortName (d : Weekday) : String := String.ofList (d.name.toList.take 3)

/-- The day that a name or a short name stands for, whatever its case. -/
def ofName? (s : String) : Option Weekday :=
  all.find? fun d =>
    Text.sameIgnoringCase s.toList d.name.toList ||
      Text.sameIgnoringCase s.toList d.shortName.toList

end Weekday

namespace Date

/-- The number of days before a year, counted from the first day of the year 1. -/
def daysBeforeYear (year : Int) : Int :=
  let y := year - 1
  365 * y + y / 4 - y / 100 + y / 400

/-- The number of days of a year before a month. -/
def daysBeforeMonth (year : Int) : Nat → Nat
  | 0 | 1 => 0
  | m + 2 => daysBeforeMonth year (m + 1) + daysInMonth year (m + 1)

/-- The number of days before the date, counted from the first day of the year 1. -/
def dayNumber (d : Date) : Int :=
  daysBeforeYear d.year + daysBeforeMonth d.year d.month + (d.day - 1 : Nat)

/-- The day of the week; the first day of the year 1 is a Monday. -/
def weekday (d : Date) : Weekday := Weekday.all.getD (d.dayNumber % 7).toNat .monday

end Date

end FormIntake
