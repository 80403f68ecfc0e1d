/-
  FormIntake — days of the calendar.

  A `Date` is a day of the Gregorian calendar, extended to all years that a
  form may name.  It is written in two ways: `2024-01-09` in a form's
  definition (`Date.iso`, `Date.ofIso?`) and `09 Jan 2024` in an answer
  (`Date.dayMonthYear`, `Date.ofDayMonthYear?`).
-/
import FormIntake.Text.AsciiCase
import FormIntake.Text.Blank
import FormIntake.Text.Numeral

namespace FormIntake

/-- A leap year: every fourth, but of the hundreds only every fourth. -/
def isLeapYear (year : Int) : Bool := year % 4 = 0 && (year % 100 ≠ 0 || year % 400 = 0)

/-- The number of days of a month. -/
def daysInMonth (year : Int) (month : Nat) : Nat :=
  if month = 2 then if isLeapYear year then 29 else 28
  else if month = 4 ∨ month = 6 ∨ month = 9 ∨ month = 11 then 30
  else 31

/-- The first and the last year that a date may have. -/
def firstYear : Int := -262143

/-- The last year that a date may have. -/
def lastYear : Int := 262142

/-- There is such a day. -/
def IsDay (year : Int) (month day : Nat) : Prop :=
  firstYear ≤ year ∧ year ≤ lastYear ∧ 1 ≤ month ∧ month ≤ 12 ∧ 1 ≤ day ∧
    day ≤ daysInMonth year month

instance (year : Int) (month day : Nat) : Decidable (IsDay year month day) := by
  unfold IsDay; infer_instance

/-- A day of the calendar. -/
structure Date where
  year : Int
  month : Nat
  day : Nat
  isDay : IsDay year month day
  deriving DecidableEq

namespace Date

/-- The date with these numbers, if there is such a day. -/
def of? (year : Int) (month day : Nat) : Option Date :=
  if h : IsDay year month day then some ⟨year, month, day, h⟩ else none

/-- Dates are ordered by year, then month, then day. -/
protected def le (a b : Date) : Prop :=
  a.year < b.year ∨ a.year = b.year ∧ (a.month < b.month ∨ a.month = b.month ∧ a.day ≤ b.day)

instance : LE Date := ⟨Date.le⟩

instance (a b : Date) : Decidable (a ≤ b) := by
  change Decidable (Date.le a b)
  unfold Date.le
  infer_instance

/-! ## Years first -/

/-- A year: four digits, or a sign and as many digits as it takes. -/
def yearText (year : Int) : List Char :=
  let ds := Text.paddedDigits 4 year.natAbs
  if year < 0 then '-' :: ds else if 9999 < year then '+' :: ds else ds

/-- The date as year, month and day. -/
def iso (d : Date) : String :=
  String.ofList (yearText d.year ++ '-' :: Text.paddedDigits 2 d.month ++
    '-' :: Text.paddedDigits 2 d.day)

/-- A number at the front of the characters, taking all digits. -/
def readNumber (cs : List Char) : Option (Nat × List Char) :=
  let ds := cs.takeWhile Char.isDigit
  if ds.isEmpty then none else some (Text.value ds, cs.dropWhile Char.isDigit)

/-- A number of at most `width` digits at the front of the characters. -/
def readShortNumber (width : Nat) (cs : List Char) : Option (Nat × List Char) :=
  let ds := (cs.take width).takeWhile Char.isDigit
  if ds.isEmpty then none else some (Text.value ds, cs.drop ds.length)

/-- A year at the front of the characters: any number of digits after a sign, at
    most four without one. -/
def readYear : List Char → Option (Int × List Char)
  | '-' :: rest => (readNumber rest).map fun p => (-(p.1 : Int), p.2)
  | '+' :: rest => (readNumber rest).map fun p => ((p.1 : Int), p.2)
  | cs => (readShortNumber 4 cs).map fun p => ((p.1 : Int), p.2)

/-- The characters after a hyphen, with blanks on either side of it. -/
def readHyphen (cs : List Char) : Option (List Char) :=
  match cs.dropWhile Text.isBlankChar with
  | '-' :: rest => some (rest.dropWhile Text.isBlankChar)
  | _ => none

/-- The date written as year, month and day.  There may be blanks between the
    numbers and around the whole. -/
def ofIso? (s : String) : Option Date := do
  let (year, rest) ← readYear (s.toList.dropWhile Text.isBlankChar)
  let (month, rest) ← readShortNumber 2 (← readHyphen rest)
  let (day, rest) ← readShortNumber 2 (← readHyphen rest)
  if rest.all Text.isBlankChar then of? year month day else none

/-! ## Days first -/

/-- The short names of the months. -/
def monthNames : List (List Char) :=
  ["Jan", "Feb", "Mar", "Apr", "May", "Jun", "Jul", "Aug", "Sep", "Oct", "Nov", "Dec"].map
    String.toList

/-- The date as day, name of the month and year; years have four digits. -/
def dayMonthYear (d : Date) : List Char :=
  Text.paddedDigits 2 d.day ++ ' ' :: monthNames.getD (d.month - 1) [] ++
    ' ' :: Text.paddedDigits 4 d.year.natAbs

/-- A month at the front of the characters, by its short name in any case. -/
def readMonthName (cs : List Char) : Option (Nat × List Char) :=
  (monthNames.findIdx? fun name => Text.sameIgnoringCase name (cs.take 3)).map
    fun i => (i + 1, cs.drop 3)

/-- The date written as day, name of the month and year.  There may be blanks in
    front of each of them, or none between them. -/
def ofDayMonthYear? (cs : List Char) : Option Date := do
  let (day, rest) ← readShortNumber 2 (cs.dropWhile Text.isBlankChar)
  let (month, rest) ← readMonthName (rest.dropWhile Text.isBlankChar)
  let (year, rest) ← readYear (rest.dropWhile Text.isBlankChar)
  if rest.isEmpty then of? year month day else none

end Date

end FormIntake
