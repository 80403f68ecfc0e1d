/-
  FormIntake — choices as answers.

  A choice is one of the options of its field.  Where a free answer is allowed
  beside them, it is marked by the words in front of it.
-/
import FormIntake.Country
import FormIntake.Field.Basic
import FormIntake.Validation.Require

namespace FormIntake

open Validation

/-- The mark in front of a free answer. -/
def othersMark : List Char := "Others: ".toList

/-- A free answer, where one is allowed. -/
def isFreeAnswer (others : Bool) (answer : String) : Bool :=
  others && othersMark.isPrefixOf answer.toList

/-- Check the choice of a dropdown list, where a free answer is never allowed. -/
def ChoiceOptions.checkListed (o : ChoiceOptions) (answer : String) : Verdict :=
  require (o.options.contains answer) .dropdownOption

/-- Check the choice among radio buttons. -/
def ChoiceOptions.check (o : ChoiceOptions) (answer : String) : Verdict :=
  require (o.options.contains answer || isFreeAnswer o.others answer) .radioOption

namespace CheckboxOptions

/-- The answer is an option of the field. -/
def isListed (o : CheckboxOptions) (answer : String) : Bool := o.options.contains answer

/-- The number of choices reaches the fewest; zero is no bound. -/
def reachesFewest (o : CheckboxOptions) (count : Nat) : Bool :=
  !o.bounded || o.fewest.all fun n => n ≤ count

/-- The number of choices keeps to the most; zero is no bound. -/
def keepsToMost (o : CheckboxOptions) (count : Nat) : Bool :=
  !o.bounded || o.most.all fun n => n == 0 || count ≤ n

/-- Check several choices.  Options may not repeat, whether they look like free
    answers or not, and one free answer at most may be no option. -/
def check (o : CheckboxOptions) (answers : List String) : Verdict := do
  require (o.reachesFewest answers.length) .checkboxTooFew
  require (o.keepsToMost answers.length) .checkboxTooMany
  require (answers.all fun a => o.isListed a || isFreeAnswer o.others a) .checkboxOption
  let (free, regular) := answers.partition (isFreeAnswer o.others)
  require (decide regular.Nodup) .checkboxRepeated
  let (listed, unlisted) := free.partition o.isListed
  require (unlisted.length ≤ 1 && decide listed.Nodup) .checkboxRepeatedOther

end CheckboxOptions

/-- Check the answer to a question of yes or no. -/
def checkYesNo (answer : String) : Verdict := require (answer == "Yes" || answer == "No") .yesNo

/-- Check a country or region. -/
def checkCountry (answer : String) : Verdict := require (Country.isName answer) .country

end FormIntake
