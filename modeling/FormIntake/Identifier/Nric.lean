/-
  FormIntake — identity numbers of persons.

  An identity number is a letter for its series, seven digits and a check
  letter; the case of the letters does not matter.
-/
import FormIntake.Identifier.CheckDigit
import FormIntake.Text.AsciiCase

namespace FormIntake.Identifier.Nric

/-- The weights of the seven digits. -/
def weights : List Nat := [2, 7, 6, 5, 4, 3, 2]

/-- What the check letter of a series depends on beside the digits: an offset to
    the sum and the letters in their order. -/
def series? : Char → Option (Nat × List Char)
  | 'S' => some (0, "JZIHGFEDCBA".toList)
  | 'T' => some (4, "JZIHGFEDCBA".toList)
  | 'F' => some (0, "XWUTRQPNMLK".toList)
  | 'G' => some (4, "XWUTRQPNMLK".toList)
  | 'M' => some (3, "XWUTRQPNJLK".toList)
  | _ => none

/-- The check letter of a series and seven digits. -/
def checkLetter? (series : Char) (ds : List Char) : Option Char := do
  let (offset, letters) ← series? series
  if ds.length = weights.length ∧ ds.all Char.isDigit then
    checkChar letters (weightedSum weights (digitValues ds) + offset)
  else none

/-- The characters are an identity number in capitals. -/
def isValidUpper : List Char → Bool
  | series :: rest =>
    match checkLetter? series rest.dropLast, rest.getLast? with
    | some expected, some check => expected == check
    | _, _ => false
  | [] => false

/-- The text is an identity number. -/
def isValid (s : String) : Bool := isValidUpper (Text.upper s.toList)

end FormIntake.Identifier.Nric
