/-
  FormIntake — registration numbers of businesses, companies and other entities.

  * A business has eight digits and a check letter.
  * A local company has nine digits, the first four its year, and a check
    letter.
  * Any other entity has a letter for the century, two digits for the year, the
    two letters of its kind, four digits and a check character.

  Blanks around a number and the case of its letters do not matter.
-/
import FormIntake.Identifier.CheckDigit
import FormIntake.Text.AsciiCase
import FormIntake.Text.Blank

namespace FormIntake.Identifier.Uen

/-! ## Businesses -/

/-- The weights of the digits of a business. -/
def businessWeights : List Nat := [10, 4, 9, 3, 8, 2, 7, 1]

/-- The check letter of a business. -/
def businessCheck? (ds : List Char) : Option Char :=
  if ds.length = businessWeights.length ∧ ds.all Char.isDigit then
    checkChar "XMKECAWLJDB".toList (weightedSum businessWeights (digitValues ds))
  else none

/-! ## Local companies -/

/-- The weights of the digits of a local company. -/
def companyWeights : List Nat := [10, 8, 6, 4, 9, 7, 5, 3, 1]

/-- The check letter of a local company. -/
def companyCheck? (ds : List Char) : Option Char :=
  if ds.length = companyWeights.length ∧ ds.all Char.isDigit then
    checkChar "ZKCMDNERGWH".toList (weightedSum companyWeights (digitValues ds))
  else none

/-- The company's year is not after the current one. -/
def isCompanyYear (currentYear : Int) (ds : List Char) : Bool :=
  (Text.value (ds.take 4) : Int) ≤ currentYear

/-! ## Other entities -/

/-- The weights of the characters of another entity. -/
def entityWeights : List Nat := [4, 3, 5, 3, 10, 2, 2, 5, 7]

/-- The characters in the order of their values; the first eleven are also the
    check characters. -/
def alphabet : List Char := "ABCDEFGHJKLMNPQRSTUVWX0123456789".toList

/-- The kinds of entities. -/
def kinds : List (List Char) :=
  ["BN", "LP", "LL", "LC", "FC", "PF", "VC", "RF", "MQ", "MM", "NB", "CC", "CS", "MB", "FM", "GS",
    "EC", "DP", "CP", "NR", "CM", "CD", "MD", "HS", "VH", "CH", "MH", "CL", "XL", "CX", "HC", "RP",
    "TU", "TC", "FB", "FN", "FS", "PA", "PB", "SS", "MC", "SM", "GA", "GB", "UF"].map String.toList

/-- The values of characters, if all of them have one. -/
def alphabetValues? (cs : List Char) : Option (List Nat) := cs.mapM fun c => alphabet.idxOf? c

/-- The check character of another entity.  The sum is lowered by five, that is
    raised by six. -/
def entityCheck? (cs : List Char) : Option Char := do
  let values ← alphabetValues? cs
  checkChar alphabet (weightedSum entityWeights values + 6)

/-- The two digits of a year are not after those of the current one.  Only years
    of the current century, marked T, are compared. -/
def isEntityYear (currentYear : Int) (century : Char) (ds : List Char) : Bool :=
  century != 'T' || (Text.value ds : Int) ≤ currentYear % 100

/-- The characters before the check character are those of another entity. -/
def isEntity (currentYear : Int) : List Char → Bool
  | [century, y₁, y₂, k₁, k₂, d₁, d₂, d₃, d₄] =>
    ['R', 'S', 'T'].contains century && [y₁, y₂].all Char.isDigit &&
      isEntityYear currentYear century [y₁, y₂] && kinds.contains [k₁, k₂] &&
      [d₁, d₂, d₃, d₄].all Char.isDigit
  | _ => false

/-! ## All schemes -/

/-- The check character that goes with the other characters, if they are those
    of a business, a company or another entity up to the current year. -/
def checkChar? (currentYear : Int) (cs : List Char) : Option Char :=
  if cs.length = 8 then businessCheck? cs
  else if cs.all Char.isDigit then
    if isCompanyYear currentYear cs then companyCheck? cs else none
  else if isEntity currentYear cs then entityCheck? cs
  else none

/-- The characters are a registration number in capitals. -/
def isValidUpper (currentYear : Int) (cs : List Char) : Bool :=
  match checkChar? currentYear cs.dropLast, cs.getLast? with
  | some expected, some check => expected == check
  | _, _ => false

/-- The text is a registration number. -/
def isValid (s : String) (currentYear : Int) : Bool :=
  isValidUpper currentYear (Text.upper (Text.trimChars s.toList))

end FormIntake.Identifier.Uen
