/-
  FormIntake — comparing texts regardless of case.

  Only the letters A to Z and a to z have a case here; every other character
  stands for itself.
-/
namespace FormIntake.Text

/-- The text with A to Z as small letters. -/
def lower (cs : List Char) : List Char := cs.map Char.toLower

/-- The text with a to z as capitals. -/
def upper (cs : List Char) : List Char := cs.map Char.toUpper

/-- The two texts differ in the case of letters at most. -/
def sameIgnoringCase (a b : List Char) : Bool := lower a == lower b

end FormIntake.Text
