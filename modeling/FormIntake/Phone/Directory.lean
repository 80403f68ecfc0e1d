/-
  FormIntake — telephone numbers of other countries.

  Which numbers there are, and what kind of line each belongs to, is laid down by the
  countries and changes with time.  A `Directory` tells it: the rules of a field ask a
  directory and know nothing else of these numbers, so what is said of the rules holds
  whatever the directory.
-/
namespace FormIntake.Phone

/-- What a number is assigned to. -/
inductive Line where
  | fixed
  | mobile
  /-- Fixed lines and mobile ones are not told apart. -/
  | fixedOrMobile
  /-- Any other line, such as one for calls free of charge, or one that is not known. -/
  | other
  deriving DecidableEq, Repr

/-- What is known of the numbers of other countries. -/
structure Directory where
  /-- A number that has been read. -/
  Number : Type
  /-- Read a number, which is written with a plus sign in front. -/
  read? : String → Option Number
  /-- The number is assigned. -/
  isAssigned : Number → Bool
  /-- What the number is assigned to. -/
  line : Number → Line

/-- The directory in which the given numbers are assigned to the given lines, and in which
    there are no others. -/
def Directory.ofList (lines : List (String × Line)) : Directory where
  Number := Line
  read? answer := lines.lookup answer
  isAssigned _ := true
  line := id

end FormIntake.Phone
