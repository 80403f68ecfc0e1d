/-
  FormIntake — telephone numbers as answers.

  A number is a plus sign and digits.  Local numbers have eight digits after
  the local calling code; the numbers of other countries are taken where the
  field allows them, if the directory has them on a line of the kind asked for.
-/
import FormIntake.Field.Basic
import FormIntake.Phone.Directory
import FormIntake.Validation.Require

namespace FormIntake

open Validation

namespace Phone

/-- The lines that a field can ask for. -/
inductive Wanted where
  | mobile
  | home
  deriving DecidableEq, Repr

/-- The local calling code. -/
def localCode : List Char := ['6', '5']

/-- The first digits of local numbers. -/
def Wanted.localFirst : Wanted → List Char
  | mobile => ['8', '9']
  | home => ['3', '6']

/-- The line is what the field asks for. -/
def Wanted.takes : Wanted → Line → Bool
  | mobile, .mobile | home, .fixed | _, .fixedOrMobile => true
  | _, _ => false

/-- The digits are a local number of the line that the field asks for. -/
def Wanted.isLocal (w : Wanted) (ds : List Char) : Bool :=
  ds.length == 8 && ds.head?.any w.localFirst.contains

/-- Check the number of another country. -/
def Directory.check (dir : Directory) (w : Wanted) (answer : String) : Verdict :=
  match dir.read? answer with
  | none => .error .phoneUnreadable
  | some number => do
    require (dir.isAssigned number) .phoneUnassigned
    require (w.takes (dir.line number)) .phoneLine

end Phone

/-- Check a telephone number. -/
def PhoneOptions.check (o : PhoneOptions) (dir : Phone.Directory) (wanted : Phone.Wanted)
    (answer : String) : Verdict :=
  match answer.toList with
  | '+' :: ds => do
    require (!ds.isEmpty && ds.all Char.isDigit) .phoneFormat
    if Phone.localCode.isPrefixOf ds then
      require (wanted.isLocal (ds.drop Phone.localCode.length)) .phoneLocal
    else do
      require o.international .phoneForeign
      dir.check wanted answer
  | _ => .error .phoneWithoutPlus

end FormIntake
