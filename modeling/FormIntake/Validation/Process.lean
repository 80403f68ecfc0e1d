/-
  FormIntake — checking a response against its field.

  `Field.process` decides whether a response is accepted and returns its answer
  in the shape of the field's type:

  * a response of another type, or an ill-shaped one, is refused;
  * a blank answer is refused only if the field must be answered and was shown;
  * any other answer is refused if the field was not shown, and else has to pass
    the rule of the field's kind (`FieldKind.check`).
-/
import FormIntake.Identifier.Nric
import FormIntake.Identifier.Uen
import FormIntake.Response.Answer
import FormIntake.Validation.Choice
import FormIntake.Validation.Day
import FormIntake.Validation.Email
import FormIntake.Validation.Grid
import FormIntake.Validation.Numeric
import FormIntake.Validation.Phone
import FormIntake.Validation.Upload

namespace FormIntake

open Validation

/-- The rule of a kind, for an answer that has a shape of that kind; `none` for
    any other answer. -/
def FieldKind.verdict? (dir : Phone.Directory) (today : Date) :
    FieldKind → Answer → Option Verdict
  | .heading, _ | .statement, _ | .image, _ => some (pure ())
  | .shortText b, .single a | .longText b, .single a => some (b.checkText a)
  | .number o, .single a => some (o.check a)
  | .decimal o, .single a => some (o.check a)
  | .email o, .single a => some (o.check a)
  | .mobile o, .single a => some (o.check dir .mobile a)
  | .homePhone o, .single a => some (o.check dir .home a)
  | .date o, .single a => some (o.check today a)
  | .dropdown o, .single a => some (o.checkListed a)
  | .radio o, .single a => some (o.check a)
  | .checkbox o, .multiple as => some (o.check as)
  | .rating o, .single a => some (o.check a)
  | .yesNo, .single a => some (checkYesNo a)
  | .nric, .single a => some (require (Identifier.Nric.isValid a) .nric)
  | .uen, .single a => some (require (Identifier.Uen.isValid a today.year) .uen)
  | .country, .single a => some (checkCountry a)
  | .table o, .rows rows => some (o.check rows)
  | .children o, .rows rows => some (o.check rows)
  | .attachment o, .file text filename content => some (o.check text filename content)
  | _, _ => none

namespace FieldKind

/-- Check an answer that is not blank. -/
def check (dir : Phone.Directory) (today : Date) (kind : FieldKind) (answer : Answer) :
    Except FieldError Unit :=
  match kind.verdict? dir today answer with
  | some verdict => verdict.mapError .invalidAnswer
  | none => .error (.responseShape .otherShape)

/-- Check a blank answer to a field that must be answered.  In a table it is the
    columns that must be filled in. -/
def checkBlank : FieldKind → Answer → Except FieldError Unit
  | .table o, .rows rows => (o.check rows).mapError .invalidAnswer
  | _, _ => .error (.invalidAnswer .missing)

end FieldKind

namespace Field

/-- Check an answer that has the shape of the field's type. -/
def checkAnswer (f : Field) (dir : Phone.Directory) (today : Date) (visible : Bool)
    (answer : Answer) : Except FieldError Unit :=
  if answer.isBlank then if f.required && visible then f.kind.checkBlank answer else .ok ()
  else if visible then f.kind.check dir today answer
  else .error .hiddenField

/-- The answer of an accepted response, or why the response is refused. -/
def process (f : Field) (dir : Phone.Directory) (today : Date) (r : Response) :
    Except FieldError Answer :=
  if r.type = f.type then do
    let answer ← (Answer.ofResponse f.type r).mapError .responseShape
    f.checkAnswer dir today r.visible answer
    pure answer
  else .error (.responseShape .fieldType)

end Field

end FormIntake
