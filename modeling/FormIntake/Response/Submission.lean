/-
  FormIntake — checking all responses of a submission.

  The fields of a form are gone through in order.  Each is answered by the last
  response with its id, or else by a blank one; the first field whose response
  is refused decides.  Responses without a field do not matter.
-/
import FormIntake.Validation.Process

namespace FormIntake

/-- An accepted response. -/
structure Accepted where
  /-- The id of the field. -/
  fieldId : String
  /-- The title of the field. -/
  question : String
  type : FieldType
  visible : Bool
  answer : Answer
  deriving DecidableEq, Repr

/-- Why a submission is refused: the field whose response is, and why that is. -/
structure SubmissionError where
  fieldId : String
  error : FieldError
  deriving DecidableEq, Repr

/-- The wording of an error. -/
def SubmissionError.message (e : SubmissionError) : String :=
  s!"field {e.fieldId}: {e.error.message}"

/-- The last response with an id. -/
def lastResponse? (id : String) (rs : List Response) : Option Response :=
  rs.reverse.find? fun r => r.id == id

namespace Field

/-- The response to a field: the last one with its id, or a blank one. -/
def responseIn (f : Field) (rs : List Response) : Response :=
  (lastResponse? f.id rs).getD (.blank f.id f.type)

/-- The accepted response to a field. -/
def accept (f : Field) (dir : Phone.Directory) (today : Date) (r : Response) :
    Except SubmissionError Accepted :=
  match f.process dir today r with
  | .ok answer => .ok ⟨f.id, f.title, f.type, r.visible, answer⟩
  | .error e => .error ⟨f.id, e⟩

end Field

/-- The accepted responses to the fields of a form, in the order of the fields.
    Once a field has been answered, no other field is answered by its
    responses. -/
def acceptAll (dir : Phone.Directory) (today : Date) :
    List Field → List Response → Except SubmissionError (List Accepted)
  | [], _ => .ok []
  | f :: fields, rs =>
    if f.type.isDisplayOnly then acceptAll dir today fields rs
    else do
      let accepted ← f.accept dir today (f.responseIn rs)
      let rest ← acceptAll dir today fields (rs.filter fun r => r.id != f.id)
      pure (accepted :: rest)

end FormIntake
