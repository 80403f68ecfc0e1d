/-
  FormIntake — from a request to accepted responses.

  A gate stands before one form.  `Gate.process` receives a request, holds its
  uploaded files to the form's policy and checks its responses against the
  form's fields.
-/
import FormIntake.Request.Receiver
import FormIntake.Response.Submission
import FormIntake.Upload.Policy

namespace FormIntake

/-- What stands before a form. -/
structure Gate where
  fields : List Field
  limits : SizeLimits := {}
  policy : UploadPolicy := .usual .email

namespace Gate

/-- Why a request is refused. -/
inductive Refusal where
  /-- It could not be received. -/
  | request (e : Request.Error)
  /-- Its uploaded files break the policy. -/
  | uploads (v : UploadPolicy.Violation)
  /-- One of its responses is refused. -/
  | responses (e : SubmissionError)
  deriving DecidableEq, Repr

namespace Refusal

/-- The status that the request is answered with. -/
def status : Refusal → Nat
  | request e => e.kind.status
  | uploads (.tooLarge ..) => 422
  | uploads _ | responses _ => 400

/-- What the respondent sees. -/
def publicMessage : Refusal → String
  | request e => e.kind.publicMessage
  | uploads v => v.publicMessage
  | responses e => e.error.message

end Refusal

/-- The accepted responses of a form. -/
def accept (g : Gate) (dir : Phone.Directory) (today : Date) (form : Form) :
    Except Refusal (List Accepted) := do
  (g.policy.check form).mapError .uploads
  (acceptAll dir today g.fields form.responses).mapError .responses

/-- The accepted responses of a request, or why it is refused, and the number of
    chunks taken. -/
def process (g : Gate) (dir : Phone.Directory) (today : Date) (h : Request.Headers)
    (chunks : List Request.Chunk) : Except Refusal (List Accepted) × Nat :=
  match Request.Receiver.new h g.limits with
  | .error e => (.error (.request e), 0)
  | .ok receiver =>
    let (form, taken) := receiver.receive chunks
    ((form.mapError .request).bind (g.accept dir today), taken)

end Gate

end FormIntake
