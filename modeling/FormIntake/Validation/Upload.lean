/-
  FormIntake — uploaded files as answers.
-/
import FormIntake.Bytes
import FormIntake.Field.Basic
import FormIntake.Text.Blank
import FormIntake.Validation.Require

namespace FormIntake

open Validation

/-- Check an uploaded file. -/
def AttachmentOptions.check (o : AttachmentOptions) (text filename : String) (content : Bytes) :
    Verdict := do
  require (!content.isEmpty) .attachmentEmpty
  require (!Text.isBlank text) .attachmentUnanswered
  require (!Text.isBlank filename) .attachmentUnnamed
  require (content.length ≤ o.size.bytes) .attachmentTooLarge

end FormIntake
