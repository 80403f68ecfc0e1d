/-
  FormIntake — what can be wrong with a multipart body.

  Five of the errors are violations of a limit (`Error.isLimit`); the others
  are violations of the format.
-/
import FormIntake.Text.Quoted

namespace FormIntake.Multipart

/-- Why a disposition is refused. -/
inductive DispositionDefect where
  /-- The file name could be read as a path. -/
  | pathCharacters
  /-- No `name` parameter. -/
  | missingName
  deriving DecidableEq, Repr

/-- The wording of a defect. -/
def DispositionDefect.message : DispositionDefect → String
  | pathCharacters => "filename contains path characters"
  | missingName => "missing name parameter"

/-- What can be wrong with a multipart body or its content type. -/
inductive Error where
  /-- The content type is another one. -/
  | notMultipart
  /-- The content type names no boundary. -/
  | missingBoundary
  /-- The boundary is empty or too long. -/
  | invalidBoundary
  /-- An uploaded file is over its limit. -/
  | fileTooLarge (name : String) (size max : Nat)
  /-- A plain field is over its limit. -/
  | fieldTooLarge (name : String) (size max : Nat)
  /-- All parts together are over the limit of the request. -/
  | totalTooLarge (size max : Nat)
  /-- There are more parts than allowed. -/
  | tooManyParts (count max : Nat)
  /-- The headers of one part are over their limit. -/
  | headersTooLarge (size max : Nat)
  /-- A part does not say which field it belongs to. -/
  | missingDisposition
  /-- A part's disposition cannot be used. -/
  | invalidDisposition (defect : DispositionDefect)
  /-- A header line is not UTF-8. -/
  | invalidHeaderText
  /-- The body ends before its closing delimiter. -/
  | unexpectedEnd
  /-- A delimiter is followed by something else than a line end. -/
  | unfinishedDelimiter
  deriving DecidableEq, Repr

namespace Error

/-- The error is a violation of a limit on size or count. -/
def isLimit : Error → Bool
  | fileTooLarge .. | fieldTooLarge .. | totalTooLarge .. | tooManyParts .. |
    headersTooLarge .. => true
  | _ => false

/-- The wording of an error. -/
def message : Error → String
  | notMultipart => "content type is not multipart/form-data"
  | missingBoundary => "missing boundary in multipart Content-Type"
  | invalidBoundary => "invalid multipart boundary"
  | fileTooLarge name size max =>
    s!"file {Text.quoted name} too large: {size} bytes exceeds limit of {max}"
  | fieldTooLarge name size max =>
    s!"field {Text.quoted name} too large: {size} bytes exceeds limit of {max}"
  | totalTooLarge size max => s!"total upload too large: {size} bytes exceeds limit of {max}"
  | tooManyParts count max => s!"too many parts: {count} exceeds limit of {max}"
  | headersTooLarge size max => s!"part headers too large: {size} bytes exceeds limit of {max}"
  | missingDisposition => "missing Content-Disposition header in part"
  | invalidDisposition defect => "invalid Content-Disposition: " ++ defect.message
  | invalidHeaderText => "invalid part headers: invalid UTF-8 in header"
  | unexpectedEnd => "unexpected end of multipart data"
  | unfinishedDelimiter => "invalid multipart format: expected CRLF after boundary"

end Error

end FormIntake.Multipart
