/-
  FormIntake — why a request is refused before its responses are looked at.
-/
import FormIntake.Limits
import FormIntake.Multipart.Error

namespace FormIntake.Request

/-- Why a request is refused. -/
inductive Error where
  /-- The limits cannot be used. -/
  | unusableLimits (defect : SizeLimits.Defect)
  /-- There is no content type. -/
  | missingContentType
  /-- The content type announces no usable boundary. -/
  | unusableBoundary (e : Multipart.Error)
  /-- The body is over a limit. -/
  | overLimit (e : Multipart.Error)
  /-- The body breaks the format. -/
  | malformed (e : Multipart.Error)
  /-- The bytes stopped coming. -/
  | broken (reason : String)
  /-- No part has the responses. -/
  | missingResponses
  /-- The responses cannot be read. -/
  | unreadableResponses
  /-- The receiver has received a request before. -/
  | used
  deriving DecidableEq, Repr

namespace Error

/-- An error of a multipart body. -/
def ofMultipart (e : Multipart.Error) : Error := if e.isLimit then overLimit e else malformed e

/-- The kinds of errors that a respondent can tell apart. -/
inductive Kind where
  /-- The request cannot be received at all. -/
  | initialise
  /-- It is too large. -/
  | contentLimit
  /-- Its responses cannot be read. -/
  | contentParsing
  /-- Its body cannot be read. -/
  | multipart
  deriving DecidableEq, Repr

/-- The name of a kind. -/
def Kind.name : Kind → String
  | initialise => "initialise"
  | contentLimit => "content_limit"
  | contentParsing => "content_parsing"
  | multipart => "multipart"

/-- The status that a request is answered with. -/
def Kind.status : Kind → Nat
  | contentLimit => 413
  | _ => 400

/-- What the respondent sees. -/
def Kind.publicMessage : Kind → String
  | initialise => "Required headers are missing"
  | contentLimit => "Your submission is too large."
  | contentParsing => "Invalid form data"
  | multipart => "Submission could not be read"

/-- The kind of an error. -/
def kind : Error → Kind
  | unusableLimits _ | missingContentType | unusableBoundary _ => .initialise
  | overLimit _ => .contentLimit
  | unreadableResponses => .contentParsing
  | malformed _ | broken _ | missingResponses | used => .multipart

/-- The wording of an error. -/
def message : Error → String
  | unusableLimits defect => "failed to initialise receiver: " ++ defect.message
  | missingContentType => "failed to initialise receiver: missing Content-Type header"
  | unusableBoundary e => "failed to initialise receiver: " ++ e.message
  | overLimit e => "content limit exceeded: " ++ e.message
  | malformed e => "multipart error: " ++ e.message
  | broken reason => "multipart error: stream error: " ++ reason
  | missingResponses => "multipart error: no body field received"
  | unreadableResponses => "failed to parse submission body"
  | used => "multipart error: receiver has already been used"

end Error

end FormIntake.Request
