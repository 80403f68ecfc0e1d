/-
  FormIntake — responses as they are submitted.

  A response gives, for one field, a raw answer: one JSON value for most types,
  an array for types with several answers.  The bytes of an uploaded file are
  never part of the JSON document; they are joined to the response later.
-/
import FormIntake.Bytes
import FormIntake.Field.Type
import FormIntake.Json.Value

namespace FormIntake

/-- One submitted response. -/
structure Response where
  /-- The id of the field. -/
  id : String
  question : Option String := none
  type : FieldType
  answer : Option Json := none
  answers : Option Json := none
  /-- The field was shown to the respondent. -/
  visible : Bool := true
  filename : Option String := none
  /-- The bytes of the uploaded file. -/
  content : Bytes := []
  deriving Repr

namespace Response

/-- A response without an answer. -/
def blank (id : String) (type : FieldType) : Response := { id, type }

/-- A response with one text. -/
def single (id : String) (type : FieldType) (answer : String) : Response :=
  { id, type, answer := some (.text answer) }

/-- A response with several choices. -/
def multiple (id : String) (type : FieldType) (answers : List String) : Response :=
  { id, type, answers := some (.array (answers.map .text)) }

/-- A response with rows of cells. -/
def rows (id : String) (type : FieldType) (rows : List (List String)) : Response :=
  { id, type, answers := some (.array (rows.map fun row => .array (row.map .text))) }

/-- A response with an uploaded file. -/
def attachment (id filename : String) (content : Bytes) : Response :=
  { id, type := .attachment, answer := some (.text filename), filename := some filename, content }

/-- The response as given for a field that was not shown. -/
def hidden (r : Response) : Response := { r with visible := false }

end Response

/-- A submission with its uploaded files joined to the responses. -/
structure Form where
  responses : List Response
  deriving Repr

namespace Form

/-- The first response with an id. -/
def get? (f : Form) (id : String) : Option Response := f.responses.find? fun r => r.id == id

/-- The responses that carry an uploaded file. -/
def uploads (f : Form) : List Response :=
  f.responses.filter fun r => r.type == .attachment && !r.content.isEmpty

end Form

end FormIntake
