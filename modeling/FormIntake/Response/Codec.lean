/-
  FormIntake — submissions as JSON.

  A submission is an object with its responses.  Keys that it does not know are
  passed over without a look at their values, so these are read as they are
  written (`Json.Raw`).  The content of an uploaded file is neither read nor
  written.
-/
import FormIntake.Json.Raw
import FormIntake.Json.Record
import FormIntake.Limits
import FormIntake.Response.Basic

namespace FormIntake

/-! ## Values as they are written -/

namespace Json.Raw

/-- The values of the fields of a record.  Every key must be a text, known or
    not. -/
def fieldsOf? (fields : List String) : Raw → Option (List (Option Raw))
  | .object members => do
    let members ← members.mapM fun m => m.1.map fun key => (key, m.2)
    fieldsOfMembers? (fields.map fun name => [name]) members
  | .array items => fieldsOfItems? fields.length items
  | _ => none

/-- A text. -/
def text? : Raw → Option String
  | .text s => s
  | _ => none

/-- A truth value. -/
def bool? : Raw → Option Bool
  | .bool b => some b
  | _ => none

/-- A size or count. -/
def natural? : Raw → Option Nat
  | .number (some n) => Json.natural? Size.largest (.number n)
  | _ => none

/-- A value, or null for none. -/
def optional? {α : Type} (read : Raw → Option α) : Raw → Option (Option α)
  | .null => some none
  | v => (read v).map some

/-- The items of an array. -/
def list? {α : Type} (read : Raw → Option α) : Raw → Option (List α)
  | .array items => items.mapM read
  | _ => none

/-- A value of any kind.  Of several members with one key the last counts. -/
def settled? (depth : Nat) (v : Raw) : Option Json := (v.json? depth).map Json.settle

end Json.Raw

open Json

/-! ## Field types -/

namespace FieldType

/-- Read a type: its name, or an object with the name as its only key and null
    as its value. -/
def ofRaw? : Raw → Option FieldType
  | .text s => s.bind ofName?
  | .object [(some s, .null)] => ofName? s
  | _ => none

end FieldType

/-! ## Responses -/

namespace Response

/-- The keys of a response in their order. -/
def keys : List String :=
  ["_id", "question", "fieldType", "answer", "answerArray", "isVisible", "filename"]

/-- Read a response whose answers may be nested `depth` deep. -/
def ofRaw? (depth : Nat) (v : Raw) : Option Response := do
  let [id, question, type, answer, answers, visible, filename] ← v.fieldsOf? keys | none
  let id ← (← id).text?
  let question ← orElse none (Raw.optional? Raw.text?) question
  let type ← FieldType.ofRaw? (← type)
  let answer ← orElse none (Raw.optional? (Raw.settled? depth)) answer
  let answers ← orElse none (Raw.optional? (Raw.settled? depth)) answers
  let visible ← orElse true Raw.bool? visible
  let filename ← orElse none (Raw.optional? Raw.text?) filename
  some { id, question, type, answer, answers, visible, filename }

/-- A member, if there is a value for it. -/
def member (key : String) (v : Option Json) : List (String × Json) :=
  match v with
  | some v => [(key, v)]
  | none => []

/-- Write a response, without its content. -/
def toJson (r : Response) : Json :=
  .object (("_id", .text r.id) :: member "question" (r.question.map .text) ++
    ("fieldType", .text r.type.name) :: member "answer" r.answer ++
    member "answerArray" r.answers ++ ("isVisible", .bool r.visible) ::
    member "filename" (r.filename.map .text))

end Response

/-! ## Submissions -/

/-- Read the responses of a submission.  A submission, its list and a response
    take three of the levels that a document may have. -/
def submissionOfRaw? (v : Raw) : Option (List Response) := do
  let [responses] ← v.fieldsOf? ["responses"] | none
  (← responses).list? (Response.ofRaw? (maxDepth - 3))

/-- Read a submission from the bytes of a document. -/
def readSubmission (b : Bytes) : Option (List Response) := (Raw.read? b).bind submissionOfRaw?

/-- Write a submission. -/
def submissionToJson (rs : List Response) : Json :=
  .object [("responses", .array (rs.map Response.toJson))]

/-! ## Limits -/

namespace SizeLimits

/-- Read limits; a bound that is not given is the usual one. -/
def ofRaw? (v : Raw) : Option SizeLimits := do
  let usual : SizeLimits := {}
  let bounds := [Bound.field, .attachment, .request, .parts]
  let [field, attachment, request, parts] ← v.fieldsOf? (bounds.map Bound.key) | none
  let field ← orElse usual.field Raw.natural? field
  let attachment ← orElse usual.attachment Raw.natural? attachment
  let request ← orElse usual.request Raw.natural? request
  let parts ← orElse usual.parts Raw.natural? parts
  some { field, attachment, request, parts }

/-- Write limits. -/
def toJson (l : SizeLimits) : Json :=
  .object ([Bound.field, .attachment, .request, .parts].map fun b => (b.key, ofNat (l.get b)))

end SizeLimits

end FormIntake
