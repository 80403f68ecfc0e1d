/-
  FormIntake — one part of a multipart body.
-/
import FormIntake.Bytes

namespace FormIntake.Multipart

/-- A part whose closing delimiter has been seen. -/
structure Part where
  /-- The name of the field. -/
  name : String
  /-- The name of the uploaded file; a plain field has none. -/
  filename : Option String
  /-- The media type that the part's headers give. -/
  contentType : Option String
  /-- The payload. -/
  data : Bytes
  deriving DecidableEq, Repr

namespace Part

/-- An uploaded file: a file name is given, be it empty. -/
def isFile (p : Part) : Bool := p.filename.isSome

/-- A plain field. -/
def isField (p : Part) : Bool := p.filename.isNone

/-- The payload as text, if it is UTF-8. -/
def text? (p : Part) : Option String := Bytes.text? p.data

/-- The length of the payload. -/
def size (p : Part) : Nat := p.data.length

end Part

end FormIntake.Multipart
