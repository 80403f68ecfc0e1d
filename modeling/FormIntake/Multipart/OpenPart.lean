/-
  FormIntake — a part whose payload is still arriving.

  Every append is held to the limit of the part and to what is left of the
  limit of the request before a byte is kept, so a refused append changes
  nothing.  The payload is kept with its last byte first, which makes an append
  as cheap as its chunk is short; `data` is the payload in its order, and an
  append is a join of lists there (`data_push`).
-/
import FormIntake.Limits
import FormIntake.Multipart.Disposition
import FormIntake.Multipart.Part

namespace FormIntake.Multipart

/-- A part whose closing delimiter has not been seen. -/
structure OpenPart where
  /-- The name of the field. -/
  name : String
  /-- The name of the uploaded file; a plain field has none. -/
  filename : Option String
  /-- The media type that the part's headers give. -/
  contentType : Option String
  /-- The greatest length of the payload. -/
  limit : Nat
  /-- The payload so far, its last byte first. -/
  reversed : Bytes := []
  /-- The length of the payload so far. -/
  size : Nat := 0
  size_eq : size = reversed.length := by rfl
  deriving DecidableEq, Repr

namespace OpenPart

/-- A part without payload.  It is held to the limit of uploaded files if a file
    name is given, be it empty, and else to that of plain fields. -/
def start (limits : SizeLimits) (name : String) (filename contentType : Option String) : OpenPart :=
  { name, filename, contentType,
    limit := if filename.isSome then limits.attachment else limits.field }

/-- The payload so far. -/
def data (p : OpenPart) : Bytes := p.reversed.reverse

@[simp] theorem length_data (p : OpenPart) : p.data.length = p.size := by
  simp [data, p.size_eq]

/-- An uploaded file. -/
def isFile (p : OpenPart) : Bool := p.filename.isSome

/-- The error for a payload of `size` bytes. -/
def tooLarge (p : OpenPart) (size : Nat) : Error :=
  if p.isFile then .fileTooLarge p.name size p.limit else .fieldTooLarge p.name size p.limit

/-- The part with more payload. -/
def push (p : OpenPart) (chunk : Bytes) : OpenPart :=
  { p with
    reversed := chunk.reverse ++ p.reversed
    size := p.size + chunk.length
    size_eq := by simp [p.size_eq, Nat.add_comm] }

@[simp] theorem data_push (p : OpenPart) (chunk : Bytes) : (p.push chunk).data = p.data ++ chunk := by
  simp [data, push]

/-- The part with a chunk appended, and the bytes then charged to the request,
    of which `total` are charged already. -/
def append (limits : SizeLimits) (total : Nat) (p : OpenPart) (chunk : Bytes) :
    Except Error (OpenPart × Nat) :=
  if chunk.isEmpty then .ok (p, total)
  else
    let size := Size.add p.size chunk.length
    let nextTotal := Size.add total chunk.length
    if p.limit < size then .error (p.tooLarge size)
    else if limits.request < nextTotal then .error (.totalTooLarge nextTotal limits.request)
    else .ok (p.push chunk, nextTotal)

/-- The part, its payload being complete. -/
def close (p : OpenPart) : Part := ⟨p.name, p.filename, p.contentType, p.data⟩

end OpenPart

end FormIntake.Multipart
