/-
  FormIntake — receiving a submission.

  A body arrives in chunks, and each is read before the next one is asked for.
  `Receiver.receive` stops at the first error and at the closing delimiter,
  whatever chunks are left.  It returns the form, with the uploaded files joined
  to its responses, and the number of chunks that it took.
-/
import FormIntake.Multipart.Boundary
import FormIntake.Multipart.Stream
import FormIntake.Request.Error
import FormIntake.Request.Headers
import FormIntake.Response.Codec
import FormIntake.Upload.Reconcile

namespace FormIntake.Request

/-! ## Parts -/

/-- The name of the part that has the responses. -/
def responsesPart : String := "body"

/-- What the parts seen so far hold. -/
structure Collected where
  responses : Option (List Response) := none
  /-- The uploaded files in their order. -/
  uploads : List Upload := []

namespace Collected

/-- Add a part.  Of several parts with responses the last counts; a file without
    name and a part of any other name are passed over. -/
def accept (c : Collected) (p : Multipart.Part) : Except Error Collected :=
  match p.filename with
  | some filename =>
    if filename.isEmpty then .ok c
    else .ok { c with uploads := c.uploads ++ [⟨p.name, filename, p.data⟩] }
  | none =>
    if p.name = responsesPart then
      match readSubmission p.data with
      | some rs => .ok { c with responses := some rs }
      | none => .error .unreadableResponses
    else .ok c

/-- Add parts in their order. -/
def acceptAll (c : Collected) (ps : List Multipart.Part) : Except Error Collected :=
  ps.foldlM accept c

/-- The form that the parts make up. -/
def form (c : Collected) : Except Error Form :=
  match c.responses with
  | some rs => .ok (Form.reconcile rs c.uploads)
  | none => .error .missingResponses

end Collected

/-! ## Chunks -/

/-- What a body yields next: bytes, or the reason why there are no more. -/
abbrev Chunk := Except String Bytes

/-- A body that is being received. -/
structure Intake where
  stream : Multipart.Stream := {}
  collected : Collected := {}

namespace Intake

/-- Read what has arrived. -/
def advance (r : Multipart.Reader) (atEnd : Bool) (i : Intake) : Except Error Intake :=
  match r.advance atEnd i.stream with
  | (.ok parts, stream) => (i.collected.acceptAll parts).map fun c => ⟨stream, c⟩
  | (.error e, _) => .error (.ofMultipart e)

/-- Take a chunk. -/
def take (r : Multipart.Reader) (i : Intake) : Chunk → Except Error Intake
  | .ok b => advance r false { i with stream := i.stream.push b }
  | .error reason => .error (.broken reason)

/-- Take chunks until the body is read, `taken` having been taken before. -/
def takeAll (r : Multipart.Reader) (taken : Nat) (i : Intake) :
    List Chunk → Except Error Intake × Nat
  | [] => (advance r true i, taken)
  | chunk :: rest =>
    match i.take r chunk with
    | .error e => (.error e, taken + 1)
    | .ok i => if i.stream.isClosed then (.ok i, taken + 1) else takeAll r (taken + 1) i rest

end Intake

/-! ## Requests -/

/-- A receiver of one request. -/
structure Receiver where
  reader : Multipart.Reader
  /-- The length that the body is declared to have. -/
  declared : Option Nat
  /-- The receiver has received its request. -/
  used : Bool := false

namespace Receiver

/-- The receiver of a request with these headers. -/
def new (h : Headers) (limits : SizeLimits) : Except Error Receiver := do
  limits.check.mapError .unusableLimits
  match h.contentType? with
  | none => .error .missingContentType
  | some contentType => do
    let boundary ← (Multipart.readBoundary contentType).mapError .unusableBoundary
    pure { reader := ⟨boundary, limits⟩, declared := h.contentLength? }

/-- Why a request is refused before a chunk is taken: the receiver is used, or
    the declared length is above the limit. -/
def refusal? (r : Receiver) : Option Error :=
  if r.used then some .used
  else
    match r.declared with
    | some n =>
      let max := r.reader.limits.request
      if max < n then some (.overLimit (.totalTooLarge n max)) else none
    | none => none

/-- Receive a request: the form or why it is refused, and the number of chunks
    taken. -/
def receive (r : Receiver) (chunks : List Chunk) : Except Error Form × Nat :=
  match r.refusal? with
  | some e => (.error e, 0)
  | none =>
    let (intake, taken) := Intake.takeAll r.reader 0 {} chunks
    (intake.bind fun i => i.collected.form, taken)

/-- The receiver after it has received a request. -/
def done (r : Receiver) : Receiver := { r with used := true }

end Receiver

end FormIntake.Request
