/-
  FormIntake — the sizes that a submission is held to.

  `SizeLimits` bounds a plain field, an uploaded file, the whole request and
  the number of parts.  `SizeLimits.check` tells whether the four bounds can
  be used together.
-/
import FormIntake.Size

namespace FormIntake

/-- The bounds enforced while a submission arrives. -/
structure SizeLimits where
  /-- Bytes of a part that is a plain field. -/
  field : Nat := 3 * Size.mebibyte
  /-- Bytes of a part that is an uploaded file. -/
  attachment : Nat := 7 * Size.mebibyte
  /-- Bytes of all parts together, their headers included. -/
  request : Nat := 50 * Size.mebibyte
  /-- Number of parts. -/
  parts : Nat := 100
  deriving DecidableEq, Repr

namespace SizeLimits

/-- One of the bounds. -/
inductive Bound where
  | field
  | attachment
  | request
  | parts
  deriving DecidableEq, Repr

/-- The name of a bound in a configuration. -/
def Bound.key : Bound → String
  | field => "maxFieldBytes"
  | attachment => "maxAttachmentBytes"
  | request => "maxRequestBytes"
  | parts => "maxParts"

/-- The value of a bound. -/
def get (l : SizeLimits) : Bound → Nat
  | .field => l.field
  | .attachment => l.attachment
  | .request => l.request
  | .parts => l.parts

/-- The limits with one bound changed. -/
def set (l : SizeLimits) (b : Bound) (n : Nat) : SizeLimits :=
  match b with
  | .field => { l with field := n }
  | .attachment => { l with attachment := n }
  | .request => { l with request := n }
  | .parts => { l with parts := n }

/-- Why limits cannot be used. -/
inductive Defect where
  /-- The bound is zero, so nothing would ever be accepted. -/
  | zero (bound : Bound)
  /-- The bound on one part is above the bound on the whole request. -/
  | exceedsRequest (bound : Bound) (size max : Nat)
  deriving DecidableEq, Repr

/-- The wording of a defect. -/
def Defect.message : Defect → String
  | zero b => s!"{b.key} must be greater than zero"
  | exceedsRequest b size max =>
    s!"{b.key} ({size} bytes) exceeds maxRequestBytes ({max} bytes)"

/-- The first defect of the limits: a bound that is zero comes before a bound
    on one part that is above the bound on the request. -/
def check (l : SizeLimits) : Except Defect Unit := do
  for b in [Bound.field, .attachment, .request, .parts] do
    if l.get b = 0 then throw (.zero b)
  for b in [Bound.field, .attachment] do
    if l.request < l.get b then throw (.exceedsRequest b (l.get b) l.request)

end SizeLimits

end FormIntake
