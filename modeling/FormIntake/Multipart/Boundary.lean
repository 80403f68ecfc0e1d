/-
  FormIntake — the boundary that a content type announces.

  `readBoundary` reads `multipart/form-data; boundary=…`: the first parameter
  of that name decides, with or without quotes around its value.
-/
import FormIntake.Multipart.Error
import FormIntake.Text.AsciiCase
import FormIntake.Text.Blank
import FormIntake.Text.Split

namespace FormIntake.Multipart

/-- The greatest length of a boundary, in bytes. -/
def maxBoundaryBytes : Nat := 70

/-- The value of a parameter `key=value` if its key is `name`, whatever the
    case of the letters. -/
def parameter? (name : String) (piece : List Char) : Option (List Char) :=
  match Text.splitFirst '=' (Text.trimChars piece) with
  | some (key, v) =>
    if Text.sameIgnoringCase (Text.trimChars key) name.toList then some v else none
  | none => none

/-- A boundary without blanks and quotes around it. -/
def bareBoundary (v : List Char) : String :=
  String.ofList (Text.trimMark '\'' (Text.trimMark '"' (Text.trimChars v)))

/-- The boundary announced by a content type. -/
def readBoundary (contentType : String) : Except Error String :=
  let pieces := (Text.trimChars contentType.toList).splitOn ';'
  if Text.sameIgnoringCase (Text.trimChars (pieces.headD [])) "multipart/form-data".toList then
    match pieces.tail.findSome? (parameter? "boundary") with
    | none => .error .missingBoundary
    | some v =>
      let boundary := bareBoundary v
      if boundary.isEmpty ∨ maxBoundaryBytes < boundary.utf8ByteSize then .error .invalidBoundary
      else .ok boundary
  else .error .notMultipart

end FormIntake.Multipart
