/-
  FormIntake — the disposition of a part: the field it belongs to and, for an
  uploaded file, the file's name.

  `readDisposition` reads `form-data; name="…"; filename="…"`.  A file name
  that could be read as a path is refused.
-/
import FormIntake.Multipart.Error
import FormIntake.Text.AsciiCase
import FormIntake.Text.Blank
import FormIntake.Text.Split

namespace FormIntake.Multipart

/-- The field a part belongs to and the name of its file. -/
structure Disposition where
  name : String
  filename : Option String
  deriving DecidableEq, Repr

/-- The text between two equal quotes of either kind, or the text itself where
    it does not stand between such quotes. -/
def unquote (v : List Char) : String :=
  let bare := Text.trimChars v
  let within (q : Char) : Bool := bare.head? == some q && bare.getLast? == some q
  if 2 ≤ bare.length ∧ (within '"' ∨ within '\'') then String.ofList bare.tail.dropLast
  else String.ofList bare

/-- A file name that names a directory or leads out of one. -/
def isPath (filename : String) : Bool :=
  filename.toList.any (fun c => c == '/' || c == '\\' || c == '\x00') ||
    filename == "." || filename == ".."

/-- The parameters of a disposition read so far. -/
structure DispositionParameters where
  name : Option String := none
  filename : Option String := none

/-- Take one piece of a disposition into account.  Of two parameters with one
    key the later one counts. -/
def DispositionParameters.note (d : DispositionParameters) (piece : List Char) :
    Except Error DispositionParameters :=
  let piece := Text.trimChars piece
  if Text.sameIgnoringCase piece "form-data".toList then .ok d
  else match Text.splitFirst '=' piece with
    | none => .ok d
    | some (key, v) =>
      let key := Text.trimChars key
      if Text.sameIgnoringCase key "name".toList then .ok { d with name := some (unquote v) }
      else if Text.sameIgnoringCase key "filename".toList then
        if isPath (unquote v) then .error (.invalidDisposition .pathCharacters)
        else .ok { d with filename := some (unquote v) }
      else .ok d

/-- The disposition that a header value gives. -/
def readDisposition (v : String) : Except Error Disposition := do
  let d ← (v.toList.splitOn ';').foldlM DispositionParameters.note {}
  match d.name with
  | some name => .ok ⟨name, d.filename⟩
  | none => .error (.invalidDisposition .missingName)

end FormIntake.Multipart
