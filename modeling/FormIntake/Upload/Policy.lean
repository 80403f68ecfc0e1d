/-
  FormIntake — which uploaded files a form takes.

  A policy has the extensions that file names may have and the greatest size of
  all files together.
-/
import FormIntake.Response.Basic
import FormIntake.Size
import FormIntake.Text.AsciiCase
import FormIntake.Text.Blank

namespace FormIntake

/-- What becomes of the responses to a form. -/
inductive Delivery where
  /-- They are sent by e-mail. -/
  | email
  /-- They are stored. -/
  | storage
  deriving DecidableEq, Repr

/-- The greatest size of all files of one submission, in bytes. -/
def Delivery.maxTotal : Delivery → Nat
  | email => 7000000
  | storage => 20000000

/-- What uploaded files are held to. -/
structure UploadPolicy where
  /-- The greatest size of all files together. -/
  maxTotal : Nat
  /-- The extensions that are allowed, each with its dot and in small letters. -/
  extensions : List (List Char)
  deriving DecidableEq, Repr

namespace UploadPolicy

/-- The extensions that are allowed if no others are given. -/
def usualExtensions : List (List Char) :=
  [".asc", ".avi", ".bmp", ".csv", ".dgn", ".docx", ".dwf", ".dwg", ".dxf", ".ent", ".gif",
    ".jpeg", ".jpg", ".mpeg", ".mov", ".mp3", ".mp4", ".mpg", ".msg", ".odb", ".odf", ".odg",
    ".odp", ".ods", ".odt", ".pdf", ".png", ".ppt", ".pptx", ".rtf", ".sxc", ".sxd", ".sxi",
    ".sxw", ".tif", ".tiff", ".txt", ".wmv", ".xml", ".xls", ".xlsx", ".zip", ".heic", ".heif",
    ".jfif", ".mpp", ".wav", ".webp"].map String.toList

/-- The usual policy. -/
def usual (d : Delivery) : UploadPolicy := ⟨d.maxTotal, usualExtensions⟩

/-- An extension with its dot and in small letters. -/
def normalExtension (e : String) : List Char :=
  match Text.lower (Text.trimChars e.toList) with
  | '.' :: rest => '.' :: rest
  | cs => '.' :: cs

/-- The policy with other extensions, written in capitals or small letters, with
    or without their dots. -/
def withExtensions (p : UploadPolicy) (es : List String) : UploadPolicy :=
  { p with extensions := es.map normalExtension }

/-- The last dot of a file name and what follows it. -/
def extension? (filename : List Char) : Option (List Char) :=
  match filename.reverse.dropWhile (· != '.') with
  | [] => none
  | _ => some ('.' :: (filename.reverse.takeWhile (· != '.')).reverse)

/-- A file of that name is allowed. -/
def allows (p : UploadPolicy) (filename : String) : Bool :=
  (extension? filename.toList).any fun e => p.extensions.contains (Text.lower e)

/-- Why the files of a form are refused. -/
inductive Violation where
  /-- All files together are too large. -/
  | tooLarge (size max : Nat)
  /-- A file has an extension that is not allowed. -/
  | invalidExtension (filename : String)
  deriving DecidableEq, Repr

namespace Violation

/-- The wording of a violation. -/
def message : Violation → String
  | tooLarge size max => s!"attachments total {size} bytes, exceeding limit of {max} bytes"
  | invalidExtension filename => s!"attachment '{filename}' has a file type that is not allowed"

/-- What the respondent sees. -/
def publicMessage : Violation → String
  | tooLarge .. => "Please keep the size of your attachments under the limit."
  | invalidExtension _ => "Some files were invalid. Try uploading another file."

end Violation

/-- The size of all files of a form. -/
def totalSize (uploads : List Response) : Nat :=
  uploads.foldl (fun total r => Size.add total r.content.length) 0

/-- Check the files of a form: the extension of each, then their size. -/
def check (p : UploadPolicy) (form : Form) : Except Violation Unit :=
  match (form.uploads.map fun r => r.filename.getD "").find? fun name => !p.allows name with
  | some name => .error (.invalidExtension name)
  | none =>
    if p.maxTotal < totalSize form.uploads then
      .error (.tooLarge (totalSize form.uploads) p.maxTotal)
    else .ok ()

end UploadPolicy

end FormIntake
