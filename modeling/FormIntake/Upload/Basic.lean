/-
  FormIntake — uploaded files before they are joined to their responses.

  A field may be uploaded to more than once, and files of different fields may
  have one name.  `lastPerField` keeps the last file of each field, and
  `withDistinctNames` numbers the files that would share a name.
-/
import FormIntake.Bytes
import FormIntake.Text.Numeral

namespace FormIntake

/-- An uploaded file. -/
structure Upload where
  /-- The id of the field it is for. -/
  fieldId : String
  filename : String
  content : Bytes
  deriving DecidableEq, Repr

namespace Upload

/-! ## One file for each field -/

/-- The files that no later one for the same field replaces. -/
def lastPerField : List Upload → List Upload
  | [] => []
  | u :: rest =>
    if rest.any fun v => v.fieldId == u.fieldId then lastPerField rest else u :: lastPerField rest

/-! ## One name for each file -/

/-- A name with a number in front. -/
def numbered (k : Nat) (name : String) : String :=
  String.ofList (Text.digits k ++ '-' :: name.toList)

/-- The name with the least number from one on that is not taken.  One of the
    first numbers is free, for there are more of them than taken names. -/
def firstFree (taken : List String) (name : String) : String :=
  let candidates := (List.range (taken.length + 1)).map fun k => numbered (k + 1) name
  (candidates.find? fun c => !taken.contains c).getD name

/-- The name itself if it is free, else the first free one with a number. -/
def freeName (taken : List String) (name : String) : String :=
  if taken.contains name then firstFree taken name else name

/-- The files with names that differ from each other.  The last file of a name
    keeps it; those before it are numbered from the end. -/
def withDistinctNames : List Upload → List Upload
  | [] => []
  | u :: rest =>
    let rest := withDistinctNames rest
    { u with filename := freeName (rest.map (·.filename)) u.filename } :: rest

end Upload

end FormIntake
