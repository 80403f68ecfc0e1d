/-
  FormIntake — joining uploaded files to the responses they are for.

  A file goes to the first response of its field that is one for an uploaded
  file, and only to that one; a file without such a response is dropped.
-/
import FormIntake.Response.Basic
import FormIntake.Upload.Basic

namespace FormIntake

namespace Response

/-- The response with a file joined to it: the name of the file is also its
    answer. -/
def join (r : Response) (u : Upload) : Response :=
  { r with answer := some (.text u.filename), filename := some u.filename, content := u.content }

/-- The file for a response, if the response is one for an uploaded file. -/
def upload? (r : Response) (uploads : List Upload) : Option Upload :=
  if r.type = .attachment then uploads.find? fun u => u.fieldId == r.id else none

end Response

namespace Form

/-- The responses with the files joined to them. -/
def joinUploads : List Upload → List Response → List Response
  | _, [] => []
  | uploads, r :: rest =>
    match r.upload? uploads with
    | some u => r.join u :: joinUploads (uploads.filter fun v => v.fieldId != r.id) rest
    | none => r :: joinUploads uploads rest

/-- The form of a submission: of several files for one field the last counts,
    and no two files have one name. -/
def reconcile (responses : List Response) (uploads : List Upload) : Form :=
  ⟨joinUploads (Upload.withDistinctNames (Upload.lastPerField uploads)) responses⟩

end Form

end FormIntake
