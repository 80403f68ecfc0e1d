/-
  FormIntake — accepted files.

  * `Response.carriesFile`: the response brings the bytes of a file.
  * `takenFiles`: the responses with a file that the fields of a form take.
  * `Accepted.file?`: the file of an accepted response; `files`: all of them.

  `Field.accept_file` is what has been checked of a file that is accepted.  The
  files among accepted responses are those that the responses taken carry, in their
  order (`files_of_acceptAll`); nothing else is accepted as one.
-/
import FormIntake.Proofs.Response.Submission
import FormIntake.Proofs.Validation.Decision

namespace FormIntake

open Validation

/-- The response brings the bytes of a file. -/
def Response.carriesFile (r : Response) : Bool := r.type == .attachment && !r.content.isEmpty

/-- The name and the bytes of the file that a response brings. -/
def Response.file (r : Response) : String × Bytes := (r.filename.getD "", r.content)

/-- The responses with a file that the fields take. -/
def takenFiles (fields : List Field) (rs : List Response) : List Response :=
  ((taken fields rs).map (·.2)).filter Response.carriesFile

/-- The name and the bytes of an accepted file; a field left blank has none. -/
def Accepted.file? (a : Accepted) : Option (String × Bytes) :=
  match a.answer with
  | .file text filename content =>
    if (Answer.file text filename content).isBlank then none else some (filename, content)
  | _ => none

/-- The files among accepted responses. -/
def files (out : List Accepted) : List (String × Bytes) := out.filterMap Accepted.file?

variable {f : Field} {fields : List Field} {dir : Phone.Directory} {today : Date}
  {r : Response} {rs : List Response} {a : Accepted} {out : List Accepted}
  {text filename : String} {content : Bytes}

/-! ## Responses with a file -/

theorem Response.carriesFile_iff :
    r.carriesFile = true ↔ r.type = .attachment ∧ r.content ≠ [] := by
  simp [carriesFile]

theorem Response.carriesFile_blank (id : String) (type : FieldType) :
    (blank id type).carriesFile = false := by
  simp [carriesFile, blank]

theorem takenFiles_subset (fields : List Field) (form : Form) :
    takenFiles fields form.responses ⊆ form.uploads :=
  filter_taken_subset Response.carriesFile_blank fields form.responses

theorem nodup_id_takenFiles (fields : List Field) (rs : List Response) :
    ((takenFiles fields rs).map (·.id)).Nodup :=
  nodup_filter_taken Response.carriesFile_blank fields rs

/-! ## One answer -/

theorem AttachmentOptions.check_eq_ok_iff {o : AttachmentOptions} :
    o.check text filename content = .ok () ↔ content ≠ [] ∧ Text.isBlank text = false ∧
      Text.isBlank filename = false ∧ content.length ≤ o.size.bytes := by
  simp only [check, check_bind_eq_ok, require_eq_ok, Bool.not_eq_true', decide_eq_true_eq,
    List.isEmpty_eq_false_iff, ne_eq]

theorem FieldKind.eq_attachment {kind : FieldKind} (h : kind.type = .attachment) :
    ∃ o, kind = .attachment o := by
  cases kind <;> cases h
  exact ⟨_, rfl⟩

theorem Response.gives_file_iff {t : FieldType} : r.Gives t (.file text filename content) ↔
    t = .attachment ∧ SaysText r.answer text ∧ filename = r.filename.getD "" ∧
      content = r.content := by
  constructor
  · intro h
    cases h with
    | file hs => exact ⟨rfl, hs, rfl, rfl⟩
  · rintro ⟨rfl, hs, rfl, rfl⟩
    exact .file hs

/-- A response for a file gives one or nothing. -/
theorem Response.answer_of_gives_attachment {answer : Answer} (h : r.Gives .attachment answer) :
    ∃ text, answer = .file text (r.filename.getD "") r.content := by
  cases h with
  | file hs => exact ⟨_, rfl⟩
  | nothing ht => cases ht
  | single _ ht => exact absurd (by decide) ht

namespace Field

/-- **What has been checked of an accepted file.** -/
theorem accept_file (h : f.accept dir today r = .ok a)
    (hfile : a.answer = .file text filename content) (hblank : ¬ a.answer.Blank) :
    (∃ o, f.kind = .attachment o ∧ content.length ≤ o.size.bytes) ∧ r.type = .attachment ∧
      r.visible = true ∧ SaysText r.answer text ∧ filename = r.filename.getD "" ∧
      content = r.content ∧ content ≠ [] := by
  obtain ⟨answer, hprocess, rfl⟩ := accept_eq_ok_iff.1 h
  obtain rfl : answer = .file text filename content := hfile
  obtain ⟨htype, hgives⟩ := gives_of_process hprocess
  obtain ⟨hattachment, hs, hname, hcontent⟩ := Response.gives_file_iff.1 hgives
  obtain ⟨o, ho⟩ := FieldKind.eq_attachment hattachment
  have hrule : f.kind.verdict? dir today (.file text filename content) =
      some (o.check text filename content) := by rw [ho]; rfl
  rw [process_of_gives htype hgives, map_eq_ok_iff] at hprocess
  obtain ⟨u, hcheck, -⟩ := hprocess
  cases hvisible : r.visible with
  | false => rw [hvisible, checkAnswer_hidden hblank] at hcheck; cases hcheck
  | true =>
    rw [hvisible, checkAnswer_shown hblank hrule] at hcheck
    cases hverdict : o.check text filename content with
    | error d => rw [hverdict] at hcheck; cases hcheck
    | ok u =>
      obtain ⟨hne, -, -, hsize⟩ := AttachmentOptions.check_eq_ok_iff.1 hverdict
      exact ⟨⟨o, ho, hsize⟩, htype.trans hattachment, rfl, hs, hname, hcontent, hne⟩

/-- An accepted response is a file if it carries one. -/
theorem file?_of_accept (h : f.accept dir today r = .ok a) :
    a.file? = if r.carriesFile then some r.file else none := by
  obtain ⟨answer, hprocess, rfl⟩ := accept_eq_ok_iff.1 h
  obtain ⟨htype, hgives⟩ := gives_of_process hprocess
  by_cases hattachment : f.type = .attachment
  · rw [hattachment] at htype hgives
    obtain ⟨text, rfl⟩ := Response.answer_of_gives_attachment hgives
    rw [Accepted.file?, Response.carriesFile, htype]
    dsimp only
    split
    · next hblank =>
      obtain ⟨-, -, hnil⟩ := Answer.isBlank_iff.1 hblank
      simp [hnil]
    · next hblank =>
      have hne := (accept_file h rfl (mt Answer.isBlank_iff.2 hblank)).2.2.2.2.2.2
      simp [Response.file, hne]
  · have hnone : r.carriesFile = false := by simp [Response.carriesFile, htype, hattachment]
    rw [hnone, if_neg (by simp)]
    cases answer with
    | file => exact absurd (Response.gives_file_iff.1 hgives).1 hattachment
    | nothing | single | multiple | rows => rfl

end Field

/-! ## All answers -/

/-- **The accepted files are those that the responses taken carry.** -/
theorem files_of_acceptAll (h : acceptAll dir today fields rs = .ok out) :
    files out = (takenFiles fields rs).map Response.file := by
  rw [acceptAll_eq_mapM_taken, mapM_eq_ok_iff] at h
  rw [takenFiles]
  generalize taken fields rs = frs at h
  induction h with
  | nil => rfl
  | @cons fr a frs out haccept _ ih =>
    rw [files, List.filterMap_cons, Field.file?_of_accept haccept, List.map_cons, List.filter_cons]
    cases hcarries : fr.2.carriesFile with
    | false => exact ih
    | true => exact congrArg (fr.2.file :: ·) ih

end FormIntake
