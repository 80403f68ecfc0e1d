/-
  FormIntake — which files are joined to which responses.

  `Spliced files r s`: of the response `r` the join of `files` makes `s`.  It is the
  response itself, or the response with a file that is for its field.

  `forall₂_spliced` says so of all responses, in their order;
  `exists_file_of_mem_reconcile` says where the bytes of a form come from.
-/
import FormIntake.Proofs.Upload.Naming
import FormIntake.Upload.Reconcile

namespace FormIntake

/-- What becomes of a response when files are joined. -/
inductive Spliced (files : List Upload) (r : Response) : Response → Prop
  | kept : Spliced files r r
  | joined {u} : u ∈ files → u.fieldId = r.id → r.type = .attachment → Spliced files r (r.join u)

variable {files files' : List Upload} {r s : Response} {rs : List Response} {u : Upload}

theorem Spliced.mono (h : Spliced files r s) (hsub : files ⊆ files') : Spliced files' r s := by
  cases h with
  | kept => exact .kept
  | joined hu hid htype => exact .joined (hsub hu) hid htype

theorem Response.mem_of_upload? (h : r.upload? files = some u) :
    u ∈ files ∧ u.fieldId = r.id ∧ r.type = .attachment := by
  unfold Response.upload? at h
  split at h
  · next htype =>
    exact ⟨List.mem_of_find?_eq_some h, by simpa using List.find?_some h, htype⟩
  · cases h

theorem Response.spliced_of_upload? (h : r.upload? files = some u) : Spliced files r (r.join u) := by
  obtain ⟨hu, hid, htype⟩ := mem_of_upload? h
  exact .joined hu hid htype

namespace Form

/-- **Responses are joined with files for their fields, and not changed else.** -/
theorem forall₂_spliced (files : List Upload) (rs : List Response) :
    List.Forall₂ (Spliced files) rs (joinUploads files rs) := by
  induction rs generalizing files with
  | nil => exact .nil
  | cons r rs ih =>
    rw [joinUploads]
    split
    · next u hu =>
      refine .cons (Response.spliced_of_upload? hu) ((ih _).imp fun _ _ h => h.mono ?_)
      exact List.filter_subset_self _
    · exact .cons .kept (ih files)

theorem exists_spliced_of_mem (h : s ∈ joinUploads files rs) : ∃ r ∈ rs, Spliced files r s :=
  Upload.exists_of_mem_forall₂ (forall₂_spliced files rs) h

/-- **The bytes of a form are those of uploaded files**: a response that has any is
    one for a file, and it is joined with the last file for its field, whose name
    may have been numbered. -/
theorem exists_file_of_mem_reconcile (hrs : ∀ r ∈ rs, r.content = [])
    (hs : s ∈ (Form.reconcile rs files).responses) (hcontent : s.content ≠ []) :
    ∃ v ∈ Upload.withDistinctNames (Upload.lastPerField files), v.fieldId = s.id ∧
      s.type = .attachment ∧ s.answer = some (.text v.filename) ∧ s.filename = some v.filename ∧
      s.content = v.content := by
  obtain ⟨r, hr, hspliced⟩ := exists_spliced_of_mem hs
  cases hspliced with
  | kept => exact absurd (hrs _ hr) hcontent
  | @joined v hv hid htype => exact ⟨v, hv, hid, htype, rfl, rfl, rfl⟩

end Form

end FormIntake
