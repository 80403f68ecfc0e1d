/-
  FormIntake — which files a gate lets through.

  `Gate.Vetted` is what holds of every file that is let through: where its bytes
  come from, what its name is, and the bounds it is within.

  The checks are spread over the way of a file.  The reader refuses paths and large
  parts (`Part.Admitted`), the receiver keeps the last file for a field and numbers
  names (`Form.exists_file_of_mem_reconcile`), the policy looks at extensions and the
  total, and the field at the size and at what was shown (`Field.accept_file`).
  `vetted_of_accept` puts these together for one file, and `process_vets_files` for
  a request.
-/
import FormIntake.Gate
import FormIntake.Proofs.Multipart.Admission
import FormIntake.Proofs.Request.Receiver
import FormIntake.Proofs.Response.Codec
import FormIntake.Proofs.Response.Files
import FormIntake.Proofs.Upload.Policy
import FormIntake.Proofs.Upload.Reconcile

namespace FormIntake

open Validation Multipart Request

/-- A file that a gate may let through: it was answered to a field with its name as
    the text, and the body had these parts. -/
structure Gate.Vetted (g : Gate) (parts : List Part) (f : Field) (a : Accepted)
    (text filename : String) (content : Bytes) : Prop where
  notEmpty : content ≠ []
  /-- The bytes are those of the last part with a file for the field. -/
  uploaded : ∃ p, IsLastFile parts a.fieldId p ∧ p.data = content
  named : text = filename
  plainName : PlainName filename
  extension : ∃ ext, UploadPolicy.HasExtension filename ext ∧ Text.lower ext ∈ g.policy.extensions
  /-- The file is within the bound of the field and that on uploaded files. -/
  fieldLimit : ∃ o, f.kind = .attachment o ∧ content.length ≤ o.size.bytes
  limit : content.length ≤ g.limits.attachment
  visible : a.visible = true

/-! ## Names and sizes -/

/-- A name remains one with a number in front. -/
theorem Multipart.PlainName.numbered {name : String} (h : PlainName name) (k : Nat) :
    PlainName (Upload.numbered k name) := by
  have hhyphen : '-' ∈ (Upload.numbered k name).toList := by simp [Upload.toList_numbered]
  refine ⟨Upload.notMem_numbered rfl (by decide) h.slash k,
    Upload.notMem_numbered rfl (by decide) h.backslash k,
    Upload.notMem_numbered rfl (by decide) h.nul k, ?_, ?_⟩
  · intro heq
    rw [heq] at hhyphen
    exact absurd hhyphen (by decide)
  · intro heq
    rw [heq] at hhyphen
    exact absurd hhyphen (by decide)

theorem Upload.Renamed.plainName {u v : Upload} (h : Upload.Renamed u v)
    (hu : PlainName u.filename) : PlainName v.filename := by
  rcases h.filename with heq | ⟨k, -, heq⟩
  · rw [heq]; exact hu
  · rw [heq]; exact hu.numbered k

theorem AttachmentSize.bytes_le (s : AttachmentSize) : s.bytes ≤ Size.largest := by
  cases s <;> decide

/-! ## The form of a request -/

variable {g : Gate} {parts : List Part} {form : Form} {f : Field} {dir : Phone.Directory}
  {today : Date} {r s : Response} {a : Accepted} {out : List Accepted} {limits : SizeLimits}

/-- A file of a form, by the name and the bytes it has there. -/
theorem exists_file_of_makesUp (hform : MakesUp parts form) (hr : r ∈ form.responses)
    (hcontent : r.content ≠ []) :
    ∃ v ∈ Upload.withDistinctNames (Upload.lastPerField (parts.filterMap file?)),
      v.fieldId = r.id ∧ r.answer = some (.text v.filename) ∧ r.filename = some v.filename ∧
        r.content = v.content := by
  cases hform with
  | intro hread hlast hrs =>
    obtain ⟨v, hv, hid, -, hanswer, hname, hbytes⟩ :=
      Form.exists_file_of_mem_reconcile (content_of_readSubmission hrs) hr hcontent
    exact ⟨v, hv, hid, hanswer, hname, hbytes⟩

/-- A file that a form may have comes from the last part for its field, and its name
    is a name still. -/
theorem exists_part_of_mem {v : Upload} (hadmitted : ∀ p ∈ parts, p.Admitted limits)
    (hv : v ∈ Upload.withDistinctNames (Upload.lastPerField (parts.filterMap file?))) :
    ∃ p, IsLastFile parts v.fieldId p ∧ p.data = v.content ∧ PlainName v.filename ∧
      min v.content.length Size.largest ≤ limits.attachment := by
  obtain ⟨u, hu, hrenamed⟩ := Upload.exists_renamed_of_mem hv
  obtain ⟨p, hlast, hname, hdata⟩ := exists_isLastFile hu
  have hp : p ∈ parts := by
    obtain ⟨front, back, rfl, -, -⟩ := hlast
    simp
  have hsize := (hadmitted p hp).size_le
  have hplain := (hadmitted p hp).plainName _ hname
  rw [hname, hdata, ← hrenamed.content] at hsize
  exact ⟨p, hrenamed.fieldId ▸ hlast, hdata.trans hrenamed.content.symm, hrenamed.plainName hplain,
    hsize⟩

/-- Of the files of a form, those for different fields have different names. -/
theorem id_eq_of_file_eq (hform : MakesUp parts form) (hr : r ∈ form.responses)
    (hs : s ∈ form.responses) (hrc : r.content ≠ []) (hsc : s.content ≠ [])
    (h : r.file.1 = s.file.1) : r.id = s.id := by
  obtain ⟨u, hu, huid, -, huname, -⟩ := exists_file_of_makesUp hform hr hrc
  obtain ⟨v, hv, hvid, -, hvname, -⟩ := exists_file_of_makesUp hform hs hsc
  have hname : u.filename = v.filename := by simpa [Response.file, huname, hvname] using h
  have huv := List.inj_on_of_nodup_map (Upload.nodup_withDistinctNames _) hu hv hname
  rw [← huid, ← hvid, huv]

/-! ## Accepted files -/

/-- **What holds of a file that is accepted.** -/
theorem Gate.vetted_of_accept {text filename : String} {content : Bytes}
    (hform : MakesUp parts form) (hadmitted : ∀ p ∈ parts, p.Admitted g.limits)
    (hpolicy : g.policy.check form = .ok ()) (hr : r.carriesFile = true → r ∈ form.uploads)
    (hid : r.id = f.id) (haccept : f.accept dir today r = .ok a)
    (hfile : a.answer = .file text filename content) (hblank : ¬ a.answer.Blank) :
    g.Vetted parts f a text filename content := by
  obtain ⟨⟨o, ho, hsize⟩, htype, hvisible, hsays, hname, hcontent, hne⟩ :=
    Field.accept_file haccept hfile hblank
  have hupload := hr (Response.carriesFile_iff.2 ⟨htype, hcontent ▸ hne⟩)
  have hmem : r ∈ form.responses := List.mem_of_mem_filter hupload
  obtain ⟨v, hv, hvid, hanswer, hvname, hbytes⟩ :=
    exists_file_of_makesUp hform hmem (hcontent ▸ hne)
  obtain ⟨p, hlast, hdata, hplain, hlimit⟩ := exists_part_of_mem hadmitted hv
  obtain ⟨answer, -, rfl⟩ := Field.accept_eq_ok_iff.1 haccept
  have hallowed := (UploadPolicy.check_eq_ok_iff.1 hpolicy).1 r hupload
  rw [hvname, Option.getD_some] at hname hallowed
  rw [hanswer] at hsays
  rw [← hbytes, ← hcontent] at hdata hlimit
  subst hname
  refine ⟨hne, ⟨p, ?_, hdata⟩, ?_, hplain, UploadPolicy.allows_iff.1 hallowed, ⟨o, ho, hsize⟩, ?_,
    hvisible⟩
  · exact hvid.trans hid ▸ hlast
  · cases hsays
    rfl
  · have := hsize.trans o.size.bytes_le
    omega

theorem Gate.accept_eq_ok_iff : g.accept dir today form = .ok out ↔
    g.policy.check form = .ok () ∧ acceptAll dir today g.fields form.responses = .ok out := by
  rw [Gate.accept, check_bind_eq_ok]
  cases g.policy.check form <;> cases acceptAll dir today g.fields form.responses <;>
    simp [Except.mapError]

/-- **Every file that is accepted from a form has been vetted.** -/
theorem Gate.vetted_of_acceptAll (hform : MakesUp parts form)
    (hadmitted : ∀ p ∈ parts, p.Admitted g.limits) (hpolicy : g.policy.check form = .ok ())
    (hall : acceptAll dir today g.fields form.responses = .ok out) :
    List.Forall₂ (fun f a => a.fieldId = f.id ∧ ∀ text filename content,
      a.answer = .file text filename content →
        a.answer.Blank ∨ g.Vetted parts f a text filename content) (answerable g.fields) out := by
  have htaken : ∀ fr ∈ taken g.fields form.responses,
      fr.2.id = fr.1.id ∧ (fr.2.carriesFile = true → fr.2 ∈ form.uploads) := by
    refine fun fr hfr => ⟨id_of_mem_taken hfr, fun hcarries => ?_⟩
    refine takenFiles_subset g.fields form (List.mem_filter.2 ⟨?_, hcarries⟩)
    exact List.mem_map_of_mem hfr
  rw [acceptAll_eq_mapM_taken, mapM_eq_ok_iff] at hall
  rw [← map_fst_taken g.fields form.responses, List.forall₂_map_left_iff]
  refine ((List.forall₂_and_left _ _).2 ⟨htaken, hall⟩).imp ?_
  rintro fr a ⟨⟨hid, hr⟩, haccept⟩
  constructor
  · obtain ⟨answer, -, rfl⟩ := Field.accept_eq_ok_iff.1 haccept
    rfl
  · intro text filename content hfile
    by_cases hblank : a.answer.Blank
    · exact Or.inl hblank
    · exact Or.inr (vetted_of_accept hform hadmitted hpolicy hr hid haccept hfile hblank)

/-- No two files that are accepted from a form have one name. -/
theorem nodup_name_takenFiles (hform : MakesUp parts form) (fields : List Field) :
    ((takenFiles fields form.responses).map (·.file.1)).Nodup := by
  have hids := nodup_id_takenFiles fields form.responses
  have hmem : ∀ r ∈ takenFiles fields form.responses, r ∈ form.responses ∧ r.content ≠ [] := by
    intro r hr
    refine ⟨List.mem_of_mem_filter (takenFiles_subset fields form hr), ?_⟩
    exact (Response.carriesFile_iff.1 (List.mem_filter.1 hr).2).2
  rw [List.Nodup, List.pairwise_map] at hids ⊢
  refine hids.imp_of_mem fun {r s} hr hs hne hname => hne ?_
  exact id_eq_of_file_eq hform (hmem r hr).1 (hmem s hs).1 (hmem r hr).2 (hmem s hs).2 hname

/-- The files that are accepted from a form are together no larger than all of its
    files. -/
theorem sum_takenFiles_le (fields : List Field) (form : Form) :
    ((takenFiles fields form.responses).map (·.content.length)).sum ≤
      (form.uploads.map (·.content.length)).sum := by
  have hnodup := (nodup_id_takenFiles fields form.responses).of_map
  exact UploadPolicy.sum_content_le (List.subperm_of_subset hnodup (takenFiles_subset fields form))

/-- **Every file that a gate lets through has been vetted**, the bytes being those of
    a part of the body as far as it was received.  No two files have one name, and
    all of them together are within the bound of the policy.  A total past the
    largest size is counted as that size, so only a smaller bound can tell it. -/
theorem Gate.process_vets_files (g : Gate) (dir : Phone.Directory) (today : Date)
    (h : Request.Headers) (chunks : List Chunk) (out : List Accepted) (n : Nat)
    (hprocess : g.process dir today h chunks = (.ok out, n)) :
    ∃ (receiver : Receiver) (bytes : List Bytes) (parts : List Part),
      Receiver.new h g.limits = .ok receiver ∧ chunks.take n = bytes.map .ok ∧
      (receiver.reader.feed {} bytes).1 = .ok parts ∧
      List.Forall₂ (fun f a => a.fieldId = f.id ∧ ∀ text filename content,
        a.answer = .file text filename content →
          a.answer.Blank ∨ g.Vetted parts f a text filename content) (answerable g.fields) out ∧
      ((files out).map (·.1)).Nodup ∧
      (g.policy.maxTotal < Size.largest ∨ ((files out).map (·.2.length)).sum ≤ Size.largest →
        ((files out).map (·.2.length)).sum ≤ g.policy.maxTotal) := by
  rw [Gate.process] at hprocess
  cases hnew : Receiver.new h g.limits with
  | error e => rw [hnew] at hprocess; cases hprocess
  | ok receiver =>
    rw [hnew] at hprocess
    dsimp only at hprocess
    rcases hreceive : receiver.receive chunks with ⟨e | form, m⟩
    · rw [hreceive] at hprocess; cases hprocess
    rw [hreceive] at hprocess
    obtain ⟨haccept, rfl⟩ := Prod.mk.inj hprocess
    obtain ⟨hpolicy, hall⟩ := Gate.accept_eq_ok_iff.1 haccept
    obtain ⟨bytes, parts, htake, hfeed, hform⟩ := Receiver.exists_feed_of_receive hreceive
    have hadmitted : ∀ p ∈ parts, p.Admitted g.limits := by
      rw [← Receiver.limits_of_new hnew]
      exact Reader.admitted_of_feed hfeed
    have hfiles : files out = (takenFiles g.fields form.responses).map Response.file :=
      files_of_acceptAll hall
    refine ⟨receiver, bytes, parts, rfl, htake, hfeed,
      vetted_of_acceptAll hform hadmitted hpolicy hall, ?_, ?_⟩
    · rw [hfiles, List.map_map]
      exact nodup_name_takenFiles hform g.fields
    · have htotal := (UploadPolicy.check_eq_ok_iff.1 hpolicy).2
      have hsum := sum_takenFiles_le g.fields form
      rw [UploadPolicy.totalSize_eq] at htotal
      rw [hfiles, List.map_map]
      change _ ∨ ((takenFiles g.fields form.responses).map (·.content.length)).sum ≤ _ →
        ((takenFiles g.fields form.responses).map (·.content.length)).sum ≤ _
      omega

/-- Of two files of one name the first is numbered; beside them a number of another country
    is looked up. -/
theorem Gate.process_vets_files_numbered :
    let dir : Phone.Directory := .ofList [("+447400123456", .mobile)]
    let today : Date := ⟨2024, 2, 29, by decide⟩
    let f : Field := ⟨"f", "F", true, .attachment {}⟩
    let g : Gate :=
      { fields := [f, ⟨"g", "G", true, .attachment {}⟩,
          ⟨"m", "M", true, .mobile { international := true }⟩] }
    let h := Request.Headers.ofList
      [("Content-Type", Bytes.ofText "multipart/form-data; boundary=b")]
    let part (disposition content : String) : Bytes := Bytes.ofText
      ("--b\r\ncontent-disposition: form-data; " ++ disposition ++ "\r\n\r\n" ++ content ++ "\r\n")
    let response (id : String) : String :=
      "\x7b\"_id\":\"" ++ id ++ "\",\"fieldType\":\"attachment\"\x7d"
    let number : String :=
      "\x7b\"_id\":\"m\",\"fieldType\":\"mobile\",\"answer\":\"+447400123456\"\x7d"
    let responses :=
      "\x7b\"responses\":[" ++ response "f" ++ "," ++ response "g" ++ "," ++ number ++ "]\x7d"
    let chunks : List Chunk := [
      .ok (part "name=f; filename=a.txt" "hi" ++ part "name=g; filename=a.txt" "ho"),
      .ok (part "name=body" responses ++ Bytes.ofText "--b--"), .error "closed"]
    let a : Accepted := ⟨"f", "F", .attachment, true, .file "1-a.txt" "1-a.txt" (Bytes.ofText "hi")⟩
    let b : Accepted := ⟨"g", "G", .attachment, true, .file "a.txt" "a.txt" (Bytes.ofText "ho")⟩
    let c : Accepted := ⟨"m", "M", .mobile, true, .single "+447400123456"⟩
    g.process dir today h chunks = (.ok [a, b, c], 2) ∧
      ∃ parts, g.Vetted parts f a "1-a.txt" "1-a.txt" (Bytes.ofText "hi") := by
  intro dir today f g h part response number responses chunks a b c
  have hprocess : g.process dir today h chunks = (.ok [a, b, c], 2) := by decide +kernel
  obtain ⟨receiver, bytes, parts, -, -, -, hvetted, -, -⟩ :=
    process_vets_files g dir today h chunks [a, b, c] 2 hprocess
  have hfields : answerable g.fields = g.fields := rfl
  rw [hfields] at hvetted
  refine ⟨hprocess, parts, ?_⟩
  refine ((List.forall₂_cons.1 hvetted).1.2 _ _ _ rfl).resolve_left fun hblank => ?_
  exact absurd (Answer.isBlank_iff.2 hblank) (by decide)

end FormIntake
