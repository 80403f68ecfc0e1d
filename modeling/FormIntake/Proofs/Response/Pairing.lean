/-
  FormIntake — which response an uploaded file ends up with.

  The file for a field is joined to the first response of the field that is one for a
  file (`responsesTo_joinUploads`).  The field takes the last response with its id,
  so that is the one with the file only if no response to the field follows
  (`lastResponse?_of_responsesTo`).  `reconcile_pairs` says when an accepted submission has
  the file; `reconcile_drops` is one that has not.
-/
import FormIntake.Proofs.Response.Files
import FormIntake.Proofs.Upload.Reconcile

namespace FormIntake

open Validation

/-! ## The file for a field -/

namespace Upload

variable {u : Upload} {us : List Upload}

theorem map_fieldId_withDistinctNames (us : List Upload) :
    (withDistinctNames us).map (·.fieldId) = us.map (·.fieldId) := by
  induction us with
  | nil => rfl
  | cons u us ih => rw [withDistinctNames, List.map_cons, List.map_cons, ih]

theorem find?_of_nodup (h : (us.map (·.fieldId)).Nodup) (hu : u ∈ us) :
    us.find? (fun v => v.fieldId == u.fieldId) = some u := by
  induction us with
  | nil => cases hu
  | cons w us ih =>
    rw [List.map_cons, List.nodup_cons] at h
    rcases List.mem_cons.1 hu with rfl | hu
    · exact List.find?_cons_of_pos (by simp)
    · have hne : w.fieldId ≠ u.fieldId := by
        intro heq
        exact h.1 (heq ▸ List.mem_map_of_mem hu)
      rw [List.find?_cons_of_neg (by simpa using hne)]
      exact ih h.2 hu

/-- The last file for a field is found by its field, under its own name or a numbered
    one. -/
theorem exists_find?_of_mem (hu : u ∈ lastPerField us) :
    ∃ v, (withDistinctNames (lastPerField us)).find? (fun w => w.fieldId == u.fieldId) = some v ∧
      Renamed u v := by
  obtain ⟨v, hv, hrenamed⟩ := exists_of_forall₂_of_mem (forall₂_renamed (lastPerField us)) hu
  have hnodup : ((withDistinctNames (lastPerField us)).map (·.fieldId)).Nodup := by
    rw [map_fieldId_withDistinctNames]
    exact nodup_lastPerField us
  exact ⟨v, hrenamed.fieldId ▸ find?_of_nodup hnodup hv, hrenamed⟩

end Upload

/-! ## Responses with the id of a file -/

namespace Form

variable {files us front back : List Upload} {rs before after : List Response} {r : Response}
  {u v : Upload} {id : String}

/-- Files for other fields leave the responses to a field as they are. -/
theorem responsesTo_joinUploads_of_ne (h : ∀ w ∈ files, w.fieldId ≠ id) :
    responsesTo id (joinUploads files rs) = responsesTo id rs := by
  induction rs generalizing files with
  | nil => rfl
  | cons r rs ih =>
    rw [joinUploads]
    split
    · next u hu =>
      obtain ⟨hmem, hid, -⟩ := Response.mem_of_upload? hu
      have hne : r.id ≠ id := hid ▸ h u hmem
      rw [responsesTo_cons_of_ne (show (r.join u).id ≠ id from hne), responsesTo_cons_of_ne hne]
      exact ih fun w hw => h w (List.mem_of_mem_filter hw)
    · by_cases hid : r.id = id
      · rw [responsesTo_cons_of_eq hid, responsesTo_cons_of_eq hid, ih h]
      · rw [responsesTo_cons_of_ne hid, responsesTo_cons_of_ne hid, ih h]

/-- **A file is joined to the first response of its field that is one for a file**, and
    the other responses to the field stay as they are. -/
theorem responsesTo_joinUploads (hbefore : ∀ s ∈ before, s.id = id → s.type ≠ .attachment)
    (hid : r.id = id) (htype : r.type = .attachment)
    (hv : files.find? (fun w => w.fieldId == id) = some v) :
    responsesTo id (joinUploads files (before ++ r :: after)) =
      responsesTo id before ++ r.join v :: responsesTo id after := by
  induction before generalizing files with
  | nil =>
    have hupload : r.upload? files = some v := by
      rw [Response.upload?, if_pos htype, hid]
      exact hv
    rw [List.nil_append, joinUploads, hupload]
    dsimp only
    rw [responsesTo_cons_of_eq (show (r.join v).id = id from hid), responsesTo_joinUploads_of_ne]
    · rfl
    · intro w hw
      simpa [hid] using (List.mem_filter.1 hw).2
  | cons s before ih =>
    rw [List.forall_mem_cons] at hbefore
    obtain ⟨hs, hbefore⟩ := hbefore
    rw [List.cons_append, joinUploads]
    by_cases hsid : s.id = id
    · have hnone : s.upload? files = none := if_neg (hs hsid)
      rw [hnone]
      dsimp only
      rw [responsesTo_cons_of_eq hsid, responsesTo_cons_of_eq hsid, ih hbefore hv, List.cons_append]
    · split
      · -- the file that is used up is one for another field
        have hrest : (files.filter fun w => w.fieldId != s.id).find? (fun w => w.fieldId == id) =
            some v := by
          rw [List.find?_filter, ← hv]
          congr 1
          funext w
          by_cases hw : w.fieldId = id
          · simp [hw, Ne.symm hsid]
          · simp [hw]
        next u _ =>
        rw [responsesTo_cons_of_ne (show (s.join u).id ≠ id from hsid), responsesTo_cons_of_ne hsid,
          ih hbefore hrest]
      · rw [responsesTo_cons_of_ne hsid, responsesTo_cons_of_ne hsid, ih hbefore hv]

theorem exists_first_attachment (h : ∃ r ∈ rs, r.id = id ∧ r.type = .attachment) :
    ∃ before r after, rs = before ++ r :: after ∧ r.id = id ∧ r.type = .attachment ∧
      ∀ s ∈ before, s.id = id → s.type ≠ .attachment := by
  have hsome : (rs.find? fun r => r.id == id && r.type == .attachment).isSome = true := by
    rw [List.find?_isSome]
    simpa using h
  obtain ⟨r, hr⟩ := Option.isSome_iff_exists.1 hsome
  obtain ⟨hpos, before, after, hsplit, hbefore⟩ := List.find?_eq_some_iff_append.1 hr
  simp only [Bool.and_eq_true, beq_iff_eq] at hpos
  refine ⟨before, r, after, hsplit, hpos.1, hpos.2, ?_⟩
  intro s hs hid htype
  simpa [hid, htype] using hbefore s hs

/-- Of the responses to a field that has a file, the last one behind the one with the
    file counts, or that one itself. -/
theorem lastResponse?_of_responsesTo {form : List Response} {j : Response}
    (h : responsesTo id form = responsesTo id before ++ j :: responsesTo id after) :
    lastResponse? id form = some ((lastResponse? id after).getD j) := by
  rw [lastResponse?_eq, lastResponse?_eq, h, List.getLast?_append, List.getLast?_cons]
  rfl

/-- What an accepted submission says of a field for a file. -/
theorem exists_file_of_acceptAll {dir : Phone.Directory} {today : Date} {fields : List Field}
    {out : List Accepted} {f : Field} {s : Response}
    (hdistinct : ((answerable fields).map (·.id)).Nodup)
    (h : acceptAll dir today fields rs = .ok out) (hf : f ∈ answerable fields) (hid : f.id = id)
    (htype : f.type = .attachment) (hs : lastResponse? id rs = some s) :
    ∃ a ∈ out, a.fieldId = f.id ∧
      ∃ text, a.answer = .file text (s.filename.getD "") s.content := by
  rw [acceptAll_eq_mapM hdistinct, mapM_eq_ok_iff] at h
  obtain ⟨a, ha, haccept⟩ := Upload.exists_of_forall₂_of_mem h hf
  obtain ⟨answer, hprocess, rfl⟩ := Field.accept_eq_ok_iff.1 haccept
  obtain ⟨-, hgives⟩ := Field.gives_of_process hprocess
  rw [htype, Field.responseIn, hid, hs, Option.getD_some] at hgives
  obtain ⟨text, rfl⟩ := Response.answer_of_gives_attachment hgives
  exact ⟨_, ha, rfl, text, rfl⟩

/-- **When the response that counts has the file.**  The last file for a field goes to
    the first response of the field that is one for a file, which behind it the last
    response to the field overrides, with what it brings itself.  So the response that
    counts has the bytes of the file if nothing follows that overrides it, and an
    accepted submission has them in that case and no other. -/
theorem reconcile_pairs (hus : us = front ++ u :: back) (hback : ∀ w ∈ back, w.fieldId ≠ u.fieldId)
    (hrs : ∃ r ∈ rs, r.id = u.fieldId ∧ r.type = .attachment) :
    ∃ before r after v, rs = before ++ r :: after ∧ r.id = u.fieldId ∧ r.type = .attachment ∧
      (∀ s ∈ before, s.id = u.fieldId → s.type ≠ .attachment) ∧ Upload.Renamed u v ∧
      responsesTo u.fieldId (reconcile rs us).responses =
        responsesTo u.fieldId before ++ r.join v :: responsesTo u.fieldId after ∧
      ((∀ s, lastResponse? u.fieldId (reconcile rs us).responses = some s →
          s.type = .attachment → s.content = u.content) ↔
        ∀ s, lastResponse? u.fieldId after = some s →
          s.type = .attachment → s.content = u.content) ∧
      ∀ dir today fields out f, ((answerable fields).map (·.id)).Nodup →
        acceptAll dir today fields (reconcile rs us).responses = .ok out → f ∈ answerable fields →
        f.id = u.fieldId → f.type = .attachment →
        ∃ a ∈ out, a.fieldId = f.id ∧ ∃ text name content, a.answer = .file text name content ∧
          (content = u.content ↔
            ∀ s, lastResponse? u.fieldId after = some s → s.content = u.content) := by
  obtain ⟨before, r, after, rfl, hid, htype, hbefore⟩ := exists_first_attachment hrs
  obtain ⟨v, hv, hrenamed⟩ := Upload.exists_find?_of_mem
    (Upload.mem_lastPerField_iff.2 ⟨front, back, hus, hback⟩)
  have hform : responsesTo u.fieldId (reconcile (before ++ r :: after) us).responses =
      responsesTo u.fieldId before ++ r.join v :: responsesTo u.fieldId after :=
    responsesTo_joinUploads hbefore hid htype hv
  have hlast := lastResponse?_of_responsesTo hform
  have hcontent : (r.join v).content = u.content := hrenamed.content
  refine ⟨before, r, after, v, rfl, hid, htype, hbefore, hrenamed, hform, ?_, ?_⟩
  · rw [hlast]
    cases hafter : lastResponse? u.fieldId after with
    | none => simp [hcontent]
    | some s => simp
  · intro dir today fields out f hdistinct hout hf hfid hftype
    obtain ⟨a, ha, haid, text, hanswer⟩ :=
      exists_file_of_acceptAll hdistinct hout hf hfid hftype hlast
    refine ⟨a, ha, haid, text, _, _, hanswer, ?_⟩
    cases hafter : lastResponse? u.fieldId after with
    | none => simp [hcontent]
    | some s => simp

/-- A response of another type may stand in front of the one for the file. -/
theorem reconcile_pairs_behind :
    let dir : Phone.Directory := .ofList []
    let today : Date := ⟨2024, 2, 29, by decide⟩
    let fields : List Field := [⟨"f", "F", true, .attachment {}⟩]
    let rs := [Response.single "f" .shortText "x", .blank "f" .attachment]
    let us : List Upload := [⟨"f", "a.pdf", Bytes.ofText "old"⟩, ⟨"f", "a.pdf", Bytes.ofText "new"⟩]
    ∃ out, acceptAll dir today fields (reconcile rs us).responses = .ok out ∧
      ∃ a ∈ out, a.fieldId = "f" ∧ ∃ text name, a.answer = .file text name (Bytes.ofText "new") := by
  intro dir today fields rs us
  have hout : acceptAll dir today fields (reconcile rs us).responses =
      .ok [⟨"f", "F", .attachment, true, .file "a.pdf" "a.pdf" (Bytes.ofText "new")⟩] := by
    decide +kernel
  have hus : us = [⟨"f", "a.pdf", Bytes.ofText "old"⟩] ++ ⟨"f", "a.pdf", Bytes.ofText "new"⟩ :: [] :=
    rfl
  have hrs : ∃ r ∈ rs, r.id = "f" ∧ r.type = .attachment :=
    ⟨_, List.mem_cons_of_mem _ List.mem_cons_self, rfl, rfl⟩
  obtain ⟨before, r, after, v, hsplit, -, htype, -, -, -, -, haccepted⟩ :=
    reconcile_pairs hus (by simp) hrs
  have hafter : after = [] := by
    rcases before with _ | ⟨s, _ | ⟨s', before⟩⟩
    · have hr := (List.cons.inj hsplit).1
      rw [← hr] at htype
      cases htype
    · exact (List.cons.inj (List.cons.inj hsplit).2).2.symm
    · simp [rs] at hsplit
  obtain ⟨a, ha, hid, text, name, content, hanswer, hcontent⟩ :=
    haccepted dir today fields _ _ (by decide) hout List.mem_cons_self rfl rfl
  refine ⟨_, hout, a, ha, hid, text, name, ?_⟩
  rw [hanswer, hcontent.2 (by simp [hafter, lastResponse?])]

/-- Of two responses for a file the first gets it and the last counts: the submission
    is accepted, and the file is lost. -/
theorem reconcile_drops :
    let dir : Phone.Directory := .ofList []
    let today : Date := ⟨2024, 2, 29, by decide⟩
    let fields : List Field := [⟨"f", "F", false, .attachment {}⟩]
    let rs := [Response.blank "f" .attachment, .blank "f" .attachment]
    let u : Upload := ⟨"f", "a.pdf", Bytes.ofText "new"⟩
    (∃ s, lastResponse? u.fieldId (reconcile rs [u]).responses = some s ∧ s.type = .attachment ∧
      s.content ≠ u.content) ∧
    acceptAll dir today fields (reconcile rs [u]).responses =
      .ok [⟨"f", "F", .attachment, true, .file "" "" []⟩] := by
  intro dir today fields rs u
  exact ⟨⟨_, rfl, rfl, by decide +kernel⟩, rfl⟩

end Form

end FormIntake
