/-
  FormIntake — uploaded files spliced into the responses they are for.

  Joining goes through the responses in their order, and each one takes the file of
  its field away from those behind it.  So the response at a place gets what the ones
  in front of it leave (`getElem?_joinUploads`).

  `Receives rs us i u name`: of the files `us` the response at place `i` gets `u`, under
  the name `name`.

  * `reconcile_splices`: the responses that receive a file are joined with it, all
    others are as they were, and each file that counts and has a response is received
    once.
-/
import FormIntake.Proofs.Response.Pairing
import FormIntake.Proofs.Upload.Renaming

namespace FormIntake

namespace Response

/-- The response is one for an uploaded file of the field. -/
def isFor (fieldId : String) (r : Response) : Bool := r.type == .attachment && r.id == fieldId

/-- What a response says apart from its file. -/
def withoutFile (r : Response) : Response :=
  { r with answer := none, filename := none, content := [] }

/-- The response with its file among `files`, if there is one. -/
def joined (files : List Upload) (r : Response) : Response := (r.upload? files).elim r r.join

variable {r : Response} {fieldId : String}

theorem isFor_iff : r.isFor fieldId = true ↔ r.type = .attachment ∧ r.id = fieldId := by
  simp [isFor]

end Response

namespace Form

open Upload

variable {files : List Upload} {us : List Upload} {rs before after : List Response} {r : Response}
  {u v : Upload} {i j : Nat} {name : String}

/-- A response for the file is there. -/
def hasResponse (rs : List Response) (u : Upload) : Bool := rs.any (Response.isFor u.fieldId)

/-- The files for which there is no response. -/
def unclaimed (rs : List Response) (files : List Upload) : List Upload :=
  files.filter fun u => !hasResponse rs u

/-- Among the last files of all fields `u` is called `name`. -/
def Called (us : List Upload) (u : Upload) (name : String) : Prop :=
  ∃ (j : Nat) (v : Upload), (lastPerField us)[j]? = some u ∧
    (withDistinctNames (lastPerField us))[j]? = some v ∧ v.filename = name

/-- Of the files `us`, the response at place `i` gets `u` under the name `name`: it is the
    first response for the field, `u` is the last file for it, and `u` is called `name`. -/
structure Receives (rs : List Response) (us : List Upload) (i : Nat) (u : Upload)
    (name : String) : Prop where
  first : ∃ before r after, rs = before ++ r :: after ∧ before.length = i ∧
    r.isFor u.fieldId = true ∧ ∀ s ∈ before, s.isFor u.fieldId = false
  last : ∃ front back, us = front ++ u :: back ∧ ∀ w ∈ back, w.fieldId ≠ u.fieldId
  called : Called us u name

/-! ## What the responses in front leave -/

theorem hasResponse_iff : hasResponse rs u = true ↔ ∃ r ∈ rs, r.isFor u.fieldId = true := by
  simp [hasResponse]

theorem hasResponse_eq_false_iff :
    hasResponse rs u = false ↔ ∀ r ∈ rs, r.isFor u.fieldId = false := by
  simp [hasResponse]

theorem unclaimed_unclaimed (before after : List Response) (files : List Upload) :
    unclaimed after (unclaimed before files) = unclaimed (before ++ after) files := by
  rw [unclaimed, unclaimed, unclaimed, List.filter_filter]
  refine List.filter_congr fun u _ => ?_
  rw [hasResponse, hasResponse, hasResponse, List.any_append, Bool.not_or, Bool.and_comm]

/-- A response takes the file of its field away from the responses behind it. -/
theorem joinUploads_cons (files : List Upload) (r : Response) (rs : List Response) :
    joinUploads files (r :: rs) = r.joined files :: joinUploads (unclaimed [r] files) rs := by
  have hsingle : ∀ u, hasResponse [r] u = r.isFor u.fieldId := fun u => Bool.or_false _
  rw [joinUploads, Response.joined]
  cases hupload : r.upload? files with
  | some u =>
    obtain ⟨-, -, htype⟩ := Response.mem_of_upload? hupload
    have hrest : (files.filter fun w => w.fieldId != r.id) = unclaimed [r] files := by
      refine List.filter_congr fun w _ => ?_
      rw [hsingle, Response.isFor, htype, bne, BEq.comm]
      rfl
    rw [hrest]
    rfl
  | none =>
    have hrest : unclaimed [r] files = files := by
      refine List.filter_eq_self.2 fun w hw => ?_
      rw [hsingle, Bool.not_eq_true', Bool.eq_false_iff]
      intro hfor
      obtain ⟨htype, hid⟩ := Response.isFor_iff.1 hfor
      rw [Response.upload?, if_pos htype, List.find?_eq_none] at hupload
      exact hupload w hw (by simp [hid])
    rw [hrest]
    rfl

theorem joinUploads_append (files : List Upload) (before after : List Response) :
    joinUploads files (before ++ after) =
      joinUploads files before ++ joinUploads (unclaimed before files) after := by
  induction before generalizing files with
  | nil =>
    have hall : unclaimed [] files = files := List.filter_eq_self.2 fun _ _ => rfl
    rw [hall]
    rfl
  | cons r before ih =>
    rw [List.cons_append, joinUploads_cons, joinUploads_cons, ih, unclaimed_unclaimed]
    rfl

theorem length_joinUploads (files : List Upload) (rs : List Response) :
    (joinUploads files rs).length = rs.length :=
  (forall₂_spliced files rs).length_eq.symm

theorem map_withoutFile_joinUploads (files : List Upload) (rs : List Response) :
    (joinUploads files rs).map Response.withoutFile = rs.map Response.withoutFile := by
  induction rs generalizing files with
  | nil => rfl
  | cons r rs ih =>
    rw [joinUploads_cons, List.map_cons, List.map_cons, ih, Response.joined]
    cases r.upload? files <;> rfl

/-- **The response at a place gets what the ones in front of it leave.** -/
theorem getElem?_joinUploads (files : List Upload) (before : List Response) (r : Response)
    (after : List Response) :
    (joinUploads files (before ++ r :: after))[before.length]? =
      some (r.joined (unclaimed before files)) := by
  rw [joinUploads_append, joinUploads_cons, List.getElem?_append_right (by rw [length_joinUploads]),
    length_joinUploads, Nat.sub_self]
  rfl

/-- What the ones in front leave is what none of them is for. -/
theorem upload?_unclaimed_eq_some_iff (hnodup : (files.map (·.fieldId)).Nodup) :
    r.upload? (unclaimed before files) = some v ↔
      v ∈ files ∧ r.isFor v.fieldId = true ∧ ∀ s ∈ before, s.isFor v.fieldId = false := by
  constructor
  · intro h
    obtain ⟨hv, hid, htype⟩ := Response.mem_of_upload? h
    obtain ⟨hv, hleft⟩ := List.mem_filter.1 hv
    refine ⟨hv, Response.isFor_iff.2 ⟨htype, hid.symm⟩, hasResponse_eq_false_iff.1 ?_⟩
    simpa using hleft
  · rintro ⟨hv, hfor, hbefore⟩
    obtain ⟨htype, hid⟩ := Response.isFor_iff.1 hfor
    have hleft : v ∈ unclaimed before files :=
      List.mem_filter.2 ⟨hv, by rw [hasResponse_eq_false_iff.2 hbefore]; rfl⟩
    have hnodup' : ((unclaimed before files).map (·.fieldId)).Nodup :=
      hnodup.sublist (List.filter_sublist.map _)
    rw [Response.upload?, if_pos htype, hid]
    exact find?_of_nodup hnodup' hleft

/-- A file goes to the first response for it. -/
theorem getElem?_joinUploads_of_first (hnodup : (files.map (·.fieldId)).Nodup) (hv : v ∈ files)
    (hfor : r.isFor v.fieldId = true) (hbefore : ∀ s ∈ before, s.isFor v.fieldId = false)
    (after : List Response) :
    (joinUploads files (before ++ r :: after))[before.length]? = some (r.join v) := by
  rw [getElem?_joinUploads, Response.joined,
    (upload?_unclaimed_eq_some_iff hnodup).2 ⟨hv, hfor, hbefore⟩]
  rfl

theorem exists_first (h : hasResponse rs u = true) :
    ∃ before r after, rs = before ++ r :: after ∧ r.isFor u.fieldId = true ∧
      ∀ s ∈ before, s.isFor u.fieldId = false := by
  obtain ⟨r, hr, hfor⟩ := hasResponse_iff.1 h
  obtain ⟨htype, hid⟩ := Response.isFor_iff.1 hfor
  obtain ⟨before, r, after, hsplit, hid, htype, hbefore⟩ :=
    exists_first_attachment ⟨r, hr, hid, htype⟩
  refine ⟨before, r, after, hsplit, Response.isFor_iff.2 ⟨htype, hid⟩, fun s hs => ?_⟩
  rw [Bool.eq_false_iff]
  intro hfor
  obtain ⟨htype, hid⟩ := Response.isFor_iff.1 hfor
  exact hbefore s hs hid htype

/-! ## What the files are called -/

/-- A renamed file is the file with another name. -/
theorem eq_of_renamed (h : Renamed u v) : v = { u with filename := v.filename } := by
  obtain ⟨fieldId, filename, content⟩ := v
  rw [Upload.mk.injEq]
  exact ⟨h.fieldId, rfl, h.content⟩

/-- The files at one place, before and after they are named. -/
theorem renamed_of_getElem? (hu : us[j]? = some u) (hv : (withDistinctNames us)[j]? = some v) :
    Renamed u v := by
  have h := forall₂_renamed us
  rw [List.forall₂_iff_get] at h
  obtain ⟨hj, rfl⟩ := List.getElem?_eq_some_iff.1 hu
  obtain ⟨hj', rfl⟩ := List.getElem?_eq_some_iff.1 hv
  exact h.2 j hj hj'

/-- Two places with one key are one place, if keys are distinct. -/
theorem place_eq {α β : Type} {key : α → β} {xs : List α} {x y : α} (hnodup : (xs.map key).Nodup)
    (hx : xs[i]? = some x) (hy : xs[j]? = some y) (heq : key x = key y) : i = j := by
  have hi : (xs.map key)[i]? = some (key x) := by rw [List.getElem?_map, hx]; rfl
  have hj : (xs.map key)[j]? = some (key x) := by rw [List.getElem?_map, hy, heq]; rfl
  have hlt : i < (xs.map key).length := (List.getElem?_eq_some_iff.1 hi).1
  exact (List.getElem?_inj hlt hnodup).1 (hi.trans hj.symm)

theorem nodup_fieldId_called (us : List Upload) :
    ((withDistinctNames (lastPerField us)).map (·.fieldId)).Nodup := by
  rw [map_fieldId_withDistinctNames]
  exact nodup_lastPerField us

theorem Called.mem (h : Called us u name) :
    { u with filename := name } ∈ withDistinctNames (lastPerField us) := by
  obtain ⟨j, v, hu, hv, rfl⟩ := h
  rw [← eq_of_renamed (renamed_of_getElem? hu hv)]
  exact List.mem_of_getElem? hv

/-- Each of the last files is called something. -/
theorem exists_called (hu : u ∈ lastPerField us) : ∃ name, Called us u name := by
  obtain ⟨j, hj⟩ := List.getElem?_of_mem hu
  have hlt : j < (withDistinctNames (lastPerField us)).length := by
    rw [length_withDistinctNames]
    exact (List.getElem?_eq_some_iff.1 hj).1
  exact ⟨_, j, _, hj, List.getElem?_eq_getElem hlt, rfl⟩

/-- What is called something is one of the last files. -/
theorem exists_called_of_mem (hv : v ∈ withDistinctNames (lastPerField us)) :
    ∃ u ∈ lastPerField us, Called us u v.filename ∧ v = { u with filename := v.filename } := by
  obtain ⟨j, hj⟩ := List.getElem?_of_mem hv
  have hlt : j < (lastPerField us).length := by
    rw [← length_withDistinctNames]
    exact (List.getElem?_eq_some_iff.1 hj).1
  have hu := List.getElem?_eq_getElem hlt
  exact ⟨_, List.mem_of_getElem? hu, ⟨j, v, hu, hj, rfl⟩, eq_of_renamed (renamed_of_getElem? hu hj)⟩

/-! ## The main statement -/

/-- What stands in front of the first response for a field is determined by the list. -/
theorem takeWhile_of_first (hfor : r.isFor u.fieldId = true)
    (hbefore : ∀ s ∈ before, s.isFor u.fieldId = false) (after : List Response) :
    (before ++ r :: after).takeWhile (fun s => !s.isFor u.fieldId) = before := by
  rw [List.takeWhile_append_of_pos (by simpa using hbefore),
    List.takeWhile_cons_of_neg (by simp [hfor]), List.append_nil]

/-- The first response for a field stands at one place. -/
theorem Receives.place_eq {n : String} (hu : Receives rs us i u name) (hv : Receives rs us j v n)
    (hfield : u.fieldId = v.fieldId) : i = j := by
  obtain ⟨before, r, after, rfl, rfl, hfor, hbefore⟩ := hu.first
  obtain ⟨before', r', after', hsplit, rfl, hfor', hbefore'⟩ := hv.first
  rw [← hfield] at hfor' hbefore'
  have hfront := takeWhile_of_first hfor hbefore after
  rw [hsplit, takeWhile_of_first hfor' hbefore'] at hfront
  rw [hfront]

/-- The response at a place is for one field. -/
theorem Receives.field_eq {n : String} (hu : Receives rs us i u name) (hv : Receives rs us i v n) :
    u.fieldId = v.fieldId := by
  obtain ⟨before, r, after, rfl, rfl, hfor, -⟩ := hu.first
  obtain ⟨before', r', after', hsplit, hlength, hfor', -⟩ := hv.first
  obtain ⟨-, htail⟩ := List.append_inj hsplit hlength.symm
  cases htail
  rw [← (Response.isFor_iff.1 hfor).2, ← (Response.isFor_iff.1 hfor').2]

theorem Receives.agree {n : String} (hu : Receives rs us i u name) (hv : Receives rs us j v n) :
    (i = j ↔ u = v) ∧ (i = j ↔ name = n) := by
  obtain ⟨k, u', hk, hk', rfl⟩ := hu.called
  obtain ⟨l, v', hl, hl', rfl⟩ := hv.called
  have hplaces : i = j → k = l := by
    rintro rfl
    exact Form.place_eq (nodup_lastPerField us) hk hl (hu.field_eq hv)
  have hsame : k = l → u = v := by
    rintro rfl
    exact Option.some.inj (hk.symm.trans hl)
  refine ⟨⟨fun h => hsame (hplaces h), fun h => hu.place_eq hv (h ▸ rfl)⟩, fun h => ?_, fun h => ?_⟩
  · have hkl := hplaces h
    subst hkl
    rw [Option.some.inj (hk'.symm.trans hl')]
  · have hkl := Form.place_eq (nodup_withDistinctNames (lastPerField us)) hk' hl' h
    exact hu.place_eq hv (hsame hkl ▸ rfl)

/-- **Each file that counts is spliced once.**  Responses keep their places and all they
    say apart from their files.  A response that receives a file gets its bytes, and as
    file name and answer what the file is called; every other response is as it was.
    The last file for a field is received by some response if there is one for it, no
    file by two responses, no two files by one response, and no two responses get one
    name. -/
theorem reconcile_splices (rs : List Response) (us : List Upload) :
    (reconcile rs us).responses.map Response.withoutFile = rs.map Response.withoutFile ∧
      (∀ before r after, rs = before ++ r :: after →
        ∃ s, (reconcile rs us).responses[before.length]? = some s ∧
          (∀ u name, Receives rs us before.length u name →
            s = { r with answer := some (.text name), filename := some name, content := u.content }) ∧
          ((∀ u name, ¬ Receives rs us before.length u name) → s = r)) ∧
      (∀ front u back, us = front ++ u :: back → (∀ w ∈ back, w.fieldId ≠ u.fieldId) →
        (∃ r ∈ rs, r.type = .attachment ∧ r.id = u.fieldId) → ∃ i name, Receives rs us i u name) ∧
      ∀ i j u v m n, Receives rs us i u m → Receives rs us j v n →
        (i = j ↔ u = v) ∧ (i = j ↔ m = n) := by
  refine ⟨map_withoutFile_joinUploads _ rs, ?_, ?_, fun i j u v m n hu hv => hu.agree hv⟩
  · rintro before r after rfl
    refine ⟨_, getElem?_joinUploads _ before r after, ?_, ?_⟩
    · intro u name hreceives
      obtain ⟨before', r', after', hsplit, hlength, hfor, hbefore⟩ := hreceives.first
      obtain ⟨rfl, htail⟩ := List.append_inj hsplit hlength.symm
      cases htail
      rw [Response.joined, (upload?_unclaimed_eq_some_iff (nodup_fieldId_called us)).2
        ⟨hreceives.called.mem, hfor, hbefore⟩]
      rfl
    · intro hnone
      rw [Response.joined]
      cases hupload : r.upload? (unclaimed before (withDistinctNames (lastPerField us))) with
      | none => rfl
      | some v =>
        obtain ⟨hv, hfor, hbefore⟩ :=
          (upload?_unclaimed_eq_some_iff (nodup_fieldId_called us)).1 hupload
        obtain ⟨u, hu, hcalled, heq⟩ := exists_called_of_mem hv
        rw [heq] at hfor hbefore
        have hreceives : Receives (before ++ r :: after) us before.length u v.filename :=
          ⟨⟨before, r, after, rfl, rfl, hfor, hbefore⟩, mem_lastPerField_iff.1 hu, hcalled⟩
        exact absurd hreceives (hnone u v.filename)
  · rintro front u back hus hback ⟨r, hr, htype, hid⟩
    obtain ⟨name, hcalled⟩ := exists_called (mem_lastPerField_iff.2 ⟨front, back, hus, hback⟩)
    obtain ⟨before, r, after, hsplit, hfor, hbefore⟩ :=
      exists_first (hasResponse_iff.2 ⟨r, hr, Response.isFor_iff.2 ⟨htype, hid⟩⟩)
    exact ⟨before.length, name, ⟨before, r, after, hsplit, rfl, hfor, hbefore⟩,
      ⟨front, back, hus, hback⟩, hcalled⟩

/-- Of two files for one field the last counts, of two responses for it the first
    receives the file, and of two files of one name the last keeps it. -/
theorem reconcile_splices_numbered :
    let rs := [Response.single "t" .shortText "x", .blank "a" .attachment, .blank "b" .attachment,
      .blank "a" .attachment]
    let us : List Upload := [⟨"a", "x", [0]⟩, ⟨"a", "x", [1]⟩, ⟨"b", "x", [2]⟩, ⟨"t", "y", [3]⟩]
    Receives rs us 1 ⟨"a", "x", [1]⟩ "1-x" ∧
      (reconcile rs us).responses[1]? = some (Response.attachment "a" "1-x" [1]) := by
  intro rs us
  have hreceives : Receives rs us 1 ⟨"a", "x", [1]⟩ "1-x" :=
    ⟨⟨[.single "t" .shortText "x"], .blank "a" .attachment, _, rfl, rfl, by decide, by decide⟩,
      ⟨[⟨"a", "x", [0]⟩], _, rfl, by decide⟩, ⟨0, ⟨"a", "1-x", [1]⟩, by decide, by decide, rfl⟩⟩
  obtain ⟨-, hplace, -⟩ := reconcile_splices rs us
  obtain ⟨s, hs, hspliced, -⟩ := hplace [.single "t" .shortText "x"] (.blank "a" .attachment)
    [.blank "b" .attachment, .blank "a" .attachment] rfl
  rw [hspliced _ _ hreceives] at hs
  exact ⟨hreceives, hs⟩

end Form

end FormIntake
