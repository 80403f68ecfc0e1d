/-
  FormIntake — uploaded files that are dropped.

  A file is dropped if a later one for its field replaces it, and if there is no
  response for it.  `kept rs us` are the files that are left.

  Replaced files are gone before the others are named, the files without a response
  only after that.  So such a file may take a name from a file in front of it, which
  then gets a number (`reconcile_leaves_number`).  It changes no more than that name, and
  `Unobstructed` says when it does not (`filter_withDistinctNames_iff`).

  * `reconcile_kept`: the form of all files and the form of those that are kept
    are the same but for such names.
-/
import FormIntake.Proofs.Response.Splicing
import Mathlib.Data.List.Find

namespace FormIntake

namespace Upload

variable {taken more : List String} {us : List Upload} {u v : Upload} {m n : String}

/-- One of the names is the other one, or it with a number in front. -/
def Akin (m n : String) : Prop :=
  m = n ∨ (∃ k, 0 < k ∧ m = numbered k n) ∨ ∃ k, 0 < k ∧ n = numbered k m

/-- Further names make a difference only if the free name is among them. -/
theorem freeName_eq_iff (hsub : taken ⊆ more) (name : String) :
    freeName more name = freeName taken name ↔ freeName taken name ∉ more := by
  constructor
  · intro h
    rw [← h]
    exact freeName_notMem more name
  · intro hfree
    rcases freeName_cases taken name with ⟨-, heq⟩ | ⟨htaken, k, hk, heq⟩
    · rw [heq] at hfree ⊢
      exact freeName_of_notMem hfree
    · rw [heq] at hfree ⊢
      exact freeName_of_leastFree (hsub htaken)
        ⟨hk.pos, hfree, fun j hpos hlt => hsub (hk.least j hpos hlt)⟩

/-- Files given one name have akin names. -/
theorem akin_of_renamed {u' v' : Upload} (hu : Renamed u u') (hv : Renamed v v')
    (heq : u'.filename = v'.filename) : Akin u.filename v.filename := by
  rcases hu.filename with hu | ⟨j, hj, hu⟩ <;> rcases hv.filename with hv | ⟨k, hk, hv⟩ <;>
    rw [hu, hv] at heq
  · exact Or.inl heq
  · exact Or.inr (Or.inl ⟨k, hk, heq⟩)
  · exact Or.inr (Or.inr ⟨j, hj, heq.symm⟩)
  · exact Or.inl (numbered_inj heq).2

theorem not_akin_of_hyphenless (hm : '-' ∉ m.toList) (hn : '-' ∉ n.toList) (hne : m ≠ n) :
    ¬ Akin m n := by
  rintro (heq | ⟨k, -, heq⟩ | ⟨k, -, heq⟩)
  · exact hne heq
  · exact ne_numbered_of_hyphenless hm k n heq
  · exact ne_numbered_of_hyphenless hn k m heq

theorem mem_names_filter_or (p : Upload → Bool) : n ∈ names us ↔
    n ∈ names (us.filter p) ∨ ∃ u ∈ us, p u = false ∧ u.filename = n := by
  simp only [names, List.mem_map, List.mem_filter]
  constructor
  · rintro ⟨u, hu, rfl⟩
    cases hp : p u with
    | true => exact Or.inl ⟨u, ⟨hu, hp⟩, rfl⟩
    | false => exact Or.inr ⟨u, hu, hp, rfl⟩
  · rintro (⟨u, ⟨hu, -⟩, rfl⟩ | ⟨u, hu, -, rfl⟩) <;> exact ⟨u, hu, rfl⟩

end Upload

namespace Form

open Upload

variable {files files' us back : List Upload} {rs before after : List Response} {r s : Response}
  {u v : Upload} {name : String}

/-- The files that are not dropped. -/
def kept (rs : List Response) (us : List Upload) : List Upload :=
  (lastPerField us).filter (hasResponse rs)

/-- What `u` is called in front of the files `back` if there are none without a response. -/
def quietName (rs : List Response) (u : Upload) (back : List Upload) : String :=
  freeName (names (withDistinctNames (back.filter (hasResponse rs)))) u.filename

/-- No file without a response takes a name that a file in front of it would get. -/
def Unobstructed (rs : List Response) (us : List Upload) : Prop :=
  ∀ front u back, us = front ++ u :: back → hasResponse rs u = true →
    ∀ v ∈ withDistinctNames back, hasResponse rs v = false → v.filename ≠ quietName rs u back

/-- One file under two names. -/
def Twins (v w : Upload) : Prop := ∃ u, Renamed u v ∧ Renamed u w

/-- One response, or one response with one file under two names. -/
inductive SameFile : Response → Response → Prop
  | refl (r : Response) : SameFile r r
  | twins {v w : Upload} (r : Response) : Twins v w → SameFile (r.join v) (r.join w)

/-! ## Names without the dropped files -/

/-- The name of a file does not matter for its response. -/
theorem hasResponse_rename (rs : List Response) (u : Upload) (name : String) :
    hasResponse rs { u with filename := name } = hasResponse rs u := rfl

theorem unobstructed_cons : Unobstructed rs (u :: us) ↔
    (hasResponse rs u = true → ∀ v ∈ withDistinctNames us, hasResponse rs v = false →
      v.filename ≠ quietName rs u us) ∧ Unobstructed rs us := by
  constructor
  · intro h
    refine ⟨h [] u us rfl, ?_⟩
    rintro front w back rfl
    exact h (u :: front) w back rfl
  · rintro ⟨hu, hus⟩ front w back hsplit
    cases front with
    | nil =>
      cases hsplit
      exact hu
    | cons u' front =>
      cases hsplit
      exact hus front w back rfl

theorem freeName_eq_quietName_iff
    (hbehind : (withDistinctNames back).filter (hasResponse rs) =
      withDistinctNames (back.filter (hasResponse rs))) :
    freeName (names (withDistinctNames back)) u.filename = quietName rs u back ↔
      ∀ v ∈ withDistinctNames back, hasResponse rs v = false →
        v.filename ≠ quietName rs u back := by
  have hsub : names (withDistinctNames (back.filter (hasResponse rs))) ⊆
      names (withDistinctNames back) := by
    rw [← hbehind]
    exact (List.filter_sublist.map _).subset
  have hfree : quietName rs u back ∉ names ((withDistinctNames back).filter (hasResponse rs)) := by
    rw [hbehind]
    exact freeName_notMem _ _
  rw [quietName, freeName_eq_iff hsub, ← quietName, mem_names_filter_or (hasResponse rs)]
  constructor
  · intro h v hv hnone heq
    exact h (Or.inr ⟨v, hv, hnone, heq⟩)
  · rintro h (hmem | ⟨v, hv, hnone, heq⟩)
    · exact hfree hmem
    · exact h v hv hnone heq

/-- **Files are named as they would be without those that have no response, if and only
    if none of these obstructs a file in front of it.** -/
theorem filter_withDistinctNames_iff (rs : List Response) (us : List Upload) :
    (withDistinctNames us).filter (hasResponse rs) =
      withDistinctNames (us.filter (hasResponse rs)) ↔ Unobstructed rs us := by
  induction us with
  | nil => simp [Unobstructed, withDistinctNames]
  | cons u us ih =>
    rw [unobstructed_cons, withDistinctNames_cons, List.filter_cons, List.filter_cons,
      hasResponse_rename]
    cases hu : hasResponse rs u with
    | false => simpa using ih
    | true =>
      simp only [if_true, true_implies]
      rw [withDistinctNames_cons, List.cons.injEq, ih]
      refine and_congr_left fun hrest => ?_
      rw [← freeName_eq_quietName_iff (ih.2 hrest), Upload.mk.injEq, quietName]
      simp

/-- Names that are not akin are no obstruction. -/
theorem unobstructed_of_not_akin
    (h : ∀ u ∈ us, hasResponse rs u = true → ∀ v ∈ us, hasResponse rs v = false →
      ¬ Akin u.filename v.filename) : Unobstructed rs us := by
  rintro front u back rfl hu v hv hnone heq
  obtain ⟨w, hw, hrenamed⟩ := exists_renamed_of_mem hv
  have hbehind : w ∈ front ++ u :: back := List.mem_append_right _ (List.mem_cons_of_mem _ hw)
  have hwnone : hasResponse rs w = false := by
    rw [hasResponse, ← hrenamed.fieldId]
    exact hnone
  exact h u (by simp) hu w hbehind hwnone (akin_of_renamed (renamed_freeName _ u) hrenamed heq.symm)

/-! ## Forms without the dropped files -/

theorem lastPerField_kept (rs : List Response) (us : List Upload) :
    lastPerField (kept rs us) = kept rs us :=
  lastPerField_eq_self ((nodup_lastPerField us).sublist (List.filter_sublist.map _))

/-- Files that no response is for make no difference. -/
theorem joinUploads_filter_of {p : Upload → Bool}
    (h : ∀ v ∈ files, hasResponse rs v = true → p v = true) :
    joinUploads (files.filter p) rs = joinUploads files rs := by
  induction rs generalizing files with
  | nil => rfl
  | cons r rs ih =>
    have hupload : r.upload? (files.filter p) = r.upload? files := by
      rw [Response.upload?, Response.upload?]
      by_cases htype : r.type = .attachment
      · rw [if_pos htype, if_pos htype, List.find?_filter]
        refine List.find?_congr fun v hv => ?_
        cases hid : v.fieldId == r.id with
        | false => simp
        | true =>
          have hfor : r.isFor v.fieldId = true :=
            Response.isFor_iff.2 ⟨htype, (beq_iff_eq.1 hid).symm⟩
          simp [h v hv (hasResponse_iff.2 ⟨r, List.mem_cons_self, hfor⟩)]
      · rw [if_neg htype, if_neg htype]
    have hleft : unclaimed [r] (files.filter p) = (unclaimed [r] files).filter p := by
      rw [unclaimed, unclaimed, List.filter_filter, List.filter_filter]
      exact List.filter_congr fun v _ => Bool.and_comm _ _
    rw [joinUploads_cons, joinUploads_cons, Response.joined, Response.joined, hupload, hleft, ih]
    intro v hv hresponse
    obtain ⟨s, hs, hfor⟩ := hasResponse_iff.1 hresponse
    exact h v (List.mem_of_mem_filter hv) (hasResponse_iff.2 ⟨s, List.mem_cons_of_mem _ hs, hfor⟩)

/-! ## Twins -/

theorem Twins.fieldId_eq (h : Twins u v) : u.fieldId = v.fieldId := by
  obtain ⟨w, hu, hv⟩ := h
  rw [hu.fieldId, hv.fieldId]

theorem Twins.content_eq (h : Twins u v) : u.content = v.content := by
  obtain ⟨w, hu, hv⟩ := h
  rw [hu.content, hv.content]

theorem Twins.eq (h : Twins u v) (hname : u.filename = v.filename) : u = v := by
  cases u
  cases v
  rw [Upload.mk.injEq]
  exact ⟨h.fieldId_eq, hname, h.content_eq⟩

theorem sameFile_joined (h : List.Forall₂ Twins files files') (r : Response) :
    SameFile (r.joined files) (r.joined files') := by
  rw [Response.joined, Response.joined, Response.upload?, Response.upload?]
  split
  · induction h with
    | nil => exact .refl r
    | @cons v w files files' hvw _ ih =>
      rw [List.find?_cons, List.find?_cons, hvw.fieldId_eq]
      split
      · exact .twins r hvw
      · exact ih
  · exact .refl r

/-- **Files that differ by their names make forms that differ by these names.** -/
theorem sameFile_joinUploads (h : List.Forall₂ Twins files files') (rs : List Response) :
    List.Forall₂ SameFile (joinUploads files rs) (joinUploads files' rs) := by
  induction rs generalizing files files' with
  | nil => exact .nil
  | cons r rs ih =>
    rw [joinUploads_cons, joinUploads_cons]
    refine .cons (sameFile_joined h r) (ih (List.rel_filter ?_ h))
    intro v w hvw
    have hresponse : hasResponse [r] v = hasResponse [r] w := by
      rw [hasResponse, hasResponse, hvw.fieldId_eq]
    simp only [hresponse]

/-- Names show in the form. -/
theorem eq_of_joinUploads_eq (h : List.Forall₂ Twins files files')
    (hnodup : (files.map (·.fieldId)).Nodup) (hall : ∀ v ∈ files, hasResponse rs v = true)
    (heq : joinUploads files rs = joinUploads files' rs) : files = files' := by
  have hfields : files.map (·.fieldId) = files'.map (·.fieldId) := by
    rw [← List.forall₂_eq_eq_eq, List.forall₂_map_left_iff, List.forall₂_map_right_iff]
    exact h.imp fun _ _ hvw => hvw.fieldId_eq
  rw [List.forall₂_iff_get] at h
  refine List.ext_getElem h.1 fun i hi hi' => ?_
  have htwins : Twins files[i] files'[i] := h.2 i hi hi'
  obtain ⟨before, r, after, rfl, hfor, hbefore⟩ := exists_first (hall _ (List.getElem_mem hi))
  have hleft := getElem?_joinUploads_of_first hnodup (List.getElem_mem hi) hfor hbefore after
  rw [htwins.fieldId_eq] at hfor hbefore
  have hright := getElem?_joinUploads_of_first (hfields ▸ hnodup) (List.getElem_mem hi') hfor
    hbefore after
  rw [heq, hright] at hleft
  have hname := congrArg Response.filename (Option.some.inj hleft)
  exact htwins.eq (Option.some.inj hname).symm

/-! ## The main statement -/

/-- The files with a response, named before and after the others are dropped. -/
theorem twins_kept (rs : List Response) (us : List Upload) :
    List.Forall₂ Twins ((withDistinctNames us).filter (hasResponse rs))
      (withDistinctNames (us.filter (hasResponse rs))) := by
  have hbefore : List.Forall₂ Renamed (us.filter (hasResponse rs))
      ((withDistinctNames us).filter (hasResponse rs)) := by
    refine List.rel_filter (fun u v huv => ?_) (forall₂_renamed us)
    have hresponse : hasResponse rs u = hasResponse rs v := by
      rw [hasResponse, hasResponse, huv.fieldId]
    simp only [hresponse]
  have hafter := forall₂_renamed (us.filter (hasResponse rs))
  rw [List.forall₂_iff_get] at hbefore hafter ⊢
  refine ⟨hbefore.1.symm.trans hafter.1, fun i hi hi' => ?_⟩
  have hlt := hbefore.1 ▸ hi
  exact ⟨_, hbefore.2 i hlt hi, hafter.2 i hlt hi'⟩

/-- **Dropped files change names at most.**  Replaced files leave no trace.  Without the
    files that have no response the form is the same, but for the names of the files in
    it, which are their own or these with a number in front.  It is the same altogether
    if and only if none of the dropped files obstructs a file in front of it, as when
    their names are not akin. -/
theorem reconcile_kept (rs : List Response) (us : List Upload) :
    reconcile rs us = reconcile rs (lastPerField us) ∧
      List.Forall₂ SameFile (reconcile rs us).responses (reconcile rs (kept rs us)).responses ∧
      (reconcile rs us = reconcile rs (kept rs us) ↔ Unobstructed rs (lastPerField us)) ∧
      ((∀ u ∈ lastPerField us, hasResponse rs u = true → ∀ v ∈ lastPerField us,
          hasResponse rs v = false → ¬ Akin u.filename v.filename) →
        reconcile rs us = reconcile rs (kept rs us)) := by
  have hlast : lastPerField (lastPerField us) = lastPerField us :=
    lastPerField_eq_self (nodup_lastPerField us)
  have hall : reconcile rs us =
      ⟨joinUploads ((withDistinctNames (lastPerField us)).filter (hasResponse rs)) rs⟩ := by
    rw [reconcile, joinUploads_filter_of fun _ _ h => h]
  have hkept : reconcile rs (kept rs us) =
      ⟨joinUploads (withDistinctNames ((lastPerField us).filter (hasResponse rs))) rs⟩ := by
    rw [reconcile, lastPerField_kept]
    rfl
  have hnodup : (((withDistinctNames (lastPerField us)).filter (hasResponse rs)).map
      (·.fieldId)).Nodup := (nodup_fieldId_called us).sublist (List.filter_sublist.map _)
  have htwins := twins_kept rs (lastPerField us)
  have hiff : reconcile rs us = reconcile rs (kept rs us) ↔ Unobstructed rs (lastPerField us) := by
    rw [hall, hkept, Form.mk.injEq, ← filter_withDistinctNames_iff]
    constructor
    · exact eq_of_joinUploads_eq htwins hnodup fun v hv => (List.mem_filter.1 hv).2
    · intro h
      rw [h]
  refine ⟨?_, ?_, hiff, fun h => hiff.2 (unobstructed_of_not_akin h)⟩
  · rw [reconcile, reconcile, hlast]
  · rw [hall, hkept]
    exact sameFile_joinUploads htwins rs

/-- A replaced file and one without a response, whose names are not those of the others:
    they leave no trace. -/
theorem reconcile_kept_hyphenless :
    let rs := [Response.blank "a" .attachment, .blank "b" .attachment]
    let us : List Upload := [⟨"a", "x", [0]⟩, ⟨"a", "y", [1]⟩, ⟨"b", "y", [2]⟩, ⟨"z", "x", [3]⟩]
    (∀ u ∈ lastPerField us, hasResponse rs u = true → ∀ v ∈ lastPerField us,
        hasResponse rs v = false → ¬ Akin u.filename v.filename) ∧
      kept rs us = [⟨"a", "y", [1]⟩, ⟨"b", "y", [2]⟩] ∧
      reconcile rs us = reconcile rs (kept rs us) := by
  intro rs us
  have hnames : ∀ u ∈ lastPerField us, hasResponse rs u = true → ∀ v ∈ lastPerField us,
      hasResponse rs v = false →
        '-' ∉ u.filename.toList ∧ '-' ∉ v.filename.toList ∧ u.filename ≠ v.filename := by
    decide
  have hakin : ∀ u ∈ lastPerField us, hasResponse rs u = true → ∀ v ∈ lastPerField us,
      hasResponse rs v = false → ¬ Akin u.filename v.filename := by
    intro u hu hresponse v hv hnone
    obtain ⟨hm, hn, hne⟩ := hnames u hu hresponse v hv hnone
    exact not_akin_of_hyphenless hm hn hne
  obtain ⟨-, -, -, hquiet⟩ := reconcile_kept rs us
  exact ⟨hakin, by decide, hquiet hakin⟩

/-- A file without a response keeps its name, and the file in front of it, which is the
    only one in the form, gets a number. -/
theorem reconcile_leaves_number :
    let rs := [Response.blank "a" .attachment]
    let us : List Upload := [⟨"a", "x", [1]⟩, ⟨"z", "x", [2]⟩]
    (reconcile rs us).responses = [Response.attachment "a" "1-x" [1]] ∧
      kept rs us = [⟨"a", "x", [1]⟩] ∧
      (reconcile rs (kept rs us)).responses = [Response.attachment "a" "x" [1]] ∧
      reconcile rs us ≠ reconcile rs (kept rs us) := by
  intro rs us
  have hall : (reconcile rs us).responses = [Response.attachment "a" "1-x" [1]] := by rfl
  have hkept : (reconcile rs (kept rs us)).responses = [Response.attachment "a" "x" [1]] := by rfl
  refine ⟨hall, by decide, hkept, fun heq => ?_⟩
  rw [heq, hkept] at hall
  have hname := congrArg (List.map Response.filename) hall
  revert hname
  decide

end Form

end FormIntake
