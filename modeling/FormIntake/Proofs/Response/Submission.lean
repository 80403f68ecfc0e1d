/-
  FormIntake — what becomes of a submission.

  * `answerable`: the fields of a form that are answered at all, in their order.
  * `Field.AnsweredBy`: the response that counts for a field is the last one with
    its id, or a blank one that is shown if there is none.

  * `taken`: the fields with the responses that they take.

  `acceptAll_eq_mapM`: where the fields have ids of their own, the responses to
  them are judged one by one, each by itself, although the program takes those
  it has judged out of the list.  So the verdict depends on the responses that
  count only (`acceptAll_congr`); `acceptAll_decides` says which changes to the
  list leave these as they are.
-/
import FormIntake.Proofs.Validation.Traversal
import FormIntake.Response.Submission
import Mathlib.Data.List.Nodup

namespace FormIntake

open Validation

/-- The fields that are answered. -/
def answerable (fields : List Field) : List Field := fields.filter fun f => !f.type.isDisplayOnly

/-- The response that counts for a field. -/
inductive Field.AnsweredBy (f : Field) (rs : List Response) : Response → Prop
  | last {front r back} : rs = front ++ r :: back → r.id = f.id → (∀ s ∈ back, s.id ≠ f.id) →
      f.AnsweredBy rs r
  | none : (∀ s ∈ rs, s.id ≠ f.id) → f.AnsweredBy rs (.blank f.id f.type)

/-- What is accepted for a field is the answer of the response that counts. -/
def Field.Accepts (f : Field) (dir : Phone.Directory) (today : Date) (rs : List Response)
    (a : Accepted) : Prop :=
  ∃ answer, f.process dir today (f.responseIn rs) = .ok answer ∧
    a = ⟨f.id, f.title, f.type, (f.responseIn rs).visible, answer⟩

/-- Responses with different ids are exchanged, one pair of neighbours after the
    other. -/
inductive Reordered : List Response → List Response → Prop
  | refl (rs) : Reordered rs rs
  | swap {front r s back rs} : r.id ≠ s.id → Reordered (front ++ s :: r :: back) rs →
      Reordered (front ++ r :: s :: back) rs

/-- The responses with an id. -/
def responsesTo (id : String) (rs : List Response) : List Response := rs.filter (·.id == id)

variable {f g : Field} {fields : List Field} {dir : Phone.Directory} {today : Date}
  {rs rs' front back : List Response}
  {r : Response} {id : String}

/-! ## The response that counts -/

theorem lastResponse?_eq : lastResponse? id rs = (responsesTo id rs).getLast? :=
  List.getLast?_filter.symm

/-- Only the responses with the field's id matter. -/
theorem responseIn_congr (h : responsesTo f.id rs = responsesTo f.id rs') :
    f.responseIn rs = f.responseIn rs' := by
  rw [Field.responseIn, Field.responseIn, lastResponse?_eq, lastResponse?_eq, h]

theorem responsesTo_append : responsesTo id (front ++ back) =
    responsesTo id front ++ responsesTo id back := List.filter_append ..

theorem responsesTo_cons_of_eq (h : r.id = id) :
    responsesTo id (r :: rs) = r :: responsesTo id rs := List.filter_cons_of_pos (by simpa using h)

theorem responsesTo_cons_of_ne (h : r.id ≠ id) : responsesTo id (r :: rs) = responsesTo id rs :=
  List.filter_cons_of_neg (by simpa using h)

theorem responsesTo_eq_nil_iff : responsesTo id rs = [] ↔ ∀ s ∈ rs, s.id ≠ id := by
  simp [responsesTo]

/-- Taking out responses of other ids changes nothing. -/
theorem responsesTo_filter {p : Response → Bool} (h : ∀ s ∈ rs, s.id = id → p s = true) :
    responsesTo id (rs.filter p) = responsesTo id rs := by
  rw [responsesTo, responsesTo, List.filter_filter]
  refine List.filter_congr fun s hs => ?_
  by_cases hid : s.id = id
  · simp [hid, h s hs hid]
  · simp [hid]

theorem Reordered.responsesTo_eq (h : Reordered rs rs') (id : String) :
    responsesTo id rs = responsesTo id rs' := by
  induction h with
  | refl rs => rfl
  | @swap front r s back rs' hne _ ih =>
    rw [← ih, responsesTo_append, responsesTo_append]
    congr 1
    by_cases hr : r.id = id
    · have hs : s.id ≠ id := fun hs => hne (hr.trans hs.symm)
      rw [responsesTo_cons_of_eq hr, responsesTo_cons_of_ne hs, responsesTo_cons_of_ne hs,
        responsesTo_cons_of_eq hr]
    · rw [responsesTo_cons_of_ne hr, responsesTo, responsesTo, List.filter_cons, List.filter_cons,
        ← responsesTo, ← responsesTo, responsesTo_cons_of_ne hr]

theorem answeredBy_iff : f.AnsweredBy rs r ↔ r = f.responseIn rs := by
  rw [Field.responseIn, lastResponse?_eq]
  constructor
  · intro h
    cases h with
    | last hsplit hid hback =>
      rw [hsplit, responsesTo_append, responsesTo_cons_of_eq hid, responsesTo_eq_nil_iff.2 hback]
      simp
    | none hnone => rw [responsesTo_eq_nil_iff.2 hnone]; rfl
  · intro h
    cases hlast : (responsesTo f.id rs).getLast? with
    | none =>
      rw [hlast] at h
      subst h
      exact .none (responsesTo_eq_nil_iff.1 (List.getLast?_eq_none_iff.1 hlast))
    | some s =>
      rw [hlast, Option.getD_some] at h
      subst h
      obtain ⟨ys, hys⟩ := List.getLast?_eq_some_iff.1 hlast
      obtain ⟨front, rest, rfl, -, hrest⟩ := List.filter_eq_append_iff.1 hys
      obtain ⟨middle, back, rfl, -, hid, hback⟩ := List.filter_eq_cons_iff.1 hrest
      exact .last (List.append_assoc ..).symm (by simpa using hid)
        (responsesTo_eq_nil_iff.1 hback)

theorem id_responseIn (f : Field) (rs : List Response) : (f.responseIn rs).id = f.id := by
  have h : f.AnsweredBy rs (f.responseIn rs) := answeredBy_iff.2 rfl
  generalize f.responseIn rs = r at h
  cases h with
  | last _ hid _ => exact hid
  | none _ => rfl

/-- The response that counts may be given once more, wherever. -/
theorem responseIn_insert (f : Field) (front back : List Response) :
    f.responseIn (front ++ f.responseIn (front ++ back) :: back) = f.responseIn (front ++ back) := by
  set r := f.responseIn (front ++ back) with hr
  have hid : r.id = f.id := id_responseIn f _
  rw [Field.responseIn, lastResponse?_eq, responsesTo_append] at hr ⊢
  rw [responsesTo_cons_of_eq hid, List.getLast?_append, List.getLast?_cons]
  rw [List.getLast?_append] at hr
  -- the last response behind it counts, or there is none and it counts itself
  cases hback : (responsesTo f.id back).getLast? with
  | none => rfl
  | some s =>
    rw [hback] at hr
    exact hr.symm

/-- A response that a later one overrides does not count. -/
theorem responseIn_override {r' : Response} (hid : r'.id = r.id) (hback : ∃ s ∈ back, s.id = r.id)
    (f : Field) : f.responseIn (front ++ r' :: back) = f.responseIn (front ++ r :: back) := by
  by_cases hf : r.id = f.id
  · obtain ⟨s, hs, hsid⟩ := hback
    have hlast : (responsesTo f.id back).getLast? ≠ none := by
      rw [Ne, List.getLast?_eq_none_iff, responsesTo_eq_nil_iff]
      exact fun h => h s hs (hsid.trans hf)
    obtain ⟨t, ht⟩ := Option.ne_none_iff_exists'.1 hlast
    rw [Field.responseIn, Field.responseIn, lastResponse?_eq, lastResponse?_eq, responsesTo_append,
      responsesTo_append, responsesTo_cons_of_eq hf, responsesTo_cons_of_eq (hid.trans hf)]
    simp [List.getLast?_cons, ht]
  · have hf' : r'.id ≠ f.id := hid.symm ▸ hf
    refine responseIn_congr ?_
    rw [responsesTo_append, responsesTo_append, responsesTo_cons_of_ne hf,
      responsesTo_cons_of_ne hf']

/-! ## All fields -/

theorem answerable_cons (f : Field) (fields : List Field) :
    answerable (f :: fields) =
      if f.type.isDisplayOnly then answerable fields else f :: answerable fields := by
  cases h : f.type.isDisplayOnly <;> simp [answerable, h]

/-- The fields that are answered, each with the response it takes.  Once a field has
    taken one, the responses with its id are out of reach for the fields after
    it. -/
def taken : List Field → List Response → List (Field × Response)
  | [], _ => []
  | f :: fields, rs =>
    if f.type.isDisplayOnly then taken fields rs
    else (f, f.responseIn rs) :: taken fields (rs.filter fun r => r.id != f.id)

/-- What is accepted is what each field makes of the response it takes. -/
theorem acceptAll_eq_mapM_taken (fields : List Field) (rs : List Response) :
    acceptAll dir today fields rs = (taken fields rs).mapM fun fr => fr.1.accept dir today fr.2 := by
  induction fields generalizing rs with
  | nil => rfl
  | cons f fields ih =>
    rw [acceptAll, taken]
    split
    · exact ih rs
    · rw [List.mapM_cons, ih]

theorem map_fst_taken (fields : List Field) (rs : List Response) :
    (taken fields rs).map (·.1) = answerable fields := by
  induction fields generalizing rs with
  | nil => rfl
  | cons f fields ih =>
    rw [taken, answerable_cons]
    split
    · exact ih rs
    · rw [List.map_cons, ih]

theorem id_of_mem_taken {fr : Field × Response} (h : fr ∈ taken fields rs) : fr.2.id = fr.1.id := by
  induction fields generalizing rs with
  | nil => cases h
  | cons f fields ih =>
    rw [taken] at h
    split at h
    · exact ih h
    · rcases List.mem_cons.1 h with rfl | h
      · exact id_responseIn f rs
      · exact ih h

/-- Fields with ids of their own take the responses that count for them. -/
theorem taken_eq_map (h : ((answerable fields).map (·.id)).Nodup) (rs : List Response) :
    taken fields rs = (answerable fields).map fun f => (f, f.responseIn rs) := by
  induction fields generalizing rs with
  | nil => rfl
  | cons f fields ih =>
    rw [taken]
    rw [answerable_cons] at h ⊢
    split at h
    · next hshown => rw [if_pos hshown, if_pos hshown, ih h]
    · next hshown =>
      rw [if_neg hshown, if_neg hshown, List.map_cons]
      rw [List.map_cons, List.nodup_cons] at h
      -- no field to come has the id of the responses that are taken out
      have hrest : ∀ g ∈ answerable fields,
          g.responseIn (rs.filter fun r => r.id != f.id) = g.responseIn rs := by
        intro g hg
        have hne : g.id ≠ f.id := fun heq => h.1 (heq ▸ List.mem_map_of_mem hg)
        exact responseIn_congr (responsesTo_filter fun s _ hs => by simpa [hs] using hne)
      rw [ih h.2, List.map_congr_left fun g hg => by rw [hrest g hg]]

/-- **Each field is judged by itself.** -/
theorem acceptAll_eq_mapM (h : ((answerable fields).map (·.id)).Nodup) (rs : List Response) :
    acceptAll dir today fields rs =
      (answerable fields).mapM fun f => f.accept dir today (f.responseIn rs) := by
  rw [acceptAll_eq_mapM_taken, taken_eq_map h, List.mapM_map]
  rfl

/-- Only the responses that count matter. -/
theorem acceptAll_congr (h : ((answerable fields).map (·.id)).Nodup)
    (hrs : ∀ f ∈ answerable fields, f.responseIn rs = f.responseIn rs') :
    acceptAll dir today fields rs = acceptAll dir today fields rs' := by
  rw [acceptAll_eq_mapM h, acceptAll_eq_mapM h]
  exact mapM_congr fun f hf => by rw [hrs f hf]

/-- A response that a field takes and that is none of the blank ones is one of the
    responses. -/
theorem filter_taken_subset {p : Response → Bool} (hp : ∀ id type, p (.blank id type) = false)
    (fields : List Field) (rs : List Response) :
    ((taken fields rs).map (·.2)).filter p ⊆ rs.filter p := by
  induction fields generalizing rs with
  | nil => exact List.nil_subset _
  | cons f fields ih =>
    have hrest : ((taken fields (rs.filter fun r => r.id != f.id)).map (·.2)).filter p ⊆
        rs.filter p := by
      refine List.Subset.trans (ih _) ?_
      rw [List.filter_comm]
      exact List.filter_subset_self _
    rw [taken]
    split
    · exact ih rs
    · rw [List.map_cons, List.filter_cons]
      split
      · next hshown =>
        have hmem : f.responseIn rs ∈ rs := by
          have hanswers : f.AnsweredBy rs (f.responseIn rs) := answeredBy_iff.2 rfl
          generalize f.responseIn rs = r at hanswers hshown
          cases hanswers with
          | last hsplit => rw [hsplit]; simp
          | none => rw [hp] at hshown; cases hshown
        exact List.cons_subset.2 ⟨List.mem_filter.2 ⟨hmem, hshown⟩, hrest⟩
      · exact hrest

/-- Of the responses that are taken, no two but blank ones have one id. -/
theorem nodup_filter_taken {p : Response → Bool} (hp : ∀ id type, p (.blank id type) = false)
    (fields : List Field) (rs : List Response) :
    ((((taken fields rs).map (·.2)).filter p).map (·.id)).Nodup := by
  induction fields generalizing rs with
  | nil => exact List.nodup_nil
  | cons f fields ih =>
    rw [taken]
    split
    · exact ih rs
    · rw [List.map_cons, List.filter_cons]
      split
      · rw [List.map_cons, List.nodup_cons, id_responseIn]
        refine ⟨fun hmem => ?_, ih _⟩
        obtain ⟨r, hr, hid⟩ := List.mem_map.1 hmem
        have hreach := List.mem_of_mem_filter (filter_taken_subset hp _ _ hr)
        simpa [hid] using (List.mem_filter.1 hreach).2
      · exact ih _

theorem Field.accept_eq_ok_iff {a : Accepted} : f.accept dir today r = .ok a ↔
    ∃ answer, f.process dir today r = .ok answer ∧ a = ⟨f.id, f.title, f.type, r.visible, answer⟩ := by
  rw [Field.accept]
  cases f.process dir today r <;> simp [eq_comm]

theorem Field.accept_responseIn_iff {a : Accepted} : f.accept dir today (f.responseIn rs) = .ok a ↔
    f.Accepts dir today rs a := accept_eq_ok_iff

theorem Field.accept_eq_error_iff {e : SubmissionError} : f.accept dir today r = .error e ↔
    ∃ d, f.process dir today r = .error d ∧ e = ⟨f.id, d⟩ := by
  rw [Field.accept]
  cases f.process dir today r <;> simp [eq_comm]

/-- **What becomes of a submission.**  It is accepted if the response that counts is
    for each field, with one accepted response for each field in their order, and it
    is refused for the first field whose response is.  Other orders of responses to
    different fields, responses to no field, responses that later ones override, the
    response that counts given once more, be it the blank one, and fields that are
    only shown make no difference. -/
theorem acceptAll_decides (dir : Phone.Directory) (today : Date) (fields : List Field)
    (rs : List Response)
    (hdistinct : ((answerable fields).map (·.id)).Nodup) :
    (∀ (f : Field) (r : Response), f.AnsweredBy rs r ↔ r = f.responseIn rs) ∧
    (∀ out, acceptAll dir today fields rs = .ok out ↔
      List.Forall₂ (fun f a => f.Accepts dir today rs a) (answerable fields) out) ∧
    (∀ e, acceptAll dir today fields rs = .error e ↔ ∃ front f back d,
      answerable fields = front ++ f :: back ∧ (∀ g ∈ front, ∃ a, g.Accepts dir today rs a) ∧
        f.process dir today (f.responseIn rs) = .error d ∧ e = ⟨f.id, d⟩) ∧
    (∀ rs', Reordered rs rs' → acceptAll dir today fields rs' = acceptAll dir today fields rs) ∧
    (∀ rs', (∀ f ∈ answerable fields, responsesTo f.id rs' = responsesTo f.id rs) →
      acceptAll dir today fields rs' = acceptAll dir today fields rs) ∧
    (∀ front r r' back, rs = front ++ r :: back → r'.id = r.id → (∃ s ∈ back, s.id = r.id) →
      acceptAll dir today fields (front ++ r' :: back) = acceptAll dir today fields rs) ∧
    (∀ f ∈ answerable fields, ∀ front back, rs = front ++ back →
      acceptAll dir today fields (front ++ f.responseIn rs :: back) = acceptAll dir today fields rs) ∧
    (∀ fields', answerable fields' = answerable fields →
      acceptAll dir today fields' rs = acceptAll dir today fields rs) := by
  refine ⟨fun f r => answeredBy_iff, ?_, ?_, ?_, ?_, ?_, ?_, ?_⟩
  · intro out
    rw [acceptAll_eq_mapM hdistinct, mapM_eq_ok_iff]
    simp only [Field.accept_responseIn_iff]
  · intro e
    rw [acceptAll_eq_mapM hdistinct, mapM_eq_error_iff]
    simp only [Field.accept_responseIn_iff, Field.accept_eq_error_iff]
    constructor
    · rintro ⟨front, f, back, hsplit, hfront, d, hd, he⟩
      exact ⟨front, f, back, d, hsplit, hfront, hd, he⟩
    · rintro ⟨front, f, back, d, hsplit, hfront, hd, he⟩
      exact ⟨front, f, back, hsplit, hfront, d, hd, he⟩
  · intro rs' h
    exact acceptAll_congr hdistinct fun f _ => responseIn_congr (h.responsesTo_eq f.id).symm
  · intro rs' h
    exact acceptAll_congr hdistinct fun f hf => responseIn_congr (h f hf)
  · rintro front r r' back rfl hid hback
    exact acceptAll_congr hdistinct fun f _ => responseIn_override hid hback f
  · rintro f hf front back rfl
    refine acceptAll_congr hdistinct fun g hg => ?_
    by_cases hgf : g = f
    · rw [hgf, responseIn_insert]
    · have hne : (f.responseIn (front ++ back)).id ≠ g.id := by
        rw [id_responseIn]
        exact fun heq => hgf (List.inj_on_of_nodup_map hdistinct hg hf heq.symm)
      refine responseIn_congr ?_
      rw [responsesTo_append, responsesTo_append, responsesTo_cons_of_ne hne]
  · intro fields' h
    rw [acceptAll_eq_mapM hdistinct, acceptAll_eq_mapM (h ▸ hdistinct), h]

/-- Of two responses to a field the last counts, a field without one is left blank, a
    number of another country is looked up, and a heading and a response to no field do
    not matter. -/
theorem acceptAll_decides_last :
    let dir : Phone.Directory := .ofList [("+447400123456", .mobile)]
    let today : Date := ⟨2024, 2, 29, by decide⟩
    let fields : List Field := [⟨"h", "Part 1", true, .heading⟩, ⟨"a", "A", true, .shortText {}⟩,
      ⟨"b", "B", false, .yesNo⟩, ⟨"m", "M", true, .mobile { international := true }⟩]
    let rs := [Response.single "a" .shortText "old", .single "z" .shortText "x",
      .single "m" .mobile "+447400123456", .single "a" .shortText "new"]
    acceptAll dir today fields rs =
      .ok [⟨"a", "A", .shortText, true, .single "new"⟩, ⟨"b", "B", .yesNo, true, .single ""⟩,
        ⟨"m", "M", .mobile, true, .single "+447400123456"⟩] := by
  intro dir today fields rs
  have hdistinct : ((answerable fields).map (·.id)).Nodup := by decide
  refine ((acceptAll_decides dir today fields rs hdistinct).2.1 _).2 ?_
  refine .cons ⟨.single "new", ?_, rfl⟩ (.cons ⟨.single "", ?_, rfl⟩
    (.cons ⟨.single "+447400123456", ?_, rfl⟩ .nil))
  · rfl
  · rfl
  · rfl

end FormIntake
