/-
  FormIntake — submissions, written and read back.

  A record whose absent fields are left out is read back field by field
  (`Raw.fieldsOf?_membersOf`), and so is a response (`Response.ofRaw?_toJson`): what is read
  of it is all but its content.

  * `Response.Storable`: the answers of a response are not null, repeat no key, and hold
    finite numbers no deeper than a document allows.
  * `Response.storable_of_ofRaw?`: every response that is read is storable.
  * `readSubmission_print`: a submission is read back from its text without the contents,
    and a submission that was read is read again as it was.
-/
import FormIntake.Proofs.Field.Codec
import FormIntake.Proofs.Json.Settle
import FormIntake.Proofs.Json.Sound
import FormIntake.Proofs.Response.Codec

namespace FormIntake

namespace Json

variable {p : Double → Prop}

/-! ## Fields of a record -/

/-- The members of a record: those of its fields that have a value. -/
def membersOf (fields : List (String × Option Json)) : List (String × Json) :=
  fields.flatMap fun f => Response.member f.1 f.2

theorem mem_membersOf {fields : List (String × Option Json)} {m : String × Json} :
    m ∈ membersOf fields ↔ (m.1, some m.2) ∈ fields := by
  rw [membersOf, List.mem_flatMap]
  constructor
  · rintro ⟨⟨key, v⟩, hf, hm⟩
    cases v with
    | none => cases hm
    | some v =>
      cases List.mem_singleton.1 hm
      exact hf
  · intro hm
    exact ⟨_, hm, List.mem_singleton_self _⟩

theorem filter_membersOf {fields : List (String × Option Json)} {f : String × Option Json}
    (hkeys : (fields.map Prod.fst).Nodup) (hf : f ∈ fields) :
    (membersOf fields).filter (fun m => [f.1].contains m.1) = Response.member f.1 f.2 := by
  -- members of another field are not kept
  have hother : ∀ fs : List (String × Option Json), f.1 ∉ fs.map Prod.fst →
      (membersOf fs).filter (fun m => [f.1].contains m.1) = [] := by
    intro fs hnew
    rw [List.filter_eq_nil_iff]
    intro m hm hkey
    have heq : m.1 = f.1 := by simpa using hkey
    have hmem : m.1 ∈ fs.map Prod.fst := List.mem_map.2 ⟨_, mem_membersOf.1 hm, rfl⟩
    exact hnew (heq ▸ hmem)
  induction fields with
  | nil => cases hf
  | cons g fields ih =>
    obtain ⟨hg, hkeys⟩ := List.nodup_cons.1 hkeys
    have hcons : membersOf (g :: fields) = membersOf [g] ++ membersOf fields := by simp [membersOf]
    rw [hcons, List.filter_append]
    rcases List.mem_cons.1 hf with rfl | hf
    · rw [hother fields hg, List.append_nil]
      cases hv : f.2 <;> simp [membersOf, Response.member, hv]
    · have hne : f.1 ≠ g.1 := fun heq => hg (heq ▸ List.mem_map_of_mem hf)
      rw [hother [g] (by simpa using hne), ih hkeys hf, List.nil_append]

theorem fieldOf?_membersOf {fields : List (String × Option Json)} {f : String × Option Json}
    (hkeys : (fields.map Prod.fst).Nodup) (hf : f ∈ fields) :
    fieldOf? [f.1] (membersOf fields) = some f.2 := by
  rw [fieldOf?, filter_membersOf hkeys hf]
  cases f.2 <;> rfl

/-- **A record without its absent fields is read field by field.** -/
theorem Raw.fieldsOf?_membersOf (fields : List (String × Option Json))
    (hkeys : (fields.map Prod.fst).Nodup) :
    Raw.fieldsOf? (fields.map Prod.fst) (ofJson (.object (membersOf fields))) =
      some (fields.map fun f => f.2.map ofJson) := by
  have hmembers : (ofMembers (membersOf fields)).mapM
      (fun m => m.1.map fun key => (key, m.2)) =
        some ((membersOf fields).map fun m => (m.1, ofJson m.2)) := by
    rw [ofMembers_eq]
    exact mapM_map_of fun m _ => rfl
  rw [ofJson, Raw.fieldsOf?, hmembers, Option.bind_eq_bind, Option.bind_some, fieldsOfMembers?,
    List.map_map]
  refine mapM_map_of fun f hf => ?_
  rw [fieldOf?_map]
  simp only [Function.comp, fieldOf?_membersOf hkeys hf, Option.map_some]

theorem Raw.sound_of_fieldsOf? {names : List String} {v : Raw} {fields : List (Option Raw)}
    (hv : v.Sound p) (h : v.fieldsOf? names = some fields) : ∀ w, some w ∈ fields → w.Sound p := by
  intro w hw
  cases hv with
  | object hmembers =>
    simp only [Raw.fieldsOf?, Option.bind_eq_bind, Option.bind_eq_some_iff] at h
    obtain ⟨named, hnamed, h⟩ := h
    obtain ⟨_, _, hfield⟩ := exists_of_mem_mapM h hw
    obtain ⟨n, hn, rfl⟩ := mem_of_fieldOf? hfield
    obtain ⟨m, hm, hkey⟩ := exists_of_mem_mapM hnamed hn
    obtain ⟨key, -, rfl⟩ := Option.map_eq_some_iff.1 hkey
    exact hmembers m hm
  | array hitems =>
    rw [Raw.fieldsOf?, fieldsOfItems?] at h
    split at h
    · cases h
      simp only [List.mem_append, List.mem_map, List.mem_replicate] at hw
      rcases hw with ⟨item, hitem, heq⟩ | ⟨-, heq⟩
      · cases heq
        exact hitems w hitem
      · cases heq
    · cases h
  | null | bool | number | text => cases h

/-! ## Answers -/

/-- A value that a document may hold as an answer. -/
structure IsAnswer (p : Double → Prop) (v : Json) : Prop where
  ne_null : v ≠ .null
  distinct : v.Distinct
  /-- A submission, its list and a response take three levels. -/
  fits : Fits p (maxDepth - 3) v

theorem IsAnswer.optional?_ofJson {o : Option Json} (h : ∀ v, o = some v → IsAnswer p v) :
    orElse none (Raw.optional? (Raw.settled? (maxDepth - 3))) (o.map Raw.ofJson) = some o := by
  cases o with
  | none => rfl
  | some v =>
    obtain ⟨hnull, hdistinct, hfits⟩ := h v rfl
    have hraw : Raw.ofJson v ≠ .null := by
      cases v with
      | null => exact absurd rfl hnull
      | bool | number | text | array | object => simp [Raw.ofJson]
    rw [Option.map_some, orElse, Raw.optional?.eq_2 _ _ hraw, Raw.settled?, Raw.json?_ofJson hfits,
      Option.map_some, settle_eq_self hdistinct, Option.map_some]

/-- **An answer that is read is one that a document may hold.** -/
theorem isAnswer_of_optional? {o : Option Raw} {a : Option Json} (ho : ∀ v, o = some v → v.Sound p)
    (h : orElse none (Raw.optional? (Raw.settled? (maxDepth - 3))) o = some a) :
    ∀ w, a = some w → IsAnswer p w := by
  rintro w rfl
  cases o with
  | none => cases h
  | some v =>
    by_cases hnull : v = .null
    · subst hnull
      cases h
    · rw [orElse, Raw.optional?.eq_2 _ _ hnull] at h
      obtain ⟨x, hx, heq⟩ := Option.map_eq_some_iff.1 h
      cases heq
      obtain ⟨y, hy, rfl⟩ := Option.map_eq_some_iff.1 hx
      have hy' : y ≠ .null := by
        rintro rfl
        exact Raw.json?_ne_null hnull hy
      exact ⟨settle_ne_null hy', distinct_settle y, fits_settle (Raw.fits_of_json? (ho v rfl) hy)⟩

end Json

open Json

/-! ## Responses -/

namespace Response

variable {p : Double → Prop} {r : Response}

/-- The answers of a response. -/
def values (r : Response) : List Json := r.answer.toList ++ r.answers.toList

/-- The doubles in the answers. -/
def doubles (r : Response) : List Double := r.values.flatMap Json.doubles

/-- A document may hold the answers. -/
def Storable (r : Response) : Prop := ∀ v ∈ r.values, IsAnswer (fun d => d.isFinite = true) v

/-- The response without the bytes of its file. -/
def withoutContent (r : Response) : Response := { r with content := [] }

/-- The fields that are written, with their keys. -/
def fields (r : Response) : List (String × Option Json) :=
  [("_id", some (.text r.id)), ("question", r.question.map .text),
    ("fieldType", some (.text r.type.name)), ("answer", r.answer), ("answerArray", r.answers),
    ("isVisible", some (.bool r.visible)), ("filename", r.filename.map .text)]

theorem toJson_eq (r : Response) : r.toJson = .object (membersOf r.fields) := by
  simp [toJson, membersOf, fields, member]

theorem nodup_keys : keys.Nodup := by decide

theorem optional?_text (o : Option String) :
    orElse none (Raw.optional? Raw.text?) ((o.map Json.text).map Raw.ofJson) = some o := by
  cases o <;> simp [orElse, Raw.ofJson, Raw.optional?, Raw.text?]

/-- **A response is read back without its content.** -/
theorem ofRaw?_toJson (h : ∀ v ∈ r.values, IsAnswer p v) :
    ofRaw? (maxDepth - 3) (Raw.ofJson r.toJson) = some r.withoutContent := by
  have hanswer := IsAnswer.optional?_ofJson (o := r.answer) fun v hv => h v (by simp [values, hv])
  have hanswers := IsAnswer.optional?_ofJson (o := r.answers) fun v hv => h v (by simp [values, hv])
  have hfields : Raw.fieldsOf? keys (Raw.ofJson r.toJson) =
      some (r.fields.map fun f => f.2.map Raw.ofJson) := by
    rw [toJson_eq]
    exact Raw.fieldsOf?_membersOf r.fields nodup_keys
  have htext : ∀ s, (Raw.ofJson (.text s)).text? = some s := fun s => by rw [Raw.ofJson, Raw.text?]
  have htype : FieldType.ofRaw? (Raw.ofJson (.text r.type.name)) = some r.type := by
    rw [Raw.ofJson]
    exact r.type.ofName?_name
  have hvisible : orElse true Raw.bool? (some (Raw.ofJson (.bool r.visible))) = some r.visible := by
    rw [Raw.ofJson]
    rfl
  rw [ofRaw?, hfields]
  simp only [fields, List.map_cons, List.map_nil, Option.map_some, Option.bind_eq_bind,
    Option.bind_some, htext, htype, hvisible, hanswer, hanswers, optional?_text, withoutContent]

theorem fits_toJson {depth : Nat} (h : ∀ v ∈ r.values, Fits p depth v) :
    Fits p (depth + 1) r.toJson := by
  have hfields : ∀ f ∈ r.fields, ∀ v, f.2 = some v → Fits p depth v := by
    have htext : ∀ o : Option String, ∀ v, o.map Json.text = some v → Fits p depth v := by
      rintro o v hv
      obtain ⟨s, -, rfl⟩ := Option.map_eq_some_iff.1 hv
      exact .text
    simp only [fields, List.forall_mem_cons]
    refine ⟨?_, htext _, ?_, fun v hv => h v ?_, fun v hv => h v ?_, ?_, htext _, by simp⟩
    · rintro v ⟨⟩
      exact .text
    · rintro v ⟨⟩
      exact .text
    · simp [values, hv]
    · simp [values, hv]
    · rintro v ⟨⟩
      exact .bool
  rw [toJson_eq]
  exact .object fun m hm => hfields _ (mem_membersOf.1 hm) m.2 rfl

/-- **Every response that is read is storable.** -/
theorem storable_of_ofRaw? {v : Raw} (hv : v.Sound fun d => d.isFinite = true)
    (h : ofRaw? (maxDepth - 3) v = some r) : r.Storable := by
  unfold ofRaw? at h
  simp only [Option.bind_eq_bind, Option.bind_eq_some_iff] at h
  obtain ⟨fields, hfields, h⟩ := h
  have hsound := Raw.sound_of_fieldsOf? hv hfields
  split at h
  · simp only [Option.bind_eq_some_iff] at h
    obtain ⟨_, _, _, _, _, _, _, _, _, _, answer, hanswer, answers, hanswers, _, _, _, _, h⟩ := h
    cases h
    intro w hw
    simp only [values, List.mem_append, Option.mem_toList] at hw
    rcases hw with rfl | rfl
    · exact isAnswer_of_optional? (fun x hx => hsound x (by simp [hx])) hanswer w rfl
    · exact isAnswer_of_optional? (fun x hx => hsound x (by simp [hx])) hanswers w rfl
  · cases h

end Response

/-! ## Submissions -/

section

variable {rs : List Response}

/-- What is written of responses with answers that a document may hold is read back. -/
theorem readSubmission_of_isAnswer
    (h : ∀ r ∈ rs, ∀ v ∈ r.values, IsAnswer Double.Legible v) :
    readSubmission (Bytes.ofText (submissionToJson rs).print) =
      some (rs.map Response.withoutContent) := by
  have hfits : Fits Double.Legible (maxDepth - 3 + 3) (submissionToJson rs) := by
    refine .object ?_
    rw [List.forall_mem_singleton]
    exact fits_array fun r hr => Response.fits_toJson fun v hv => (h r hr v hv).fits
  have hfields : Raw.fieldsOf? ["responses"] (Raw.ofJson (submissionToJson rs)) =
      some [some (Raw.ofJson (.array (rs.map Response.toJson)))] :=
    Raw.fieldsOf?_membersOf [("responses", some (.array (rs.map Response.toJson)))] (by simp)
  have hlist : (Raw.ofJson (.array (rs.map Response.toJson))).list?
      (Response.ofRaw? (maxDepth - 3)) = some (rs.map Response.withoutContent) := by
    rw [Raw.ofJson, Raw.ofItems_eq, Raw.list?, List.map_map]
    exact mapM_map_of fun r hr => Response.ofRaw?_toJson (h r hr)
  rw [readSubmission, Raw.read?_print hfits, Option.bind_some, submissionOfRaw?, hfields]
  exact hlist

theorem storable_of_readSubmission {b : Bytes} (h : readSubmission b = some rs) :
    ∀ r ∈ rs, r.Storable := by
  intro r hr
  simp only [readSubmission, submissionOfRaw?, Option.bind_eq_bind, Option.bind_eq_some_iff] at h
  obtain ⟨v, hread, fields, hfields, h⟩ := h
  have hsound := Raw.sound_of_fieldsOf? (Raw.sound_of_read? hread) hfields
  split at h
  · obtain ⟨list, rfl, hlist⟩ := Option.bind_eq_some_iff.1 h
    unfold Raw.list? at hlist
    split at hlist
    · next items =>
      obtain ⟨x, hx, hread⟩ := exists_of_mem_mapM hlist hr
      cases hsound (.array items) (by simp) with
      | array hitems => exact Response.storable_of_ofRaw? (hitems x hx) hread
    · cases hlist
  · cases h

end

/-- **Submissions survive being written, and contents never do.**  Storable responses whose
    doubles are legible are read back from their text, each without its content.  Whatever
    document a submission is read from, its responses are storable and have no content; so
    what is read of their text is the submission itself. -/
theorem readSubmission_print :
    (∀ rs : List Response, (∀ r ∈ rs, r.Storable) → (∀ r ∈ rs, ∀ d ∈ r.doubles, d.Legible) →
      readSubmission (Bytes.ofText (submissionToJson rs).print) =
        some (rs.map Response.withoutContent)) ∧
    ∀ (b : Bytes) (rs : List Response), readSubmission b = some rs →
      (∀ r ∈ rs, r.Storable ∧ r.content = []) ∧
      ((∀ r ∈ rs, ∀ d ∈ r.doubles, d.Legible) →
        readSubmission (Bytes.ofText (submissionToJson rs).print) = readSubmission b) := by
  have hwrite : ∀ rs : List Response, (∀ r ∈ rs, r.Storable) →
      (∀ r ∈ rs, ∀ d ∈ r.doubles, d.Legible) →
      readSubmission (Bytes.ofText (submissionToJson rs).print) =
        some (rs.map Response.withoutContent) := by
    intro rs hstorable hlegible
    refine readSubmission_of_isAnswer fun r hr v hv => ?_
    obtain ⟨hnull, hdistinct, hfits⟩ := hstorable r hr v hv
    refine ⟨hnull, hdistinct, hfits.of_doubles fun d hd => hlegible r hr d ?_⟩
    exact List.mem_flatMap.2 ⟨v, hv, hd⟩
  refine ⟨hwrite, fun b rs hread => ?_⟩
  have hstorable := storable_of_readSubmission hread
  have hcontent := content_of_readSubmission hread
  refine ⟨fun r hr => ⟨hstorable r hr, hcontent r hr⟩, fun hlegible => ?_⟩
  have hsame : rs.map Response.withoutContent = rs := by
    refine (List.map_congr_left fun r hr => ?_).trans (List.map_id rs)
    rw [Response.withoutContent, ← hcontent r hr, id]
  rw [hwrite rs hstorable hlegible, hsame, hread]

/-- A response with a file, and 0.5 among its answers. -/
def upload : Response :=
  { id := "f", type := .attachment, visible := false, filename := some "cv.pdf", content := [1, 2]
    answer := some (.object [("a", .null), ("b", .array [.number (.real ⟨false, Nat.pow 2 1073⟩)])]) }

theorem storable_upload : upload.Storable := by
  simp only [upload, Response.Storable, Response.values, Option.toList, List.append_nil,
    List.forall_mem_singleton]
  refine ⟨by rintro ⟨⟩, .object (by decide) ?_, .object ?_⟩
  · simp only [List.forall_mem_cons]
    exact ⟨.null, .array (List.forall_mem_singleton.2 .number), by simp⟩
  · have hfinite : Double.isFinite ⟨false, Nat.pow 2 1073⟩ = true := by decide +kernel
    simp only [List.forall_mem_cons]
    exact ⟨.null, .array (List.forall_mem_singleton.2 (.number hfinite)), by simp⟩

theorem legible_upload : ∀ d ∈ upload.doubles, d.Legible := by
  simp only [upload, Response.doubles, Response.values, Option.toList, List.append_nil,
    List.flatMap_singleton, Json.doubles, memberDoubles, itemDoubles, List.nil_append,
    List.forall_mem_singleton]
  unfold Double.Legible
  decide +kernel

/-- A document whose response has a content and gives a key of its answer twice. -/
def crowded : Json :=
  .object [("responses", .array [.object [("content", .array [.number (.int 1)]), ("_id", .text "f"),
    ("fieldType", .text "attachment"), ("filename", .null),
    ("answer", .object [("a", .null), ("a", .bool true)])]])]

theorem fits_crowded : Fits Double.Legible 4 crowded := by
  have hword : leastInt ≤ 1 ∧ 1 ≤ greatestInt := by decide
  refine .object (List.forall_mem_singleton.2 (.array (List.forall_mem_singleton.2 (.object ?_))))
  simp only [List.forall_mem_cons]
  refine ⟨.array (List.forall_mem_singleton.2 (.number hword)), .text, .text, .null, .object ?_,
    by simp⟩
  simp only [List.forall_mem_cons]
  exact ⟨.null, .bool, by simp⟩

theorem readSubmission_print_upload :
    (upload.Storable ∧ (∀ d ∈ upload.doubles, d.Legible) ∧
      readSubmission (Bytes.ofText (submissionToJson [upload]).print) =
        some [upload.withoutContent]) ∧
    ∃ r, readSubmission (Bytes.ofText crowded.print) = some [r] ∧
      r.answer = some (.object [("a", .bool true)]) ∧ r.content = [] ∧
      readSubmission (Bytes.ofText (submissionToJson [r]).print) = some [r] := by
  have hwrite := readSubmission_print.1 [upload] (List.forall_mem_singleton.2 storable_upload)
    (List.forall_mem_singleton.2 legible_upload)
  have hread : readSubmission (Bytes.ofText crowded.print) =
      some [{ id := "f", type := .attachment, answer := some (.object [("a", .bool true)]) }] := by
    rw [readSubmission, Raw.read?_print fits_crowded]
    rfl
  obtain ⟨-, hagain⟩ := readSubmission_print.2 _ _ hread
  refine ⟨⟨storable_upload, legible_upload, hwrite⟩, _, hread, rfl, rfl, ?_⟩
  rw [← hread]
  exact hagain (by simp [Response.doubles, Response.values, Json.doubles, memberDoubles])

end FormIntake
