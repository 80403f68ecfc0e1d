/-
  FormIntake — the answer that a response gives, declaratively.

  * `SaysText`, `SaysTexts`, `SaysRows`: what a place for an answer says.  An
    absent value and null say nothing; any other value has to be of the shape.
  * `Response.Gives t r a`: read as one of type `t`, the response `r` gives the
    answer `a`.  A response that gives no answer is ill-shaped.
  * `Answer.Blank`: an answer that says nothing.

  `ofResponse_eq_ok_iff` and `isBlank_iff`: the program decides these.
-/
import FormIntake.Proofs.Text
import FormIntake.Proofs.Validation.Traversal
import FormIntake.Response.Answer

namespace FormIntake

open Validation

/-! ## The places for an answer -/

/-- The place for one text says `s`. -/
inductive SaysText : Option Json → String → Prop
  | absent : SaysText none ""
  | null : SaysText (some .null) ""
  | text {s} : SaysText (some (.text s)) s

/-- The place for several texts says `ss`. -/
inductive SaysTexts : Option Json → List String → Prop
  | absent : SaysTexts none []
  | null : SaysTexts (some .null) []
  | array {ss : List String} : SaysTexts (some (.array (ss.map .text))) ss

/-- The place for rows of texts says `rows`. -/
inductive SaysRows : Option Json → List (List String) → Prop
  | absent : SaysRows none []
  | null : SaysRows (some .null) []
  | array {rows : List (List String)} :
    SaysRows (some (.array (rows.map fun row => .array (row.map .text)))) rows

/-- Read as one of a type, the response gives the answer.  Of its two places for
    an answer only that of the type counts. -/
inductive Response.Gives (r : Response) : FieldType → Answer → Prop
  | nothing {t} : t.isDisplayOnly = true → r.Gives t .nothing
  | single {t text} : t.isDisplayOnly = false → t ∉ [.checkbox, .table, .children, .attachment] →
      SaysText r.answer text → r.Gives t (.single text)
  | multiple {choices} : SaysTexts r.answers choices → r.Gives .checkbox (.multiple choices)
  | table {rows} : SaysRows r.answers rows → r.Gives .table (.rows rows)
  | children {rows} : SaysRows r.answers rows → r.Gives .children (.rows rows)
  | file {text} : SaysText r.answer text →
      r.Gives .attachment (.file text (r.filename.getD "") r.content)

/-- Nothing but blank texts and no content. -/
def Answer.Blank : Answer → Prop
  | nothing => True
  | single text => Text.trim text = ""
  | multiple choices => choices = []
  | rows table => ∀ row ∈ table, ∀ cell ∈ row, Text.trim cell = ""
  | file text filename content => Text.trim text = "" ∧ Text.trim filename = "" ∧ content = []

namespace Answer

variable {v : Option Json} {t : FieldType} {r : Response} {a : Answer}

theorem readText_eq_ok_iff {s : String} : readText v = .ok s ↔ SaysText v s := by
  constructor
  · intro h
    unfold readText at h
    split at h
    · cases h; exact .absent
    · cases h; exact .null
    · cases h; exact .text
    · cases h
  · rintro (_ | _ | _) <;> rfl

theorem readItem_eq_ok_iff (x : Json) (s : String) : readItem x = .ok s ↔ x = .text s := by
  cases x <;> simp [readItem]

theorem readRow_eq_ok_iff (x : Json) (row : List String) :
    readRow x = .ok row ↔ x = .array (row.map .text) := by
  cases x with
  | array items => simp only [readRow, mapM_eq_ok_iff_eq_map readItem_eq_ok_iff, Json.array.injEq]
  | _ => simp [readRow]

theorem readTexts_eq_ok_iff {ss : List String} : readTexts v = .ok ss ↔ SaysTexts v ss := by
  constructor
  · intro h
    unfold readTexts at h
    split at h
    · cases h; exact .absent
    · cases h; exact .null
    · rw [(mapM_eq_ok_iff_eq_map readItem_eq_ok_iff).1 h]
      exact .array
    · cases h
  · rintro (_ | _ | _)
    · rfl
    · rfl
    · exact (mapM_eq_ok_iff_eq_map readItem_eq_ok_iff).2 rfl

theorem readRows_eq_ok_iff {rows : List (List String)} :
    readRows v = .ok rows ↔ SaysRows v rows := by
  constructor
  · intro h
    unfold readRows at h
    split at h
    · cases h; exact .absent
    · cases h; exact .null
    · rw [(mapM_eq_ok_iff_eq_map readRow_eq_ok_iff).1 h]
      exact .array
    · cases h
  · rintro (_ | _ | _)
    · rfl
    · rfl
    · exact (mapM_eq_ok_iff_eq_map readRow_eq_ok_iff).2 rfl

theorem shape_of_isDisplayOnly (h : t.isDisplayOnly = true) : t.shape = .nothing := by
  cases t <;> cases h <;> rfl

theorem shape_eq_single (h : t.isDisplayOnly = false)
    (ht : t ∉ [.checkbox, .table, .children, .attachment]) : t.shape = .single := by
  cases t <;> simp_all [FieldType.isDisplayOnly, FieldType.shape]

/-- **A response is read as the answer that it gives.** -/
theorem ofResponse_eq_ok_iff : ofResponse t r = .ok a ↔ r.Gives t a := by
  constructor
  · intro h
    cases t
    case heading | statement | image => cases h; exact .nothing rfl
    case checkbox =>
      obtain ⟨choices, hread, rfl⟩ := map_eq_ok_iff.1 h
      exact .multiple (readTexts_eq_ok_iff.1 hread)
    case table =>
      obtain ⟨rows, hread, rfl⟩ := map_eq_ok_iff.1 h
      exact .table (readRows_eq_ok_iff.1 hread)
    case children =>
      obtain ⟨rows, hread, rfl⟩ := map_eq_ok_iff.1 h
      exact .children (readRows_eq_ok_iff.1 hread)
    case attachment =>
      obtain ⟨text, hread, rfl⟩ := map_eq_ok_iff.1 h
      exact .file (readText_eq_ok_iff.1 hread)
    -- the other types read one text
    all_goals
      obtain ⟨text, hread, rfl⟩ := map_eq_ok_iff.1 h
      exact .single rfl (by decide) (readText_eq_ok_iff.1 hread)
  · intro h
    cases h with
    | nothing ht => rw [ofResponse, shape_of_isDisplayOnly ht]
    | single ht hsingle hs =>
      rw [ofResponse, shape_eq_single ht hsingle]
      exact map_eq_ok_iff.2 ⟨_, readText_eq_ok_iff.2 hs, rfl⟩
    | multiple hs => exact map_eq_ok_iff.2 ⟨_, readTexts_eq_ok_iff.2 hs, rfl⟩
    | table hs => exact map_eq_ok_iff.2 ⟨_, readRows_eq_ok_iff.2 hs, rfl⟩
    | children hs => exact map_eq_ok_iff.2 ⟨_, readRows_eq_ok_iff.2 hs, rfl⟩
    | file hs => exact map_eq_ok_iff.2 ⟨_, readText_eq_ok_iff.2 hs, rfl⟩

/-- The shape of an answer. -/
def shape : Answer → AnswerShape
  | nothing => .nothing
  | single _ => .single
  | multiple _ => .multiple
  | rows _ => .rows
  | file .. => .file

theorem shape_of_gives (h : r.Gives t a) : a.shape = t.shape := by
  cases h with
  | nothing ht => exact (shape_of_isDisplayOnly ht).symm
  | single ht hsingle => exact (shape_eq_single ht hsingle).symm
  | multiple | table | children | file => rfl

theorem isBlank_iff : a.isBlank = true ↔ a.Blank := by
  cases a with
  | nothing => simp [isBlank, Blank]
  | single text => simp [isBlank, Blank, Text.trim_eq_empty_iff]
  | multiple choices => simp [isBlank, Blank]
  | rows table => simp [isBlank, Blank, Text.trim_eq_empty_iff]
  | file text filename content =>
    simp [isBlank, Blank, Text.trim_eq_empty_iff, and_assoc]

end Answer

end FormIntake
