/-
  FormIntake — responses made from answers.

  `Response.ofAnswer` makes the response that gives an answer, and `Response.place?` is the
  one of the two places for an answer that a type reads.

  * `ofResponse_ofAnswer`: an answer is read back from the response made from it.
  * `place?_ofAnswer`: the other way round, the response made from an answer that was read
    says the same in its place, item by item.
  * `ofResponse_congr`: nothing but that place counts, and for an uploaded file its name and
    its bytes.

  `ofResponse_inverts` puts these together.
-/
import FormIntake.Proofs.Response.Answer

namespace FormIntake

variable {id : String} {t : FieldType} {r s : Response} {a : Answer} {v : Json}

/-! ## The place that a type reads -/

/-- The place for an answer that a type reads; types that are only shown read none. -/
def Response.place? (t : FieldType) (r : Response) : Option Json :=
  match t.shape with
  | .nothing => none
  | .single | .file => r.answer
  | .multiple | .rows => r.answers

theorem SaysText.eq_text {text : String} (h : SaysText (some v) text) (hv : v ≠ .null) :
    v = .text text := by
  cases h with
  | null => exact absurd rfl hv
  | text => rfl

theorem SaysTexts.eq_array {choices : List String} (h : SaysTexts (some v) choices) (hv : v ≠ .null) :
    v = .array (choices.map .text) := by
  cases h with
  | null => exact absurd rfl hv
  | array => rfl

theorem SaysRows.eq_array {table : List (List String)} (h : SaysRows (some v) table)
    (hv : v ≠ .null) : v = .array (table.map fun row => .array (row.map .text)) := by
  cases h with
  | null => exact absurd rfl hv
  | array => rfl

/-! ## Answers made into responses -/

/-- A response that gives the answer to a field of a type. -/
def Response.ofAnswer (id : String) (t : FieldType) : Answer → Response
  | .nothing => blank id t
  | .single text => single id t text
  | .multiple choices => multiple id t choices
  | .rows table => rows id t table
  | .file text filename content =>
    { attachment id filename content with answer := some (.text text) }

namespace Answer

/-- **An answer is read back from the response made from it.** -/
theorem ofResponse_ofAnswer (id : String) (h : a.shape = t.shape) :
    ofResponse t (.ofAnswer id t a) = .ok a := by
  rw [ofResponse, ← h]
  cases a with
  | nothing => rfl
  | single text => rfl
  | multiple choices =>
    show (readTexts (some (.array (choices.map .text)))).map Answer.multiple = .ok (.multiple choices)
    rw [readTexts_eq_ok_iff.2 .array]
    rfl
  | rows table =>
    show (readRows (some (.array (table.map fun row => .array (row.map .text))))).map Answer.rows =
      .ok (.rows table)
    rw [readRows_eq_ok_iff.2 .array]
    rfl
  | file text filename content => rfl

/-- What a place says is what the answer read from it is made into. -/
theorem place?_ofAnswer (id : String) (h : ofResponse t r = .ok a) (hplace : r.place? t = some v)
    (hv : v ≠ .null) : (Response.ofAnswer id t a).place? t = some v := by
  cases ofResponse_eq_ok_iff.1 h with
  | nothing ht =>
    rw [Response.place?, shape_of_isDisplayOnly ht] at hplace
    cases hplace
  | single ht hsingle hs =>
    rw [Response.place?, shape_eq_single ht hsingle] at hplace ⊢
    rw [show r.answer = some v from hplace] at hs
    rw [hs.eq_text hv]
    rfl
  | multiple hs | table hs | children hs =>
    rw [show r.answers = some v from hplace] at hs
    rw [hs.eq_array hv]
    rfl
  | file hs =>
    rw [show r.answer = some v from hplace] at hs
    rw [hs.eq_text hv]
    rfl

/-- Nothing else in a response counts. -/
theorem ofResponse_congr (hplace : r.place? t = s.place? t)
    (hfile : t.shape = .file → r.filename = s.filename ∧ r.content = s.content) :
    ofResponse t r = ofResponse t s := by
  rw [Response.place?, Response.place?] at hplace
  rw [ofResponse, ofResponse]
  cases hshape : t.shape with
  | nothing => rfl
  | single =>
    rw [hshape] at hplace
    rw [show r.answer = s.answer from hplace]
  | multiple | rows =>
    rw [hshape] at hplace
    rw [show r.answers = s.answers from hplace]
  | file =>
    rw [hshape] at hplace
    obtain ⟨hname, hcontent⟩ := hfile hshape
    rw [show r.answer = s.answer from hplace, hname, hcontent]

/-- **Answers and responses correspond.**  A response made to carry a text, choices, rows or
    a file is read as that.  If a place that says anything is read as an answer, then so is
    the response made from that answer, and it has the same in its place.  What is
    read, or why nothing is, depends on no more of the response than the place of its type
    and, for a file, its name and its bytes. -/
theorem ofResponse_inverts (id : String) (t : FieldType) :
    (t.shape = .single → ∀ text, ofResponse t (.single id t text) = .ok (.single text)) ∧
    (t.shape = .multiple →
      ∀ choices, ofResponse t (.multiple id t choices) = .ok (.multiple choices)) ∧
    (t.shape = .rows → ∀ table, ofResponse t (.rows id t table) = .ok (.rows table)) ∧
    (∀ filename content, ofResponse .attachment (.attachment id filename content) =
      .ok (.file filename filename content)) ∧
    (∀ r a v, ofResponse t r = .ok a → r.place? t = some v → v ≠ .null →
      ofResponse t (.ofAnswer id t a) = .ok a ∧ (Response.ofAnswer id t a).place? t = some v) ∧
    ∀ r s : Response, r.place? t = s.place? t →
      (t.shape = .file → r.filename = s.filename ∧ r.content = s.content) →
        ofResponse t r = ofResponse t s := by
  refine ⟨?_, ?_, ?_, fun filename content => rfl, ?_, fun r s => ofResponse_congr⟩
  · intro ht text
    exact ofResponse_ofAnswer (a := .single text) id ht.symm
  · intro ht choices
    exact ofResponse_ofAnswer (a := .multiple choices) id ht.symm
  · intro ht table
    exact ofResponse_ofAnswer (a := .rows table) id ht.symm
  · intro r a v h hplace hv
    have hshape : a.shape = t.shape := shape_of_gives (ofResponse_eq_ok_iff.1 h)
    exact ⟨ofResponse_ofAnswer id hshape, place?_ofAnswer id h hplace hv⟩

/-- Rows of different lengths, one of them empty, beside a number in the place that a table
    does not read. -/
theorem ofResponse_inverts_ragged :
    let rows : Json := .array [.array [.text "a", .text ""], .array []]
    let r : Response :=
      { id := "t", type := .table, answer := some (.number (.int 1)), answers := some rows }
    ofResponse .table r = .ok (.rows [["a", ""], []]) ∧
      (Response.rows "t" .table [["a", ""], []]).answers = some rows ∧
      ofResponse .table { r with answer := none } = ofResponse .table r := by
  intro rows r
  obtain ⟨-, -, -, -, hback, hplace⟩ := ofResponse_inverts "t" .table
  have hread : ofResponse .table r = .ok (.rows [["a", ""], []]) := rfl
  exact ⟨hread, (hback r _ rows hread rfl nofun).2, hplace _ _ rfl nofun⟩

end Answer

end FormIntake
