/-
  FormIntake — the rule of each kind of field, and what becomes of a response.

  * `FieldKind.Rule`: the check that goes with each kind, by the kind and the answer.
  * `FieldKind.Takes`: what each kind takes, without the checks.  A check passes if and only
    if the kind takes the answer (`FieldKind.Rule.eq_ok_iff`), one case for each kind.

  `Field.process_decides` is the decision table of a field.  Telephone numbers of other
  countries are looked up in a directory, and nothing is supposed of what stands there.
-/
import FormIntake.Proofs.Identifier.Nric
import FormIntake.Proofs.Identifier.Uen
import FormIntake.Proofs.Response.Files
import FormIntake.Proofs.Validation.Choice
import FormIntake.Proofs.Validation.Day
import FormIntake.Proofs.Validation.Email
import FormIntake.Proofs.Validation.Grid
import FormIntake.Proofs.Validation.Numeric
import FormIntake.Proofs.Validation.Phone

namespace FormIntake

open Validation

namespace FieldKind

/-! ## The checks -/

/-- The check that goes with a kind, on an answer of the shape of its type, and the verdict of
    the check. -/
inductive Rule (dir : Phone.Directory) (today : Date) : FieldKind → Answer → Verdict → Prop
  | heading {a} : Rule dir today .heading a (.ok ())
  | statement {a} : Rule dir today .statement a (.ok ())
  | image {a} : Rule dir today .image a (.ok ())
  | shortText {b a} : Rule dir today (.shortText b) (.single a) (b.checkText a)
  | longText {b a} : Rule dir today (.longText b) (.single a) (b.checkText a)
  | number {o a} : Rule dir today (.number o) (.single a) (o.check a)
  | decimal {o a} : Rule dir today (.decimal o) (.single a) (o.check a)
  | email {o a} : Rule dir today (.email o) (.single a) (o.check a)
  | mobile {o a} : Rule dir today (.mobile o) (.single a) (o.check dir .mobile a)
  | homePhone {o a} : Rule dir today (.homePhone o) (.single a) (o.check dir .home a)
  | date {o a} : Rule dir today (.date o) (.single a) (o.check today a)
  | dropdown {o a} : Rule dir today (.dropdown o) (.single a) (o.checkListed a)
  | radio {o a} : Rule dir today (.radio o) (.single a) (o.check a)
  | checkbox {o as} : Rule dir today (.checkbox o) (.multiple as) (o.check as)
  | rating {o a} : Rule dir today (.rating o) (.single a) (o.check a)
  | yesNo {a} : Rule dir today .yesNo (.single a) (checkYesNo a)
  | nric {a} : Rule dir today .nric (.single a) (require (Identifier.Nric.isValid a) .nric)
  | uen {a} : Rule dir today .uen (.single a) (require (Identifier.Uen.isValid a today.year) .uen)
  | country {a} : Rule dir today .country (.single a) (checkCountry a)
  | table {o rows} : Rule dir today (.table o) (.rows rows) (o.check rows)
  | children {o rows} : Rule dir today (.children o) (.rows rows) (o.check rows)
  | attachment {o text filename content} :
      Rule dir today (.attachment o) (.file text filename content) (o.check text filename content)

variable {dir : Phone.Directory} {today : Date} {kind : FieldKind} {a : Answer} {verdict : Verdict}

theorem rule_of_verdict? (h : kind.verdict? dir today a = some verdict) :
    kind.Rule dir today a verdict := by
  cases kind <;> cases a <;> cases h <;> constructor

/-! ## What is taken -/

/-- **What each kind takes** of the answers that have the shape of its type. -/
def Takes (dir : Phone.Directory) (today : Date) : FieldKind → Answer → Prop
  | heading, _ | statement, _ | image, _ => True
  | shortText b, .single a | longText b, .single a => b.Takes a.length
  | number o, .single a => o.Takes a
  | decimal o, .single a => o.Takes a
  | email o, .single a => o.Takes a
  | mobile o, .single a => o.Takes dir .mobile a
  | homePhone o, .single a => o.Takes dir .home a
  | date o, .single a => ∃ d, Denotes a d ∧ o.Takes today d
  | dropdown o, .single a => a ∈ o.options
  | radio o, .single a => a ∈ o.options ∨ o.others = true ∧ othersMark <+: a.toList
  | checkbox o, .multiple as => o.Takes as
  | rating o, .single a => ∃ n, 1 ≤ n ∧ n ≤ o.steps ∧ n ≤ largestRating ∧ a = toString n
  | yesNo, .single a => a = "Yes" ∨ a = "No"
  | nric, .single a =>
    ∃ p ds c, Text.upper a.toList = p :: (ds ++ [c]) ∧ Identifier.Nric.checkLetter? p ds = some c
  | uen, .single a =>
    ∃ cs c, Text.upper (Text.trimChars a.toList) = cs ++ [c] ∧
      Identifier.Uen.Registers today.year cs c
  | country, .single a => a ∈ Country.names
  | table o, .rows rows => o.Takes rows
  | children o, .rows rows =>
    (o.several = true ∨ rows.length ≤ 1) ∧ ∀ row ∈ rows, row.length = o.subFields.length
  | attachment o, .file text filename content =>
    content ≠ [] ∧ Text.isBlank text = false ∧ Text.isBlank filename = false ∧
      content.length ≤ o.size.bytes
  | _, _ => False

/-- **A check passes if and only if the kind takes the answer.** -/
theorem Rule.eq_ok_iff (h : kind.Rule dir today a verdict) :
    verdict = .ok () ↔ kind.Takes dir today a := by
  cases h with
  | heading | statement | image => exact iff_of_true rfl trivial
  | shortText | longText => exact CountBound.checkText_eq_ok_iff
  | number => exact NumberOptions.check_eq_ok_iff
  | decimal => exact DecimalOptions.check_eq_ok_iff
  | email => exact EmailOptions.check_eq_ok_iff
  | mobile | homePhone => exact PhoneOptions.check_eq_ok_iff
  | date => exact DateOptions.check_eq_ok_iff_denotes
  | dropdown => exact ChoiceOptions.checkListed_eq_ok_iff
  | radio => exact ChoiceOptions.check_eq_ok_iff
  | checkbox => exact CheckboxOptions.check_eq_ok_iff
  | rating => exact RatingOptions.check_eq_ok_iff
  | yesNo => exact checkYesNo_eq_ok_iff
  | nric => exact require_eq_ok.trans Identifier.Nric.isValid_iff
  | uen => exact require_eq_ok.trans Identifier.Uen.isValidUpper_iff
  | country => exact checkCountry_eq_ok_iff
  | table => exact TableOptions.check_eq_ok_iff
  | children => exact ChildrenOptions.check_eq_ok_iff
  | attachment => exact AttachmentOptions.check_eq_ok_iff

end FieldKind

/-! ## The decision table -/

/-- What becomes of a response: the answer that it gives, if the verdict of the rule allows. -/
def ruled (verdict : Verdict) (a : Answer) : Except FieldError Answer :=
  (verdict.mapError .invalidAnswer).map fun _ => a

namespace Field

variable {f : Field} {dir : Phone.Directory} {today : Date} {r : Response} {a : Answer}

/-- A response with an answer that is not blank, to a field that was shown, is held to the rule
    of the kind. -/
theorem exists_rule (htype : r.type = f.type) (hgives : r.Gives f.type a)
    (hvisible : r.visible = true) (hblank : ¬ a.Blank) :
    ∃ verdict, f.kind.Rule dir today a verdict ∧ f.process dir today r = ruled verdict a := by
  obtain ⟨verdict, hverdict⟩ := exists_verdict dir today (Answer.shape_of_gives hgives)
  refine ⟨verdict, FieldKind.rule_of_verdict? hverdict, ?_⟩
  rw [process_of_gives htype hgives, hvisible, checkAnswer_shown hblank hverdict]
  rfl

/-- **What becomes of a response.**  It is ill-shaped if it is of another type than
    the field or gives no answer.  Else the answer decides: one to a field that was
    not shown has to be blank; a blank one to a field that was shown is taken unless
    the field is required, and then only the columns of a table can take it; any
    other answer is held to the check of the field's kind, which passes if and only if
    the kind takes the answer.  What is accepted is the answer that the response gives. -/
theorem process_decides (f : Field) (dir : Phone.Directory) (today : Date) (r : Response) :
    ((∃ d, f.process dir today r = .error (.responseShape d)) ↔
      r.type ≠ f.type ∨ ∀ a, ¬ r.Gives f.type a) ∧
    (∀ a, r.type = f.type → r.Gives f.type a →
      (r.visible = false → a.Blank → f.process dir today r = .ok a) ∧
      (r.visible = false → ¬ a.Blank → f.process dir today r = .error .hiddenField) ∧
      (r.visible = true → a.Blank → f.required = false → f.process dir today r = .ok a) ∧
      (r.visible = true → a.Blank → f.required = true → ∀ o, f.kind = .table o →
        ∃ rows, a = .rows rows ∧ f.process dir today r = ruled (o.check rows) a ∧
          (o.check rows = .ok () ↔ o.Takes rows)) ∧
      (r.visible = true → a.Blank → f.required = true → (∀ o, f.kind ≠ .table o) →
        f.process dir today r = .error (.invalidAnswer .missing)) ∧
      (r.visible = true → ¬ a.Blank → ∃ verdict, f.kind.Rule dir today a verdict ∧
        f.process dir today r = ruled verdict a ∧
          (verdict = .ok () ↔ f.kind.Takes dir today a))) ∧
    (∀ a, f.process dir today r = .ok a → r.type = f.type ∧ r.Gives f.type a) := by
  refine ⟨process_eq_responseShape_iff, fun a htype hgives => ⟨?_, ?_, ?_, ?_, ?_, ?_⟩,
    fun a h => gives_of_process h⟩
  · intro hvisible hblank
    rw [process_of_gives htype hgives, hvisible, checkAnswer_blank hblank, Bool.and_false]
    rfl
  · intro hvisible hblank
    rw [process_of_gives htype hgives, hvisible, checkAnswer_hidden hblank]
    rfl
  · intro hvisible hblank hrequired
    rw [process_of_gives htype hgives, checkAnswer_blank hblank, hrequired, Bool.false_and]
    rfl
  · intro hvisible hblank hrequired o hkind
    have htable : f.type = .table := by rw [Field.type, hkind]; rfl
    rw [htable] at hgives
    obtain ⟨rows, rfl, -⟩ := gives_table_iff.1 hgives
    refine ⟨rows, rfl, ?_, TableOptions.check_eq_ok_iff⟩
    rw [process_of_gives htype (htable ▸ hgives), hvisible, checkAnswer_blank hblank, hrequired,
      hkind]
    rfl
  · intro hvisible hblank hrequired hkind
    rw [process_of_gives htype hgives, hvisible, checkAnswer_blank hblank, hrequired]
    rw [checkBlank_of_ne_table hkind]
    rfl
  · intro hvisible hblank
    obtain ⟨verdict, hrule, hprocess⟩ := exists_rule htype hgives hvisible hblank
    exact ⟨verdict, hrule, hprocess, hrule.eq_ok_iff⟩

/-- A field for mobile numbers of other countries, with a directory of a mobile number and one
    of a fixed line: the first is taken, the second is not, and neither is a number that was
    given though the field was not shown, a missing one, or one given as another type. -/
theorem process_decides_mobile :
    let dir : Phone.Directory := .ofList [("+447400123456", .mobile), ("+441212345678", .fixed)]
    let today : Date := ⟨2024, 2, 29, by decide⟩
    let f : Field := { id := "m", kind := .mobile { international := true } }
    let r (answer : String) : Response := .single "m" .mobile answer
    f.process dir today (r "+447400123456") = .ok (.single "+447400123456") ∧
      f.process dir today (r "+441212345678") = .error (.invalidAnswer .phoneLine) ∧
      f.process dir today (r "+447400123456").hidden = .error .hiddenField ∧
      f.process dir today (r " ") = .error (.invalidAnswer .missing) ∧
      ∃ d, f.process dir today (.single "m" .homePhone "+447400123456") =
        .error (.responseShape d) := by
  intro dir today f r
  have hgives : ∀ {answer}, (r answer).Gives .mobile (.single answer) :=
    .single rfl (by decide) .text
  -- a number that is written is held to the rule of the kind, which looks it up
  have hrule : ∀ {answer}, ¬ (Answer.single answer).Blank → f.process dir today (r answer) =
      ruled (PhoneOptions.check { international := true } dir .mobile answer) (.single answer) := by
    intro answer hblank
    obtain ⟨-, -, -, -, -, hshown⟩ := (process_decides f dir today (r answer)).2.1 _ rfl hgives
    obtain ⟨verdict, hrule, hprocess, -⟩ := hshown rfl hblank
    cases hrule
    exact hprocess
  refine ⟨?_, ?_, ?_, ?_, ?_⟩
  · exact hrule (mt Answer.isBlank_iff.2 (by decide))
  · exact hrule (mt Answer.isBlank_iff.2 (by decide))
  · obtain ⟨-, hhidden, -⟩ := (process_decides f dir today (r "+447400123456").hidden).2.1
      (.single "+447400123456") rfl (.single rfl (by decide) .text)
    exact hhidden rfl (mt Answer.isBlank_iff.2 (by decide))
  · obtain ⟨-, -, -, -, hmissing, -⟩ := (process_decides f dir today (r " ")).2.1 _ rfl hgives
    exact hmissing rfl (Answer.isBlank_iff.1 (by decide)) rfl nofun
  · exact (process_decides f dir today _).1.2 (.inl (by decide))

end Field

end FormIntake
