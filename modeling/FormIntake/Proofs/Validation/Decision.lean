/-
  FormIntake — what becomes of a response, case by case.

  A response that gives no answer is ill-shaped (`process_of_not_gives`), and any
  other is judged by its answer (`process_of_gives`).  `checkAnswer_blank`,
  `checkAnswer_hidden` and `checkAnswer_shown` judge an answer by whether it is
  blank and whether the field was shown.  A kind has a rule for every answer of
  the shape of its type (`exists_verdict`), so the shape of an answer is never
  refused once it has been read (`process_eq_responseShape_iff`).
-/
import FormIntake.Proofs.Response.Answer
import FormIntake.Validation.Process

namespace FormIntake

open Validation

namespace Field

variable {f : Field} {dir : Phone.Directory} {today : Date} {r : Response} {a : Answer}

/-- A kind has a rule for every answer of the shape of its type. -/
theorem exists_verdict (dir : Phone.Directory) (today : Date) {kind : FieldKind}
    (h : a.shape = kind.type.shape) :
    ∃ verdict, kind.verdict? dir today a = some verdict := by
  cases kind <;> cases a <;> cases h <;> exact ⟨_, rfl⟩

theorem process_of_gives (htype : r.type = f.type) (h : r.Gives f.type a) :
    f.process dir today r = (f.checkAnswer dir today r.visible a).map fun _ => a := by
  rw [process, if_pos htype, Answer.ofResponse_eq_ok_iff.2 h]
  change (f.checkAnswer dir today r.visible a >>= fun _ => .ok a) = _
  cases f.checkAnswer dir today r.visible a <;> rfl

/-- A response is ill-shaped if it gives no answer. -/
theorem process_of_not_gives (htype : r.type = f.type) (h : ∀ a, ¬ r.Gives f.type a) :
    ∃ d, f.process dir today r = .error (.responseShape d) := by
  cases hread : Answer.ofResponse f.type r with
  | ok a => exact absurd (Answer.ofResponse_eq_ok_iff.1 hread) (h a)
  | error d =>
    refine ⟨d, ?_⟩
    rw [process, if_pos htype, hread]
    rfl

theorem gives_of_process (h : f.process dir today r = .ok a) :
    r.type = f.type ∧ r.Gives f.type a := by
  unfold process at h
  split at h
  · next htype =>
    cases hread : Answer.ofResponse f.type r with
    | error d => rw [hread] at h; cases h
    | ok b =>
      have hgives := Answer.ofResponse_eq_ok_iff.1 hread
      have hprocess :
          f.process dir today r = (f.checkAnswer dir today r.visible b).map fun _ => b :=
        process_of_gives htype hgives
      rw [process, if_pos htype, h] at hprocess
      obtain ⟨-, -, rfl⟩ := map_eq_ok_iff.1 hprocess.symm
      exact ⟨htype, hgives⟩
  · cases h

/-! ## The answer of a response -/

theorem checkAnswer_blank (h : a.Blank) (visible : Bool) :
    f.checkAnswer dir today visible a =
      if f.required && visible then f.kind.checkBlank a else .ok () := by
  rw [checkAnswer, if_pos (Answer.isBlank_iff.2 h)]

theorem checkAnswer_hidden (h : ¬ a.Blank) :
    f.checkAnswer dir today false a = .error .hiddenField := by
  rw [checkAnswer, if_neg (mt Answer.isBlank_iff.1 h)]
  rfl

theorem checkAnswer_shown {verdict : Verdict} (h : ¬ a.Blank)
    (hrule : f.kind.verdict? dir today a = some verdict) :
    f.checkAnswer dir today true a = verdict.mapError .invalidAnswer := by
  rw [checkAnswer, if_neg (mt Answer.isBlank_iff.1 h), if_pos rfl, FieldKind.check, hrule]

/-- Without a table, a blank answer to a required field is a missing one. -/
theorem checkBlank_of_ne_table {kind : FieldKind} (h : ∀ o, kind ≠ .table o) (a : Answer) :
    kind.checkBlank a = .error (.invalidAnswer .missing) := by
  unfold FieldKind.checkBlank
  split
  · exact absurd rfl (h _)
  · rfl

/-- An answer of the field's type is never refused for its shape. -/
theorem checkAnswer_ne_responseShape {verdict : Verdict} {d : ShapeDefect} {visible : Bool}
    (hrule : f.kind.verdict? dir today a = some verdict) :
    f.checkAnswer dir today visible a ≠ .error (.responseShape d) := by
  have hverdict : ∀ v : Verdict,
      v.mapError FieldError.invalidAnswer ≠ .error (.responseShape d) := by
    intro v
    cases v <;> simp [Except.mapError]
  by_cases hblank : a.Blank
  · rw [checkAnswer_blank hblank]
    split
    · unfold FieldKind.checkBlank
      split
      · exact hverdict _
      · simp
    · simp
  · cases visible with
    | false => rw [checkAnswer_hidden hblank]; simp
    | true => rw [checkAnswer_shown hblank hrule]; exact hverdict _

/-- **Which responses are ill-shaped**: those of another type than the field and those that
    give no answer. -/
theorem process_eq_responseShape_iff : (∃ d, f.process dir today r = .error (.responseShape d)) ↔
    r.type ≠ f.type ∨ ∀ a, ¬ r.Gives f.type a := by
  constructor
  · rintro ⟨d, hd⟩
    by_cases htype : r.type = f.type
    · refine Or.inr fun a hgives => ?_
      obtain ⟨verdict, hrule⟩ := exists_verdict dir today (Answer.shape_of_gives hgives)
      rw [process_of_gives htype hgives] at hd
      exact checkAnswer_ne_responseShape hrule (map_eq_error_iff.1 hd)
    · exact Or.inl htype
  · intro h
    by_cases htype : r.type = f.type
    · exact process_of_not_gives htype (h.resolve_left fun hne => hne htype)
    · exact ⟨.fieldType, by rw [process, if_neg htype]⟩

end Field

end FormIntake
