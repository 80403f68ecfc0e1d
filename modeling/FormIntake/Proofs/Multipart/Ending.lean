/-
  FormIntake — the end of a body.

  The last call is told that no more bytes will arrive.  It differs from a call that
  may wait only in what it says of a body that breaks off (`advance_true`).  So a
  body that does not is settled before that call (`settles_of_readAll`): it has been
  refused, or its closing delimiter has been read.
-/
import FormIntake.Proofs.Multipart.Chunking

namespace FormIntake.Multipart.Reader

variable {r : Reader} {s : Stream} {parts : List Part} {chunks : List Bytes}

/-! ## Calls that may wait and the last one -/

/-- That no more bytes will arrive matters only where more are needed. -/
theorem wait_true (s : Stream) : wait true s = wait false s ∨ wait true s = .fail .unexpectedEnd s :=
  Or.inr rfl

theorem readDelimiter_true (s : Stream) : r.readDelimiter true s = r.readDelimiter false s ∨
    r.readDelimiter true s = .fail .unexpectedEnd s := by
  simp only [readDelimiter]
  split
  · exact wait_true s
  split
  · exact Or.inl rfl
  split
  · split
    · exact Or.inl rfl
    · exact Or.inl rfl
    · exact Or.inr rfl
  · exact Or.inl rfl

theorem step_true (s : Stream) : r.step true s = r.step false s ∨
    r.step true s = .fail .unexpectedEnd s := by
  cases hs : s.phase with
  | preamble =>
    rw [step_preamble hs, step_preamble hs, skipPreamble, skipPreamble]
    split
    · exact Or.inl rfl
    · exact Or.inr rfl
  | between =>
    rw [step_between hs, step_between hs, readBetween, readBetween]
    split
    · exact readDelimiter_true s
    split
    · split
      · exact readDelimiter_true s
      · exact Or.inl rfl
    · exact wait_true s
  | inside p =>
    rw [step_inside hs, step_inside hs, readInside, readInside]
    split
    · exact Or.inl rfl
    · exact Or.inr rfl
  | closed => rw [step_closed hs, step_closed hs]; exact Or.inl rfl

/-- **The last call differs from one that may wait only in what it says of a body
    that breaks off.** -/
theorem advance_true (s : Stream) : r.advance true s = r.advance false s ∨
    (r.advance true s).1 = .error .unexpectedEnd := by
  induction s using r.steps_induction true with
  | more s part t h ih =>
    rcases step_true (r := r) s with heq | hend
    · rw [advance_of_more h, advance_of_more (heq.symm.trans h)]
      rcases ih with ih | ih
      · exact Or.inl (by rw [ih])
      · exact Or.inr (by rw [after, ih]; rfl)
    · rw [h] at hend; cases hend
  | stop s t h =>
    rcases step_true (r := r) s with heq | hend
    · exact Or.inl (by rw [advance_of_stop h, advance_of_stop (heq.symm.trans h)])
    · rw [h] at hend; cases hend
  | fail s e t h =>
    rcases step_true (r := r) s with heq | hend
    · exact Or.inl (by rw [advance_of_fail h, advance_of_fail (heq.symm.trans h)])
    · exact Or.inr (by rw [advance_of_fail hend])

theorem feed_closed (hs : s.phase = .closed) : (r.feed s chunks).1 = .ok [] := by
  induction chunks generalizing s with
  | nil => rw [feed, advance_of_stop (step_closed hs)]
  | cons chunk rest ih =>
    have hpush : (s.push chunk).phase = .closed := hs
    rw [feed_of_ok (advance_of_stop (step_closed hpush)), after_nil, ih hpush]

/-- Chunks make no difference to the parts of a body that begins with a
    delimiter. -/
theorem feed_eq_ok_iff (hr : r.OneLine) (hopens : Opens r.marker chunks.flatten) :
    (r.feed {} chunks).1 = .ok parts ↔ r.readAll chunks.flatten = .ok parts := by
  rcases feed_readAll_cases hr.unbroken.lf hopens.begins with
    ⟨halike, -⟩ | ⟨e, e', hfeed, hread, -, -⟩
  · rw [← halike.result, readAll]
  · rw [hfeed, hread]
    constructor <;> intro h <;> cases h

/-! ## Bodies that do not break off -/

/-- The call refuses the body or has read it to its end. -/
def Settles (x : Except Error (List Part) × Stream) : Prop :=
  ∀ parts, x.1 = .ok parts → x.2.phase = .closed

/-- A body that does not break off is settled without being told that it ends. -/
theorem settles_of_readAll {body : Bytes} (h : r.readAll body ≠ .error .unexpectedEnd) :
    Settles (r.advance false { buffer := body }) := by
  intro parts hparts
  have heq := (advance_true (r := r) { buffer := body }).resolve_right h
  exact phase_of_advance (s := { buffer := body }) (heq.trans (Prod.ext hparts rfl))

theorem Settles.of_alike {x y : Except Error (List Part) × Stream} {ps : List Part}
    (h : Settles x) (halike : Alike x (after ps y)) : Settles y := by
  intro qs hqs
  have hx : x.1 = .ok (ps ++ qs) := by rw [halike.result, after, hqs]; rfl
  exact (halike.stream _ hx).phase.symm.trans (h _ hx)

end FormIntake.Multipart.Reader
