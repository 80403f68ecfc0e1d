/-
  FormIntake — the steps of a reader, case by case.

  `readDelimiter_…` give the step at a delimiter by the two bytes behind the
  marker, `readInside_…` the step inside a part by the delimiter found and by what
  becomes of the payload; `advance_of_more`, `advance_of_stop` and `advance_of_fail` give a call
  by its first step.  The other modules open neither `step` nor `advanceFrom`.
-/
import FormIntake.Proofs.Multipart.Charges
import FormIntake.Proofs.Multipart.Delimiter
import FormIntake.Proofs.Multipart.HeaderLines
import FormIntake.Proofs.Utf8

namespace FormIntake.Multipart

/-- The outcome of a call, `parts` having been closed before it. -/
def after (parts : List Part) (x : Except Error (List Part) × Stream) :
    Except Error (List Part) × Stream :=
  (x.1.map (parts ++ ·), x.2)

@[simp] theorem after_nil (x : Except Error (List Part) × Stream) : after [] x = x := by
  rcases x with ⟨_ | _, s⟩ <;> rfl

@[simp] theorem after_after (ps qs : List Part) (x : Except Error (List Part) × Stream) :
    after ps (after qs x) = after (ps ++ qs) x := by
  rcases x with ⟨_ | _, s⟩ <;> simp [after, Except.map]

@[simp] theorem after_ok (ps qs : List Part) (s : Stream) :
    after ps (.ok qs, s) = (.ok (ps ++ qs), s) := rfl

namespace Reader

/-- The boundary holds no line end, as a header value never does. -/
structure OneLine (r : Reader) : Prop where
  cr : '\r' ∉ r.boundary.toList
  lf : '\n' ∉ r.boundary.toList

variable {r : Reader} {atEnd : Bool} {s t : Stream} {x : Bytes} {part : Option Part} {e : Error}

theorem OneLine.unbroken (h : r.OneLine) : Unbroken r.marker where
  cr := by
    simp only [marker, List.mem_append, not_or]
    exact ⟨by decide, Bytes.cr_notMem_ofText h.cr⟩
  lf := by
    simp only [marker, List.mem_append, not_or]
    exact ⟨by decide, Bytes.lf_notMem_ofText h.lf⟩

theorem dashes_isPrefix (h : Opens r.marker x) : Bytes.dashes <+: x :=
  (List.prefix_append ..).trans h.marker_isPrefix

/-! ## The step at a delimiter -/

/-- What stands behind a marker: too little, the end of the body, a part, or
    something else. -/
theorem behindMarker_cases (x : Bytes) :
    x.length < 2 ∨ (∃ y, x = Bytes.dashes ++ y) ∨ (∃ y, x = Bytes.crlf ++ y) ∨
      (2 ≤ x.length ∧ ¬ Bytes.dashes <+: x ∧ ¬ Bytes.crlf <+: x) := by
  by_cases hlen : x.length < 2
  · exact Or.inl hlen
  by_cases hd : Bytes.dashes <+: x
  · exact Or.inr (Or.inl (hd.imp fun _ h => h.symm))
  by_cases hc : Bytes.crlf <+: x
  · exact Or.inr (Or.inr (Or.inl (hc.imp fun _ h => h.symm)))
  · exact Or.inr (Or.inr (Or.inr ⟨by omega, hd, hc⟩))

/-- Less than two bytes stand behind a marker. -/
theorem drop_isEmpty_iff : (x.drop 1).isEmpty = true ↔ x.length < 2 := by
  rw [List.isEmpty_iff, List.drop_eq_nil_iff]
  omega

theorem readDelimiter_short (hs : s.buffer = r.marker ++ x) (hx : x.length < 2) :
    r.readDelimiter atEnd s = wait atEnd s := by
  rw [readDelimiter, hs, List.drop_left]
  dsimp only
  rw [if_pos (drop_isEmpty_iff.2 hx)]

/-- A line end behind the closing delimiter is read with it. -/
theorem readDelimiter_closing (atEnd : Bool) (hs : s.buffer = r.marker ++ (Bytes.dashes ++ x)) :
    r.readDelimiter atEnd s =
      .stop { s.drop (if Bytes.crlf.isPrefixOf x then r.marker.length + 4
        else r.marker.length + 2) with phase := .closed } := by
  rw [readDelimiter, hs, List.drop_left]
  dsimp only
  rw [if_neg (by simp [Bytes.dashes]), if_pos (by simp)]
  rfl

theorem readDelimiter_dashes (atEnd : Bool) (hs : s.buffer = r.marker ++ (Bytes.dashes ++ x)) :
    ∃ size, r.readDelimiter atEnd s = .stop { s.drop size with phase := .closed } :=
  ⟨_, readDelimiter_closing atEnd hs⟩

theorem readDelimiter_crlf (hs : s.buffer = r.marker ++ (Bytes.crlf ++ x)) :
    r.readDelimiter atEnd s =
      match readHeaders x with
      | .complete headers size => r.openPart s headers (r.marker.length + 2 + size)
      | .notText => .fail .invalidHeaderText s
      | .incomplete =>
        if atEnd then .fail .unexpectedEnd s
        else match r.checkHeaderBlock s.total s.buffer.length with
          | .error e => .fail e s
          | .ok () => .stop s := by
  rw [readDelimiter, hs, List.drop_left]
  dsimp only
  rewrite [if_neg (by simp [Bytes.crlf]), if_neg (by simp [Bytes.crlf, Bytes.dashes, Bytes.cr]),
    if_pos (by simp)]
  rfl

theorem readDelimiter_other (hs : s.buffer = r.marker ++ x) (hlen : 2 ≤ x.length)
    (hd : ¬ Bytes.dashes <+: x) (hc : ¬ Bytes.crlf <+: x) :
    r.readDelimiter atEnd s = .fail .unfinishedDelimiter s := by
  rw [readDelimiter, hs, List.drop_left]
  dsimp only
  rw [if_neg (by rw [drop_isEmpty_iff]; omega), if_neg (by simpa using hd),
    if_neg (by simpa using hc)]

/-! ## The step inside a part -/

variable {p q : OpenPart} {n total : Nat}

theorem readInside_close (atEnd : Bool) (hfind : findDelimiter r.marker false s.buffer = some n)
    (happ : p.append r.limits s.total (s.buffer.take (n - 2)) = .ok (q, total)) :
    r.readInside atEnd s p = .more (some q.close) { s.drop n with phase := .between, total } := by
  rw [readInside, hfind]
  dsimp only
  rw [happ]

theorem readInside_close_error (atEnd : Bool)
    (hfind : findDelimiter r.marker false s.buffer = some n)
    (happ : p.append r.limits s.total (s.buffer.take (n - 2)) = .error e) :
    ∃ t, r.readInside atEnd s p = .fail e t := by
  rw [readInside, hfind]
  dsimp only
  rw [happ]
  exact ⟨_, rfl⟩

theorem readInside_end (hfind : findDelimiter r.marker false s.buffer = none) :
    r.readInside true s p = .fail .unexpectedEnd s := by
  rw [readInside, hfind]
  exact if_pos rfl

theorem readInside_flush (hfind : findDelimiter r.marker false s.buffer = none)
    (happ : p.append r.limits s.total (s.buffer.take (r.spare s)) = .ok (q, total)) :
    r.readInside false s p = .stop { s.drop (r.spare s) with phase := .inside q, total } := by
  rw [readInside, hfind]
  dsimp only
  rw [if_neg (by simp), happ]

theorem readInside_flush_error (hfind : findDelimiter r.marker false s.buffer = none)
    (happ : p.append r.limits s.total (s.buffer.take (r.spare s)) = .error e) :
    r.readInside false s p = .fail e s := by
  rw [readInside, hfind]
  dsimp only
  rw [if_neg (by simp), happ]

/-! ## Steps by phase -/

theorem step_preamble (h : s.phase = .preamble) : r.step atEnd s = r.skipPreamble atEnd s := by
  rw [step, h]

theorem step_between (h : s.phase = .between) : r.step atEnd s = r.readBetween atEnd s := by
  rw [step, h]

theorem step_inside (h : s.phase = .inside p) :
    r.step atEnd s = r.readInside atEnd s p := by
  rw [step, h]

theorem step_closed (h : s.phase = .closed) : r.step atEnd s = .stop s := by
  rw [step, h]

theorem readBetween_of_marker (h : r.marker <+: s.buffer) :
    r.readBetween atEnd s = r.readDelimiter atEnd s := by
  rw [readBetween, if_pos (List.isPrefixOf_iff_prefix.2 h)]

/-- Where no delimiter is at the front, the bytes in front of the next are dropped. -/
theorem readBetween_skip (hmarker : ¬ r.marker <+: s.buffer)
    (hfind : findDelimiter r.marker true s.buffer = some n) :
    r.readBetween atEnd s = .more none (s.drop n) := by
  rw [readBetween, if_neg (by simpa using hmarker), hfind]
  exact if_neg fun hzero => hmarker (marker_isPrefix_of_findDelimiter_zero (hzero ▸ hfind))

theorem readBetween_wait (hmarker : ¬ r.marker <+: s.buffer)
    (hfind : findDelimiter r.marker true s.buffer = none) :
    r.readBetween atEnd s = wait atEnd s := by
  rw [readBetween, if_neg (by simpa using hmarker), hfind]

theorem step_of_marker (h : s.phase = .between) (hs : s.buffer = r.marker ++ x) :
    r.step atEnd s = r.readDelimiter atEnd s := by
  rw [step_between h, readBetween_of_marker ⟨x, hs.symm⟩]

/-- Every stream stops after finitely many steps, so what a step hands back to the
    stream before it holds of all. -/
theorem steps_induction (r : Reader) (atEnd : Bool) {motive : Stream → Prop}
    (more : ∀ s part t, r.step atEnd s = .more part t → motive t → motive s)
    (stop : ∀ s t, r.step atEnd s = .stop t → motive s)
    (fail : ∀ s e t, r.step atEnd s = .fail e t → motive s) (s : Stream) : motive s := by
  induction hw : s.work using Nat.strongRecOn generalizing s with
  | ind w ih =>
    cases h : r.step atEnd s with
    | more part t => exact more s part t h (ih _ (hw ▸ work_lt h) t rfl)
    | stop t => exact stop s t h
    | fail e t => exact fail s e t h

/-! ## Calls by their first step -/

theorem advanceFrom_of_more {done : List Part} (h : r.step atEnd s = .more part t) :
    r.advanceFrom atEnd done s = r.advanceFrom atEnd (part.toList ++ done) t := by
  rw [advanceFrom]
  split
  · next heq => rw [h] at heq; cases heq; rfl
  · next heq => rw [h] at heq; cases heq
  · next heq => rw [h] at heq; cases heq

theorem advanceFrom_of_stop {done : List Part} (h : r.step atEnd s = .stop t) :
    r.advanceFrom atEnd done s = (.ok done.reverse, t) := by
  rw [advanceFrom]
  split
  · next heq => rw [h] at heq; cases heq
  · next heq => rw [h] at heq; cases heq; rfl
  · next heq => rw [h] at heq; cases heq

theorem advanceFrom_of_fail {done : List Part} (h : r.step atEnd s = .fail e t) :
    r.advanceFrom atEnd done s = (.error e, t) := by
  rw [advanceFrom]
  split
  · next heq => rw [h] at heq; cases heq
  · next heq => rw [h] at heq; cases heq
  · next heq => rw [h] at heq; cases heq; rfl

/-- The parts closed before a call come first in its outcome. -/
theorem advanceFrom_eq (done : List Part) (s : Stream) :
    r.advanceFrom atEnd done s = after done.reverse (r.advance atEnd s) := by
  induction s using r.steps_induction atEnd generalizing done with
  | more s part t h ih =>
    rw [advance, advanceFrom_of_more h, advanceFrom_of_more h, ih, ih]
    cases part <;> simp
  | stop s t h => rw [advance, advanceFrom_of_stop h, advanceFrom_of_stop h]; simp
  | fail s e t h => rw [advance, advanceFrom_of_fail h, advanceFrom_of_fail h]; rfl

theorem advance_of_more (h : r.step atEnd s = .more part t) :
    r.advance atEnd s = after part.toList (r.advance atEnd t) := by
  rw [advance, advanceFrom_of_more h, advanceFrom_eq]
  cases part <;> rfl

/-- A call goes through only if it does so from its next step on, which closes the
    rest of its parts. -/
theorem advance_of_more_ok {u : Stream} {parts : List Part} (h : r.step atEnd s = .more part t)
    (hok : r.advance atEnd s = (.ok parts, u)) :
    ∃ qs, parts = part.toList ++ qs ∧ r.advance atEnd t = (.ok qs, u) := by
  rw [advance_of_more h] at hok
  rcases ht : r.advance atEnd t with ⟨_ | qs, v⟩
  · rw [ht] at hok; cases hok
  · rw [ht] at hok
    cases hok
    exact ⟨qs, rfl, rfl⟩

theorem advance_of_more_error {u : Stream} (h : r.step atEnd s = .more part t)
    (herror : r.advance atEnd s = (.error e, u)) : r.advance atEnd t = (.error e, u) := by
  rw [advance_of_more h] at herror
  rcases ht : r.advance atEnd t with ⟨_ | qs, v⟩
  · rw [ht] at herror
    cases herror
    rfl
  · rw [ht] at herror; cases herror

theorem advance_of_stop (h : r.step atEnd s = .stop t) : r.advance atEnd s = (.ok [], t) := by
  rw [advance, advanceFrom_of_stop h]; rfl

theorem advance_of_fail (h : r.step atEnd s = .fail e t) : r.advance atEnd s = (.error e, t) := by
  rw [advance, advanceFrom_of_fail h]

/-- A call from the preamble on, where a delimiter is found. -/
theorem advance_preamble_some {n : Nat} (hs : s.phase = .preamble)
    (hn : findDelimiter r.marker true s.buffer = some n) :
    r.advance atEnd s = r.advance atEnd { s.drop n with phase := .between } := by
  have hstep : r.step atEnd s = .more none { s.drop n with phase := .between } := by
    rw [step_preamble hs, skipPreamble, hn]
  rw [advance_of_more hstep]
  exact after_nil _

/-- A call in the preamble, where none is found. -/
theorem advance_preamble_none (hs : s.phase = .preamble)
    (hn : findDelimiter r.marker true s.buffer = none) :
    r.advance atEnd s =
      if atEnd then (.error .unexpectedEnd, s) else (.ok [], s.drop (r.spare s)) := by
  cases atEnd with
  | true => exact advance_of_fail (by rw [step_preamble hs, skipPreamble, hn]; rfl)
  | false => exact advance_of_stop (by rw [step_preamble hs, skipPreamble, hn]; rfl)

end Reader

end FormIntake.Multipart
