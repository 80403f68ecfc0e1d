/-
  FormIntake — what one step does.

  `Moves` lists the steps that go on and `Halts` those that stop, each with all that
  has been checked for it; a step is one of these or refuses the body
  (`step_cases`).

  What each of them keeps, of a stream and of the parts closed so far, holds after
  every call (`exists_halts_of_advance`, `advance_invariant`).
-/
import FormIntake.Proofs.Multipart.Step

namespace FormIntake.Multipart

namespace Reader

/-- A step that goes on: it skips the bytes in front of a delimiter, be it the first
    or one that should come next, opens a part or closes one. -/
inductive Moves (r : Reader) (s : Stream) : Option Part → Stream → Prop
  | start {n} : s.phase = .preamble → findDelimiter r.marker true s.buffer = some n →
      r.Moves s none { s.drop n with phase := .between }
  | skip {n} : s.phase = .between → ¬ r.marker <+: s.buffer →
      findDelimiter r.marker true s.buffer = some n → r.Moves s none (s.drop n)
  | opens {x headers size p c} : s.phase = .between → s.buffer = r.marker ++ (Bytes.crlf ++ x) →
      readHeaders x = .complete headers size →
      r.opened s.charged headers (r.marker.length + 2 + size) = .ok (p, c) →
      r.Moves s none { s.drop (r.marker.length + 2 + size) with
        phase := .inside p, total := c.total, parts := c.parts }
  | closes {p q n total} : s.phase = .inside p → findDelimiter r.marker false s.buffer = some n →
      p.append r.limits s.total (s.buffer.take (n - 2)) = .ok (q, total) →
      r.Moves s (some q.close) { s.drop n with phase := .between, total }

/-- A step that stops: it waits for a delimiter, for what is behind one, for the rest
    of a header block or for that of a payload, or the body has been read. -/
inductive Halts (r : Reader) (atEnd : Bool) (s : Stream) : Stream → Prop
  | preamble : atEnd = false → s.phase = .preamble →
      findDelimiter r.marker true s.buffer = none → r.Halts atEnd s (s.drop (r.spare s))
  | between : atEnd = false → s.phase = .between → ¬ r.marker <+: s.buffer →
      findDelimiter r.marker true s.buffer = none → r.Halts atEnd s s
  | delimiter {x} : atEnd = false → s.phase = .between → s.buffer = r.marker ++ x → x.length < 2 →
      r.Halts atEnd s s
  | headers {x} : atEnd = false → s.phase = .between → s.buffer = r.marker ++ (Bytes.crlf ++ x) →
      readHeaders x = .incomplete → r.checkHeaderBlock s.total s.buffer.length = .ok () →
      r.Halts atEnd s s
  | inside {p q total} : atEnd = false → s.phase = .inside p →
      findDelimiter r.marker false s.buffer = none →
      p.append r.limits s.total (s.buffer.take (r.spare s)) = .ok (q, total) →
      r.Halts atEnd s { s.drop (r.spare s) with phase := .inside q, total }
  | finish {x size} : s.phase = .between → s.buffer = r.marker ++ (Bytes.dashes ++ x) →
      r.Halts atEnd s { s.drop size with phase := .closed }
  | closed : s.phase = .closed → r.Halts atEnd s s

/-- The outcome is that of a step that does what it should. -/
def Regular (r : Reader) (atEnd : Bool) (s : Stream) : Step → Prop
  | .more part t => r.Moves s part t
  | .stop t => r.Halts atEnd s t
  | .fail .. => True

variable {r : Reader} {atEnd : Bool} {s t : Stream} {x : Bytes} {part : Option Part}

/-! ## One step -/

theorem regular_wait (h : atEnd = false → r.Halts atEnd s s) :
    r.Regular atEnd s (wait atEnd s) := by
  cases atEnd with
  | false => exact h rfl
  | true => exact trivial

theorem regular_readDelimiter (hs : s.phase = .between) (hx : s.buffer = r.marker ++ x) :
    r.Regular atEnd s (r.readDelimiter atEnd s) := by
  rcases behindMarker_cases x with hlen | ⟨y, rfl⟩ | ⟨y, rfl⟩ | ⟨hlen, hd, hc⟩
  · rw [readDelimiter_short hx hlen]
    exact regular_wait fun hend => .delimiter hend hs hx hlen
  · obtain ⟨size, hsize⟩ := readDelimiter_dashes atEnd hx
    rw [hsize]
    exact .finish hs hx
  · rw [readDelimiter_crlf hx]
    cases hread : readHeaders y with
    | complete headers size =>
      dsimp only
      cases ho : r.opened s.charged headers (r.marker.length + 2 + size) with
      | ok pc => rw [openPart_of_opened_ok ho]; exact .opens hs hx hread ho
      | error e =>
        obtain ⟨u, hu⟩ := openPart_of_opened_error ho
        rw [hu]
        exact trivial
    | notText => exact trivial
    | incomplete =>
      dsimp only
      split
      · exact trivial
      · next hend =>
        split
        · exact trivial
        · next hcheck => exact .headers (by simpa using hend) hs hx hread hcheck
  · rw [readDelimiter_other hx hlen hd hc]
    exact trivial

theorem regular_readBetween (hs : s.phase = .between) :
    r.Regular atEnd s (r.readBetween atEnd s) := by
  by_cases hmarker : r.marker <+: s.buffer
  · rw [readBetween_of_marker hmarker]
    obtain ⟨x, hx⟩ := hmarker
    exact regular_readDelimiter hs hx.symm
  · cases hfind : findDelimiter r.marker true s.buffer with
    | some n => rw [readBetween_skip hmarker hfind]; exact .skip hs hmarker hfind
    | none =>
      rw [readBetween_wait hmarker hfind]
      exact regular_wait fun hend => .between hend hs hmarker hfind

theorem regular_readInside {p : OpenPart} (hs : s.phase = .inside p) :
    r.Regular atEnd s (r.readInside atEnd s p) := by
  cases hfind : findDelimiter r.marker false s.buffer with
  | some n =>
    cases happ : p.append r.limits s.total (s.buffer.take (n - 2)) with
    | ok qt => rw [readInside_close atEnd hfind happ]; exact .closes hs hfind happ
    | error e =>
      obtain ⟨u, hu⟩ := readInside_close_error atEnd hfind happ
      rw [hu]
      exact trivial
  | none =>
    cases hend : atEnd with
    | true => rw [readInside_end hfind]; exact trivial
    | false =>
      cases happ : p.append r.limits s.total (s.buffer.take (r.spare s)) with
      | ok qt => rw [readInside_flush hfind happ]; exact .inside rfl hs hfind happ
      | error e => rw [readInside_flush_error hfind happ]; exact trivial

/-- **A step goes on, stops or refuses the body**, and does so for one of the reasons
    listed. -/
theorem step_cases (r : Reader) (atEnd : Bool) (s : Stream) :
    r.Regular atEnd s (r.step atEnd s) := by
  cases hs : s.phase with
  | preamble =>
    rw [step_preamble hs, skipPreamble]
    split
    · next n hn => exact .start hs hn
    · next hn =>
      split
      · exact trivial
      · next hend => exact .preamble (by simpa using hend) hs hn
  | between => rw [step_between hs]; exact regular_readBetween hs
  | inside p => rw [step_inside hs]; exact regular_readInside hs
  | closed => rw [step_closed hs]; exact .closed hs

theorem moves_of_step (h : r.step atEnd s = .more part t) : r.Moves s part t := by
  have := r.step_cases atEnd s
  rwa [h] at this

theorem halts_of_step (h : r.step atEnd s = .stop t) : r.Halts atEnd s t := by
  have := r.step_cases atEnd s
  rwa [h] at this

/-- **A call goes on as long as it can and then stops**: what the steps that go on keep
    holds of the stream on which it does so. -/
theorem exists_halts_of_advance (Inv : List Part → Stream → Prop) {done parts : List Part}
    (move : ∀ done s part t, Inv done s → r.Moves s part t → Inv (done ++ part.toList) t)
    (h : r.advance atEnd s = (.ok parts, t)) (hs : Inv done s) :
    ∃ u, Inv (done ++ parts) u ∧ r.Halts atEnd u t := by
  induction s using r.steps_induction atEnd generalizing done parts with
  | more s part u hstep ih =>
    obtain ⟨qs, rfl, hu⟩ := advance_of_more_ok hstep h
    rw [← List.append_assoc]
    exact ih hu (move _ _ _ _ hs (moves_of_step hstep))
  | stop s u hstep =>
    rw [advance_of_stop hstep] at h
    cases h
    rw [List.append_nil]
    exact ⟨s, hs, halts_of_step hstep⟩
  | fail s e u hstep => rw [advance_of_fail hstep] at h; cases h

/-- **What every step keeps holds after a call.** -/
theorem advance_invariant (Inv : List Part → Stream → Prop) (done : List Part) {parts : List Part}
    (move : ∀ done s part t, Inv done s → r.Moves s part t → Inv (done ++ part.toList) t)
    (halt : ∀ done s t, Inv done s → r.Halts atEnd s t → Inv done t)
    (h : r.advance atEnd s = (.ok parts, t)) (hs : Inv done s) : Inv (done ++ parts) t := by
  obtain ⟨u, hu, hhalts⟩ := exists_halts_of_advance Inv move h hs
  exact halt _ _ _ hu hhalts

end Reader

end FormIntake.Multipart
