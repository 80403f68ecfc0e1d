/-
  FormIntake — a stream after more bytes have arrived.

  A call that stops for want of bytes has lost nothing: going on with more bytes
  ends like a call that had them from the beginning.  A call that refuses the
  body would have refused it with more bytes too, only perhaps for another
  reason: a limit may be passed in front of the place where the body breaks off
  (`Error.Foretells`).  `advance_push` and `exists_error_of_advance_error` say
  so for calls, `step_grown` for steps.

  The preamble is left out, unless the body begins with a delimiter.
-/
import FormIntake.Proofs.Multipart.Transition

namespace FormIntake.Multipart

/-! ## Outcomes that agree -/

/-- Two streams that differ in the bytes behind the closing delimiter at most. -/
structure Stream.Agree (s t : Stream) : Prop where
  phase : s.phase = t.phase
  parts : s.parts = t.parts
  total : s.total = t.total
  buffer : s.phase ≠ .closed → s.buffer = t.buffer

/-- Two calls end alike: they return the same, and leave streams that agree if
    that is no error. -/
structure Alike (x y : Except Error (List Part) × Stream) : Prop where
  result : x.1 = y.1
  stream : ∀ parts, x.1 = .ok parts → x.2.Agree y.2

/-- Two steps that make calls end alike. -/
inductive Step.Alike : Step → Step → Prop where
  | more {part s} : Step.Alike (.more part s) (.more part s)
  | stop {s t} : s.Agree t → Step.Alike (.stop s) (.stop t)
  | fail {e s t} : Step.Alike (.fail e s) (.fail e t)

/-- Where a body is refused for `e`, the body with more bytes is refused for
    `e'`.  A limit may be passed by bytes that turn out to be no text or to stand
    in front of the end of the body. -/
def Error.Foretells (atEnd : Bool) (e e' : Error) : Prop :=
  e' = e ∨ e.isLimit = true ∧
    (e'.isLimit = true ∨ e' = .invalidHeaderText ∨ (atEnd = true ∧ e' = .unexpectedEnd))

/-- What the step of a stream with more bytes is, given the step without them. -/
def Step.Grown (r : Reader) (atEnd : Bool) (more : Bytes) (grown : Step) : Step → Prop
  | .more part t => grown = .more part (t.push more)
  | .stop t => grown.Alike (r.step atEnd (t.push more))
  | .fail e _ => ∃ e' t', grown = .fail e' t' ∧ e.Foretells atEnd e'

theorem Stream.Agree.refl (s : Stream) : s.Agree s := ⟨rfl, rfl, rfl, fun _ => rfl⟩

theorem Stream.Agree.trans {s t u : Stream} (h : s.Agree t) (h' : t.Agree u) : s.Agree u where
  phase := h.phase.trans h'.phase
  parts := h.parts.trans h'.parts
  total := h.total.trans h'.total
  buffer hs := (h.buffer hs).trans (h'.buffer (h.phase ▸ hs))

theorem Alike.refl (x : Except Error (List Part) × Stream) : Alike x x :=
  ⟨rfl, fun _ _ => .refl _⟩

theorem Alike.trans {x y z : Except Error (List Part) × Stream} (h : Alike x y) (h' : Alike y z) :
    Alike x z :=
  ⟨h.result.trans h'.result, fun ps hps => (h.stream ps hps).trans (h'.stream ps (h.result ▸ hps))⟩

theorem Alike.after {x y : Except Error (List Part) × Stream} (h : Alike x y) (ps : List Part) :
    Alike (after ps x) (after ps y) := by
  refine ⟨by simp only [Multipart.after, h.result], fun qs hqs => ?_⟩
  rcases x with ⟨_ | qs', s⟩
  · cases hqs
  · exact h.stream qs' rfl

theorem Step.Alike.refl : ∀ st : Step, st.Alike st
  | .more .. => .more
  | .stop _ => .stop (.refl _)
  | .fail .. => .fail

theorem Error.Foretells.of_limit {atEnd : Bool} {e e' : Error} (h : e.isLimit = true)
    (h' : e'.isLimit = true) : e.Foretells atEnd e' := Or.inr ⟨h, Or.inl h'⟩

theorem Error.Foretells.isLimit {atEnd : Bool} {e e' : Error} (h : e.Foretells atEnd e')
    (he' : e'.isLimit = true) : e.isLimit = true := by
  rcases h with rfl | ⟨he, -⟩
  exacts [he', he]

theorem Error.Foretells.eq {atEnd : Bool} {e e' : Error} (h : e.Foretells atEnd e')
    (he : e.isLimit = false) : e' = e := by
  rcases h with rfl | ⟨he', -⟩
  · rfl
  · rw [he] at he'; cases he'

namespace Stream

variable {s : Stream} {more : Bytes} {n : Nat}

theorem push_drop (hn : n ≤ s.buffer.length) : (s.push more).drop n = (s.drop n).push more := by
  simp only [push, drop, List.drop_append_of_le_length hn]

@[simp] theorem drop_zero (s : Stream) : s.drop 0 = s := rfl

end Stream

namespace Reader

variable {r : Reader} {atEnd : Bool} {s t : Stream} {more x : Bytes}

theorem advance_alike (h : (r.step atEnd s).Alike (r.step atEnd t)) :
    Alike (r.advance atEnd s) (r.advance atEnd t) := by
  generalize hs : r.step atEnd s = st at h
  generalize ht : r.step atEnd t = st' at h
  cases h with
  | more => rw [advance_of_more hs, advance_of_more ht]; exact .refl _
  | stop hst => rw [advance_of_stop hs, advance_of_stop ht]; exact ⟨rfl, fun _ _ => hst⟩
  | fail => rw [advance_of_fail hs, advance_of_fail ht]; exact ⟨rfl, fun _ h => by cases h⟩

/-! ## One step, phase by phase -/

/-- Where the body begins with a delimiter that has not arrived as a whole, all
    bytes are kept. -/
theorem spare_eq_zero (hlf : Bytes.lf ∉ r.marker) (hbegins : Begins r.marker s.buffer)
    (hnone : findDelimiter r.marker true s.buffer = none) : r.spare s = 0 := by
  obtain ⟨more, hopens⟩ := hbegins
  have hat : DelimiterAt r.marker true (s.buffer ++ more) 0 := ⟨Or.inl ⟨rfl, rfl⟩, hopens⟩
  have hshort := lt_of_delimiterAt_append hlf hnone hat
  rw [spare, keep]
  omega

/-- In front of a body that begins with a delimiter there is nothing to skip. -/
theorem skipPreamble_grown (hlf : Bytes.lf ∉ r.marker) (hs : s.phase = .preamble)
    (hbegins : Begins r.marker s.buffer) :
    (r.skipPreamble atEnd (s.push more)).Grown r atEnd more (r.skipPreamble false s) := by
  rw [skipPreamble.eq_def r false]
  split
  · next n hn =>
    have hpush : findDelimiter r.marker true (s.push more).buffer = some n :=
      findDelimiter_append hlf hn more
    rw [Step.Grown, skipPreamble, hpush]
    dsimp only
    rw [Stream.push_drop (findDelimiter_lt hn).le]
    rfl
  · next hnone =>
    rw [if_neg (by simp), spare_eq_zero hlf hbegins hnone, Stream.drop_zero, Step.Grown,
      step_preamble (show (s.push more).phase = .preamble from hs)]
    exact .refl _

theorem openPart_grown {headers : Headers} {size : Nat} (hsize : size ≤ s.buffer.length) :
    (r.openPart (s.push more) headers size).Grown r atEnd more (r.openPart s headers size) := by
  have hcharged : (s.push more).charged = s.charged := rfl
  cases ho : r.opened s.charged headers size with
  | ok pc =>
    rcases pc with ⟨p, c⟩
    rw [openPart_of_opened_ok ho, openPart_of_opened_ok (hcharged ▸ ho), Step.Grown,
      Stream.push_drop hsize]
    rfl
  | error e =>
    obtain ⟨t, ht⟩ := openPart_of_opened_error ho
    obtain ⟨t', ht'⟩ := openPart_of_opened_error (s := s.push more) (hcharged ▸ ho)
    rw [ht, ht']
    exact ⟨e, t', rfl, Or.inl rfl⟩

/-- A header block that is over a limit before its end has arrived is refused with
    more bytes as well, which can only make it longer. -/
theorem readDelimiter_overflow {e : Error} (hbuffer : s.buffer = r.marker ++ (Bytes.crlf ++ x))
    (hread : readHeaders x = .incomplete)
    (hcheck : r.checkHeaderBlock s.total s.buffer.length = .error e) :
    ∃ e' t, r.readDelimiter atEnd (s.push more) = .fail e' t ∧ e.Foretells atEnd e' := by
  have hlen : s.buffer.length = r.marker.length + 2 + x.length := by
    rw [hbuffer]; simp [Bytes.crlf]; omega
  have hpush : (s.push more).buffer = r.marker ++ (Bytes.crlf ++ (x ++ more)) := by
    rw [Stream.push, hbuffer, List.append_assoc, List.append_assoc]
  have hgrown : ∀ n, s.buffer.length ≤ n →
      e.isLimit = true ∧ ∃ e', r.checkHeaderBlock s.total n = .error e' ∧ e'.isLimit = true :=
    fun n hn => exists_error_of_checkHeaderBlock_error hcheck hn
  have he := (hgrown _ le_rfl).1
  rw [readDelimiter_crlf hpush]
  cases hmore : readHeaders (x ++ more) with
  | complete headers size =>
    have hlt := lt_of_readHeaders_append hread hmore
    obtain ⟨-, e', hcheck', he'⟩ := hgrown (r.marker.length + 2 + size) (by omega)
    have ho : r.opened (s.push more).charged headers (r.marker.length + 2 + size) = .error e' :=
      opened_of_check_error hcheck'
    obtain ⟨t, ht⟩ := openPart_of_opened_error ho
    exact ⟨e', t, ht, .of_limit he he'⟩
  | notText => exact ⟨_, _, rfl, Or.inr ⟨he, Or.inr (Or.inl rfl)⟩⟩
  | incomplete =>
    dsimp only
    split
    · next hend => exact ⟨_, _, rfl, Or.inr ⟨he, Or.inr (Or.inr ⟨hend, rfl⟩)⟩⟩
    · obtain ⟨-, e', hcheck', he'⟩ := hgrown (s.push more).buffer.length (by simp [Stream.push])
      rw [show (s.push more).total = s.total from rfl, hcheck']
      exact ⟨e', _, rfl, .of_limit he he'⟩

theorem readDelimiter_grown (hs : s.phase = .between) (hmarker : r.marker <+: s.buffer) :
    (r.readDelimiter atEnd (s.push more)).Grown r atEnd more (r.readDelimiter false s) := by
  obtain ⟨x, hx⟩ := hmarker
  have hpush : (s.push more).buffer = r.marker ++ (x ++ more) := by
    rw [Stream.push, ← hx, List.append_assoc]
  have hgoOn : r.step atEnd (s.push more) = r.readDelimiter atEnd (s.push more) :=
    step_of_marker hs hpush
  rcases behindMarker_cases x with hlen | ⟨y, rfl⟩ | ⟨y, rfl⟩ | ⟨hlen, hd, hc⟩
  · rw [readDelimiter_short hx.symm hlen, ← hgoOn]
    exact .refl _
  · obtain ⟨n, hn⟩ := readDelimiter_dashes false hx.symm
    rw [List.append_assoc] at hpush
    obtain ⟨m, hm⟩ := readDelimiter_dashes atEnd hpush
    rw [hn, hm, Step.Grown, step_closed rfl]
    exact .stop ⟨rfl, rfl, rfl, fun h => absurd rfl h⟩
  · rw [List.append_assoc] at hpush
    rw [readDelimiter_crlf hx.symm]
    cases hread : readHeaders y with
    | complete headers size =>
      rw [readDelimiter_crlf hpush, readHeaders_append (by rw [hread]; simp), hread]
      obtain ⟨lines, rest, -, rfl, -, rfl⟩ := exists_lines_of_readHeaders hread
      exact openPart_grown (by rw [← hx]; simp [Bytes.crlf]; omega)
    | notText =>
      rw [readDelimiter_crlf hpush, readHeaders_append (by rw [hread]; simp), hread]
      exact ⟨_, _, rfl, Or.inl rfl⟩
    | incomplete =>
      dsimp only
      rw [if_neg (by simp)]
      cases hcheck : r.checkHeaderBlock s.total s.buffer.length with
      | ok u =>
        rw [← hgoOn]
        exact .refl _
      | error e => exact readDelimiter_overflow hx.symm hread hcheck
  · rw [readDelimiter_other hx.symm hlen hd hc]
    have hpre : ∀ w : Bytes, w.length = 2 → w <+: x ++ more → w <+: x := fun w hw h =>
      List.prefix_of_prefix_length_le h (List.prefix_append ..) (by omega)
    rw [readDelimiter_other hpush (by rw [List.length_append]; omega)
      (fun h => hd (hpre _ rfl h)) fun h => hc (hpre _ rfl h)]
    exact ⟨_, _, rfl, Or.inl rfl⟩

theorem readBetween_grown (hlf : Bytes.lf ∉ r.marker) (hs : s.phase = .between) :
    (r.readBetween atEnd (s.push more)).Grown r atEnd more (r.readBetween false s) := by
  by_cases hmarker : r.marker <+: s.buffer
  · have hpush : r.marker <+: (s.push more).buffer := hmarker.trans (List.prefix_append ..)
    rw [readBetween_of_marker hmarker, readBetween_of_marker hpush]
    exact readDelimiter_grown hs hmarker
  cases hfind : findDelimiter r.marker true s.buffer with
  | none =>
    rw [readBetween_wait hmarker hfind, wait, if_neg (by simp), Step.Grown,
      step_between (show (s.push more).phase = .between from hs)]
    exact .refl _
  | some n =>
    have hlen := ((findDelimiter_eq_some_iff hlf).1 hfind).1.length_le
    have hpush : ¬ r.marker <+: (s.push more).buffer := fun h =>
      hmarker (List.prefix_of_prefix_length_le h (List.prefix_append ..) (by omega))
    rw [readBetween_skip hmarker hfind,
      readBetween_skip hpush (findDelimiter_append hlf hfind more),
      Stream.push_drop (findDelimiter_lt hfind).le]
    rfl

/-- The front of a buffer that may be taken for payload: no delimiter reaches into
    it, and either nothing is taken or enough is kept. -/
structure Flushed (r : Reader) (buffer front back : Bytes) : Prop where
  split : buffer = front ++ back
  behind : ∀ n, DelimiterAt r.marker false buffer n → front.length + 2 ≤ n
  kept : front = [] ∨ r.keep ≤ back.length

section Flushed

variable {front back : Bytes} {p q : OpenPart} {e : Error} {n total : Nat}

/-- Bytes that are spare remain so when more bytes arrive. -/
theorem flushed_push (hlf : Bytes.lf ∉ r.marker)
    (hfind : findDelimiter r.marker false s.buffer = none) :
    r.Flushed (s.push more).buffer (s.buffer.take (r.spare s))
      (s.buffer.drop (r.spare s) ++ more) where
  split := by rw [Stream.push, ← List.append_assoc, List.take_append_drop]
  behind n hat := by
    -- a delimiter that the new bytes complete begins behind the bytes that are spare
    have := lt_of_delimiterAt_append hlf hfind hat
    have := hat.two_le
    rw [List.length_take, spare, keep]
    omega
  kept := by
    rw [← List.length_eq_zero_iff, List.length_take, List.length_append, List.length_drop, spare]
    omega

variable (hflushed : r.Flushed s.buffer front back)

include hflushed

theorem Flushed.find (hlf : Bytes.lf ∉ r.marker) :
    findDelimiter r.marker false s.buffer =
      (findDelimiter r.marker false back).map (front.length + ·) := by
  have hbehind := hflushed.behind
  rw [hflushed.split] at hbehind ⊢
  exact findDelimiter_append_left hlf hbehind

theorem Flushed.spare : r.spare s = front.length + (back.length - r.keep) := by
  rw [Reader.spare, hflushed.split, List.length_append]
  rcases hflushed.kept with rfl | h
  · simp
  · omega

theorem Flushed.take (n : Nat) : s.buffer.take (front.length + n) = front ++ back.take n := by
  rw [hflushed.split, List.take_length_add_append]

theorem Flushed.drop (n : Nat) : s.buffer.drop (front.length + n) = back.drop n := by
  rw [hflushed.split, List.drop_length_add_append]

/-- What is refused for its front is refused as a whole. -/
theorem readInside_flushed_error (hlf : Bytes.lf ∉ r.marker)
    (happ : p.append r.limits s.total front = .error e) :
    ∃ e' t, r.readInside atEnd s p = .fail e' t ∧ e.Foretells atEnd e' := by
  have hgrown := OpenPart.exists_error_of_append_error happ
  have he := (hgrown []).1
  have hfind := hflushed.find hlf
  cases hback : findDelimiter r.marker false back with
  | some m =>
    have htwo := ((findDelimiter_eq_some_iff hlf).1 hback).1.two_le
    rw [hback, Option.map_some] at hfind
    obtain ⟨-, e', happ', he'⟩ := hgrown (back.take (m - 2))
    rw [← hflushed.take, show front.length + (m - 2) = front.length + m - 2 by omega] at happ'
    obtain ⟨t, ht⟩ := readInside_close_error atEnd hfind happ'
    exact ⟨e', t, ht, .of_limit he he'⟩
  | none =>
    rw [hback, Option.map_none] at hfind
    cases atEnd with
    | true => exact ⟨_, _, readInside_end hfind, Or.inr ⟨he, Or.inr (Or.inr ⟨rfl, rfl⟩)⟩⟩
    | false =>
      obtain ⟨-, e', happ', he'⟩ := hgrown (back.take (back.length - r.keep))
      rw [← hflushed.take, ← hflushed.spare] at happ'
      exact ⟨e', s, readInside_flush_error hfind happ', .of_limit he he'⟩

/-- What has been appended already need not be appended again. -/
theorem readInside_flushed (hlf : Bytes.lf ∉ r.marker)
    (happ : p.append r.limits s.total front = .ok (q, total)) :
    (r.readInside atEnd s p).Alike
      (r.readInside atEnd { s with phase := .inside q, total, buffer := back } q) := by
  have happend := OpenPart.append_append happ
  have hfind := hflushed.find hlf
  set t : Stream := { s with phase := .inside q, total, buffer := back } with ht
  cases hback : findDelimiter r.marker false back with
  | some m =>
    have htwo := ((findDelimiter_eq_some_iff hlf).1 hback).1.two_le
    rw [hback, Option.map_some] at hfind
    have happ' := happend (back.take (m - 2))
    rw [← hflushed.take, show front.length + (m - 2) = front.length + m - 2 by omega] at happ'
    cases hq : q.append r.limits total (back.take (m - 2)) with
    | error e =>
      rw [hq] at happ'
      obtain ⟨u, hu⟩ := readInside_close_error atEnd hfind happ'
      obtain ⟨v, hv⟩ := readInside_close_error (s := t) atEnd hback hq
      rw [hu, hv]
      exact .fail
    | ok x =>
      rw [hq] at happ'
      rw [readInside_close atEnd hfind happ', readInside_close (s := t) atEnd hback hq, Stream.drop,
        Stream.drop, hflushed.drop]
      exact .refl _
  | none =>
    rw [hback, Option.map_none] at hfind
    cases atEnd with
    | true =>
      rw [readInside_end hfind, readInside_end (s := t) hback]
      exact .fail
    | false =>
      have happ' := happend (back.take (back.length - r.keep))
      rw [← hflushed.take, ← hflushed.spare] at happ'
      cases hq : q.append r.limits total (back.take (back.length - r.keep)) with
      | error e =>
        rw [hq] at happ'
        rw [readInside_flush_error hfind happ', readInside_flush_error (s := t) hback hq]
        exact .fail
      | ok x =>
        rw [hq] at happ'
        rw [readInside_flush hfind happ', readInside_flush (s := t) hback hq, Stream.drop,
          Stream.drop, hflushed.spare, hflushed.drop]
        exact .refl _

end Flushed

theorem readInside_grown {p : OpenPart} (hlf : Bytes.lf ∉ r.marker) :
    (r.readInside atEnd (s.push more) p).Grown r atEnd more (r.readInside false s p) := by
  cases hfind : findDelimiter r.marker false s.buffer with
  | some n =>
    have hlt := findDelimiter_lt hfind
    have hpush : findDelimiter r.marker false (s.push more).buffer = some n :=
      findDelimiter_append hlf hfind more
    have htake : s.buffer.take (n - 2) = (s.push more).buffer.take (n - 2) :=
      (List.take_append_of_le_length (by omega)).symm
    cases happ : p.append r.limits s.total (s.buffer.take (n - 2)) with
    | error e =>
      obtain ⟨t, ht⟩ := readInside_close_error false hfind happ
      obtain ⟨t', ht'⟩ := readInside_close_error atEnd hpush (htake ▸ happ)
      rw [ht, ht']
      exact ⟨e, t', rfl, Or.inl rfl⟩
    | ok x =>
      rw [readInside_close false hfind happ, readInside_close atEnd hpush (htake ▸ happ),
        Step.Grown, Stream.push_drop hlt.le]
      rfl
  | none =>
    have hflushed : r.Flushed (s.push more).buffer _ _ := flushed_push hlf hfind
    cases happ : p.append r.limits s.total (s.buffer.take (r.spare s)) with
    | error e =>
      rw [readInside_flush_error hfind happ]
      exact readInside_flushed_error hflushed hlf happ
    | ok x =>
      rw [readInside_flush hfind happ, Step.Grown, step_inside rfl]
      exact readInside_flushed hflushed hlf happ

/-- **What one step makes of more bytes.** -/
theorem step_grown (atEnd : Bool) (more : Bytes) (hlf : Bytes.lf ∉ r.marker)
    (hbegins : s.phase = .preamble → Begins r.marker s.buffer) :
    (r.step atEnd (s.push more)).Grown r atEnd more (r.step false s) := by
  have hphase : (s.push more).phase = s.phase := rfl
  cases hs : s.phase with
  | preamble =>
    rw [step_preamble hs, step_preamble (hphase.trans hs)]
    exact skipPreamble_grown hlf hs (hbegins hs)
  | between =>
    rw [step_between hs, step_between (hphase.trans hs)]
    exact readBetween_grown hlf hs
  | inside p =>
    rw [step_inside hs, step_inside (hphase.trans hs)]
    exact readInside_grown hlf
  | closed =>
    rw [step_closed hs, Step.Grown]
    exact .refl _

/-! ## Whole calls -/

/-- No step goes back to the preamble. -/
theorem phase_ne_preamble_of_more {part : Option Part} (h : r.step atEnd s = .more part t) :
    t.phase ≠ .preamble := by
  cases moves_of_step h with
  | start | opens | closes => simp
  | skip hs => simp [Stream.drop, hs]

/-- No call goes back to the preamble. -/
theorem phase_ne_preamble_of_advance {parts : List Part} (hs : s.phase ≠ .preamble)
    (h : r.advance atEnd s = (.ok parts, t)) : t.phase ≠ .preamble := by
  refine advance_invariant (fun _ s => s.phase ≠ .preamble) [] ?_ ?_ h hs
  · intro _ s part t hs hmoves
    cases hmoves with
    | start | opens | closes => simp
    | skip => exact hs
  · intro _ s t hs hhalts
    cases hhalts with
    | inside | finish => simp
    | preamble | between | delimiter | headers | closed => exact hs

/-- **The last call goes through only if the closing delimiter has been read.** -/
theorem phase_of_advance {parts : List Part} (h : r.advance true s = (.ok parts, t)) :
    t.phase = .closed := by
  induction s using r.steps_induction true generalizing parts with
  | more s part u hstep ih =>
    obtain ⟨qs, -, hu⟩ := advance_of_more_ok hstep h
    exact ih hu
  | stop s u hstep =>
    rw [advance_of_stop hstep] at h
    cases h
    cases halts_of_step hstep with
    | finish => rfl
    | closed hs => exact hs
    -- the others wait for more bytes
    | preamble hend | between hend | delimiter hend | headers hend | inside hend => cases hend
  | fail s e u hstep => rw [advance_of_fail hstep] at h; cases h

/-- **A call that stopped goes on with more bytes as if they had been there.** -/
theorem advance_push {parts : List Part} (hlf : Bytes.lf ∉ r.marker)
    (hbegins : s.phase = .preamble → Begins r.marker s.buffer)
    (h : r.advance false s = (.ok parts, t)) :
    Alike (r.advance atEnd (s.push more)) (after parts (r.advance atEnd (t.push more))) := by
  induction s using r.steps_induction false generalizing parts with
  | more s part u hstep ih =>
    have hgrown := step_grown atEnd more hlf hbegins
    rw [hstep, Step.Grown] at hgrown
    obtain ⟨qs, rfl, hu⟩ := advance_of_more_ok hstep h
    rw [advance_of_more hgrown, ← after_after]
    exact (ih (fun hp => absurd hp (phase_ne_preamble_of_more hstep)) hu).after _
  | stop s u hstep =>
    have hgrown := step_grown atEnd more hlf hbegins
    rw [hstep, Step.Grown] at hgrown
    rw [advance_of_stop hstep] at h
    cases h
    rw [after_nil]
    exact advance_alike hgrown
  | fail s e u hstep => rw [advance_of_fail hstep] at h; cases h

/-- **A body refused before its end is refused as a whole.** -/
theorem exists_error_of_advance_error {e : Error} (hlf : Bytes.lf ∉ r.marker)
    (hbegins : s.phase = .preamble → Begins r.marker s.buffer)
    (h : r.advance false s = (.error e, t)) :
    ∃ e', (r.advance atEnd (s.push more)).1 = .error e' ∧ e.Foretells atEnd e' := by
  induction s using r.steps_induction false with
  | more s part u hstep ih =>
    have hgrown := step_grown atEnd more hlf hbegins
    rw [hstep, Step.Grown] at hgrown
    obtain ⟨e', he', hforetells⟩ :=
      ih (fun hp => absurd hp (phase_ne_preamble_of_more hstep)) (advance_of_more_error hstep h)
    refine ⟨e', ?_, hforetells⟩
    rw [advance_of_more hgrown, after, he']
    rfl
  | stop s u hstep => rw [advance_of_stop hstep] at h; cases h
  | fail s e'' u hstep =>
    have hgrown := step_grown atEnd more hlf hbegins
    rw [advance_of_fail hstep] at h
    cases h
    rw [hstep] at hgrown
    obtain ⟨e', t', hgrown, hforetells⟩ := hgrown
    exact ⟨e', by rw [advance_of_fail hgrown], hforetells⟩

end Reader

end FormIntake.Multipart
