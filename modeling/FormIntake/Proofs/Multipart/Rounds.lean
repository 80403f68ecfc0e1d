/-
  FormIntake — reading in rounds.

  A `LooseStream` tells by two marks and the open part how far a body has been read, and
  nothing keeps these from contradicting each other.  `Reader.round?` is one round of
  reading on such a stream: it finds the first delimiter, opens a part or closes one, or
  returns.  Every cut it takes is checked (`Bytes.slice?`), so that `none` is one out of
  range.

  On a stream whose marks agree there is none, and a round is the last of the steps that
  it stands for (`round?_loose`).
-/
import FormIntake.Proofs.Multipart.Arrival
import FormIntake.Proofs.Multipart.Calls
import FormIntake.Proofs.Multipart.Ranges

namespace FormIntake.Multipart

/-- A body that is arriving, with marks that may contradict each other. -/
structure LooseStream where
  /-- A delimiter has been found. -/
  started : Bool := false
  /-- The closing delimiter has been read. -/
  done : Bool := false
  /-- The part whose payload is arriving. -/
  current : Option OpenPart := none
  /-- The number of parts whose headers have been read. -/
  parts : Nat := 0
  /-- The bytes charged to the request. -/
  total : Nat := 0
  /-- The bytes that have arrived and are not consumed. -/
  buffer : Bytes := []

/-- What ends a call without parts. -/
inductive Fault where
  /-- The body is refused. -/
  | refused (e : Error)
  /-- The part whose payload should go on is missing. -/
  | noPart

/-- The outcome of one round. -/
inductive Round where
  /-- There is more to do; a part may have been closed. -/
  | again (part : Option Part) (s : LooseStream)
  /-- More bytes are needed, or the body is read. -/
  | stop (s : LooseStream)
  /-- The call fails. -/
  | fail (f : Fault) (s : LooseStream)

/-- A round that goes on leaves fewer bytes, and none misses the part to go on with. -/
def Round.Proper (l : LooseStream) : Round → Prop
  | .again _ m => m.buffer.length < l.buffer.length
  | .stop _ => True
  | .fail f _ => f ≠ .noPart

theorem Round.Proper.mono {o : Round} {l m : LooseStream} (h : o.Proper l)
    (hle : l.buffer.length ≤ m.buffer.length) : o.Proper m := by
  cases o with
  | again part t => exact lt_of_lt_of_le h hle
  | stop | fail => exact h

/-- The stream with the marks that its phase stands for. -/
def Stream.loose (s : Stream) : LooseStream where
  started := s.phase != .preamble
  done := s.isClosed
  current := s.openPart?
  parts := s.parts
  total := s.total
  buffer := s.buffer

/-- The step as the end of a round. -/
def Step.loose : Step → Round
  | .more part s => .again part s.loose
  | .stop s => .stop s.loose
  | .fail e s => .fail (.refused e) s.loose

/-- The outcome of a call as that of its rounds. -/
def looseOutcome (x : Except Error (List Part) × Stream) :
    Except Fault (List Part) × LooseStream :=
  (x.1.mapError .refused, x.2.loose)

namespace LooseStream

/-- A delimiter comes next. -/
structure Waits (s : LooseStream) : Prop where
  started : s.started = true
  done : s.done = false
  current : s.current = none

/-- The stream without the next `n` bytes. -/
def drain? (s : LooseStream) (n : Nat) : Option LooseStream :=
  (s.buffer.slice? n s.buffer.length).map fun rest => { s with buffer := rest }

/-- Stop for want of bytes, unless all bytes have arrived. -/
def wait (atEnd : Bool) (s : LooseStream) : Round :=
  if atEnd then .fail (.refused .unexpectedEnd) s else .stop s

end LooseStream

/-- Whether a line end stands at the offset. -/
def endsLine? (data : Bytes) (i : Nat) : Option Bool :=
  if i + 2 ≤ data.length then (data.slice? i (i + 2)).map (· == Bytes.crlf) else some false

namespace Reader

/-- Open the part whose header block are the next `size` bytes. -/
def openPart? (r : Reader) (s : LooseStream) (headers : Headers) (size : Nat) : Option Round :=
  match r.checkHeaderBlock s.total size with
  | .error e => some (.fail (.refused e) s)
  | .ok () =>
    let s := { s with total := Size.add s.total size, parts := Size.add s.parts 1 }
    if r.limits.parts < s.parts then
      some (.fail (.refused (.tooManyParts s.parts r.limits.parts)) s)
    else match headers.disposition with
      | none => some (.fail (.refused .missingDisposition) s)
      | some v =>
        match readDisposition v with
        | .error e => some (.fail (.refused e) s)
        | .ok d =>
          let part := OpenPart.start r.limits d.name d.filename headers.contentType
          ({ s with current := some part }.drain? size).map (.again none)

/-- Read the delimiter at the front of the buffer, and the header block after it. -/
def readDelimiter? (r : Reader) (atEnd : Bool) (s : LooseStream) : Option Round :=
  let n := r.marker.length
  if s.buffer.length < n + 2 then some (s.wait atEnd)
  else (s.buffer.slice? n (n + 2)).bind fun pair =>
    if pair = Bytes.dashes then
      (endsLine? s.buffer (n + 2)).bind fun line =>
        ({ s with done := true }.drain? (if line then n + 4 else n + 2)).map .stop
    else if pair ≠ Bytes.crlf then some (.fail (.refused .unfinishedDelimiter) s)
    else (headersAt? s.buffer {} (n + 2)).bind fun
      | .complete headers size => r.openPart? s headers size
      | .notText => some (.fail (.refused .invalidHeaderText) s)
      | .incomplete => some <|
        if atEnd then .fail (.refused .unexpectedEnd) s
        else match r.checkHeaderBlock s.total s.buffer.length with
          | .error e => .fail (.refused e) s
          | .ok () => .stop s

/-- Go on where no part is open. -/
def startPart? (r : Reader) (atEnd : Bool) (s : LooseStream) : Option Round :=
  if r.marker.isPrefixOf s.buffer then r.readDelimiter? atEnd s
  else (locate? r.marker true s.buffer).bind fun
    | some n => (s.drain? n).bind (r.readDelimiter? atEnd)
    | none => some (s.wait atEnd)

/-- Go on where a part is open.  The part is taken before its last bytes are
    appended. -/
def continuePart? (r : Reader) (atEnd : Bool) (s : LooseStream) : Option Round :=
  (locate? r.marker false s.buffer).bind fun
    | some n => (startsLine? false s.buffer n).bind fun line =>
      match s.current with
      | none => some (.fail .noPart s)
      | some part =>
        let s := { s with current := none }
        (s.buffer.slice? 0 (if line then n - 2 else n)).bind fun payload =>
          match part.append r.limits s.total payload with
          | .error e => some (.fail (.refused e) s)
          | .ok (part, total) => ({ s with total }.drain? n).map (.again (some part.close))
    | none =>
      if atEnd then some (.fail (.refused .unexpectedEnd) s)
      else if r.keep < s.buffer.length then
        let n := s.buffer.length - r.keep
        match s.current with
        | none => some (.fail .noPart s)
        | some part => (s.buffer.slice? 0 n).bind fun payload =>
          match part.append r.limits s.total payload with
          | .error e => some (.fail (.refused e) s)
          | .ok (part, total) => ({ s with current := some part, total }.drain? n).map .stop
      else some (.stop s)

/-- Go on behind the preamble. -/
def goOn? (r : Reader) (atEnd : Bool) (s : LooseStream) : Option Round :=
  if s.current.isNone then r.startPart? atEnd s else r.continuePart? atEnd s

/-- One round. -/
def round? (r : Reader) (atEnd : Bool) (s : LooseStream) : Option Round :=
  if s.done then some (.stop s)
  else if s.started then r.goOn? atEnd s
  else (locate? r.marker true s.buffer).bind fun
    | some n => ({ s with started := true }.drain? n).bind (r.goOn? atEnd)
    | none =>
      if atEnd then some (.fail (.refused .unexpectedEnd) s)
      else if r.keep < s.buffer.length then
        (s.drain? (s.buffer.length - r.keep)).map .stop
      else some (.stop s)

end Reader

/-! ## Cuts -/

variable {r : Reader} {atEnd : Bool} {s t u : Stream} {x : Bytes} {n : Nat} {l : LooseStream}

theorem LooseStream.drain?_eq (h : n ≤ l.buffer.length) :
    l.drain? n = some { l with buffer := l.buffer.drop n } := by
  rw [drain?, Bytes.slice?_length h, Option.map_some]

theorem endsLine?_eq (data : Bytes) (n : Nat) :
    endsLine? data n = some (Bytes.crlf.isPrefixOf (data.drop n)) := by
  rw [endsLine?]
  split
  · next h =>
    obtain ⟨pair, hpair, hiff⟩ := Bytes.exists_slice?_two h
    rw [hpair, Option.map_some]
    congr 1
    rw [Bool.eq_iff_iff, beq_iff_eq, hiff _ rfl, List.isPrefixOf_iff_prefix]
  · next h =>
    congr 1
    rw [eq_comm, Bool.eq_false_iff, ne_eq, List.isPrefixOf_iff_prefix]
    intro hprefix
    have := hprefix.length_le
    rw [List.length_drop] at this
    simp only [Bytes.crlf, List.length_cons, List.length_nil] at this
    omega

/-! ## Marks that agree -/

theorem loose_preamble (h : s.phase = .preamble) :
    s.loose = ⟨false, false, none, s.parts, s.total, s.buffer⟩ := by
  simp [Stream.loose, Stream.isClosed, Stream.openPart?, h]

theorem loose_between (h : s.phase = .between) :
    s.loose = ⟨true, false, none, s.parts, s.total, s.buffer⟩ := by
  simp [Stream.loose, Stream.isClosed, Stream.openPart?, h]

theorem loose_inside {p : OpenPart} (h : s.phase = .inside p) :
    s.loose = ⟨true, false, some p, s.parts, s.total, s.buffer⟩ := by
  simp [Stream.loose, Stream.isClosed, Stream.openPart?, h]

theorem loose_closed (h : s.phase = .closed) :
    s.loose = ⟨true, true, none, s.parts, s.total, s.buffer⟩ := by
  simp [Stream.loose, Stream.isClosed, Stream.openPart?, h]

namespace Reader

/-! ## Rounds without cuts -/

/-- The two bytes behind the marker. -/
theorem slice?_behindMarker {pair : Bytes} (hl : l.buffer = r.marker ++ (pair ++ x))
    (hpair : pair.length = 2) :
    ¬ l.buffer.length < r.marker.length + 2 ∧
      l.buffer.slice? r.marker.length (r.marker.length + 2) = some pair := by
  rw [hl, ← hpair, Bytes.slice?_append]
  exact ⟨by simp only [List.length_append]; omega, rfl⟩

theorem readDelimiter?_short (hl : l.buffer = r.marker ++ x) (hx : x.length < 2) :
    r.readDelimiter? atEnd l = some (l.wait atEnd) := by
  rw [readDelimiter?]
  exact if_pos (by rw [hl, List.length_append]; omega)

theorem readDelimiter?_dashes (hl : l.buffer = r.marker ++ (Bytes.dashes ++ x)) :
    r.readDelimiter? atEnd l = some (.stop { l with
      done := true
      buffer := l.buffer.drop (if Bytes.crlf.isPrefixOf x then r.marker.length + 4
        else r.marker.length + 2) }) := by
  obtain ⟨hlong, hpair⟩ := slice?_behindMarker hl rfl
  have hbehind : l.buffer.drop (r.marker.length + 2) = x := by
    rw [hl, ← List.drop_drop, List.drop_left]
    rfl
  rw [readDelimiter?, if_neg hlong, hpair, Option.bind_some, if_pos rfl, endsLine?_eq, hbehind,
    Option.bind_some, LooseStream.drain?_eq]
  · rfl
  · -- what is drained is there
    split
    · next hline =>
      have := (List.isPrefixOf_iff_prefix.1 hline).length_le
      rw [← hbehind, List.length_drop, show Bytes.crlf.length = 2 from rfl] at this
      exact (by omega : r.marker.length + 4 ≤ l.buffer.length)
    · exact Nat.le_of_not_lt hlong

theorem readDelimiter?_crlf (hl : l.buffer = r.marker ++ (Bytes.crlf ++ x)) :
    r.readDelimiter? atEnd l =
      match readHeaders x with
      | .complete headers size => r.openPart? l headers (r.marker.length + 2 + size)
      | .notText => some (.fail (.refused .invalidHeaderText) l)
      | .incomplete => some <|
        if atEnd then .fail (.refused .unexpectedEnd) l
        else match r.checkHeaderBlock l.total l.buffer.length with
          | .error e => .fail (.refused e) l
          | .ok () => .stop l := by
  obtain ⟨hlong, hpair⟩ := slice?_behindMarker hl rfl
  have hheaders : headersAt? l.buffer {} (r.marker.length + 2) =
      some ((readHeaders x).behind (r.marker.length + 2)) := by
    have := headersAt?_eq (r.marker ++ Bytes.crlf) x
    rwa [List.append_assoc, ← hl, List.length_append] at this
  rw [readDelimiter?, if_neg hlong, hpair, Option.bind_some, if_neg (by decide),
    if_neg (by simp), hheaders, Option.bind_some]
  cases readHeaders x <;> rfl

theorem readDelimiter?_other (hl : l.buffer = r.marker ++ x) (hlen : 2 ≤ x.length)
    (hd : ¬ Bytes.dashes <+: x) (hc : ¬ Bytes.crlf <+: x) :
    r.readDelimiter? atEnd l = some (.fail (.refused .unfinishedDelimiter) l) := by
  have hne : ∀ w : Bytes, ¬ w <+: x → x.take 2 ≠ w := by
    rintro w hw rfl
    exact hw (List.take_prefix ..)
  rw [← List.take_append_drop 2 x] at hl
  obtain ⟨hlong, hpair⟩ := slice?_behindMarker hl (by rw [List.length_take]; omega)
  rw [readDelimiter?, if_neg hlong, hpair, Option.bind_some, if_neg (hne _ hd), if_pos (hne _ hc)]

theorem continuePart?_close {p : OpenPart} (hl : l.current = some p)
    (hfind : findDelimiter r.marker false l.buffer = some n) :
    r.continuePart? atEnd l = some
      (match p.append r.limits l.total (l.buffer.take (n - 2)) with
      | .error e => .fail (.refused e) { l with current := none }
      | .ok (q, total) => .again (some q.close)
          { l with current := none, total, buffer := l.buffer.drop n }) := by
  have hle := (findDelimiter_lt hfind).le
  -- the delimiter stands behind a line end, which is no payload
  obtain ⟨line, hline, hiff⟩ := exists_startsLine? false hle
  obtain rfl : line = true := hiff.2 (delimiterAt_of_findDelimiter hfind).lineStart
  rw [continuePart?, locate?_eq, Option.bind_some, hfind]
  dsimp only
  rw [hline, Option.bind_some, hl]
  dsimp only
  rw [if_pos rfl, Bytes.slice?_zero (by omega), Option.bind_some]
  cases p.append r.limits l.total (l.buffer.take (n - 2)) with
  | error e => rfl
  | ok qt =>
    dsimp only
    rw [LooseStream.drain?_eq (l := { l with current := none, total := qt.2 }) hle, Option.map_some]

theorem continuePart?_flush {p : OpenPart} (hl : l.current = some p)
    (hfind : findDelimiter r.marker false l.buffer = none) :
    r.continuePart? atEnd l = some
      (if atEnd then .fail (.refused .unexpectedEnd) l
      else match p.append r.limits l.total (l.buffer.take (l.buffer.length - r.keep)) with
        | .error e => .fail (.refused e) l
        | .ok (q, total) => .stop { l with
            current := some q
            total
            buffer := l.buffer.drop (l.buffer.length - r.keep) }) := by
  rw [continuePart?, locate?_eq, Option.bind_some, hfind]
  dsimp only
  cases atEnd with
  | true => rfl
  | false =>
    simp only [Bool.false_eq_true, if_false]
    split
    · rw [hl]
      dsimp only
      rw [Bytes.slice?_zero (Nat.sub_le ..), Option.bind_some]
      cases p.append r.limits l.total (l.buffer.take (l.buffer.length - r.keep)) with
      | error e => rfl
      | ok qt =>
        dsimp only
        rw [LooseStream.drain?_eq (l := { l with current := some qt.1, total := qt.2 })
          (Nat.sub_le ..), Option.map_some]
    · next hshort =>
      -- nothing is spare, and nothing is appended
      have hzero : l.buffer.length - r.keep = 0 := Nat.sub_eq_zero_of_le (Nat.le_of_not_lt hshort)
      rw [hzero, List.take_zero, List.drop_zero, OpenPart.append_nil]
      dsimp only
      rw [← hl]

theorem round?_done (hd : l.done = true) : r.round? atEnd l = some (.stop l) := by
  rw [round?, if_pos hd]

theorem round?_started (hd : l.done = false) (hs : l.started = true) :
    r.round? atEnd l = r.goOn? atEnd l := by
  rw [round?, if_neg (by simp [hd]), if_pos hs]

theorem round?_found (hd : l.done = false) (hs : l.started = false)
    (hfind : findDelimiter r.marker true l.buffer = some n) :
    r.round? atEnd l = r.goOn? atEnd { l with started := true, buffer := l.buffer.drop n } := by
  rw [round?, if_neg (by simp [hd]), if_neg (by simp [hs]), locate?_eq, Option.bind_some, hfind]
  dsimp only
  rw [LooseStream.drain?_eq (l := { l with started := true }) (findDelimiter_lt hfind).le,
    Option.bind_some]

theorem round?_missing (hd : l.done = false) (hs : l.started = false)
    (hfind : findDelimiter r.marker true l.buffer = none) :
    r.round? atEnd l = some (if atEnd then .fail (.refused .unexpectedEnd) l
      else .stop { l with buffer := l.buffer.drop (l.buffer.length - r.keep) }) := by
  rw [round?, if_neg (by simp [hd]), if_neg (by simp [hs]), locate?_eq, Option.bind_some, hfind]
  dsimp only
  cases atEnd with
  | true => rfl
  | false =>
    simp only [Bool.false_eq_true, if_false]
    split
    · rw [LooseStream.drain?_eq (Nat.sub_le ..), Option.map_some]
    · next hshort => rw [Nat.sub_eq_zero_of_le (Nat.le_of_not_lt hshort), List.drop_zero]

/-! ## Rounds and steps -/

theorem openPart?_loose {headers : Headers} (hs : s.phase = .between) (hn : n ≤ s.buffer.length) :
    r.openPart? s.loose headers n = some (r.openPart s headers n).loose := by
  obtain ⟨_, parts, total, buffer⟩ := s
  cases hs
  rw [openPart?, openPart]
  dsimp only [Stream.loose]
  cases r.checkHeaderBlock total n with
  | error e => rfl
  | ok u =>
    by_cases hparts : r.limits.parts < Size.add parts 1
    · simp only [hparts, if_true]
      rfl
    · simp only [hparts, if_false]
      cases headers.disposition with
      | none => rfl
      | some v =>
        dsimp only
        cases readDisposition v with
        | error e => rfl
        | ok d =>
          dsimp only
          rw [LooseStream.drain?_eq hn]
          rfl

theorem wait_loose (atEnd : Bool) (s : Stream) : s.loose.wait atEnd = (wait atEnd s).loose := by
  cases atEnd <;> rfl

theorem readDelimiter?_loose (hs : s.phase = .between) (hx : s.buffer = r.marker ++ x) :
    r.readDelimiter? atEnd s.loose = some (r.readDelimiter atEnd s).loose := by
  rcases behindMarker_cases x with hlen | ⟨y, rfl⟩ | ⟨y, rfl⟩ | ⟨hlen, hd, hc⟩
  · rw [readDelimiter?_short (l := s.loose) hx hlen, readDelimiter_short hx hlen, wait_loose]
  · rw [readDelimiter?_dashes (l := s.loose) hx, readDelimiter_closing atEnd hx, loose_between hs]
    rfl
  · rw [readDelimiter?_crlf (l := s.loose) hx, readDelimiter_crlf hx]
    cases hread : readHeaders y with
    | notText => rfl
    | incomplete =>
      cases atEnd with
      | true => rfl
      | false =>
        dsimp only [Stream.loose]
        cases r.checkHeaderBlock s.total s.buffer.length <;> rfl
    | complete headers size =>
      obtain ⟨lines, rest, -, rfl, -, rfl⟩ := exists_lines_of_readHeaders hread
      exact openPart?_loose hs (by rw [hx]; simp only [List.length_append, Bytes.crlf,
        List.length_cons, List.length_nil]; omega)
  · rw [readDelimiter?_other (l := s.loose) hx hlen hd hc, readDelimiter_other hx hlen hd hc]
    rfl

/-- A round between two parts is the step at the next delimiter. -/
theorem exists_startPart?_loose (hs : s.phase = .between) :
    ∃ u, r.Reaches atEnd s [] u ∧ r.startPart? atEnd s.loose = some (r.step atEnd u).loose := by
  rw [startPart?, show s.loose.buffer = s.buffer from rfl]
  by_cases hmarker : r.marker <+: s.buffer
  · obtain ⟨x, hx⟩ := hmarker
    refine ⟨s, .refl, ?_⟩
    rw [if_pos (List.isPrefixOf_iff_prefix.2 ⟨x, hx⟩), step_of_marker hs hx.symm,
      readDelimiter?_loose hs hx.symm]
  · rw [if_neg (by simpa using hmarker), locate?_eq, Option.bind_some]
    cases hfind : findDelimiter r.marker true s.buffer with
    | none =>
      refine ⟨s, .refl, ?_⟩
      rw [step_between hs, readBetween_wait hmarker hfind, ← wait_loose]
    | some n =>
      obtain ⟨x, hx⟩ := (delimiterAt_of_findDelimiter hfind).opens.marker_isPrefix
      have hstep : r.step atEnd s = .more none (s.drop n) := by
        rw [step_between hs, readBetween_skip hmarker hfind]
      refine ⟨s.drop n, .step hstep .refl, ?_⟩
      dsimp only
      rw [LooseStream.drain?_eq (l := s.loose) (findDelimiter_lt hfind).le, Option.bind_some,
        step_of_marker (s := s.drop n) hs hx.symm]
      exact readDelimiter?_loose (s := s.drop n) hs hx.symm

/-- A round inside a part is a step. -/
theorem continuePart?_loose {p : OpenPart} (hs : s.phase = .inside p) :
    r.continuePart? atEnd s.loose = some (r.step atEnd s).loose := by
  obtain ⟨_, parts, total, buffer⟩ := s
  cases hs
  rw [step_inside rfl, readInside]
  cases hfind : findDelimiter r.marker false buffer with
  | some n =>
    rw [continuePart?_close rfl hfind]
    dsimp only [Stream.loose]
    cases p.append r.limits total (buffer.take (n - 2)) <;> rfl
  | none =>
    rw [continuePart?_flush rfl hfind]
    dsimp only [Stream.loose, spare]
    cases atEnd with
    | true => rfl
    | false => cases p.append r.limits total (buffer.take (buffer.length - r.keep)) <;> rfl

/-- A step behind the preamble that goes on leaves fewer bytes. -/
theorem length_lt_of_more {part : Option Part} (hs : s.phase ≠ .preamble)
    (h : r.step atEnd s = .more part t) : t.buffer.length < s.buffer.length := by
  have hwork := work_lt h
  rw [Stream.work, Stream.work, if_neg hs, if_neg (phase_ne_preamble_of_more h)] at hwork
  omega

/-- The steps of a round leave no more bytes. -/
theorem length_le_of_reaches {parts : List Part} (hs : s.phase ≠ .preamble)
    (h : r.Reaches atEnd s parts u) :
    u.phase ≠ .preamble ∧ u.buffer.length ≤ s.buffer.length := by
  induction h with
  | refl => exact ⟨hs, le_rfl⟩
  | step hstep _ ih =>
    obtain ⟨hu, hle⟩ := ih (phase_ne_preamble_of_more hstep)
    exact ⟨hu, hle.trans (length_lt_of_more hs hstep).le⟩

/-- **Behind the preamble a round is the last of the steps that it stands for.** -/
theorem exists_goOn?_loose (atEnd : Bool) (hp : s.phase ≠ .preamble) (hc : s.phase ≠ .closed) :
    ∃ u, r.Reaches atEnd s [] u ∧ r.goOn? atEnd s.loose = some (r.step atEnd u).loose := by
  rw [goOn?]
  cases hs : s.phase with
  | preamble => exact absurd hs hp
  | closed => exact absurd hs hc
  | between =>
    rw [if_pos (by rw [loose_between hs]; rfl)]
    exact exists_startPart?_loose hs
  | inside p =>
    rw [if_neg (by rw [loose_inside hs]; simp)]
    exact ⟨s, .refl, continuePart?_loose hs⟩

/-- **A round is the last of the steps that it stands for.** -/
theorem round?_loose (r : Reader) (atEnd : Bool) (s : Stream) :
    ∃ u, r.Reaches atEnd s [] u ∧ r.round? atEnd s.loose = some (r.step atEnd u).loose := by
  cases hs : s.phase with
  | closed =>
    refine ⟨s, .refl, ?_⟩
    rw [step_closed hs, round?_done (by rw [loose_closed hs]), Step.loose]
  | between | inside =>
    have hphase : s.phase ≠ .preamble ∧ s.phase ≠ .closed := by simp [hs]
    rw [round?_started (by simp [Stream.loose, Stream.isClosed, hs]) (by simp [Stream.loose, hs])]
    exact exists_goOn?_loose atEnd hphase.1 hphase.2
  | preamble =>
    have hloose := loose_preamble hs
    cases hfind : findDelimiter r.marker true s.buffer with
    | none =>
      refine ⟨s, .refl, ?_⟩
      rw [round?_missing (by rw [hloose]) (by rw [hloose]) hfind, step_preamble hs, skipPreamble,
        hfind]
      cases atEnd <;> rfl
    | some n =>
      have hstep : r.step atEnd s = .more none { s.drop n with phase := .between } := by
        rw [step_preamble hs, skipPreamble, hfind]
      obtain ⟨u, hreach, hround⟩ := exists_goOn?_loose (r := r) atEnd
        (s := { s.drop n with phase := .between }) (by simp) (by simp)
      refine ⟨u, .step hstep hreach, ?_⟩
      rw [round?_found (by rw [hloose]) (by rw [hloose]) hfind, ← hround, hloose]
      rfl

end Reader

end FormIntake.Multipart
