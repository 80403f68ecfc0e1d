/-
  FormIntake — reading a multipart body while it arrives.

  A `Stream` holds the bytes that have arrived and are not consumed, and how
  far the body has been read.  `Reader.step` does one thing: it skips to a
  delimiter, opens a part, closes one, or stops for want of bytes.
  `Reader.advance` steps until it stops and returns the parts closed on the way;
  `Reader.readAll` reads a body that is there as a whole.

  Every step that does not stop leaves less to do (`Reader.work_lt`), which is
  why `advance` ends on every stream.
-/
import FormIntake.Multipart.Delimiter
import FormIntake.Multipart.Headers
import FormIntake.Multipart.OpenPart

namespace FormIntake.Multipart

/-- The greatest length of a delimiter line together with the header lines
    after it. -/
def maxHeaderBytes : Nat := 8 * 1024

/-- How far a body has been read. -/
inductive Phase where
  /-- No delimiter has been found. -/
  | preamble
  /-- A delimiter comes next. -/
  | between
  /-- The payload of a part comes next. -/
  | inside (part : OpenPart)
  /-- The closing delimiter has been read. -/
  | closed
  deriving DecidableEq, Repr

/-- A body that is arriving. -/
structure Stream where
  /-- How far it has been read. -/
  phase : Phase := .preamble
  /-- The number of parts whose headers have been read. -/
  parts : Nat := 0
  /-- The bytes charged to the request: header blocks and payloads. -/
  total : Nat := 0
  /-- The bytes that have arrived and are not consumed. -/
  buffer : Bytes := []
  deriving DecidableEq, Repr

namespace Stream

/-- The closing delimiter has been read. -/
def isClosed (s : Stream) : Bool := s.phase == .closed

/-- The part whose payload is arriving. -/
def openPart? (s : Stream) : Option OpenPart :=
  match s.phase with
  | .inside part => some part
  | _ => none

/-- The stream after more bytes have arrived. -/
def push (s : Stream) (chunk : Bytes) : Stream := { s with buffer := s.buffer ++ chunk }

/-- The stream without the next `n` bytes. -/
def drop (s : Stream) (n : Nat) : Stream := { s with buffer := s.buffer.drop n }

/-- A bound on the steps that are left: two for every byte, and one for the
    preamble. -/
def work (s : Stream) : Nat := 2 * s.buffer.length + if s.phase = .preamble then 1 else 0

end Stream

/-- What a body is read with: the boundary between its parts and the limits it
    is held to. -/
structure Reader where
  boundary : String
  limits : SizeLimits
  deriving DecidableEq, Repr

/-- The outcome of one step. -/
inductive Step where
  /-- There is more to do; a part may have been closed. -/
  | more (part : Option Part) (s : Stream)
  /-- More bytes are needed, or the body is read. -/
  | stop (s : Stream)
  /-- The body is refused. -/
  | fail (e : Error) (s : Stream)

namespace Reader

/-- The marker of a delimiter. -/
def marker (r : Reader) : Bytes := Bytes.dashes ++ Bytes.ofText r.boundary

/-- The number of bytes at the end of a buffer that may be the front of a
    delimiter. -/
def keep (r : Reader) : Nat := r.marker.length + 4

/-- The bytes of the buffer that cannot be the front of a delimiter. -/
def spare (r : Reader) (s : Stream) : Nat := s.buffer.length - r.keep

/-- Stop for want of bytes, unless all bytes have arrived. -/
def wait (atEnd : Bool) (s : Stream) : Step :=
  if atEnd then .fail .unexpectedEnd s else .stop s

/-- Hold a header block of `size` bytes to its own limit and to what is left of
    the limit of the request. -/
def checkHeaderBlock (r : Reader) (total size : Nat) : Except Error Unit :=
  if maxHeaderBytes < size then .error (.headersTooLarge size maxHeaderBytes)
  else if r.limits.request < Size.add total size then
    .error (.totalTooLarge (Size.add total size) r.limits.request)
  else .ok ()

/-- Open the part whose header block are the next `size` bytes.  The block is
    charged and the part counted before its disposition is read. -/
def openPart (r : Reader) (s : Stream) (headers : Headers) (size : Nat) : Step :=
  match r.checkHeaderBlock s.total size with
  | .error e => .fail e s
  | .ok () =>
    let s := { s with total := Size.add s.total size, parts := Size.add s.parts 1 }
    if r.limits.parts < s.parts then .fail (.tooManyParts s.parts r.limits.parts) s
    else match headers.disposition with
      | none => .fail .missingDisposition s
      | some v =>
        match readDisposition v with
        | .error e => .fail e s
        | .ok d =>
          let part := OpenPart.start r.limits d.name d.filename headers.contentType
          .more none { s.drop size with phase := .inside part }

/-- Read the delimiter at the front of the buffer, and the header block after it
    if a part follows. -/
def readDelimiter (r : Reader) (atEnd : Bool) (s : Stream) : Step :=
  let n := r.marker.length
  let after := s.buffer.drop n
  if (after.drop 1).isEmpty then wait atEnd s
  else if Bytes.dashes.isPrefixOf after then
    let size := if Bytes.crlf.isPrefixOf (after.drop 2) then n + 4 else n + 2
    .stop { s.drop size with phase := .closed }
  else if Bytes.crlf.isPrefixOf after then
    match readHeaders (after.drop 2) with
    | .complete headers size => r.openPart s headers (n + 2 + size)
    | .notText => .fail .invalidHeaderText s
    | .incomplete =>
      if atEnd then .fail .unexpectedEnd s
      else match r.checkHeaderBlock s.total s.buffer.length with
        | .error e => .fail e s
        | .ok () => .stop s
  else .fail .unfinishedDelimiter s

/-- Look for the first delimiter. -/
def skipPreamble (r : Reader) (atEnd : Bool) (s : Stream) : Step :=
  match findDelimiter r.marker true s.buffer with
  | some n => .more none { s.drop n with phase := .between }
  | none => if atEnd then .fail .unexpectedEnd s else .stop (s.drop (r.spare s))

/-- Go on where a delimiter comes next.  Bytes in front of it are dropped. -/
def readBetween (r : Reader) (atEnd : Bool) (s : Stream) : Step :=
  if r.marker.isPrefixOf s.buffer then r.readDelimiter atEnd s
  else match findDelimiter r.marker true s.buffer with
    | some n => if n = 0 then r.readDelimiter atEnd s else .more none (s.drop n)
    | none => wait atEnd s

/-- Go on inside a part.  The line end in front of a delimiter belongs to the
    delimiter.  Without a delimiter, all bytes that cannot be the front of one
    are payload. -/
def readInside (r : Reader) (atEnd : Bool) (s : Stream) (part : OpenPart) : Step :=
  match findDelimiter r.marker false s.buffer with
  | some n =>
    match part.append r.limits s.total (s.buffer.take (n - 2)) with
    | .error e => .fail e { s with phase := .between }
    | .ok (part, total) => .more (some part.close) { s.drop n with phase := .between, total }
  | none =>
    if atEnd then .fail .unexpectedEnd s
    else match part.append r.limits s.total (s.buffer.take (r.spare s)) with
      | .error e => .fail e s
      | .ok (part, total) => .stop { s.drop (r.spare s) with phase := .inside part, total }

/-- Do one thing. -/
def step (r : Reader) (atEnd : Bool) (s : Stream) : Step :=
  match s.phase with
  | .preamble => r.skipPreamble atEnd s
  | .between => r.readBetween atEnd s
  | .inside part => r.readInside atEnd s part
  | .closed => .stop s

theorem openPart_more {r : Reader} {s t : Stream} {headers : Headers} {size : Nat}
    {part : Option Part} (h : r.openPart s headers size = .more part t) :
    t.buffer = s.buffer.drop size ∧ t.phase ≠ .preamble := by
  unfold openPart at h
  split at h
  · simp at h
  · dsimp only at h
    split at h
    · simp at h
    · split at h
      · simp at h
      · split at h
        · simp at h
        · obtain ⟨-, rfl⟩ := Step.more.inj h
          simp [Stream.drop]

theorem readDelimiter_more {r : Reader} {atEnd : Bool} {s t : Stream} {part : Option Part}
    (h : r.readDelimiter atEnd s = .more part t) :
    t.buffer.length < s.buffer.length ∧ t.phase ≠ .preamble := by
  unfold readDelimiter at h
  dsimp only at h
  split at h
  · unfold wait at h; split at h <;> simp at h
  · next hlen =>
    split at h
    · simp at h
    · split at h
      · split at h
        · obtain ⟨hb, hp⟩ := openPart_more h
          refine ⟨?_, hp⟩
          rw [hb, List.length_drop]
          simp only [List.isEmpty_iff, List.drop_drop, List.drop_eq_nil_iff] at hlen
          omega
        · simp at h
        · split at h
          · simp at h
          · split at h <;> simp at h
      · simp at h

/-- **Every step that does not stop leaves less to do.** -/
theorem work_lt {r : Reader} {atEnd : Bool} {s t : Stream} {part : Option Part}
    (h : r.step atEnd s = .more part t) : t.work < s.work := by
  have shorter : t.buffer.length < s.buffer.length → t.phase ≠ .preamble → t.work < s.work := by
    intro hlt hp
    simp only [Stream.work, hp, if_false]
    omega
  unfold step at h
  split at h
  · next hphase =>
    unfold skipPreamble at h
    split at h
    · obtain ⟨-, rfl⟩ := Step.more.inj h
      simp only [Stream.work, Stream.drop, hphase, List.length_drop, reduceCtorEq, if_true, if_false]
      omega
    · split at h <;> simp at h
  · next hphase =>
    unfold readBetween at h
    split at h
    · obtain ⟨hlt, hp⟩ := readDelimiter_more h
      exact shorter hlt hp
    · split at h
      · next n hn =>
        split at h
        · obtain ⟨hlt, hp⟩ := readDelimiter_more h
          exact shorter hlt hp
        · next hpos =>
          obtain ⟨-, rfl⟩ := Step.more.inj h
          have := findDelimiter_lt hn
          refine shorter ?_ (by simp [Stream.drop, hphase])
          simp only [Stream.drop, List.length_drop]
          omega
      · unfold wait at h; split at h <;> simp at h
  · next part hphase =>
    unfold readInside at h
    split at h
    · next n hn =>
      split at h
      · simp at h
      · obtain ⟨-, rfl⟩ := Step.more.inj h
        have := findDelimiter_lt hn
        have := findDelimiter_pos hn
        refine shorter ?_ (by simp)
        simp only [Stream.drop, List.length_drop]
        omega
    · split at h
      · simp at h
      · split at h <;> simp at h
  · simp at h

/-- Step until the stream stops; `done` are the parts closed before, the last
    one first. -/
def advanceFrom (r : Reader) (atEnd : Bool) (done : List Part) (s : Stream) :
    Except Error (List Part) × Stream :=
  match _h : r.step atEnd s with
  | .more part t => advanceFrom r atEnd (part.toList ++ done) t
  | .stop t => (.ok done.reverse, t)
  | .fail e t => (.error e, t)
termination_by s.work
decreasing_by exact work_lt _h

/-- Read what can be read of the bytes that have arrived: the parts closed, or
    why the body is refused, and the stream as it is left.  `atEnd` tells that
    no more bytes will arrive. -/
def advance (r : Reader) (atEnd : Bool) (s : Stream) : Except Error (List Part) × Stream :=
  r.advanceFrom atEnd [] s

/-- The parts of a body that is there as a whole. -/
def readAll (r : Reader) (body : Bytes) : Except Error (List Part) :=
  (r.advance true { buffer := body }).1

end Reader

end FormIntake.Multipart
