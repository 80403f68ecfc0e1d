/-
  FormIntake — how a body is laid out.

  A `Block` is one part as it stands in a body: its header lines and its payload.
  `layout` writes blocks one after the other and the closing delimiter behind
  them.  `readBlocks` says what becomes of them, block by block: which parts they
  are, what they are charged, or why the first bad one is refused.

  `readAll_layout`: a body that is laid out is read as `readBlocks` reads its
  blocks, whatever stands behind the closing delimiter.
  `exists_layout_of_readAll`: every body that is read is laid out.
-/
import FormIntake.Proofs.Multipart.Step

namespace FormIntake.Multipart

/-- A part as it stands in a body. -/
structure Block where
  /-- The header lines, without their line ends. -/
  lines : List Bytes
  payload : Bytes
  deriving DecidableEq, Repr

/-- The bytes of a block: delimiter line, header lines, empty line, payload and
    the line end in front of the next delimiter. -/
def Block.bytes (marker : Bytes) (b : Block) : Bytes :=
  marker ++ Bytes.crlf ++ headerBytes b.lines ++ b.payload ++ Bytes.crlf

/-- Blocks one after the other, and the closing delimiter. -/
def layout (marker : Bytes) (blocks : List Block) : Bytes :=
  blocks.flatMap (·.bytes marker) ++ (marker ++ Bytes.dashes)

/-- No line end in the payload, nor the one behind it, has a delimiter behind it. -/
def Clear (marker payload : Bytes) : Prop :=
  ∀ front back, payload ++ Bytes.crlf = front ++ Bytes.crlf ++ back → ¬ Opens marker back

/-- The lines of a block are lines, and its payload ends where the block does. -/
structure Block.Wf (marker : Bytes) (b : Block) : Prop where
  lines : ∀ line ∈ b.lines, IsLine line
  payload : Clear marker b.payload

/-- The part that a block stands for: its payload is the payload of the block, and
    the rest is what the header lines of the block say. -/
structure Block.Holds (b : Block) (p : Part) : Prop where
  data : p.data = b.payload
  headers : ∃ headers v,
    readHeaders (headerBytes b.lines) = .complete headers (headerBytes b.lines).length ∧
      headers.disposition = some v ∧ readDisposition v = .ok ⟨p.name, p.filename⟩ ∧
      p.contentType = headers.contentType

variable {marker payload rest : Bytes} {b : Block} {blocks : List Block} {n : Nat}

/-- A block whose payload goes on with more bytes. -/
def Block.fill (b : Block) (a : Bytes) : Block := { b with payload := b.payload ++ a }

/-- A payload is that of the block as far as it has been appended. -/
theorem Block.Holds.fill {limits : SizeLimits} {total total' : Nat} {p q : OpenPart} {a : Bytes}
    (hb : b.Holds p.close) (h : p.append limits total a = .ok (q, total')) :
    (b.fill a).Holds q.close := by
  obtain ⟨hdata, headers, v, hread, hv, hd, htype⟩ := hb
  rw [OpenPart.close_of_append h]
  exact ⟨congrArg (· ++ a) hdata, headers, v, hread, hv, hd, htype⟩

theorem layout_cons (b : Block) (blocks : List Block) :
    layout marker (b :: blocks) = b.bytes marker ++ layout marker blocks := by
  simp [layout]

/-- What is laid out begins with a delimiter. -/
theorem opens_layout (blocks : List Block) (rest : Bytes) :
    Opens marker (layout marker blocks ++ rest) := by
  cases blocks with
  | nil => exact Or.inr (by simp [layout])
  | cons b blocks => exact Or.inl (by simp [layout_cons, Block.bytes])

/-! ## The end of a payload -/

/-- A delimiter does not reach over a line feed. -/
theorem Opens.of_append_lf (hlf : Bytes.lf ∉ marker)
    (h : Opens marker (payload ++ [Bytes.lf] ++ rest)) : Opens marker (payload ++ [Bytes.lf]) := by
  refine h.of_append (Nat.le_of_not_lt fun hlen => ?_)
  -- else the line feed stands in the marker, or right behind it
  obtain ⟨c, hc, hmarker⟩ :
      ∃ c, c ≠ Bytes.lf ∧ marker ++ [c] <+: payload ++ [Bytes.lf] ++ rest := by
    rcases h with h | h
    · refine ⟨Bytes.cr, by decide, List.IsPrefix.trans ?_ h⟩
      exact (List.prefix_append_right_inj _).2 ⟨[Bytes.lf], rfl⟩
    · refine ⟨45, by decide, List.IsPrefix.trans ?_ h⟩
      exact (List.prefix_append_right_inj _).2 ⟨[45], rfl⟩
  have hpre : payload ++ [Bytes.lf] <+: marker ++ [c] := by
    refine List.prefix_of_prefix_length_le (List.prefix_append ..) hmarker ?_
    simp only [List.length_append, List.length_singleton] at hlen ⊢
    omega
  have hmem : Bytes.lf ∈ marker ++ [c] := hpre.subset (by simp)
  rcases List.mem_append.1 hmem with h | h
  · exact hlf h
  · exact hc (List.mem_singleton.1 h).symm

/-- A delimiter behind a line end of the payload would lie in the payload. -/
theorem Clear.not_opens (hlf : Bytes.lf ∉ marker) (hclear : Clear marker payload)
    {front back : Bytes} (hsplit : payload ++ Bytes.crlf ++ rest = front ++ Bytes.crlf ++ back)
    (hlt : front.length < payload.length) : ¬ Opens marker back := by
  intro hopens
  have hfront : front <+: payload ++ Bytes.crlf ++ rest := by
    rw [hsplit, List.append_assoc]
    exact List.prefix_append ..
  have hpayload : payload <+: payload ++ Bytes.crlf ++ rest := by
    rw [List.append_assoc]
    exact List.prefix_append ..
  obtain ⟨tail, rfl⟩ := List.prefix_of_prefix_length_le hfront hpayload hlt.le
  -- what stands behind the line end up to the end of the payload
  have htail : tail ++ Bytes.crlf ++ rest = Bytes.crlf ++ back := by
    simpa only [List.append_assoc, List.append_cancel_left_eq] using hsplit
  have hcrlf : Bytes.crlf <+: tail ++ Bytes.crlf ++ rest := by
    rw [htail]
    exact List.prefix_append ..
  have hcr : tail ++ [Bytes.cr] <+: tail ++ Bytes.crlf ++ rest :=
    ⟨Bytes.lf :: rest, by simp [Bytes.crlf]⟩
  obtain ⟨w, hw⟩ : Bytes.crlf <+: tail ++ [Bytes.cr] := by
    refine List.prefix_of_prefix_length_le hcrlf hcr ?_
    simp only [Bytes.crlf, List.length_append, List.length_cons, List.length_nil] at hlt ⊢
    omega
  have htail' : tail ++ Bytes.crlf = Bytes.crlf ++ (w ++ [Bytes.lf]) := by
    rw [← List.append_assoc, hw]
    simp [Bytes.crlf]
  have hback : back = w ++ [Bytes.lf] ++ rest := by
    rw [htail', List.append_assoc] at htail
    exact (List.append_cancel_left htail).symm
  rw [hback] at hopens
  refine hclear front (w ++ [Bytes.lf]) ?_ (hopens.of_append_lf hlf)
  rw [List.append_assoc, htail', List.append_assoc]

/-- The first delimiter behind a payload is the one that follows it. -/
theorem findDelimiter_payload (hlf : Bytes.lf ∉ marker) (hclear : Clear marker payload)
    (hrest : Opens marker rest) :
    findDelimiter marker false (payload ++ Bytes.crlf ++ rest) = some (payload.length + 2) := by
  refine (findDelimiter_eq_some_iff hlf).2 ⟨delimiterAt_split payload hrest, fun m hm hat => ?_⟩
  obtain ⟨front, back, hsplit, hopens, rfl⟩ := hat.exists_split (by have := hat.two_le; omega)
  exact hclear.not_opens hlf hsplit (by omega) hopens

/-- Whether a payload is clear can be computed. -/
theorem clear_iff (hlf : Bytes.lf ∉ marker) :
    Clear marker payload ↔ findDelimiter marker false (payload ++ Bytes.crlf) = none := by
  rw [findDelimiter_eq_none_iff hlf]
  constructor
  · intro hclear n hat
    obtain ⟨front, back, hsplit, hopens, -⟩ := hat.exists_split (by have := hat.two_le; omega)
    exact hclear front back hsplit hopens
  · intro hnone front back hsplit hopens
    refine hnone (front.length + 2) ?_
    rw [hsplit]
    exact delimiterAt_split front hopens

/-- A payload up to the first delimiter is clear of them. -/
theorem clear_of_findDelimiter (hlf : Bytes.lf ∉ marker) {data : Bytes}
    (h : findDelimiter marker false data = some n) :
    ∃ payload rest, data = payload ++ Bytes.crlf ++ rest ∧ Clear marker payload ∧
      Opens marker rest ∧ n = payload.length + 2 := by
  obtain ⟨hat, hleast⟩ := (findDelimiter_eq_some_iff hlf).1 h
  obtain ⟨payload, rest, rfl, hopens, rfl⟩ := hat.exists_split (by have := hat.two_le; omega)
  refine ⟨payload, rest, rfl, fun front back hsplit hback => ?_, hopens, rfl⟩
  have hlength := congrArg List.length hsplit
  have hshort := hback.length_le
  simp only [Bytes.crlf, List.length_append, List.length_cons, List.length_nil] at hlength
  refine hleast (front.length + 2) (by omega) ?_
  rw [hsplit]
  exact (delimiterAt_split front hback).append rest

/-! ## Reading blocks -/

namespace Reader

variable {r : Reader} {s t : Stream} {c c' : Charged} {p : Part} {parts : List Part}

/-- The part that a block is read as, and what has been charged with it. -/
def readBlock (r : Reader) (c : Charged) (b : Block) : Except Error (Part × Charged) :=
  match Headers.noteAll {} b.lines with
  | none => .error .invalidHeaderText
  | some headers =>
    match r.opened c headers (r.marker.length + 2 + (headerBytes b.lines).length) with
    | .error e => .error e
    | .ok (part, c) => (part.append r.limits c.total b.payload).map fun x =>
        (x.1.close, { c with total := x.2 })

/-- The parts that blocks are read as, up to the first that is refused. -/
def readBlocks (r : Reader) (c : Charged) : List Block → Except Error (List Part × Charged)
  | [] => .ok ([], c)
  | b :: blocks =>
    match r.readBlock c b with
    | .error e => .error e
    | .ok (part, c) => (r.readBlocks c blocks).map fun x => (part :: x.1, x.2)

section Headers

variable {lines : List Bytes} {headers : Headers} {q : OpenPart} {e : Error} {x : Bytes}
  (hs : s.phase = .between) (hlines : ∀ line ∈ lines, IsLine line)
  (hbuffer : s.buffer = r.marker ++ (Bytes.crlf ++ (headerBytes lines ++ x)))

include hs hlines hbuffer

/-- Header lines open the part that they say. -/
theorem step_headers (hheaders : Headers.noteAll {} lines = some headers)
    (hopened : r.opened s.charged headers (r.marker.length + 2 + (headerBytes lines).length) =
      .ok (q, c)) :
    r.step true s = .more none ⟨.inside q, c.parts, c.total, x⟩ := by
  have hdrop : s.buffer.drop (r.marker.length + 2 + (headerBytes lines).length) = x := by
    rw [hbuffer, ← List.append_assoc, ← List.append_assoc,
      show r.marker.length + 2 + (headerBytes lines).length =
        (r.marker ++ Bytes.crlf ++ headerBytes lines).length by simp [Bytes.crlf]; omega,
      List.drop_left]
  rw [step_of_marker hs hbuffer, readDelimiter_crlf hbuffer, readHeaders_lines hlines, hheaders]
  dsimp only
  rw [openPart_of_opened_ok hopened, Stream.drop, hdrop]

theorem step_headers_error (hheaders : Headers.noteAll {} lines = some headers)
    (hopened : r.opened s.charged headers (r.marker.length + 2 + (headerBytes lines).length) =
      .error e) :
    ∃ t, r.step true s = .fail e t := by
  rw [step_of_marker hs hbuffer, readDelimiter_crlf hbuffer, readHeaders_lines hlines, hheaders]
  exact openPart_of_opened_error hopened

theorem step_headers_notText (hheaders : Headers.noteAll {} lines = none) :
    r.step true s = .fail .invalidHeaderText s := by
  rw [step_of_marker hs hbuffer, readDelimiter_crlf hbuffer, readHeaders_lines hlines, hheaders]

end Headers

/-- A stream inside a part goes on behind its payload, or the payload is refused. -/
theorem advance_payload {p : OpenPart} (hlf : Bytes.lf ∉ r.marker) (hclear : Clear r.marker payload)
    (hrest : Opens r.marker rest) (hs : s.phase = .inside p)
    (hbuffer : s.buffer = payload ++ Bytes.crlf ++ rest) :
    match p.append r.limits s.total payload with
    | .error e => (r.advance true s).1 = .error e
    | .ok (q, total) =>
        r.advance true s = after [q.close] (r.advance true ⟨.between, s.parts, total, rest⟩) := by
  have hfind : findDelimiter r.marker false s.buffer = some (payload.length + 2) := by
    rw [hbuffer]
    exact findDelimiter_payload hlf hclear hrest
  have htake : s.buffer.take (payload.length + 2 - 2) = payload := by
    rw [hbuffer, Nat.add_sub_cancel, List.append_assoc, List.take_left]
  have hdrop : s.buffer.drop (payload.length + 2) = rest := by
    rw [hbuffer, show payload.length + 2 = (payload ++ Bytes.crlf).length by simp [Bytes.crlf],
      List.drop_left]
  have hstep : r.step true s = r.readInside true s p := step_inside hs
  cases happ : p.append r.limits s.total payload with
  | error e =>
    obtain ⟨t, ht⟩ := readInside_close_error true hfind (htake.symm ▸ happ)
    exact congrArg Prod.fst (advance_of_fail (hstep.trans ht))
  | ok x =>
    have hclose := readInside_close true hfind (htake.symm ▸ happ)
    dsimp only
    rw [advance_of_more (hstep.trans hclose), Stream.drop, hdrop]
    rfl

/-- A stream at the front of a block goes on behind it, or the block is refused. -/
theorem advance_block (hlf : Bytes.lf ∉ r.marker) (hb : b.Wf r.marker) (hrest : Opens r.marker rest)
    (hs : s.phase = .between) (hbuffer : s.buffer = b.bytes r.marker ++ rest) :
    match r.readBlock s.charged b with
    | .error e => (r.advance true s).1 = .error e
    | .ok (part, c) => r.advance true s =
        after [part] (r.advance true ⟨.between, c.parts, c.total, rest⟩) := by
  have hfront : s.buffer =
      r.marker ++ (Bytes.crlf ++ (headerBytes b.lines ++ (b.payload ++ Bytes.crlf ++ rest))) := by
    rw [hbuffer, Block.bytes]
    simp only [List.append_assoc]
  rw [readBlock]
  cases hheaders : Headers.noteAll {} b.lines with
  | none =>
    have hstep := step_headers_notText hs hb.lines hfront hheaders
    exact congrArg Prod.fst (advance_of_fail hstep)
  | some headers =>
    dsimp only
    cases hopened : r.opened s.charged headers
        (r.marker.length + 2 + (headerBytes b.lines).length) with
    | error e =>
      obtain ⟨t, ht⟩ := step_headers_error hs hb.lines hfront hheaders hopened
      exact congrArg Prod.fst (advance_of_fail ht)
    | ok x =>
      rcases x with ⟨p, c⟩
      rw [advance_of_more (step_headers hs hb.lines hfront hheaders hopened), Option.toList_none,
        after_nil]
      have hpayload := advance_payload (s := ⟨.inside p, c.parts, c.total, _⟩) hlf hb.payload
        hrest rfl rfl
      dsimp only at hpayload ⊢
      cases happ : p.append r.limits c.total b.payload with
      | error e => rw [happ] at hpayload; exact hpayload
      | ok y => rw [happ] at hpayload; exact hpayload

/-- The closing delimiter ends a stream, whatever stands behind it. -/
theorem advance_closing (hs : s.phase = .between)
    (hbuffer : s.buffer = r.marker ++ (Bytes.dashes ++ rest)) :
    ∃ t, r.advance true s = (.ok [], t) := by
  obtain ⟨size, hsize⟩ := readDelimiter_dashes true hbuffer
  have hstep : r.step true s = r.readDelimiter true s := step_of_marker hs hbuffer
  exact ⟨_, advance_of_stop (hstep.trans hsize)⟩

/-- **Blocks are read one after the other, whatever stands behind them.** -/
theorem advance_layout (hlf : Bytes.lf ∉ r.marker) (hblocks : ∀ b ∈ blocks, b.Wf r.marker)
    (hs : s.phase = .between) (hbuffer : s.buffer = layout r.marker blocks ++ rest) :
    (r.advance true s).1 = (r.readBlocks s.charged blocks).map Prod.fst := by
  induction blocks generalizing s with
  | nil =>
    have hclosing : s.buffer = r.marker ++ (Bytes.dashes ++ rest) := by
      rw [hbuffer]; simp [layout]
    obtain ⟨t, ht⟩ := advance_closing hs hclosing
    rw [ht]
    rfl
  | cons b blocks ih =>
    rw [layout_cons, List.append_assoc] at hbuffer
    have hblock := advance_block hlf (hblocks b (by simp)) (opens_layout blocks rest) hs hbuffer
    rw [readBlocks]
    cases hb : r.readBlock s.charged b with
    | error e => rw [hb] at hblock; exact hblock
    | ok x =>
      rcases x with ⟨part, c⟩
      rw [hb] at hblock
      dsimp only at hblock ⊢
      rw [hblock, after, ih (fun b hb => hblocks b (by simp [hb])) rfl rfl]
      simp only [Stream.charged]
      cases r.readBlocks c blocks with
      | error e => rfl
      | ok y => rfl

/-! ## What is read is laid out -/

/-- A delimiter line that is read past has a block behind it. -/
theorem exists_block_of_advance (hlf : Bytes.lf ∉ r.marker) (hs : s.phase = .between) {x : Bytes}
    (hbuffer : s.buffer = r.marker ++ (Bytes.crlf ++ x)) (h : r.advance true s = (.ok parts, t)) :
    ∃ b rest, s.buffer = Block.bytes r.marker b ++ rest ∧ b.Wf r.marker ∧ Opens r.marker rest := by
  have hstep : r.step true s = r.readDelimiter true s := step_of_marker hs hbuffer
  rw [readDelimiter_crlf hbuffer] at hstep
  cases hread : readHeaders x with
  | notText =>
    rw [hread] at hstep
    rw [advance_of_fail hstep] at h
    cases h
  | incomplete =>
    rw [hread] at hstep
    rw [advance_of_fail hstep] at h
    cases h
  | complete headers size =>
    obtain ⟨lines, y, hlines, rfl, hheaders, rfl⟩ := exists_lines_of_readHeaders hread
    cases hopened : r.opened s.charged headers
        (r.marker.length + 2 + (headerBytes lines).length) with
    | error e =>
      obtain ⟨u, hu⟩ := step_headers_error hs hlines hbuffer hheaders hopened
      rw [advance_of_fail hu] at h
      cases h
    | ok x =>
      rcases x with ⟨q, c⟩
      rw [advance_of_more (step_headers hs hlines hbuffer hheaders hopened), Option.toList_none,
        after_nil] at h
      cases hfind : findDelimiter r.marker false y with
      | none =>
        rw [advance_of_fail ((step_inside rfl).trans (readInside_end hfind))] at h
        cases h
      | some n =>
        obtain ⟨payload, rest, rfl, hclear, hopens, -⟩ := clear_of_findDelimiter hlf hfind
        refine ⟨⟨lines, payload⟩, rest, ?_, ⟨hlines, hclear⟩, hopens⟩
        rw [hbuffer, Block.bytes]
        simp only [List.append_assoc]

/-- **Where a delimiter stands and the body is read, there is a layout.** -/
theorem exists_layout_of_advance (hlf : Bytes.lf ∉ r.marker) (hs : s.phase = .between)
    (hopens : Opens r.marker s.buffer) (h : r.advance true s = (.ok parts, t)) :
    ∃ blocks rest, s.buffer = layout r.marker blocks ++ rest ∧ ∀ b ∈ blocks, b.Wf r.marker := by
  induction hlen : s.buffer.length using Nat.strongRecOn generalizing s parts with
  | ind k ih =>
    rcases hopens with ⟨x, hx⟩ | ⟨x, hx⟩
    · rw [List.append_assoc] at hx
      obtain ⟨b, rest, hbuffer, hb, hrest⟩ := exists_block_of_advance hlf hs hx.symm h
      have hblock := advance_block hlf hb hrest hs hbuffer
      cases hr : r.readBlock s.charged b with
      | error e =>
        rw [hr, h] at hblock
        cases hblock
      | ok y =>
        rw [hr] at hblock
        dsimp only at hblock
        rw [hblock] at h
        rcases hv : r.advance true ⟨.between, y.2.parts, y.2.total, rest⟩ with ⟨_ | qs, v⟩
        · rw [hv] at h; cases h
        · rw [hv] at h
          cases h
          have hshort : rest.length < k := by
            rw [← hlen, hbuffer]
            simp [Block.bytes, Bytes.crlf]
            omega
          obtain ⟨blocks, rest', hblocks, hwf⟩ := ih rest.length hshort rfl hrest hv rfl
          refine ⟨b :: blocks, rest', ?_, ?_⟩
          · rw [hbuffer, layout_cons, List.append_assoc]
            exact congrArg _ hblocks
          · rintro b' (_ | ⟨_, hb'⟩)
            exacts [hb, hwf b' hb']
    · exact ⟨[], x, by rw [← hx]; simp [layout], by simp⟩

/-- Header lines that open a part say what the part is. -/
theorem holds_of_opened {lines : List Bytes} {headers : Headers} {q : OpenPart}
    (hlines : ∀ line ∈ lines, IsLine line) (hheaders : Headers.noteAll {} lines = some headers)
    (hopened : r.opened c headers n = .ok (q, c')) : (⟨lines, []⟩ : Block).Holds q.close := by
  obtain ⟨-, -, -, v, d, hv, hd, rfl⟩ := opened_eq_ok_iff.1 hopened
  have hread := readHeaders_lines hlines []
  rw [List.append_nil, hheaders] at hread
  exact ⟨rfl, headers, v, hread, hv, hd, rfl⟩

theorem holds_of_readBlock (hb : b.Wf r.marker) (h : r.readBlock c b = .ok (p, c')) :
    b.Holds p := by
  rw [readBlock] at h
  cases hheaders : Headers.noteAll {} b.lines with
  | none => rw [hheaders] at h; cases h
  | some headers =>
    rw [hheaders] at h
    dsimp only at h
    cases hopened : r.opened c headers (r.marker.length + 2 + (headerBytes b.lines).length) with
    | error e => rw [hopened] at h; cases h
    | ok x =>
      rcases x with ⟨q, c₁⟩
      rw [hopened] at h
      dsimp only at h
      cases happ : q.append r.limits c₁.total b.payload with
      | error e => rw [happ] at h; cases h
      | ok y =>
        rw [happ] at h
        cases h
        exact (holds_of_opened hb.lines hheaders hopened).fill happ

theorem holds_of_readBlocks (hblocks : ∀ b ∈ blocks, b.Wf r.marker)
    (h : r.readBlocks c blocks = .ok (parts, c')) :
    List.Forall₂ (fun b p => Block.Wf r.marker b ∧ b.Holds p) blocks parts := by
  induction blocks generalizing c parts with
  | nil =>
    cases h
    exact .nil
  | cons b blocks ih =>
    have hb := hblocks b (by simp)
    rw [readBlocks] at h
    cases hr : r.readBlock c b with
    | error e => rw [hr] at h; cases h
    | ok x =>
      rcases x with ⟨p, c₁⟩
      rw [hr] at h
      dsimp only at h
      cases hrest : r.readBlocks c₁ blocks with
      | error e => rw [hrest] at h; cases h
      | ok y =>
        rcases y with ⟨ps, c₂⟩
        rw [hrest] at h
        cases h
        exact .cons ⟨hb, holds_of_readBlock hb hr⟩ (ih (fun b hb => hblocks b (by simp [hb])) hrest)

/-! ## Whole bodies -/

/-- **A body that is laid out is read block by block**, whatever stands behind the
    closing delimiter. -/
theorem readAll_layout (hlf : Bytes.lf ∉ r.marker) {preamble : Bytes}
    (hblocks : ∀ b ∈ blocks, b.Wf r.marker)
    (hstart : findDelimiter r.marker true (preamble ++ layout r.marker blocks) =
      some preamble.length)
    (rest : Bytes) :
    r.readAll (preamble ++ layout r.marker blocks ++ rest) =
      (r.readBlocks {} blocks).map Prod.fst := by
  rw [readAll, advance_preamble_some rfl (findDelimiter_append hlf hstart rest)]
  have hbuffer : (preamble ++ layout r.marker blocks ++ rest).drop preamble.length =
      layout r.marker blocks ++ rest := by
    rw [List.append_assoc, List.drop_left]
  exact advance_layout hlf hblocks rfl hbuffer

/-- **Every body that is read is laid out**: behind a preamble without delimiter it
    holds a block for every part, and what stands behind the closing delimiter does
    not matter. -/
theorem exists_layout_of_readAll {body : Bytes} (hr : r.OneLine) (h : r.readAll body = .ok parts) :
    ∃ preamble blocks epilogue,
      body = preamble ++ layout r.marker blocks ++ epilogue ∧
      (preamble = [] ∨ Bytes.crlf <:+ preamble) ∧
      DelimiterAt r.marker true body preamble.length ∧
      (∀ n < preamble.length, ¬ DelimiterAt r.marker true body n) ∧
      List.Forall₂ (fun b p => Block.Wf r.marker b ∧ b.Holds p) blocks parts ∧
      ∀ other, r.readAll (preamble ++ layout r.marker blocks ++ other) = .ok parts := by
  have hlf := hr.unbroken.lf
  cases hfind : findDelimiter r.marker true body with
  | none =>
    rw [readAll, advance_preamble_none rfl hfind] at h
    cases h
  | some n =>
    obtain ⟨hat, hleast⟩ := (findDelimiter_eq_some_iff hlf).1 hfind
    rw [readAll, advance_preamble_some rfl hfind] at h
    obtain ⟨blocks, epilogue, hbuffer, hwf⟩ :=
      exists_layout_of_advance hlf rfl hat.opens (Prod.ext h rfl)
    obtain ⟨preamble, hbody, rfl⟩ :
        ∃ preamble, body = preamble ++ layout r.marker blocks ++ epilogue ∧
          n = preamble.length := by
      refine ⟨body.take n, ?_, ?_⟩
      · rw [List.append_assoc, ← hbuffer]
        exact (List.take_append_drop n body).symm
      · rw [List.length_take, Nat.min_eq_left (findDelimiter_lt hfind).le]
    -- the delimiter found ends in front of the epilogue
    have hstart : findDelimiter r.marker true (preamble ++ layout r.marker blocks) =
        some preamble.length := by
      have hopens : Opens r.marker (layout r.marker blocks ++ []) := opens_layout blocks []
      have := hopens.length_le
      rw [List.append_nil] at this
      refine findDelimiter_of_append hlf (hbody ▸ hfind) ?_
      rw [List.length_append]
      omega
    have hread := readAll_layout hlf hwf hstart
    obtain ⟨c, hblocks⟩ : ∃ c, r.readBlocks {} blocks = .ok (parts, c) := by
      have hparts := hread epilogue
      rw [← hbody, readAll, advance_preamble_some rfl hfind, h] at hparts
      cases hb : r.readBlocks {} blocks with
      | error e => rw [hb] at hparts; cases hparts
      | ok x => rw [hb] at hparts; cases hparts; exact ⟨_, rfl⟩
    refine ⟨preamble, blocks, epilogue, hbody, ?_, hat, hleast, holds_of_readBlocks hwf hblocks, ?_⟩
    · rcases hat.lineStart with ⟨-, hnil⟩ | hcrlf
      · exact Or.inl (List.length_eq_zero_iff.1 hnil)
      · rw [hbody, List.append_assoc, List.take_left] at hcrlf
        exact Or.inr hcrlf
    · intro other
      rw [hread other, hblocks]
      rfl

/-- A body with a preamble, a part that looks like a delimiter, and an epilogue. -/
theorem exists_layout_of_preamble :
    let r : Reader := ⟨"b", {}⟩
    let body : Bytes := Bytes.ofText
      "x\r\n--b\r\nContent-Disposition: form-data; name=\"a\"\r\n\r\n--b--\r\n--b--y"
    r.OneLine ∧ ∃ preamble blocks epilogue,
      body = preamble ++ layout r.marker blocks ++ epilogue ∧ preamble.length = 3 ∧
      ∀ other, r.readAll (preamble ++ layout r.marker blocks ++ other) =
        .ok [⟨"a", none, none, Bytes.ofText "--b--"⟩] := by
  intro r body
  have hr : r.OneLine := ⟨by decide, by decide⟩
  have hread : r.readAll body = .ok [⟨"a", none, none, Bytes.ofText "--b--"⟩] := by decide +kernel
  obtain ⟨preamble, blocks, epilogue, hbody, -, hat, hleast, -, hother⟩ :=
    exists_layout_of_readAll hr hread
  refine ⟨hr, preamble, blocks, epilogue, hbody, ?_, hother⟩
  have hfind := (findDelimiter_eq_some_iff hr.unbroken.lf).2 ⟨hat, hleast⟩
  exact (Option.some.inj (hfind.symm.trans (by decide +kernel : _ = some 3)))

end Reader

end FormIntake.Multipart
