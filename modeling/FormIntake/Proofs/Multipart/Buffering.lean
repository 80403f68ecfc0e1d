/-
  FormIntake — what is held back between calls.

  A stream that has stopped holds back the front of a delimiter or an unfinished
  header block, and no more (`Settled`).  So the buffer is bounded whatever arrives,
  and so is the payload that has arrived for the open part (`run_bounded`).  A header
  block that grows beyond its bound is refused in the call in which it does
  (`advance_of_unfinished`).

  What has arrived may still be longer than every limit: bytes in front of the first
  delimiter are dropped and charged to nobody.  Of a body that begins with a delimiter
  no more arrives than the limits allow (`length_arrived_le`); a body that has none
  may go on for ever (`run_of_hyphenless`).
-/
import FormIntake.Proofs.Multipart.Ledger

namespace FormIntake.Multipart

/-- A delimiter line and header lines, without the empty line after them. -/
def Unfinished (marker buffer : Bytes) : Prop :=
  ∃ x, buffer = marker ++ (Bytes.crlf ++ x) ∧
    ∀ lines rest, (∀ line ∈ lines, IsLine line) → x ≠ headerBytes lines ++ rest

namespace Reader

/-- What a stream that has stopped holds back. -/
inductive Settled (r : Reader) (s : Stream) : Prop
  | preamble : s.phase = .preamble → s.buffer.length ≤ r.keep → r.Settled s
  | headers : s.phase = .between → Unfinished r.marker s.buffer →
      s.buffer.length ≤ maxHeaderBytes → r.Settled s
  | inside {p} : s.phase = .inside p → s.buffer.length ≤ r.keep → r.Settled s
  | closed : s.phase = .closed → r.Settled s

variable {r : Reader} {s t u : Stream} {calls : List Call} {done parts : List Part} {c : Call}
  {l : Ledger} {x b : Bytes} {atEnd : Bool}

theorem length_drop_spare (s : Stream) : (s.buffer.drop (r.spare s)).length ≤ r.keep := by
  rw [List.length_drop, spare]
  omega

theorem unfinished_of_incomplete (hbuffer : s.buffer = r.marker ++ (Bytes.crlf ++ x))
    (hread : readHeaders x = .incomplete) : Unfinished r.marker s.buffer := by
  refine ⟨x, hbuffer, ?_⟩
  rintro lines rest hlines rfl
  rw [readHeaders_lines hlines] at hread
  split at hread <;> cases hread

/-- A stream that stops between two parts waits for header lines: the delimiter it
    has come to is there as a whole. -/
theorem settled_of_halts (hl : l.Accounts r b done s) (h : r.Halts atEnd s t) : r.Settled t := by
  cases h with
  | preamble _ hs => exact .preamble hs (length_drop_spare s)
  | between _ hs hmarker => exact absurd (hl.between hs).marker_isPrefix hmarker
  | delimiter _ hs hbuffer hlen =>
    have hopens := (hl.between hs).length_le
    rw [hbuffer, List.length_append] at hopens
    omega
  | headers _ hs hbuffer hread hcheck =>
    exact .headers hs (unfinished_of_incomplete hbuffer hread)
      (checkHeaderBlock_eq_ok_iff.1 hcheck).1
  | inside => exact .inside rfl (length_drop_spare s)
  | finish => exact .closed rfl
  | closed hs => exact .closed hs

/-- Between calls the bytes are accounted for, and what is held back is bounded. -/
theorem exists_settled_of_run (h : r.run {} calls = (.ok done, t)) :
    ∃ l : Ledger, l.Accounts r (arrived calls) done t ∧ r.Settled t := by
  have hstart : ∃ l : Ledger, l.Accounts r [] [] {} ∧ r.Settled {} :=
    ⟨_, .start, .preamble rfl (Nat.zero_le _)⟩
  refine run_invariant (fun b done s => ∃ l : Ledger, l.Accounts r b done s)
    (fun b done s => ∃ l : Ledger, l.Accounts r b done s ∧ r.Settled s) ?_ ?_ ?_ h hstart
  · rintro b done s chunk ⟨l, hl, -⟩
    exact ⟨l, hl.push chunk⟩
  · rintro b done s part t ⟨l, hl⟩ hmoves
    exact hl.exists_of_moves hmoves
  · rintro atEnd b done s t ⟨l, hl⟩ hhalts
    obtain ⟨l', hl'⟩ := hl.exists_of_halts hhalts
    exact ⟨l', hl', settled_of_halts hl hhalts⟩

/-! ## Bounds -/

theorem Settled.length_le_keep (h : r.Settled s) (hclosed : s.phase ≠ .closed)
    (hbetween : s.phase ≠ .between) : s.buffer.length ≤ r.keep := by
  cases h with
  | preamble _ hle => exact hle
  | headers hs => exact absurd hs hbetween
  | inside _ hle => exact hle
  | closed hs => exact absurd hs hclosed

theorem Settled.length_le (h : r.Settled s) (hclosed : s.phase ≠ .closed) :
    s.buffer.length ≤ max r.keep maxHeaderBytes := by
  by_cases hbetween : s.phase = .between
  · cases h with
    | headers _ _ hle => exact hle.trans (Nat.le_max_right ..)
    | preamble hs | inside hs | closed hs => rw [hbetween] at hs; cases hs
  · exact (h.length_le_keep hclosed hbetween).trans (Nat.le_max_left ..)

/-- The payload that has arrived for the open part stands behind its header block. -/
theorem exists_payload_of_inside (hl : l.Accounts r b done s) {p : OpenPart}
    (hs : s.phase = .inside p) :
    ∃ front block, b = front ++ Block.head r.marker block ++ (p.data ++ s.buffer) ∧
      block.Holds p.close := by
  obtain ⟨block, hcurrent, hblock⟩ := hl.current_of_inside hs
  refine ⟨l.skipped ++ l.closed.flatMap (·.bytes r.marker), block, ?_, hblock⟩
  have hdata : p.data = block.payload := hblock.data
  rw [hl.arrived_eq, Ledger.bytes, hcurrent, hl.ending (by simp [hs]), hdata]
  simp

/-- **An unfinished header block beyond its bound is refused** in the call in which a
    step comes to it. -/
theorem advance_of_unfinished (hreach : r.Reaches atEnd s parts u) (hu : u.phase = .between)
    (hunfinished : Unfinished r.marker u.buffer) (hlong : maxHeaderBytes < u.buffer.length) :
    ∃ e, (r.advance atEnd s).1 = .error e ∧
      (atEnd = false → e = .invalidHeaderText ∨
        e = .headersTooLarge u.buffer.length maxHeaderBytes) := by
  obtain ⟨x, hbuffer, hno⟩ := hunfinished
  have hcheck : r.checkHeaderBlock u.total u.buffer.length =
      .error (.headersTooLarge u.buffer.length maxHeaderBytes) := by
    rw [checkHeaderBlock, if_pos hlong]
  have hstep : r.step atEnd u = r.readDelimiter atEnd u := step_of_marker hu hbuffer
  rw [readDelimiter_crlf hbuffer] at hstep
  rw [advance_of_reaches hreach, after]
  cases hread : readHeaders x with
  | complete headers size =>
    obtain ⟨lines, rest, hlines, hx, -⟩ := exists_lines_of_readHeaders hread
    exact absurd hx (hno lines rest hlines)
  | notText =>
    rw [hread] at hstep
    exact ⟨_, by rw [advance_of_fail hstep]; rfl, fun _ => Or.inl rfl⟩
  | incomplete =>
    rw [hread] at hstep
    dsimp only at hstep
    split at hstep
    · next hend =>
      exact ⟨_, by rw [advance_of_fail hstep]; rfl, fun hopen => absurd hopen (by simp [hend])⟩
    · rw [hcheck] at hstep
      exact ⟨_, by rw [advance_of_fail hstep]; rfl, fun _ => Or.inr rfl⟩

/-- The payload that has arrived for a part is its bound and the front of a delimiter
    at most. -/
theorem length_payload_le (hall : r.AllAdmitted done s) (hsettled : r.Settled s) {p : OpenPart}
    (hs : s.phase = .inside p)
    (hsmall : partLimit r.limits p.filename < Size.largest ∨ p.data.length ≤ Size.largest) :
    (p.data ++ s.buffer).length ≤ partLimit r.limits p.filename + r.keep := by
  have hbuffer := hsettled.length_le_keep (by simp [hs]) (by simp [hs])
  have hdata : min p.data.length Size.largest ≤ partLimit r.limits p.filename :=
    (hall.2 p hs).part.size_le
  rw [List.length_append]
  omega

/-- **What is held back between calls is bounded, whatever arrives**: the front of a
    delimiter in the preamble and inside a part, an unfinished header block between two
    parts.  So the payload that has arrived for the open part, consumed or not, is
    beyond its bound by no more than `keep`; and a header block that is not finished
    when it is beyond its own bound makes the call fail in which that is so. -/
theorem run_bounded (h : r.run {} calls = (.ok done, t)) :
    (t.phase ≠ .closed → t.buffer.length ≤ max r.keep maxHeaderBytes) ∧
    (t.phase = .preamble ∨ (∃ p, t.phase = .inside p) → t.buffer.length ≤ r.keep) ∧
    (t.phase = .between →
      Unfinished r.marker t.buffer ∧ t.buffer.length ≤ maxHeaderBytes) ∧
    (∀ p, t.phase = .inside p → ∃ front block,
      arrived calls = front ++ Block.head r.marker block ++ (p.data ++ t.buffer) ∧
      block.Holds p.close ∧
      (partLimit r.limits p.filename < Size.largest ∨ p.data.length ≤ Size.largest →
        (p.data ++ t.buffer).length ≤ partLimit r.limits p.filename + r.keep)) ∧
    ∀ (c : Call) parts u, r.Reaches c.atEnd (t.push c.chunk) parts u → u.phase = .between →
      Unfinished r.marker u.buffer → maxHeaderBytes < u.buffer.length →
      ∃ e, (r.advance c.atEnd (t.push c.chunk)).1 = .error e ∧
        (c.atEnd = false → e = .invalidHeaderText ∨
          e = .headersTooLarge u.buffer.length maxHeaderBytes) := by
  obtain ⟨l, hl, hsettled⟩ := exists_settled_of_run h
  refine ⟨hsettled.length_le, ?_, ?_, ?_, ?_⟩
  · rintro (hs | ⟨p, hs⟩)
    all_goals exact hsettled.length_le_keep (by simp [hs]) (by simp [hs])
  · intro hs
    cases hsettled with
    | headers _ hunfinished hle => exact ⟨hunfinished, hle⟩
    | preamble hs' | inside hs' | closed hs' => rw [hs] at hs'; cases hs'
  · intro p hs
    obtain ⟨front, block, hpayload, hblock⟩ := exists_payload_of_inside hl hs
    exact ⟨front, block, hpayload, hblock, length_payload_le (allAdmitted_of_run h) hsettled hs⟩
  · intro c parts u hreach hu hunfinished hlong
    exact advance_of_unfinished hreach hu hunfinished hlong

/-- Inside a part the end of what has arrived is held back: it may be the front of a
    delimiter. -/
theorem run_bounded_inside :
    let r : Reader := ⟨"b", {}⟩
    let calls : List Call := [
      ⟨Bytes.ofText "--b\r\nContent-Disposition: form-data; name=\"a\"\r\n\r\n", false⟩,
      ⟨Bytes.ofText "0123456789\r\n--", false⟩]
    ∃ p t, r.run {} calls = (.ok [], t) ∧ t.phase = .inside p ∧
      (p.data ++ t.buffer).length ≤ partLimit r.limits p.filename + r.keep ∧
      t.buffer = Bytes.ofText "789\r\n--" := by
  intro r calls
  have hrun : (r.run {} calls).1 = .ok [] := by decide +kernel
  have hopen : (r.run {} calls).2.openPart?.isSome = true := by decide +kernel
  have hbuffer : (r.run {} calls).2.buffer = Bytes.ofText "789\r\n--" := by decide +kernel
  generalize hrest : r.run {} calls = x at hrun hopen hbuffer
  obtain ⟨result, t⟩ := x
  cases hrun
  obtain ⟨p, hp⟩ : ∃ p, t.phase = .inside p := by
    unfold Stream.openPart? at hopen
    split at hopen
    · next p hp => exact ⟨p, hp⟩
    · cases hopen
  obtain ⟨-, -, -, hinside, -⟩ := run_bounded hrest
  obtain ⟨-, -, -, -, hle⟩ := hinside p hp
  have hlimit : partLimit r.limits p.filename < Size.largest := by
    unfold partLimit
    split <;> decide
  exact ⟨p, t, rfl, hp, hle (Or.inl hlimit), hbuffer⟩

/-! ## What has arrived -/

/-- **What arrives beyond the limits is what stands in front of the first delimiter.** -/
theorem length_arrived_le (hl : l.Accounts r b done s) (hsettled : r.Settled s)
    (hopen : s.phase ≠ .closed)
    (hsmall : r.limits.request < Size.largest ∨ b.length ≤ Size.largest) :
    b.length ≤ l.skipped.length +
      (r.limits.request + 2 * r.limits.parts + max r.keep maxHeaderBytes) := by
  have hle := hl.charge_le_largest hsmall
  have hcharge : l.charge r.marker ≤ r.limits.request := hl.total_eq_charge hle ▸ hl.total_le
  have hparts := hl.length_blocks_le_parts hle
  have hbuffer := hsettled.length_le hopen
  rw [Ledger.blocks, List.length_append] at hparts
  rw [hl.arrived_eq, List.length_append, Ledger.length_bytes, hl.ending hopen, List.length_nil]
  omega

/-- Without a hyphen there is no delimiter. -/
theorem findDelimiter_of_hyphenless {atStart : Bool} {buffer : Bytes} (h : 45 ∉ buffer) :
    findDelimiter r.marker atStart buffer = none := by
  cases hfind : findDelimiter r.marker atStart buffer with
  | none => rfl
  | some n =>
    have hdashes := dashes_isPrefix (delimiterAt_of_findDelimiter hfind).opens
    have hmem : (45 : UInt8) ∈ buffer.drop n := hdashes.subset (by decide)
    exact absurd (List.mem_of_mem_drop hmem) h

/-- **Bytes without a hyphen are skipped for ever**, and charged to nobody. -/
theorem run_of_hyphenless {chunks : List Bytes} (hs : s.phase = .preamble) (hbuffer : 45 ∉ s.buffer)
    (hchunks : ∀ chunk ∈ chunks, (45 : UInt8) ∉ chunk) :
    ∃ t, r.run s (chunks.map (⟨·, false⟩)) = (.ok [], t) ∧ t.phase = .preamble ∧
      t.total = s.total := by
  induction chunks generalizing s with
  | nil => exact ⟨s, rfl, hs, rfl⟩
  | cons chunk chunks ih =>
    have hpush : 45 ∉ (s.push chunk).buffer := by
      rw [Stream.push, List.mem_append, not_or]
      exact ⟨hbuffer, hchunks chunk (by simp)⟩
    have hadv : r.advance false (s.push chunk) =
        (.ok [], (s.push chunk).drop (r.spare (s.push chunk))) :=
      advance_preamble_none hs (findDelimiter_of_hyphenless hpush)
    obtain ⟨t, ht, hphase, htotal⟩ := ih (s := (s.push chunk).drop (r.spare (s.push chunk))) hs
      (fun hmem => hpush (List.mem_of_mem_drop hmem)) (fun c hc => hchunks c (by simp [hc]))
    refine ⟨t, ?_, hphase, htotal⟩
    rw [List.map_cons, run_of_ok (c := ⟨chunk, false⟩) hadv, ht, after_nil]

/-- **The limits bound what arrives behind the first delimiter**, and only that.  As
    long as no call has failed and the body goes on, no more has arrived than the
    limits allow and stands in front of the first delimiter; that is nothing if the
    body begins with one.  What stands there may be of any length. -/
theorem arrived_bounded (hr : r.OneLine) :
    (∀ calls done t, r.run {} calls = (.ok done, t) → t.phase ≠ .closed →
      ∃ l : Ledger, arrived calls = l.bytes r.marker ++ t.buffer ∧
        List.Forall₂ Block.Holds l.blocks (done ++ t.inFlight.toList) ∧
        (Begins r.marker (arrived calls) → l.skipped = []) ∧
        (r.limits.request < Size.largest ∨ (arrived calls).length ≤ Size.largest →
          (arrived calls).length ≤ l.skipped.length +
            (r.limits.request + 2 * r.limits.parts + max r.keep maxHeaderBytes))) ∧
    ∀ chunks : List Bytes, (∀ chunk ∈ chunks, (45 : UInt8) ∉ chunk) →
      ∃ t, r.run {} (chunks.map (⟨·, false⟩)) = (.ok [], t) ∧ t.phase = .preamble ∧
        t.total = 0 := by
  constructor
  · intro calls done t h hopen
    obtain ⟨l, hl, hsettled⟩ := exists_settled_of_run h
    exact ⟨l, hl.arrived_eq, hl.forall₂_holds, hl.skipped hr.unbroken.lf,
      length_arrived_le hl hsettled hopen⟩
  · intro chunks hchunks
    exact run_of_hyphenless rfl (by simp) hchunks

/-- A body that begins with a delimiter, within the limits. -/
theorem arrived_bounded_begins :
    let r : Reader := ⟨"b", { field := 64, attachment := 64, request := 64, parts := 1 }⟩
    let calls : List Call := [
      ⟨Bytes.ofText "--b\r\nContent-Disposition: form-data; name=\"a\"\r\n\r\n", false⟩,
      ⟨Bytes.ofText "0123456789", false⟩]
    r.OneLine ∧ Begins r.marker (arrived calls) ∧ (r.run {} calls).1 = .ok [] ∧
      (arrived calls).length ≤ 64 + 2 * 1 + max r.keep maxHeaderBytes := by
  intro r calls
  have hr : r.OneLine := ⟨by decide, by decide⟩
  have hbegins : Begins r.marker (arrived calls) := Opens.begins (Or.inl (by decide +kernel))
  have hrun : (r.run {} calls).1 = .ok [] := by decide +kernel
  have hopen : (r.run {} calls).2.phase ≠ .closed := by decide +kernel
  refine ⟨hr, hbegins, hrun, ?_⟩
  obtain ⟨l, -, -, hskipped, hle⟩ :=
    (arrived_bounded hr).1 calls _ (r.run {} calls).2 (Prod.ext hrun rfl) hopen
  have hlength := hle (Or.inl (by decide))
  rwa [hskipped hbegins, List.length_nil, Nat.zero_add] at hlength

/-- Limits of four bytes and one part: nine thousand bytes arrive and no call fails. -/
theorem arrived_exceeds_limits :
    let r : Reader := ⟨"b", { field := 4, attachment := 4, request := 4, parts := 1 }⟩
    let calls : List Call := [⟨List.replicate 9000 120, false⟩]
    r.OneLine ∧ r.limits.check = .ok () ∧
      (∃ t, r.run {} calls = (.ok [], t) ∧ t.phase ≠ .closed) ∧
      r.limits.request + 2 * r.limits.parts + max r.keep maxHeaderBytes <
        (arrived calls).length := by
  intro r calls
  have hchunks : ∀ chunk ∈ [List.replicate 9000 (120 : UInt8)], 45 ∉ chunk := by
    intro chunk hchunk hmem
    rw [List.mem_singleton.1 hchunk] at hmem
    exact absurd (List.eq_of_mem_replicate hmem) (by decide)
  refine ⟨⟨by decide, by decide⟩, rfl, ?_, ?_⟩
  · obtain ⟨t, ht, hphase, -⟩ := run_of_hyphenless (r := r) (s := {}) rfl (by simp) hchunks
    exact ⟨t, ht, by simp [hphase]⟩
  · have harrived : arrived calls = List.replicate 9000 120 := List.append_nil _
    have hkeep : r.keep = 7 := by decide +kernel
    rw [harrived, List.length_replicate, hkeep]
    decide

end Reader

end FormIntake.Multipart
