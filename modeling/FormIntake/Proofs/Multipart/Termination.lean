/-
  FormIntake — reading comes to an end.

  Whatever the marks of a stream and whatever has arrived, a round of reading cuts
  nowhere out of range, and one that goes on leaves fewer bytes (`exists_round?`).  So
  the rounds end (`exists_loop?`), and where the marks agree they return what the steps
  return (`loop?_loose`).

  In calls from nothing a stream that waits for a delimiter has one at the front of its
  buffer (`opens_of_reaches`).  So no call is refused for what follows a marker
  (`run_ne_unfinishedDelimiter`).
-/
import FormIntake.Proofs.Multipart.Disposition
import FormIntake.Proofs.Multipart.Ledger
import FormIntake.Proofs.Multipart.Rounds

namespace FormIntake.Multipart

namespace Reader

variable {r : Reader} {atEnd : Bool} {s t u : Stream} {n : Nat} {l : LooseStream}
  {parts done : List Part} {calls : List Call} {b : Bytes} {e : Error}

/-! ## Marks that contradict each other -/

/-- Behind the preamble and before the end there are no such marks. -/
theorem exists_loose_eq (hs : l.started = true) (hd : l.done = false) :
    ∃ s : Stream, s.phase ≠ .preamble ∧ s.phase ≠ .closed ∧ s.loose = l := by
  obtain ⟨started, done, current, parts, total, buffer⟩ := l
  cases hs
  cases hd
  cases current with
  | none => exact ⟨⟨.between, parts, total, buffer⟩, by simp, by simp, rfl⟩
  | some p => exact ⟨⟨.inside p, parts, total, buffer⟩, by simp, by simp, rfl⟩

theorem exists_goOn? (r : Reader) (atEnd : Bool) (hs : l.started = true) (hd : l.done = false) :
    ∃ o, r.goOn? atEnd l = some o ∧ o.Proper l := by
  obtain ⟨s, hp, hc, rfl⟩ := exists_loose_eq hs hd
  obtain ⟨u, hreach, hround⟩ := exists_goOn?_loose (r := r) atEnd hp hc
  obtain ⟨hu, hle⟩ := length_le_of_reaches hp hreach
  refine ⟨_, hround, ?_⟩
  cases hstep : r.step atEnd u with
  | more part t => exact lt_of_lt_of_le (length_lt_of_more hu hstep) hle
  | stop t => exact trivial
  | fail e t => exact nofun

/-- **Whatever the marks, a round cuts nowhere out of range**, it leaves fewer bytes if it
    goes on, and it misses no part. -/
theorem exists_round? (r : Reader) (atEnd : Bool) (l : LooseStream) :
    ∃ o, r.round? atEnd l = some o ∧ o.Proper l := by
  cases hd : l.done with
  | true => exact ⟨_, round?_done hd, trivial⟩
  | false =>
    cases hs : l.started with
    | true =>
      rw [round?_started hd hs]
      exact r.exists_goOn? atEnd hs hd
    | false =>
      cases hfind : findDelimiter r.marker true l.buffer with
      | none =>
        refine ⟨_, round?_missing hd hs hfind, ?_⟩
        cases atEnd with
        | true => exact nofun
        | false => exact trivial
      | some n =>
        obtain ⟨o, ho, hproper⟩ := r.exists_goOn? atEnd
          (l := { l with started := true, buffer := l.buffer.drop n }) rfl hd
        refine ⟨o, (round?_found hd hs hfind).trans ho, hproper.mono ?_⟩
        rw [List.length_drop]
        exact Nat.sub_le ..

theorem round?_lt {part : Option Part} {m : LooseStream}
    (h : r.round? atEnd l = some (.again part m)) : m.buffer.length < l.buffer.length := by
  obtain ⟨o, ho, hproper⟩ := r.exists_round? atEnd l
  rw [h] at ho
  cases ho
  exact hproper

/-! ## All rounds -/

/-- Make rounds until one returns; `done` are the parts closed before, the last one
    first. -/
def loop? (r : Reader) (atEnd : Bool) (done : List Part) (l : LooseStream) :
    Option (Except Fault (List Part) × LooseStream) :=
  match _h : r.round? atEnd l with
  | none => none
  | some (.again part m) => loop? r atEnd (part.toList ++ done) m
  | some (.stop m) => some (.ok done.reverse, m)
  | some (.fail f m) => some (.error f, m)
termination_by l.buffer.length
decreasing_by exact round?_lt _h

section

variable {done : List Part} {part : Option Part} {m : LooseStream} {f : Fault}

theorem loop?_of_again (h : r.round? atEnd l = some (.again part m)) :
    r.loop? atEnd done l = r.loop? atEnd (part.toList ++ done) m := by
  rw [loop?]
  split
  all_goals next heq => rw [h] at heq; cases heq <;> rfl

theorem loop?_of_stop (h : r.round? atEnd l = some (.stop m)) :
    r.loop? atEnd done l = some (.ok done.reverse, m) := by
  rw [loop?]
  split
  all_goals next heq => rw [h] at heq; cases heq <;> rfl

theorem loop?_of_fail (h : r.round? atEnd l = some (.fail f m)) :
    r.loop? atEnd done l = some (.error f, m) := by
  rw [loop?]
  split
  all_goals next heq => rw [h] at heq; cases heq <;> rfl

end

/-- **The rounds come to an end**, and none misses a part. -/
theorem exists_loop? (r : Reader) (atEnd : Bool) (done : List Part) (l : LooseStream) :
    ∃ result, r.loop? atEnd done l = some result ∧ result.1 ≠ .error .noPart := by
  induction hlen : l.buffer.length using Nat.strongRecOn generalizing done l with
  | ind k ih =>
    obtain ⟨o, ho, hproper⟩ := r.exists_round? atEnd l
    cases o with
    | again part m =>
      rw [loop?_of_again ho]
      exact ih _ (hlen ▸ hproper) _ m rfl
    | stop m => exact ⟨_, loop?_of_stop ho, nofun⟩
    | fail f m => exact ⟨_, loop?_of_fail ho, fun h => hproper (Except.error.inj h)⟩

/-- **The rounds return what the steps return.** -/
theorem loop?_loose (r : Reader) (atEnd : Bool) (done : List Part) (s : Stream) :
    r.loop? atEnd done s.loose = some (looseOutcome (r.advanceFrom atEnd done s)) := by
  induction hlen : s.buffer.length using Nat.strongRecOn generalizing done s with
  | ind k ih =>
    obtain ⟨u, hreach, hround⟩ := r.round?_loose atEnd s
    have hadvance : r.advanceFrom atEnd done s = r.advanceFrom atEnd done u := by
      rw [advanceFrom_eq, advanceFrom_eq, advance_of_reaches hreach, after_nil]
    rw [hadvance]
    cases hstep : r.step atEnd u with
    | more part t =>
      rw [hstep] at hround
      rw [loop?_of_again hround, advanceFrom_of_more hstep]
      exact ih _ (hlen ▸ round?_lt hround) _ t rfl
    | stop t =>
      rw [hstep] at hround
      rw [loop?_of_stop hround, advanceFrom_of_stop hstep]
      rfl
    | fail e t =>
      rw [hstep] at hround
      rw [loop?_of_fail hround, advanceFrom_of_fail hstep]
      rfl

/-! ## What a call fails for -/

theorem checkHeaderBlock_ne_unfinishedDelimiter {total : Nat} :
    r.checkHeaderBlock total n ≠ .error .unfinishedDelimiter := fun h =>
  absurd (exists_error_of_checkHeaderBlock_error h le_rfl).1 (by decide)

theorem append_ne_unfinishedDelimiter {p : OpenPart} {total : Nat} {payload : Bytes} :
    p.append r.limits total payload ≠ .error .unfinishedDelimiter := fun h =>
  absurd (OpenPart.exists_error_of_append_error h []).1 (by decide)

theorem opened_ne_unfinishedDelimiter {c : Charged} {headers : Headers} :
    r.opened c headers n ≠ .error .unfinishedDelimiter := by
  rw [opened]
  cases hcheck : r.checkHeaderBlock c.total n with
  | error e =>
    rintro ⟨⟩
    exact checkHeaderBlock_ne_unfinishedDelimiter hcheck
  | ok _ =>
    dsimp only
    split
    · rintro ⟨⟩
    split
    · rintro ⟨⟩
    · rw [readDisposition_eq]
      split
      · rintro ⟨⟩
      split <;> rintro ⟨⟩

/-- A delimiter at the front is not refused for what follows its marker. -/
theorem readDelimiter_ne_unfinishedDelimiter (h : Opens r.marker s.buffer) :
    r.readDelimiter atEnd s ≠ .fail .unfinishedDelimiter t := by
  obtain ⟨x, hx⟩ | ⟨x, hx⟩ := h
  · rw [List.append_assoc] at hx
    rw [readDelimiter_crlf hx.symm]
    split
    · next headers size _ =>
      cases ho : r.opened s.charged headers (r.marker.length + 2 + size) with
      | ok pc =>
        rw [openPart_of_opened_ok ho]
        rintro ⟨⟩
      | error e =>
        obtain ⟨u, hu⟩ := openPart_of_opened_error ho
        rw [hu]
        rintro ⟨⟩
        exact opened_ne_unfinishedDelimiter ho
    · rintro ⟨⟩
    split
    · rintro ⟨⟩
    split
    · next hcheck =>
      rintro ⟨⟩
      exact checkHeaderBlock_ne_unfinishedDelimiter hcheck
    · rintro ⟨⟩
  · rw [List.append_assoc] at hx
    rw [readDelimiter_closing atEnd hx.symm]
    rintro ⟨⟩

/-- No step is refused for what follows a marker, if a delimiter is at the front where
    one is waited for. -/
theorem step_ne_unfinishedDelimiter (h : s.phase = .between → Opens r.marker s.buffer) :
    r.step atEnd s ≠ .fail .unfinishedDelimiter t := by
  cases hs : s.phase with
  | preamble =>
    rw [step_preamble hs, skipPreamble]
    split
    · rintro ⟨⟩
    split <;> rintro ⟨⟩
  | between =>
    rw [step_between hs, readBetween_of_marker (h hs).marker_isPrefix]
    exact readDelimiter_ne_unfinishedDelimiter (h hs)
  | inside p =>
    rw [step_inside hs, readInside]
    split
    · split
      · next happ =>
        rintro ⟨⟩
        exact append_ne_unfinishedDelimiter happ
      · rintro ⟨⟩
    split
    · rintro ⟨⟩
    split
    · next happ =>
      rintro ⟨⟩
      exact append_ne_unfinishedDelimiter happ
    · rintro ⟨⟩
  | closed =>
    rw [step_closed hs]
    rintro ⟨⟩

/-! ## Calls from nothing -/

theorem waits_loose_iff : s.loose.Waits ↔ s.phase = .between := by
  constructor
  · intro h
    cases hs : s.phase with
    | between => rfl
    | preamble => rw [loose_preamble hs] at h; cases h.started
    | inside => rw [loose_inside hs] at h; cases h.current
    | closed => rw [loose_closed hs] at h; cases h.done
  · intro hs
    rw [loose_between hs]
    exact ⟨rfl, rfl, rfl⟩

theorem exists_ledger_of_reaches {ledger : Ledger} (hl : ledger.Accounts r b done s)
    (h : r.Reaches atEnd s parts u) :
    ∃ ledger' : Ledger, ledger'.Accounts r b (done ++ parts) u := by
  induction h generalizing ledger done with
  | refl => exact ⟨ledger, by rwa [List.append_nil]⟩
  | step hstep _ ih =>
    obtain ⟨ledger', hl'⟩ := hl.exists_of_moves (moves_of_step hstep)
    rw [← List.append_assoc]
    exact ih hl'

/-- **A stream that waits for a delimiter has one at its front**, at the end of a call and
    wherever the steps of the next one lead. -/
theorem opens_of_reaches (h : r.run {} calls = (.ok done, t)) (chunk : Bytes)
    (hreach : r.Reaches atEnd (t.push chunk) parts u) (hu : u.phase = .between) :
    Opens r.marker u.buffer := by
  obtain ⟨ledger, hl⟩ := exists_ledger_of_run h
  obtain ⟨ledger', hl'⟩ := exists_ledger_of_reaches (hl.push chunk) hreach
  exact hl'.between hu

/-- **No run of calls from nothing is refused for what follows a marker.** -/
theorem run_ne_unfinishedDelimiter (r : Reader) (calls : List Call) :
    (r.run {} calls).1 ≠ .error .unfinishedDelimiter := by
  intro h
  obtain ⟨before, c, done, t, hrun, hadv⟩ := exists_call_of_run_error (Prod.ext h rfl)
  obtain ⟨parts, u, hreach, hfail⟩ := exists_fail_of_advance_error hadv
  exact step_ne_unfinishedDelimiter (opens_of_reaches hrun c.chunk hreach) hfail

/-- **Reading comes to an end.**  Whatever the marks and whatever has arrived, no cut is
    out of range, a round that goes on leaves fewer bytes, and the rounds return; where the
    marks agree, they are the steps of the stream.  And in calls from nothing, of which
    none has failed, a stream that waits for a delimiter has one at its front, so none
    fails for a delimiter that is none or for a part that is missing. -/
theorem rounds_end (r : Reader) :
    (∀ v, unquote? v = some (unquote v)) ∧
    (∀ atEnd l, ∃ o, r.round? atEnd l = some o ∧ o.Proper l) ∧
    (∀ atEnd, WellFounded fun m l => ∃ part, r.round? atEnd l = some (.again part m)) ∧
    (∀ atEnd l, ∃ result, r.loop? atEnd [] l = some result ∧ result.1 ≠ .error .noPart) ∧
    (∀ atEnd s, (∃ u, r.Reaches atEnd s [] u ∧
        r.round? atEnd s.loose = some (r.step atEnd u).loose) ∧
      r.loop? atEnd [] s.loose = some (looseOutcome (r.advance atEnd s))) ∧
    (∀ calls done t, r.run {} calls = (.ok done, t) →
      (t.loose.Waits → Opens r.marker t.buffer) ∧
      ∀ atEnd chunk parts u, r.Reaches atEnd (t.push chunk) parts u → u.loose.Waits →
        Opens r.marker u.buffer) ∧
    ∀ calls, (r.run {} calls).1 ≠ .error .unfinishedDelimiter := by
  refine ⟨unquote?_eq, r.exists_round?, fun atEnd => ?_, fun atEnd l => r.exists_loop? atEnd [] l,
    fun atEnd s => ⟨r.round?_loose atEnd s, r.loop?_loose atEnd [] s⟩,
    fun calls done t h => ⟨?_, ?_⟩, r.run_ne_unfinishedDelimiter⟩
  · exact Subrelation.wf (fun ⟨_, hround⟩ => round?_lt hround)
      (measure fun l : LooseStream => l.buffer.length).wf
  · intro ht
    obtain ⟨ledger, hl⟩ := exists_ledger_of_run h
    exact hl.between (waits_loose_iff.1 ht)
  · intro atEnd chunk parts u hreach hu
    exact opens_of_reaches h chunk hreach (waits_loose_iff.1 hu)

/-- A header block that breaks off: the next call finds the delimiter before it. -/
theorem rounds_end_header :
    let r : Reader := ⟨"b", {}⟩
    let calls : List Call := [⟨Bytes.ofText "note\r\n--b\r\nContent-", false⟩]
    ∃ t, r.run {} calls = (.ok [], t) ∧ t.loose.Waits ∧ Opens r.marker t.buffer ∧
      t.buffer = Bytes.ofText "--b\r\nContent-" := by
  intro r calls
  have hrun : (r.run {} calls).1 = .ok [] := by decide +kernel
  have hphase : (r.run {} calls).2.phase = .between := by decide +kernel
  have hbuffer : (r.run {} calls).2.buffer = Bytes.ofText "--b\r\nContent-" := by decide +kernel
  have hwaits := waits_loose_iff.2 hphase
  obtain ⟨-, -, -, -, -, hopens, -⟩ := r.rounds_end
  exact ⟨_, Prod.ext hrun rfl, hwaits, (hopens calls [] _ (Prod.ext hrun rfl)).1 hwaits, hbuffer⟩

end Reader

end FormIntake.Multipart
