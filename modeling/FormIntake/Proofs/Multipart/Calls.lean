/-
  FormIntake — calls one after the other.

  A `Call` brings bytes and may be the last one.  `Reader.run` makes calls on a stream
  up to the first that fails; `Reader.Reaches` says where the steps of a call lead.

  Within a call more may hold than between two of them, and the other way round.
  `run_invariant` takes both: what is kept by the steps of a call, and what holds of a
  stream that has stopped.
-/
import FormIntake.Proofs.Multipart.Transition

namespace FormIntake.Multipart

/-- A call on a stream. -/
structure Call where
  /-- The bytes that have arrived since the call before. -/
  chunk : Bytes
  /-- No more bytes will arrive. -/
  atEnd : Bool := false
  deriving DecidableEq, Repr

/-- The bytes that arrive with calls. -/
def arrived (calls : List Call) : Bytes := calls.flatMap (·.chunk)

namespace Reader

/-- Make calls up to the first that fails. -/
def run (r : Reader) (s : Stream) : List Call → Except Error (List Part) × Stream
  | [] => (.ok [], s)
  | c :: calls =>
    match r.advance c.atEnd (s.push c.chunk) with
    | (.ok parts, t) => after parts (r.run t calls)
    | (.error e, t) => (.error e, t)

/-- Steps that go on lead from a stream to another and close `parts` on the way. -/
inductive Reaches (r : Reader) (atEnd : Bool) : Stream → List Part → Stream → Prop
  | refl {s} : r.Reaches atEnd s [] s
  | step {s part t parts u} : r.step atEnd s = .more part t → r.Reaches atEnd t parts u →
      r.Reaches atEnd s (part.toList ++ parts) u

variable {r : Reader} {s t u : Stream} {parts done : List Part} {c : Call} {calls : List Call}
  {e : Error} {atEnd : Bool} {b : Bytes}

theorem run_of_ok (h : r.advance c.atEnd (s.push c.chunk) = (.ok parts, t)) :
    r.run s (c :: calls) = after parts (r.run t calls) := by
  rw [run, h]

theorem run_of_error (h : r.advance c.atEnd (s.push c.chunk) = (.error e, t)) :
    r.run s (c :: calls) = (.error e, t) := by
  rw [run, h]

/-- A call ends as it does from any stream that it reaches. -/
theorem advance_of_reaches (h : r.Reaches atEnd s parts u) :
    r.advance atEnd s = after parts (r.advance atEnd u) := by
  induction h with
  | refl => rw [after_nil]
  | step hstep _ ih => rw [advance_of_more hstep, ih, after_after]

/-- A call fails at a stream that its steps lead to. -/
theorem exists_fail_of_advance_error (h : r.advance atEnd s = (.error e, t)) :
    ∃ parts u, r.Reaches atEnd s parts u ∧ r.step atEnd u = .fail e t := by
  induction s using r.steps_induction atEnd with
  | more s part v hstep ih =>
    obtain ⟨parts, u, hreach, hfail⟩ := ih (advance_of_more_error hstep h)
    exact ⟨_, u, .step hstep hreach, hfail⟩
  | stop s v hstep => rw [advance_of_stop hstep] at h; cases h
  | fail s e' v hstep =>
    rw [advance_of_fail hstep] at h
    cases h
    exact ⟨[], s, .refl, hstep⟩

/-- Calls fail at one of them, and those before it go through. -/
theorem exists_call_of_run_error (h : r.run s calls = (.error e, u)) :
    ∃ (before : List Call) (c : Call) (parts : List Part) (t : Stream),
      r.run s before = (.ok parts, t) ∧ r.advance c.atEnd (t.push c.chunk) = (.error e, u) := by
  induction calls generalizing s with
  | nil => cases h
  | cons c calls ih =>
    rcases hadv : r.advance c.atEnd (s.push c.chunk) with ⟨e' | ps, t⟩
    · rw [run_of_error hadv] at h
      cases h
      exact ⟨[], c, [], s, rfl, hadv⟩
    · rw [run_of_ok hadv] at h
      rcases hrun : r.run t calls with ⟨e' | qs, v⟩
      · rw [hrun] at h
        cases h
        obtain ⟨before, c', parts, t', hbefore, hlast⟩ := ih hrun
        exact ⟨c :: before, c', ps ++ parts, t', by rw [run_of_ok hadv, hbefore, after_ok], hlast⟩
      · rw [hrun] at h
        cases h

/-- **What is kept within calls and holds between them**, of the bytes that have
    arrived, the parts closed so far and the stream, holds after a run of calls. -/
theorem run_invariant (Within Between : Bytes → List Part → Stream → Prop)
    (arrive : ∀ b done s chunk, Between b done s → Within (b ++ chunk) done (s.push chunk))
    (move : ∀ b done s part t, Within b done s → r.Moves s part t →
      Within b (done ++ part.toList) t)
    (halt : ∀ atEnd b done s t, Within b done s → r.Halts atEnd s t → Between b done t)
    (h : r.run s calls = (.ok parts, t)) (hs : Between b done s) :
    Between (b ++ arrived calls) (done ++ parts) t := by
  induction calls generalizing s b done parts with
  | nil =>
    cases h
    simpa [arrived] using hs
  | cons c calls ih =>
    rcases hadv : r.advance c.atEnd (s.push c.chunk) with ⟨e | ps, u⟩
    · rw [run_of_error hadv] at h
      cases h
    · obtain ⟨v, hv, hhalts⟩ := exists_halts_of_advance (Within (b ++ c.chunk)) (move _) hadv
        (arrive _ _ _ _ hs)
      have hu := halt _ _ _ _ _ hv hhalts
      rw [run_of_ok hadv] at h
      rcases hrun : r.run u calls with ⟨e | qs, w⟩
      · rw [hrun] at h
        cases h
      · rw [hrun, after_ok] at h
        cases h
        have hrest := ih hrun hu
        rwa [List.append_assoc, List.append_assoc] at hrest

end Reader

end FormIntake.Multipart
