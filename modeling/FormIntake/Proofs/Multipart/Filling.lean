/-
  FormIntake — filling a part from chunks, some of which are refused.

  * `Filling`: a part and the bytes charged to the request.  `Filling.append` is an append
    in place, statement by statement; it looks at both limits before it changes anything, so
    it does to a part what `OpenPart.append` says (`run_append`) and a refused one leaves
    the state alone (`wholeOrNothing_append`).
  * `appendEach`: chunks appended one after the other, also behind one that is refused.
    What the part has in the end is what was taken (`appendEach_taken`), and both limits
    hold (`Bounded.appendEach`).
  * `append_join`, `append_refused`: two chunks may be appended as one.

  `appendEach_accumulates` puts these together.
-/
import FormIntake.Proofs.Multipart.Charges

namespace FormIntake.Multipart

/-- A part that is being filled. -/
structure Filling where
  part : OpenPart
  /-- The bytes charged to the request so far. -/
  total : Nat
  deriving DecidableEq, Repr

namespace Filling

variable {limits : SizeLimits} {s t u : Filling} {c a b : Bytes} {cs : List Bytes} {e : Error}

/-! ## One chunk -/

/-- Append a chunk in place. -/
def append (limits : SizeLimits) (chunk : Bytes) : EStateM Error Filling Unit := do
  if chunk.isEmpty then return ()
  let ⟨part, total⟩ ← get
  let size := Size.add part.size chunk.length
  if part.limit < size then throw (part.tooLarge size)
  let nextTotal := Size.add total chunk.length
  if limits.request < nextTotal then throw (.totalTooLarge nextTotal limits.request)
  modify fun s => { s with part := s.part.push chunk }
  modify fun s => { s with total := nextTotal }

/-- To append in place is to append. -/
theorem run_append (limits : SizeLimits) (c : Bytes) (s : Filling) : (append limits c).run s =
    match s.part.append limits s.total c with
    | .ok (p, total) => .ok () ⟨p, total⟩
    | .error e => .error e s := by
  by_cases hc : c = []
  · subst hc
    rfl
  · have hempty : c.isEmpty = false := by simpa using hc
    rw [OpenPart.append_of_ne_nil hc, append, hempty]
    show (ite (s.part.limit < Size.add s.part.size c.length) _ _ : EStateM Error Filling Unit).run s = _
    split
    · rfl
    · show (ite (limits.request < Size.add s.total c.length) _ _ : EStateM Error Filling Unit).run s = _
      split
      · rfl
      · rfl

theorem run_append_eq_ok_iff : (append limits c).run s = .ok () t ↔
    s.part.append limits s.total c = .ok (t.part, t.total) := by
  obtain ⟨p, total⟩ := t
  rw [run_append]
  cases s.part.append limits s.total c with
  | ok r => simp [Prod.ext_iff]
  | error e => simp

theorem run_append_eq_error_iff : (append limits c).run s = .error e t ↔
    s.part.append limits s.total c = .error e ∧ t = s := by
  rw [run_append]
  cases s.part.append limits s.total c with
  | ok r => simp
  | error e => simp [eq_comm]

/-- The whole chunk is taken, or nothing has changed. -/
def WholeOrNothing (s : Filling) (c : Bytes) : EStateM.Result Error Filling Unit → Prop
  | .ok _ t => t.part.close = { s.part.close with data := s.part.data ++ c } ∧
      t.total = s.total + c.length
  | .error _ t => t = s

/-- **An append is atomic.** -/
theorem wholeOrNothing_append (limits : SizeLimits) (h : s.total + c.length ≤ Size.largest) :
    WholeOrNothing s c ((append limits c).run s) := by
  cases hrun : (append limits c).run s with
  | ok _ t =>
    have happ := run_append_eq_ok_iff.1 hrun
    have hsmall : s.total = min s.total Size.largest := (Nat.min_eq_left (by omega)).symm
    refine ⟨OpenPart.close_of_append happ, ?_⟩
    rw [OpenPart.total_of_append happ hsmall, Nat.min_eq_left h]
  | error e t => exact (run_append_eq_error_iff.1 hrun).2

/-! ## One chunk in two pieces -/

/-- Two chunks are taken if they are taken as one, and to the same effect. -/
theorem append_join : (append limits (a ++ b)).run s = .ok () t ↔
    ∃ u, (append limits a).run s = .ok () u ∧ (append limits b).run u = .ok () t := by
  simp only [run_append_eq_ok_iff]
  constructor
  · intro h
    cases ha : s.part.append limits s.total a with
    | error e =>
      obtain ⟨-, e', he', -⟩ := OpenPart.exists_error_of_append_error ha b
      rw [he'] at h
      cases h
    | ok r =>
      rw [OpenPart.append_append ha] at h
      exact ⟨⟨r.1, r.2⟩, rfl, h⟩
  · rintro ⟨u, ha, hb⟩
    rw [OpenPart.append_append ha]
    exact hb

/-- What is refused as one chunk is refused for a limit, and so is one of its pieces. -/
theorem append_refused (h : (append limits (a ++ b)).run s = .error e t) :
    e.isLimit = true ∧ ∃ e', e'.isLimit = true ∧
      ((append limits a).run s = .error e' s ∨
        ∃ u, (append limits a).run s = .ok () u ∧ (append limits b).run u = .error e' u) := by
  have happ := (run_append_eq_error_iff.1 h).1
  refine ⟨(OpenPart.exists_error_of_append_error happ []).1, ?_⟩
  cases ha : s.part.append limits s.total a with
  | error e' =>
    exact ⟨e', (OpenPart.exists_error_of_append_error ha []).1,
      Or.inl (run_append_eq_error_iff.2 ⟨ha, rfl⟩)⟩
  | ok r =>
    -- the first piece is taken, so the second one gets the error of the whole
    rw [OpenPart.append_append ha] at happ
    exact ⟨e, (OpenPart.exists_error_of_append_error happ []).1,
      Or.inr ⟨⟨r.1, r.2⟩, run_append_eq_ok_iff.2 ha, run_append_eq_error_iff.2 ⟨happ, rfl⟩⟩⟩

/-! ## Chunks one after the other -/

/-- Append each of the chunks, whatever becomes of those in front of it.  The outcomes are
    in the order of the chunks. -/
def appendEach (limits : SizeLimits) : List Bytes → Filling → List (Except Error Unit) × Filling
  | [], s => ([], s)
  | c :: cs, s =>
    match (append limits c).run s with
    | .ok _ t => (.ok () :: (appendEach limits cs t).1, (appendEach limits cs t).2)
    | .error e t => (.error e :: (appendEach limits cs t).1, (appendEach limits cs t).2)

theorem appendEach_of_ok (h : (append limits c).run s = .ok () t) : appendEach limits (c :: cs) s =
    (.ok () :: (appendEach limits cs t).1, (appendEach limits cs t).2) := by
  rw [appendEach, h]

theorem appendEach_of_error (h : (append limits c).run s = .error e t) :
    appendEach limits (c :: cs) s =
      (.error e :: (appendEach limits cs t).1, (appendEach limits cs t).2) := by
  rw [appendEach, h]

/-- The chunks with a good outcome, joined. -/
def taken : List Bytes → List (Except Error Unit) → Bytes
  | c :: cs, .ok _ :: outcomes => c ++ taken cs outcomes
  | _ :: cs, .error _ :: outcomes => taken cs outcomes
  | _, _ => []

theorem length_taken_le (cs : List Bytes) (outcomes : List (Except Error Unit)) :
    (taken cs outcomes).length ≤ cs.flatten.length := by
  induction cs generalizing outcomes with
  | nil => simp [taken]
  | cons c cs ih =>
    rw [List.flatten_cons, List.length_append]
    rcases outcomes with _ | ⟨_ | _, outcomes⟩
    · exact Nat.zero_le _
    · exact (ih outcomes).trans (Nat.le_add_left ..)
    · rw [taken, List.length_append]
      exact Nat.add_le_add_left (ih outcomes) _

theorem length_appendEach (cs : List Bytes) (s : Filling) :
    (appendEach limits cs s).1.length = cs.length := by
  induction cs generalizing s with
  | nil => rfl
  | cons c cs ih =>
    cases hrun : (append limits c).run s with
    | ok _ t => rw [appendEach_of_ok hrun, List.length_cons, ih, List.length_cons]
    | error e t => rw [appendEach_of_error hrun, List.length_cons, ih, List.length_cons]

/-- What the part has in the end is what was taken, and that is what is charged. -/
theorem appendEach_taken (limits : SizeLimits) (s : Filling)
    (h : s.total + cs.flatten.length ≤ Size.largest) :
    (appendEach limits cs s).2.part.close =
        { s.part.close with data := s.part.data ++ taken cs (appendEach limits cs s).1 } ∧
      (appendEach limits cs s).2.total =
        s.total + (taken cs (appendEach limits cs s).1).length := by
  induction cs generalizing s with
  | nil =>
    show s.part.close = { s.part.close with data := s.part.data ++ [] } ∧ s.total = s.total
    rw [List.append_nil]
    exact ⟨rfl, rfl⟩
  | cons c cs ih =>
    rw [List.flatten_cons, List.length_append] at h
    have hc : WholeOrNothing s c ((append limits c).run s) :=
      wholeOrNothing_append limits (by omega)
    cases hrun : (append limits c).run s with
    | ok _ t =>
      rw [hrun] at hc
      obtain ⟨hclose, htotal⟩ := hc
      have hdata : t.part.data = s.part.data ++ c := congrArg Part.data hclose
      obtain ⟨hrest, hrest'⟩ := ih t (by omega)
      rw [appendEach_of_ok hrun, taken, hrest, hrest', hclose, hdata, htotal, List.append_assoc,
        List.length_append]
      exact ⟨rfl, Nat.add_assoc ..⟩
    | error e t =>
      rw [hrun] at hc
      obtain rfl : t = s := hc
      rw [appendEach_of_error hrun, taken]
      exact ih t (by omega)

/-! ## The limits -/

/-- The payload is within `limit`, and the request within its limit unless it was beyond it
    from the start. -/
structure Bounded (limits : SizeLimits) (limit start : Nat) (s : Filling) : Prop where
  limit_eq : s.part.limit = limit
  size_le : min s.part.size Size.largest ≤ limit
  total_le : s.total ≤ max start limits.request

variable {limit start : Nat}

theorem Bounded.append (hs : Bounded limits limit start s) (h : (append limits c).run s = .ok () t) :
    Bounded limits limit start t := by
  obtain ⟨hlimit, hsize, htotal⟩ := hs
  rcases OpenPart.append_eq_ok_iff.1 (run_append_eq_ok_iff.1 h) with
    ⟨-, hp, ht⟩ | ⟨hle, hle', -, hp, ht⟩
  · exact ⟨hp ▸ hlimit, hp ▸ hsize, ht ▸ htotal⟩
  · refine ⟨?_, ?_, ?_⟩
    · rw [hp]
      exact hlimit
    · rw [hp, ← hlimit]
      exact hle
    · rw [ht]
      exact hle'.trans (Nat.le_max_right ..)

theorem Bounded.appendEach (hs : Bounded limits limit start s) :
    Bounded limits limit start (appendEach limits cs s).2 := by
  induction cs generalizing s with
  | nil => exact hs
  | cons c cs ih =>
    cases hrun : (Filling.append limits c).run s with
    | ok _ t =>
      rw [appendEach_of_ok hrun]
      exact ih (hs.append hrun)
    | error e t =>
      obtain ⟨-, rfl⟩ := run_append_eq_error_iff.1 hrun
      rw [appendEach_of_error hrun]
      exact ih hs

/-! ## A fresh part -/

theorem bounded_start (limits : SizeLimits) (name : String) (filename contentType : Option String)
    (start : Nat) : Bounded limits (if filename.isSome then limits.attachment else limits.field) start
      ⟨OpenPart.start limits name filename contentType, start⟩ where
  limit_eq := rfl
  size_le := Nat.zero_le _
  total_le := Nat.le_max_left ..

/-- **A part accumulates what it takes, and cutting makes no difference.**  Of chunks appended
    to a fresh part one after the other, each is taken as a whole or leaves no trace; the
    payload in the end is what was taken, in its order, within the limit of the kind of
    part, and the request is charged its length, within its own limit if it was before.
    Two chunks are taken if they are taken as one, to the same effect, and if as one they are
    refused, it is for a limit, as one of them is. -/
theorem appendEach_accumulates (limits : SizeLimits) (name : String)
    (filename contentType : Option String) (start : Nat) (chunks : List Bytes)
    (h : start + chunks.flatten.length ≤ Size.largest) :
    let fresh : Filling := ⟨OpenPart.start limits name filename contentType, start⟩
    let r := appendEach limits chunks fresh
    (∀ before c after, chunks = before ++ c :: after →
      WholeOrNothing (appendEach limits before fresh).2 c
        ((append limits c).run (appendEach limits before fresh).2)) ∧
    r.1.length = chunks.length ∧
    r.2.part.close = ⟨name, filename, contentType, taken chunks r.1⟩ ∧
    r.2.total = start + (taken chunks r.1).length ∧
    r.2.part.data.length ≤ (if filename.isSome then limits.attachment else limits.field) ∧
    r.2.total ≤ max start limits.request ∧
    ∀ (s : Filling) (a b : Bytes),
      (∀ t, (append limits (a ++ b)).run s = .ok () t ↔
        ∃ u, (append limits a).run s = .ok () u ∧ (append limits b).run u = .ok () t) ∧
      ∀ e t, (append limits (a ++ b)).run s = .error e t →
        e.isLimit = true ∧ ∃ e', e'.isLimit = true ∧
          ((append limits a).run s = .error e' s ∨
            ∃ u, (append limits a).run s = .ok () u ∧ (append limits b).run u = .error e' u) := by
  intro fresh r
  have hbounded : Bounded limits _ start r.2 :=
    (bounded_start limits name filename contentType start).appendEach
  obtain ⟨hclose, htotal⟩ := appendEach_taken limits fresh h
  refine ⟨?_, length_appendEach _ _, hclose, htotal, ?_, hbounded.total_le, ?_⟩
  · intro before c after hchunks
    -- what was charged in front of the chunk is no more than the chunks there
    have hlen : chunks.flatten.length = before.flatten.length + (c.length + after.flatten.length) := by
      rw [hchunks, List.flatten_append, List.flatten_cons, List.length_append, List.length_append]
    have hsmall : fresh.total + before.flatten.length ≤ Size.largest := by
      show start + before.flatten.length ≤ Size.largest
      omega
    have hfront := (appendEach_taken limits fresh hsmall).2
    have hle := length_taken_le before (appendEach limits before fresh).1
    refine wholeOrNothing_append limits ?_
    rw [hfront]
    show start + (taken before (appendEach limits before fresh).1).length + c.length ≤ Size.largest
    omega
  · have hle := length_taken_le chunks r.1
    have hdata : r.2.part.data = taken chunks r.1 := congrArg Part.data hclose
    have hsize := hbounded.size_le
    rwa [← OpenPart.length_data, hdata, Nat.min_eq_left (by omega), ← hdata] at hsize
  · intro s a b
    exact ⟨fun t => append_join, fun e t => append_refused⟩

/-- An uploaded file without a name may have four bytes: the second chunk does not fit any
    more, and the third does. -/
theorem appendEach_accumulates_refused :
    let limits : SizeLimits := ⟨8, 4, 10, 1⟩
    let chunks : List Bytes := [[1, 2, 3], [4, 5], [6]]
    let r := appendEach limits chunks ⟨OpenPart.start limits "f" (some "") none, 5⟩
    5 + chunks.flatten.length ≤ Size.largest ∧
      r.1 = [.ok (), .error (.fileTooLarge "f" 5 4), .ok ()] ∧
      r.2.part.close = ⟨"f", some "", none, [1, 2, 3, 6]⟩ ∧ r.2.total = 9 := by
  intro limits chunks r
  have hlen : 5 + chunks.flatten.length ≤ Size.largest := by decide
  have houtcomes : r.1 = [.ok (), .error (.fileTooLarge "f" 5 4), .ok ()] := rfl
  obtain ⟨-, -, hclose, htotal, -⟩ :=
    appendEach_accumulates limits "f" (some "") none 5 chunks hlen
  exact ⟨hlen, houtcomes, hclose, htotal⟩

end Filling

end FormIntake.Multipart
