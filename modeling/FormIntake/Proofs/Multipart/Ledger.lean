/-
  FormIntake — what becomes of the bytes that arrive.

  A `Ledger` says what the bytes consumed so far were: bytes in front of the first
  delimiter, the blocks of the parts that are closed, the block of the open part as
  far as its payload has been taken, and the closing delimiter.  The request is
  charged for the blocks (`Block.charge`), and for nothing else.

  * `Ledger.Accounts r l b done s`: the ledger `l` and the buffer of the stream `s`
    make up the bytes `b` that have arrived, the blocks of `l` are the parts `done`
    and the open one, and the stream carries the sums of `l`, which are within the
    limits;
  * `exists_ledger_of_run`: after every run of calls there is such a ledger;
  * `run_accounts`: what has been charged after a run, and what the limits then say
    about it.
-/
import FormIntake.Proofs.Multipart.Admission
import FormIntake.Proofs.Multipart.Layout
import Mathlib.Algebra.GroupWithZero.Nat
import Mathlib.Data.List.Forall2

namespace FormIntake.Multipart

/-! ## Blocks and what they are charged -/

/-- A block up to its payload: delimiter line, header lines and empty line. -/
def Block.head (marker : Bytes) (b : Block) : Bytes :=
  marker ++ Bytes.crlf ++ headerBytes b.lines

/-- What the request is charged for a block.  The line end behind the payload
    belongs to the next delimiter and is free. -/
def Block.charge (marker : Bytes) (b : Block) : Nat :=
  (b.head marker).length + b.payload.length

theorem Block.length_bytes (marker : Bytes) (b : Block) :
    (b.bytes marker).length = b.charge marker + 2 := by
  rw [bytes, ← head, List.length_append, List.length_append]
  rfl

/-- What the bytes consumed so far were. -/
structure Ledger where
  /-- The bytes in front of the first delimiter. -/
  skipped : Bytes := []
  /-- The blocks of the parts that are closed. -/
  closed : List Block := []
  /-- The block of the open part. -/
  current : Option Block := none
  /-- The closing delimiter. -/
  ending : Bytes := []

namespace Ledger

variable {marker a : Bytes} {l : Ledger} {b : Block}

def blocks (l : Ledger) : List Block := l.closed ++ l.current.toList

/-- The bytes consumed, in the order in which they arrived. -/
def bytes (marker : Bytes) (l : Ledger) : Bytes :=
  l.skipped ++ (l.closed.flatMap (·.bytes marker) ++
    (l.current.toList.flatMap (fun b => b.head marker ++ b.payload) ++ l.ending))

def charge (marker : Bytes) (l : Ledger) : Nat := (l.blocks.map (·.charge marker)).sum

/-! ### Entries -/

def skip (l : Ledger) (a : Bytes) : Ledger := { l with skipped := l.skipped ++ a }

def opening (l : Ledger) (b : Block) : Ledger := { l with current := some b }

def fill (l : Ledger) (a : Bytes) : Ledger := { l with current := l.current.map (·.fill a) }

def close (l : Ledger) : Ledger := { l with closed := l.blocks, current := none }

def finish (l : Ledger) (a : Bytes) : Ledger := { l with ending := l.ending ++ a }

theorem bytes_skip (hblocks : l.blocks = []) (hending : l.ending = []) :
    (l.skip a).bytes marker = l.bytes marker ++ a := by
  obtain ⟨hclosed, hcurrent⟩ := List.append_eq_nil_iff.1 hblocks
  simp [bytes, skip, hclosed, hcurrent, hending]

theorem bytes_opening (hcurrent : l.current = none) (hending : l.ending = []) :
    (l.opening b).bytes marker = l.bytes marker ++ (b.head marker ++ b.payload) := by
  simp [bytes, opening, hcurrent, hending]

theorem bytes_fill (hcurrent : l.current = some b) (hending : l.ending = []) :
    (l.fill a).bytes marker = l.bytes marker ++ a := by
  simp [bytes, fill, Block.fill, Block.head, hcurrent, hending]

theorem bytes_close (hcurrent : l.current = some b) (hending : l.ending = []) :
    l.close.bytes marker = l.bytes marker ++ Bytes.crlf := by
  simp [bytes, close, blocks, Block.bytes, Block.head, hcurrent, hending]

theorem bytes_finish : (l.finish a).bytes marker = l.bytes marker ++ a := by
  simp [bytes, finish]

theorem blocks_opening (hcurrent : l.current = none) :
    (l.opening b).blocks = l.blocks ++ [b] := by
  simp [blocks, opening, hcurrent]

@[simp] theorem blocks_close : l.close.blocks = l.blocks := by
  simp [blocks, close]

theorem charge_opening (hcurrent : l.current = none) :
    (l.opening b).charge marker = l.charge marker + b.charge marker := by
  rw [charge, blocks_opening hcurrent]
  simp [charge]

theorem charge_fill (hcurrent : l.current = some b) :
    (l.fill a).charge marker = l.charge marker + a.length := by
  simp [charge, blocks, fill, Block.charge, Block.fill, Block.head, hcurrent]
  omega

@[simp] theorem charge_close : l.close.charge marker = l.charge marker := by
  simp [charge]

/-- What is neither charged nor part of a block: a line end for each part that is
    closed, what is in front of the first delimiter, and the closing one. -/
theorem length_bytes : (l.bytes marker).length =
    l.skipped.length + l.charge marker + 2 * l.closed.length + l.ending.length := by
  have hclosed : ∀ blocks : List Block, (blocks.flatMap (·.bytes marker)).length =
      (blocks.map (·.charge marker)).sum + 2 * blocks.length := by
    intro blocks
    induction blocks with
    | nil => rfl
    | cons b blocks ih =>
      rw [List.flatMap_cons, List.length_append, ih, b.length_bytes, List.map_cons, List.sum_cons,
        List.length_cons]
      omega
  have hcurrent : (l.current.toList.flatMap fun b => b.head marker ++ b.payload).length =
      (l.current.toList.map (·.charge marker)).sum := by
    cases l.current <;> simp [Block.charge]
  simp only [bytes, charge, blocks, List.length_append, List.map_append, List.sum_append, hclosed,
    hcurrent]
  omega

/-- Every block is charged for its empty line at least. -/
theorem length_blocks_le : l.blocks.length ≤ l.charge marker := by
  rw [charge]
  induction l.blocks with
  | nil => simp
  | cons b blocks ih =>
    have hhead : 1 ≤ b.charge marker := by
      simp [Block.charge, Block.head, Bytes.crlf]
      omega
    simp only [List.length_cons, List.map_cons, List.sum_cons]
    omega

/-! ### Accounts -/

/-- The ledger accounts for the bytes that have arrived, the parts that are closed
    and the stream.  Sums beyond the largest size are not told apart. -/
structure Accounts (r : Reader) (l : Ledger) (arrived : Bytes) (done : List Part) (s : Stream) :
    Prop where
  arrived_eq : arrived = l.bytes r.marker ++ s.buffer
  closed : List.Forall₂ Block.Holds l.closed done
  current : Option.Rel Block.Holds l.current s.inFlight
  total_eq : s.total = min (l.charge r.marker) Size.largest
  parts_eq : s.parts = min l.blocks.length Size.largest
  total_le : s.total ≤ r.limits.request
  parts_le : s.parts ≤ r.limits.parts
  head_le : ∀ b ∈ l.blocks, (b.head r.marker).length ≤ maxHeaderBytes
  preamble : s.phase = .preamble → l.closed = []
  between : s.phase = .between → Opens r.marker s.buffer
  ending : s.phase ≠ .closed → l.ending = []
  skipped : Bytes.lf ∉ r.marker → Begins r.marker arrived → l.skipped = []

namespace Accounts

variable {r : Reader} {arrived chunk : Bytes} {done : List Part} {s t : Stream}
  {part : Option Part} {p : OpenPart} {atEnd : Bool}

theorem current_of_inside (h : l.Accounts r arrived done s) (hs : s.phase = .inside p) :
    ∃ b, l.current = some b ∧ b.Holds p.close := by
  have hcurrent := h.current
  rw [Stream.inFlight, Stream.openPart?, hs] at hcurrent
  generalize l.current = c at hcurrent
  cases hcurrent with
  | some hb => exact ⟨_, rfl, hb⟩

theorem current_of_outside (h : l.Accounts r arrived done s) (hs : ∀ p, s.phase ≠ .inside p) :
    l.current = none := by
  have hcurrent := h.current
  have hopen : s.openPart? = none := by
    unfold Stream.openPart?
    split
    · next p hp => exact absurd hp (hs p)
    · rfl
  rw [Stream.inFlight, hopen] at hcurrent
  generalize l.current = c at hcurrent
  cases hcurrent
  rfl

theorem start : ({} : Ledger).Accounts r [] [] {} where
  arrived_eq := rfl
  closed := .nil
  current := .none
  total_eq := by simp [charge, blocks]
  parts_eq := by simp [blocks]
  total_le := Nat.zero_le _
  parts_le := Nat.zero_le _
  head_le := by simp [blocks]
  preamble := fun _ => rfl
  between := nofun
  ending := fun _ => rfl
  skipped := fun _ _ => rfl

theorem push (h : l.Accounts r arrived done s) (chunk : Bytes) :
    l.Accounts r (arrived ++ chunk) done (s.push chunk) :=
  { h with
    arrived_eq := by rw [h.arrived_eq, List.append_assoc]; rfl
    between := fun hs => (h.between hs).append chunk
    skipped := fun hlf hbegins => h.skipped hlf hbegins.of_append }

/-- In the preamble all that has been consumed is skipped. -/
theorem bytes_of_preamble (h : l.Accounts r arrived done s) (hs : s.phase = .preamble) :
    l.blocks = [] ∧ l.ending = [] ∧ l.bytes r.marker = l.skipped := by
  have hcurrent := h.current_of_outside (by simp [hs])
  have hending := h.ending (by simp [hs])
  refine ⟨by simp [blocks, h.preamble hs, hcurrent], hending, ?_⟩
  simp [bytes, h.preamble hs, hcurrent, hending]

/-- In front of a body that begins with a delimiter there is nothing to skip. -/
theorem begins_buffer (h : l.Accounts r arrived done s) (hs : s.phase = .preamble)
    (hlf : Bytes.lf ∉ r.marker) (hbegins : Begins r.marker arrived) :
    Begins r.marker s.buffer := by
  have harrived := h.arrived_eq
  rw [(h.bytes_of_preamble hs).2.2, h.skipped hlf hbegins, List.nil_append] at harrived
  exact harrived ▸ hbegins

/-- Bytes in front of the first delimiter are skipped and charged to nobody. -/
theorem skip (h : l.Accounts r arrived done s) (hs : s.phase = .preamble) {n : Nat} {phase : Phase}
    (hphase : phase = .preamble ∨ phase = .between ∧ Opens r.marker (s.buffer.drop n))
    (hn : Bytes.lf ∉ r.marker → Begins r.marker s.buffer → n = 0) :
    (l.skip (s.buffer.take n)).Accounts r arrived done { s.drop n with phase } := by
  obtain ⟨hblocks, hending, -⟩ := h.bytes_of_preamble hs
  have hcurrent := h.current_of_outside (by simp [hs])
  have hinside : (Stream.inFlight { s.drop n with phase }) = none := by
    rcases hphase with rfl | ⟨rfl, -⟩ <;> rfl
  refine { h with arrived_eq := ?_, current := ?_, preamble := ?_, between := ?_, ending := ?_,
                  skipped := ?_ }
  · rw [bytes_skip hblocks hending, List.append_assoc]
    exact h.arrived_eq.trans (congrArg _ (List.take_append_drop n s.buffer).symm)
  · rw [hinside]
    exact hcurrent ▸ .none
  · exact fun _ => h.preamble hs
  · rcases hphase with rfl | ⟨rfl, hopens⟩
    exacts [nofun, fun _ => hopens]
  · exact fun _ => hending
  · intro hlf hbegins
    have hzero := hn hlf (h.begins_buffer hs hlf hbegins)
    simp [Ledger.skip, h.skipped hlf hbegins, hzero]

/-- Payload that is taken is charged and goes to the block of the open part. -/
theorem fill (h : l.Accounts r arrived done s) {q : OpenPart} {total : Nat} {back : Bytes}
    (hs : s.phase = .inside p) (hbuffer : s.buffer = a ++ back)
    (happ : p.append r.limits s.total a = .ok (q, total)) :
    (l.fill a).Accounts r arrived done ⟨.inside q, s.parts, total, back⟩ := by
  obtain ⟨b, hcurrent, hb⟩ := h.current_of_inside hs
  have hending := h.ending (by simp [hs])
  have hblocks : (l.fill a).blocks = l.closed ++ [b.fill a] := by
    simp [blocks, Ledger.fill, hcurrent]
  refine { h with arrived_eq := ?_, current := ?_, total_eq := ?_, parts_eq := ?_, total_le := ?_,
                  head_le := ?_, preamble := nofun, between := nofun, ending := ?_ }
  · rw [bytes_fill hcurrent hending, List.append_assoc, ← hbuffer]
    exact h.arrived_eq
  · rw [Ledger.fill, hcurrent]
    exact .some (hb.fill happ)
  · rw [charge_fill hcurrent]
    exact OpenPart.total_of_append happ h.total_eq
  · rw [hblocks]
    simpa [blocks, hcurrent] using h.parts_eq
  · exact OpenPart.total_le_of_append happ h.total_le
  · rw [hblocks]
    intro b' hb'
    rcases List.mem_append.1 hb' with hb' | hb'
    · exact h.head_le b' (List.mem_append_left _ hb')
    · rw [List.mem_singleton.1 hb']
      exact h.head_le b (by simp [blocks, hcurrent])
  · exact fun _ => hending

/-- A header block is charged and opens a block without payload. -/
theorem opening (h : l.Accounts r arrived done s) {lines : List Bytes} {headers : Headers}
    {back : Bytes} {c : Charged} (hs : s.phase = .between)
    (hbuffer : s.buffer = Block.head r.marker ⟨lines, []⟩ ++ back)
    (hlines : ∀ line ∈ lines, IsLine line) (hheaders : Headers.noteAll {} lines = some headers)
    (ho : r.opened s.charged headers (Block.head r.marker ⟨lines, []⟩).length = .ok (p, c)) :
    (l.opening ⟨lines, []⟩).Accounts r arrived done ⟨.inside p, c.parts, c.total, back⟩ := by
  have hcurrent := h.current_of_outside (by simp [hs])
  have hending := h.ending (by simp [hs])
  obtain ⟨⟨hsize, htotal⟩, hparts, rfl, -⟩ := Reader.opened_eq_ok_iff.1 ho
  refine { h with arrived_eq := ?_, current := ?_, total_eq := ?_, parts_eq := ?_,
                  total_le := htotal, parts_le := hparts, head_le := ?_, preamble := nofun,
                  between := nofun, ending := fun _ => hending }
  · rw [bytes_opening hcurrent hending, List.append_nil, List.append_assoc, ← hbuffer]
    exact h.arrived_eq
  · exact .some (Reader.holds_of_opened hlines hheaders ho)
  · rw [charge_opening hcurrent]
    have := h.total_eq
    simp only [Size.add, Stream.charged, Block.charge, List.length_nil]
    omega
  · rw [blocks_opening hcurrent, List.length_append, List.length_singleton]
    have := h.parts_eq
    simp only [Size.add, Stream.charged]
    omega
  · rw [blocks_opening hcurrent]
    intro b hb
    rcases List.mem_append.1 hb with hb | hb
    · exact h.head_le b hb
    · rw [List.mem_singleton.1 hb]
      exact hsize

/-- A part is closed where a delimiter follows. -/
theorem close (h : l.Accounts r arrived done s) {back : Bytes} (hs : s.phase = .inside p)
    (hbuffer : s.buffer = Bytes.crlf ++ back) (hopens : Opens r.marker back) :
    l.close.Accounts r arrived (done ++ [p.close]) ⟨.between, s.parts, s.total, back⟩ := by
  obtain ⟨b, hcurrent, hb⟩ := h.current_of_inside hs
  have hending := h.ending (by simp [hs])
  refine { h with arrived_eq := ?_, closed := ?_, current := .none, total_eq := ?_, parts_eq := ?_,
                  head_le := ?_, preamble := nofun, between := fun _ => hopens,
                  ending := fun _ => hending }
  · rw [bytes_close hcurrent hending, List.append_assoc, ← hbuffer]
    exact h.arrived_eq
  · rw [Ledger.close, blocks, hcurrent]
    exact List.rel_append h.closed (.cons hb .nil)
  · rw [charge_close]
    exact h.total_eq
  · rw [blocks_close]
    exact h.parts_eq
  · rw [blocks_close]
    exact h.head_le

/-- The closing delimiter ends the body. -/
theorem finish (h : l.Accounts r arrived done s) (hs : s.phase = .between) (n : Nat) :
    (l.finish (s.buffer.take n)).Accounts r arrived done { s.drop n with phase := .closed } := by
  have hcurrent := h.current_of_outside (by simp [hs])
  refine { h with arrived_eq := ?_, current := hcurrent ▸ .none, preamble := nofun,
                  between := nofun, ending := fun hne => absurd rfl hne }
  rw [bytes_finish, List.append_assoc]
  exact h.arrived_eq.trans (congrArg _ (List.take_append_drop n s.buffer).symm)

/-! ### Sums -/

theorem forall₂_holds (h : l.Accounts r arrived done s) :
    List.Forall₂ Block.Holds l.blocks (done ++ s.inFlight.toList) := by
  refine List.rel_append h.closed ?_
  have hcurrent := h.current
  generalize l.current = c, s.inFlight = o at hcurrent
  cases hcurrent with
  | none => exact .nil
  | some hb => exact .cons hb .nil

theorem charge_le (h : l.Accounts r arrived done s) : l.charge r.marker ≤ arrived.length := by
  rw [h.arrived_eq, List.length_append, length_bytes]
  omega

theorem charge_le_largest (h : l.Accounts r arrived done s)
    (hsmall : r.limits.request < Size.largest ∨ arrived.length ≤ Size.largest) :
    l.charge r.marker ≤ Size.largest := by
  rcases hsmall with hrequest | hlen
  · have htotal := h.total_eq
    have hle := h.total_le
    omega
  · exact h.charge_le.trans hlen

/-- Up to the largest size the sums are exact. -/
theorem total_eq_charge (h : l.Accounts r arrived done s) (hle : l.charge r.marker ≤ Size.largest) :
    s.total = l.charge r.marker := by
  rw [h.total_eq, Nat.min_eq_left hle]

theorem length_blocks_le_parts (h : l.Accounts r arrived done s)
    (hle : l.charge r.marker ≤ Size.largest) : l.blocks.length ≤ r.limits.parts := by
  have hblocks : l.blocks.length ≤ l.charge r.marker := length_blocks_le
  have hparts := h.parts_eq
  rw [Nat.min_eq_left (hblocks.trans hle)] at hparts
  exact hparts ▸ h.parts_le

/-! ### Steps -/

theorem exists_of_moves (h : l.Accounts r arrived done s) (hmoves : r.Moves s part t) :
    ∃ l' : Ledger, l'.Accounts r arrived (done ++ part.toList) t := by
  cases hmoves with
  | @start n hs hfind =>
    have hat := delimiterAt_of_findDelimiter hfind
    rw [Option.toList_none, List.append_nil]
    refine ⟨_, h.skip hs (Or.inr ⟨rfl, hat.opens⟩) fun hlf ⟨more, hopens⟩ => ?_⟩
    -- a delimiter at the front comes before every other
    have hzero : DelimiterAt r.marker true s.buffer 0 := by
      have := hat.length_le
      exact ⟨Or.inl ⟨rfl, rfl⟩, hopens.of_append (by omega)⟩
    have hleast := ((findDelimiter_eq_some_iff hlf).1 hfind).2 0
    exact Nat.eq_zero_of_not_pos fun hn => hleast hn hzero
  | skip hs hmarker => exact absurd (h.between hs).marker_isPrefix hmarker
  | @opens x headers size p c hs hbuffer hread ho =>
    obtain ⟨lines, back, hlines, rfl, hheaders, rfl⟩ := exists_lines_of_readHeaders hread
    have hhead : (Block.head r.marker ⟨lines, []⟩).length =
        r.marker.length + 2 + (headerBytes lines).length := by
      simp [Block.head, Bytes.crlf]
      omega
    have hfront : s.buffer = Block.head r.marker ⟨lines, []⟩ ++ back := by
      rw [hbuffer, Block.head]
      simp only [List.append_assoc]
    have hdrop : s.buffer.drop (r.marker.length + 2 + (headerBytes lines).length) = back := by
      rw [hfront, ← hhead, List.drop_left]
    rw [← hhead] at ho
    rw [Option.toList_none, List.append_nil, Stream.drop, hdrop]
    exact ⟨_, h.opening hs hfront hlines hheaders ho⟩
  | @closes p q n total hs hfind happ =>
    have hat := delimiterAt_of_findDelimiter hfind
    obtain ⟨front, back, hbuffer, hopens, rfl⟩ := hat.exists_split (by have := hat.two_le; omega)
    rw [List.append_assoc] at hbuffer
    rw [hbuffer, Nat.add_sub_cancel, List.take_left] at happ
    have hdrop : s.buffer.drop (front.length + 2) = back := by
      rw [hbuffer, ← List.append_assoc,
        show front.length + 2 = (front ++ Bytes.crlf).length by simp [Bytes.crlf], List.drop_left]
    rw [Stream.drop, hdrop]
    exact ⟨_, (h.fill hs hbuffer happ).close rfl rfl hopens⟩

theorem exists_of_halts (h : l.Accounts r arrived done s) (hhalts : r.Halts atEnd s t) :
    ∃ l' : Ledger, l'.Accounts r arrived done t := by
  cases hhalts with
  | preamble _ hs hfind =>
    have hphase : s.drop (r.spare s) = { s.drop (r.spare s) with phase := .preamble } := by
      rw [← hs]
      rfl
    rw [hphase]
    exact ⟨_, h.skip hs (Or.inl rfl) fun hlf hbegins => Reader.spare_eq_zero hlf hbegins hfind⟩
  | inside _ hs _ happ => exact ⟨_, h.fill hs (List.take_append_drop _ _).symm happ⟩
  | finish hs => exact ⟨_, h.finish hs _⟩
  | between | delimiter | headers | closed => exact ⟨l, h⟩

end Accounts

end Ledger

/-! ## Runs -/

namespace Reader

variable {r : Reader} {calls : List Call} {done : List Part} {t : Stream}

/-- **After every run of calls there is a ledger** for the bytes that have arrived. -/
theorem exists_ledger_of_run (h : r.run {} calls = (.ok done, t)) :
    ∃ l : Ledger, l.Accounts r (arrived calls) done t := by
  refine run_invariant (fun b done s => ∃ l : Ledger, l.Accounts r b done s)
    (fun b done s => ∃ l : Ledger, l.Accounts r b done s) ?_ ?_ ?_ h ⟨_, .start⟩
  · rintro b done s chunk ⟨l, hl⟩
    exact ⟨l, hl.push chunk⟩
  · rintro b done s part t ⟨l, hl⟩ hmoves
    exact hl.exists_of_moves hmoves
  · rintro atEnd b done s t ⟨l, hl⟩ hhalts
    exact hl.exists_of_halts hhalts

/-- A payload is part of what its block is charged. -/
theorem length_data_le_sum {marker : Bytes} {blocks : List Block} {parts : List Part} {p : Part}
    (h : List.Forall₂ Block.Holds blocks parts) (hp : p ∈ parts) :
    p.data.length ≤ (blocks.map (·.charge marker)).sum := by
  induction h with
  | nil => cases hp
  | @cons b q blocks parts hb _ ih =>
    rw [List.map_cons, List.sum_cons, Block.charge]
    rcases List.mem_cons.1 hp with rfl | hp
    · rw [hb.data]
      omega
    · exact (ih hp).trans (Nat.le_add_left ..)

/-- **What is charged after a run, and what the limits say about it.**  The bytes that
    have arrived are those of the blocks of the ledger, with the free bytes between
    them, and those in the buffer.  The blocks are the parts that are closed and the
    one in flight; the request is charged the header block of each and as much of its
    payload as has been taken. -/
theorem run_accounts (h : r.run {} calls = (.ok done, t))
    (hlen : (arrived calls).length ≤ Size.largest) :
    ∃ l : Ledger, arrived calls = l.bytes r.marker ++ t.buffer ∧
      List.Forall₂ Block.Holds l.blocks (done ++ t.inFlight.toList) ∧
      t.total = (l.blocks.map fun b => (b.head r.marker).length + b.payload.length).sum ∧
      t.total ≤ r.limits.request ∧
      (∀ b ∈ l.blocks, (b.head r.marker).length ≤ maxHeaderBytes) ∧
      (done ++ t.inFlight.toList).length ≤ r.limits.parts ∧
      ∀ p ∈ done ++ t.inFlight.toList, p.data.length ≤ partLimit r.limits p.filename := by
  obtain ⟨l, hl⟩ := exists_ledger_of_run h
  have hholds := hl.forall₂_holds
  have hle := hl.charge_le_largest (Or.inr hlen)
  refine ⟨l, hl.arrived_eq, hholds, hl.total_eq_charge hle, hl.total_le, hl.head_le, ?_, ?_⟩
  · rw [← hholds.length_eq]
    exact hl.length_blocks_le_parts hle
  · intro p hp
    have hsize := ((allAdmitted_of_run h).admitted p hp).size_le
    have hdata : p.data.length ≤ l.charge r.marker := length_data_le_sum hholds hp
    rwa [Nat.min_eq_left (hdata.trans hle)] at hsize

/-- A part is closed, and another is in flight with as much of its payload as cannot
    be the front of a delimiter. -/
theorem run_accounts_inFlight :
    let r : Reader := ⟨"b", {}⟩
    let calls : List Call := [
      ⟨Bytes.ofText "--b\r\nContent-Disposition: form-data; name=\"a\"\r\n\r\nhi\r", false⟩,
      ⟨Bytes.ofText "\n--b\r\nContent-Disposition: form-data; name=\"f\"; filename=\"x\"\r\n\r\n",
        false⟩,
      ⟨Bytes.ofText "0123456789", false⟩]
    ∃ t, r.run {} calls = (.ok [⟨"a", none, none, Bytes.ofText "hi"⟩], t) ∧
      t.inFlight = some ⟨"f", some "x", none, Bytes.ofText "012"⟩ ∧
      ∃ l : Ledger, arrived calls = l.bytes r.marker ++ t.buffer ∧ l.blocks.length = 2 ∧
        t.total = (l.blocks.map fun b => (b.head r.marker).length + b.payload.length).sum := by
  intro r calls
  have hrun : (r.run {} calls).1 = .ok [⟨"a", none, none, Bytes.ofText "hi"⟩] := by decide +kernel
  have hinFlight : (r.run {} calls).2.inFlight =
      some ⟨"f", some "x", none, Bytes.ofText "012"⟩ := by decide +kernel
  obtain ⟨l, hbytes, hholds, htotal, -⟩ :=
    run_accounts (Prod.ext hrun rfl : r.run {} calls = (_, (r.run {} calls).2)) (by decide +kernel)
  refine ⟨_, Prod.ext hrun rfl, hinFlight, l, hbytes, ?_, htotal⟩
  rw [hholds.length_eq, hinFlight]
  rfl

end Reader

end FormIntake.Multipart
