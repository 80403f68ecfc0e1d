/-
  FormIntake — finding a delimiter.

  A delimiter is the marker (two hyphens and the boundary) at the start of a
  line, followed by a line end or by two more hyphens.  `findDelimiter` walks
  the occurrences of the marker from left to right, none overlapping the one
  before it, and returns the first that is a delimiter.
-/
import FormIntake.Bytes

namespace FormIntake.Multipart

/-- What follows the marker makes it a delimiter: a line end before a part, two
    hyphens at the end of the body. -/
def endsDelimiter (after : Bytes) : Bool :=
  Bytes.crlf.isPrefixOf after || Bytes.dashes.isPrefixOf after

/-- Walk on from offset `pos`.  `lineStart` tells whether a line starts here,
    `afterCr` whether the last byte was a carriage return, and `skip` is the
    number of bytes that still belong to the last occurrence of the marker. -/
def findDelimiterFrom (marker : Bytes) (lineStart afterCr : Bool) (skip pos : Nat) :
    Bytes → Option Nat
  | [] => none
  | b :: rest =>
    let found := skip == 0 && marker.isPrefixOf (b :: rest)
    if found && lineStart && endsDelimiter ((b :: rest).drop marker.length) then some pos
    else
      findDelimiterFrom marker (afterCr && b == Bytes.lf) (b == Bytes.cr)
        (if found then marker.length - 1 else skip - 1) (pos + 1) rest

/-- The offset of the first delimiter.  The front of the data counts as the
    start of a line if `atStart` is set. -/
def findDelimiter (marker : Bytes) (atStart : Bool) (data : Bytes) : Option Nat :=
  findDelimiterFrom marker atStart false 0 0 data

theorem le_of_findDelimiterFrom {marker data : Bytes} {lineStart afterCr : Bool}
    {skip pos n : Nat} (h : findDelimiterFrom marker lineStart afterCr skip pos data = some n) :
    pos ≤ n ∧ n < pos + data.length := by
  induction data generalizing lineStart afterCr skip pos with
  | nil => simp [findDelimiterFrom] at h
  | cons b rest ih =>
    simp only [findDelimiterFrom] at h
    split at h
    · simp only [Option.some.injEq] at h; simp; omega
    · have := ih h; simp; omega

/-- A delimiter found lies inside the data. -/
theorem findDelimiter_lt {marker data : Bytes} {atStart : Bool} {n : Nat}
    (h : findDelimiter marker atStart data = some n) : n < data.length := by
  have := le_of_findDelimiterFrom h; omega

/-- Where the front of the data is no start of a line, no delimiter is there. -/
theorem findDelimiter_pos {marker data : Bytes} {n : Nat}
    (h : findDelimiter marker false data = some n) : 0 < n := by
  cases data with
  | nil => simp [findDelimiter, findDelimiterFrom] at h
  | cons b rest =>
    simp only [findDelimiter, findDelimiterFrom, Bool.and_false, Bool.false_and,
      Bool.false_eq_true, if_false] at h
    have := le_of_findDelimiterFrom h; omega

end FormIntake.Multipart
