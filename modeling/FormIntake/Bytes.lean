/-
  FormIntake — bytes as they arrive from the network.

  A body is a list of bytes, so that offsets, cuts and joins are those of
  lists.  The module names the few bytes that separate things on the wire,
  converts between texts and their UTF-8 bytes, and finds the end of a line
  (`lineEnd?`).
-/
namespace FormIntake

/-- Bytes in the order in which they arrive. -/
abbrev Bytes := List UInt8

namespace Bytes

/-- Carriage return. -/
def cr : UInt8 := 13

/-- Line feed. -/
def lf : UInt8 := 10

/-- The end of a line. -/
def crlf : Bytes := [cr, lf]

/-- The two hyphens that open every delimiter and close the last one. -/
def dashes : Bytes := [45, 45]

/-- The UTF-8 bytes of a text. -/
def ofText (s : String) : Bytes := s.toUTF8.data.toList

/-- The text that the bytes spell in UTF-8, if they spell one. -/
def text? (b : Bytes) : Option String := String.fromUTF8? ⟨b.toArray⟩

/-- Scan for a line end, `pos` bytes having been passed already. -/
def lineEndFrom (pos : Nat) : Bytes → Option Nat
  | [] => none
  | [_] => none
  | b :: c :: rest =>
    if b = cr ∧ c = lf then some pos else lineEndFrom (pos + 1) (c :: rest)

/-- The offset of the first line end. -/
def lineEnd? (b : Bytes) : Option Nat := lineEndFrom 0 b

theorem lineEndFrom_le {pos n : Nat} {b : Bytes} (h : lineEndFrom pos b = some n) :
    n + 2 ≤ pos + b.length := by
  fun_induction lineEndFrom pos b with
  | case1 | case2 => simp at h
  | case3 pos b c rest _ => simp only [Option.some.injEq] at h; simp; omega
  | case4 pos b c rest _ ih => have := ih h; simp at this ⊢; omega

/-- A line end found lies inside the bytes searched. -/
theorem lineEnd?_le {n : Nat} {b : Bytes} (h : lineEnd? b = some n) : n + 2 ≤ b.length := by
  have := lineEndFrom_le h; omega

end Bytes

end FormIntake
