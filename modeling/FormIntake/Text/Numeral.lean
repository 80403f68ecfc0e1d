/-
  FormIntake — numerals in base ten and base sixteen.

  `digits` writes a number in ASCII digits and `value` reads such digits back
  (`value_digits`).  `readUpTo?` reads them where a number has a greatest value: it
  stops at the digit with which the number gets too large.
-/
namespace FormIntake.Text

/-- The number that a row of ASCII digits stands for. -/
def value (cs : List Char) : Nat := Nat.ofDigitChars 10 cs 0

/-- A number in ASCII digits, without leading zeros. -/
def digits (n : Nat) : List Char := Nat.toDigits 10 n

theorem value_digits (n : Nat) : value (digits n) = n :=
  Nat.ofDigitChars_toDigits (by decide) (by decide)

theorem isDigit_of_mem_digits {n : Nat} {c : Char} (h : c ∈ digits n) : c.isDigit = true :=
  Nat.isDigit_of_mem_toDigits (by decide) (by decide) h

theorem notMem_digits {c : Char} (h : c.isDigit = false) (n : Nat) : c ∉ digits n := by
  intro hc
  rw [isDigit_of_mem_digits hc] at h
  cases h

/-! ## Numbers that have a greatest value -/

/-- The number `n` with one more digit behind it, unless `c` is no digit or the number is
    then above `max`. -/
def addDigit? (max n : Nat) (c : Char) : Option Nat :=
  let longer := 10 * n + (c.toNat - '0'.toNat)
  if c.isDigit && longer ≤ max then some longer else none

/-- The characters without a plus sign in front. -/
def withoutPlus : List Char → List Char
  | '+' :: cs => cs
  | cs => cs

/-- The number up to `max` that the characters stand for: digits, one at least, after an
    optional plus sign. -/
def readUpTo? (max : Nat) (cs : List Char) : Option Nat :=
  let ds := withoutPlus cs
  if ds.isEmpty then none else ds.foldlM (addDigit? max) 0

/-! ## Other ways of writing numbers -/

/-- A number written with at least `width` digits. -/
def paddedDigits (width n : Nat) : List Char :=
  List.replicate (width - (digits n).length) '0' ++ digits n

/-- A number in base sixteen with small letters. -/
def hexDigits (n : Nat) : List Char := Nat.toDigits 16 n

/-- The number a digit of base sixteen stands for, in either case. -/
def hexValue? (c : Char) : Option Nat :=
  if c.isDigit then some (c.toNat - '0'.toNat)
  else if 'a' ≤ c ∧ c ≤ 'f' then some (c.toNat - 'a'.toNat + 10)
  else if 'A' ≤ c ∧ c ≤ 'F' then some (c.toNat - 'A'.toNat + 10)
  else none

end FormIntake.Text
