/-
  FormIntake — numbers as JSON writes them.

  A numeral without fraction and exponent is a whole number if it fits in 64
  bits; every other numeral, and a negative zero, is a double.  The significand
  of a double takes as many digits as fit in 64 bits and is then scaled.
-/
import FormIntake.Bytes
import FormIntake.Json.Value

namespace FormIntake.Json

/-- A number as it is written. -/
structure Numeral where
  negative : Bool
  /-- The digits before the point. -/
  whole : List Nat
  /-- The digits after the point; none if there is no point. -/
  fraction : List Nat
  /-- The exponent, if one is written. -/
  exponent : Option Int
  deriving DecidableEq, Repr

namespace Numeral

/-- The number a row of digits stands for. -/
def ofDigits (ds : List Nat) : Nat := ds.foldl (fun n d => 10 * n + d) 0

/-- Append digits to a significand as long as it fits in 64 bits, and count the
    digits that are left out. -/
def takeDigits (significand : Nat) : List Nat → Nat × Nat
  | [] => (significand, 0)
  | d :: ds =>
    if 10 * significand + d ≤ largestWord then takeDigits (10 * significand + d) ds
    else (significand, ds.length + 1)

/-- The numeral as a double, if it is in range. -/
def double? (n : Numeral) : Option Double :=
  let (high, left) := takeDigits 0 n.whole
  let (significand, dropped) := takeDigits high n.fraction
  let places : Int := (n.fraction.length - dropped : Nat)
  Double.ofScaled? n.negative significand (n.exponent.getD 0 + left - places)

/-- The number that the numeral stands for, if it is in range. -/
def number? (n : Numeral) : Option Number :=
  let v : Int := ofDigits n.whole
  let i := if n.negative then -v else v
  if n.fraction.isEmpty && n.exponent.isNone && !(n.negative && v == 0) &&
      leastInt ≤ i && i ≤ greatestInt then some (.int i)
  else n.double?.map .real

/-- An ASCII digit. -/
def isDigit (b : UInt8) : Bool := 48 ≤ b && b ≤ 57

/-- The digits at the front of the bytes, and the bytes after them. -/
def readDigits (b : Bytes) : List Nat × Bytes :=
  ((b.takeWhile isDigit).map fun d => d.toNat - 48, b.dropWhile isDigit)

/-- The digits after a point, if a point comes next; a point must have some. -/
def readFraction : Bytes → Option (List Nat × Bytes)
  | [] => some ([], [])
  | b :: rest =>
    if b = 46 then
      let (ds, rest) := readDigits rest
      if ds.isEmpty then none else some (ds, rest)
    else some ([], b :: rest)

/-- The sign of an exponent, a plus if none is written. -/
def readSign : Bytes → Bool × Bytes
  | [] => (false, [])
  | b :: rest => if b = 45 then (true, rest) else if b = 43 then (false, rest) else (false, b :: rest)

/-- The exponent, if one comes next; it must have digits. -/
def readExponent : Bytes → Option (Option Int × Bytes)
  | [] => some (none, [])
  | b :: rest =>
    if b = 101 ∨ b = 69 then
      let (negative, rest) := readSign rest
      let (ds, rest) := readDigits rest
      let v : Int := ofDigits ds
      if ds.isEmpty then none else some (some (if negative then -v else v), rest)
    else some (none, b :: rest)

/-- The numeral that the bytes spell, if they spell one.  There is no zero before
    other digits. -/
def read? (b : Bytes) : Option Numeral := do
  let negative := b.head? == some 45
  let (whole, rest) := readDigits (if negative then b.tail else b)
  if whole.isEmpty || (whole.head? == some 0 && 1 < whole.length) then none
  let (fraction, rest) ← readFraction rest
  let (exponent, rest) ← readExponent rest
  if rest.isEmpty then some { negative, whole, fraction, exponent } else none

end Numeral

end FormIntake.Json
