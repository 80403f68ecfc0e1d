/-
  FormIntake — double-precision numbers in exact arithmetic.

  A double is a sign and a whole number of units of 2⁻¹⁰⁷⁴, the smallest
  positive double; infinity is the first power of two that no double reaches.
  Reading and comparing are thus sums over natural numbers: `nearestUnits`
  rounds a quotient to 53 binary digits, and `≤` compares units.
-/
namespace FormIntake

/-- A double: a sign and a number of units of 2⁻¹⁰⁷⁴. -/
structure Double where
  negative : Bool
  units : Nat
  deriving DecidableEq, Repr

namespace Double

/-- The number of units in 1. -/
def one : Nat := Nat.pow 2 1074

/-- The units of infinity. -/
def infinite : Nat := Nat.pow 2 2098

/-- A quotient rounded to the nearest whole number, a half to the even one. -/
def roundQuotient (num den : Nat) : Nat :=
  let q := num / den
  let r := num % den
  if 2 * r < den ∨ (2 * r = den ∧ q % 2 = 0) then q else q + 1

/-- A quotient rounded to the nearest number of units that has at most 53
    binary digits before its zeros; too great a quotient is infinite. -/
def nearestUnits (num den : Nat) : Nat :=
  let step := Nat.pow 2 ((num / den).log2 + 1 - 53)
  min (roundQuotient num (den * step) * step) infinite

/-- Not infinite. -/
def isFinite (d : Double) : Bool := d.units < infinite

/-- The double as a whole number of units. -/
def toInt (d : Double) : Int := if d.negative then -(d.units : Int) else d.units

instance : LE Double := ⟨fun a b => a.toInt ≤ b.toInt⟩
instance : LT Double := ⟨fun a b => a.toInt < b.toInt⟩
instance (a b : Double) : Decidable (a ≤ b) := inferInstanceAs (Decidable (a.toInt ≤ b.toInt))
instance (a b : Double) : Decidable (a < b) := inferInstanceAs (Decidable (a.toInt < b.toInt))

/-- The double nearest to a whole number. -/
def ofInt (i : Int) : Double := ⟨i < 0, nearestUnits (i.natAbs * one) 1⟩

/-- The units nearest to `digits * 10 ^ exponent`.  Far outside the range of
    doubles the power is not worked out. -/
def decimalUnits (digits : Nat) (exponent : Int) : Nat :=
  let places := (Nat.toDigits 10 digits).length + exponent
  if digits = 0 ∨ places < -400 then 0
  else if 400 < places then infinite
  else if 0 ≤ exponent then nearestUnits (digits * Nat.pow 10 exponent.toNat * one) 1
  else nearestUnits (digits * one) (Nat.pow 10 (-exponent).toNat)

/-- The double nearest to `digits * 10 ^ exponent`, with a sign. -/
def ofDecimal (negative : Bool) (digits : Nat) (exponent : Int) : Double :=
  ⟨negative, decimalUnits digits exponent⟩

/-- The product of two magnitudes, rounded. -/
def mulUnits (a b : Nat) : Nat := nearestUnits (a * b) one

/-- The quotient of two magnitudes, rounded. -/
def divUnits (a b : Nat) : Nat := nearestUnits (a * one) b

/-- The magnitude of a power of ten, rounded. -/
def powerOfTen (n : Nat) : Nat := decimalUnits 1 n

/-- Divide a magnitude by a power of ten, in steps that a double can hold. -/
def divByPowerOfTen (units n : Nat) : Nat :=
  if n ≤ 308 ∨ units = 0 then divUnits units (powerOfTen n)
  else divByPowerOfTen (divUnits units (powerOfTen 308)) (n - 308)
termination_by n

/-- A significand scaled by a power of ten: the significand is rounded to a
    double, and so is the result of each multiplication and division.  There is
    none if the result is infinite. -/
def ofScaled? (negative : Bool) (significand : Nat) (exponent : Int) : Option Double :=
  let start := nearestUnits (significand * one) 1
  if start = 0 then some ⟨negative, 0⟩
  else if exponent < 0 then some ⟨negative, divByPowerOfTen start (-exponent).toNat⟩
  else if 308 < exponent then none
  else
    let units := mulUnits start (powerOfTen exponent.toNat)
    if units < infinite then some ⟨negative, units⟩ else none

end Double

end FormIntake
