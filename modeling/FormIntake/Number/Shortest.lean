/-
  FormIntake — the shortest decimal text of a double.

  On the decimal grid with one significant digit, then two, and so on up to
  seventeen, the two neighbours of the double are tried: the first grid that has
  a point which reads back as the double wins, and of two such points the nearer
  one.  `Double.text` writes the digits in positional form from 10⁻⁵ up to 10¹⁶ and
  with an exponent outside, always with a point or an exponent.
-/
import FormIntake.Number.Double
import FormIntake.Text.Numeral

namespace FormIntake.Double

/-- Digits and the power of ten they are multiplied by. -/
structure Decimal where
  digits : Nat
  exponent : Int
  deriving DecidableEq, Repr

/-- The exponent of the leading decimal digit. -/
def leadingExponent (units : Nat) : Int :=
  ((Nat.toDigits 10 (units * Nat.pow 10 400 / one)).length : Int) - 401

/-- The neighbours of a magnitude among the multiples of `10 ^ exponent`, the
    nearer one first, the even one if both are equally near. -/
def neighbours (units : Nat) (exponent : Int) : List Decimal :=
  let num := units * Nat.pow 10 (-exponent).toNat
  let den := one * Nat.pow 10 exponent.toNat
  let near := roundQuotient num den
  let far := if num ≤ near * den then near - 1 else near + 1
  [⟨near, exponent⟩, ⟨far, exponent⟩]

/-- The decimal reads back as the magnitude. -/
def readsBack (units : Nat) (d : Decimal) : Bool := decimalUnits d.digits d.exponent == units

/-- All digits of a magnitude: a unit is 5¹⁰⁷⁴ in the last of 1074 decimal
    places. -/
def allDigits (units : Nat) : Decimal := ⟨units * Nat.pow 5 1074, -1074⟩

/-- The shortest decimal that reads back as the magnitude. -/
def shortestDecimal (units : Nat) : Decimal :=
  let grids := (List.range 17).map fun (n : Nat) => leadingExponent units - n
  ((grids.flatMap (neighbours units)).find? (readsBack units)).getD (allDigits units)

/-- The decimal without zeros at the end of its digits. -/
def Decimal.trim : Nat → Decimal → Decimal
  | 0, d => d
  | fuel + 1, d =>
    if d.digits % 10 = 0 then Decimal.trim fuel ⟨d.digits / 10, d.exponent + 1⟩ else d

/-- Digits with a point after the first `places` of them. -/
def positional (ds : List Char) (places : Int) : List Char :=
  if places ≤ 0 then ['0', '.'] ++ List.replicate (-places).toNat '0' ++ ds
  else if ds.length ≤ places then
    ds ++ List.replicate (places.toNat - ds.length) '0' ++ ['.', '0']
  else ds.take places.toNat ++ '.' :: ds.drop places.toNat

/-- Digits with a point after the first one, if there are more, and the
    exponent of the first one. -/
def scientific (ds : List Char) (exponent : Int) : List Char :=
  let mantissa := if ds.length ≤ 1 then ds else ds.take 1 ++ '.' :: ds.drop 1
  let sign := if exponent < 0 then '-' else '+'
  mantissa ++ 'e' :: sign :: Text.digits exponent.natAbs

/-- A positive magnitude in decimal digits. -/
def magnitudeText (units : Nat) : List Char :=
  let short := shortestDecimal units
  let d := short.trim (Text.digits short.digits).length
  let ds := Text.digits d.digits
  let places := ds.length + d.exponent
  if -5 < places ∧ places ≤ 16 then positional ds places else scientific ds (places - 1)

/-- The shortest text that reads back as the double. -/
def text (d : Double) : String :=
  let magnitude := if d.units = 0 then ['0', '.', '0'] else magnitudeText d.units
  String.ofList (if d.negative then '-' :: magnitude else magnitude)

end FormIntake.Double
