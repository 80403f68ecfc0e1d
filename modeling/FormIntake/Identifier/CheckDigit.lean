/-
  FormIntake — check characters over weighted sums.

  An identifier carries a check character that is looked up under the weighted
  sum of the values of its other characters, modulo eleven.  As eleven is prime
  and no weight is a multiple of it, a changed digit changes the sum.
-/
import FormIntake.Text.Numeral

namespace FormIntake.Identifier

/-- The sum of the values, each times its weight. -/
def weightedSum : (weights values : List Nat) → Nat
  | w :: weights, v :: values => w * v + weightedSum weights values
  | _, _ => 0

/-- The values of digits. -/
def digitValues (ds : List Char) : List Nat := ds.map fun d => d.toNat - '0'.toNat

/-- The check character that an alphabet has for a sum. -/
def checkChar (alphabet : List Char) (sum : Nat) : Option Char := alphabet[sum % 11]?

end FormIntake.Identifier
