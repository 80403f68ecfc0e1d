/-
  FormIntake — sizes in bytes.

  Every size that is configured or charged fits in 64 bits; a sum that would
  not fit stays at the largest size.
-/
namespace FormIntake.Size

/-- One mebibyte. -/
def mebibyte : Nat := 1024 * 1024

/-- The largest size there is. -/
def largest : Nat := 0xFFFFFFFFFFFFFFFF

/-- The sum of two sizes, or the largest size if the sum is beyond it. -/
def add (a b : Nat) : Nat := min (a + b) largest

end FormIntake.Size
