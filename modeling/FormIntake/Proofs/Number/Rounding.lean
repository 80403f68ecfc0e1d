/-
  FormIntake — rounding to doubles stays between powers of two.

  A power of two is a double, so what lies above or below it is rounded to a double
  above or below it (`nearestUnits_le`, `le_nearestUnits`).  Hence a significand of
  64 bits that is scaled is never rounded to infinity (`isFinite_of_ofScaled?`).
-/
import FormIntake.Json.Value
import Mathlib.Algebra.Group.Nat.Defs
import Mathlib.Data.Nat.Log

namespace FormIntake.Double

variable {num den k units significand : Nat}

/-- One is a power of two. -/
theorem exists_one_eq : ∃ i, i = 1074 ∧ one = 2 ^ i := by
  unfold one
  generalize 1074 = i
  exact ⟨i, rfl, rfl⟩

/-- Infinity is a power of two. -/
theorem exists_infinite_eq : ∃ i, i = 2098 ∧ infinite = 2 ^ i := by
  unfold infinite
  generalize 2098 = i
  exact ⟨i, rfl, rfl⟩

theorem one_pos : 0 < one := by
  obtain ⟨i, -, hone⟩ := exists_one_eq
  exact hone ▸ Nat.two_pow_pos i

theorem roundQuotient_le {bound : Nat} (hden : 0 < den) (h : num ≤ bound * den) :
    roundQuotient num den ≤ bound := by
  have hdiv : num / den ≤ bound := Nat.div_le_of_le_mul (Nat.mul_comm bound den ▸ h)
  rw [roundQuotient]
  split
  · exact hdiv
  · next hup =>
    refine Nat.lt_of_le_of_ne hdiv fun heq => hup (Or.inl ?_)
    -- a quotient that reaches the bound leaves no remainder
    have hsplit := Nat.div_add_mod num den
    rw [heq, Nat.mul_comm] at hsplit
    omega

theorem le_roundQuotient {bound : Nat} (hden : 0 < den) (h : bound * den ≤ num) :
    bound ≤ roundQuotient num den := by
  have hdiv : bound ≤ num / den := (Nat.le_div_iff_mul_le hden).2 h
  rw [roundQuotient]
  split
  · exact hdiv
  · exact Nat.le_succ_of_le hdiv

/-- What is at most a power of two is rounded to at most that power. -/
theorem nearestUnits_le (hden : 0 < den) (h : num ≤ 2 ^ k * den) : nearestUnits num den ≤ 2 ^ k := by
  have hdiv : num / den ≤ 2 ^ k := Nat.div_le_of_le_mul (Nat.mul_comm _ den ▸ h)
  have hlog : (num / den).log2 ≤ k := by
    by_cases hzero : num / den = 0
    · rw [hzero, Nat.log2_zero]
      exact Nat.zero_le k
    · exact (Nat.pow_le_pow_iff_right (by decide)).1
        (Nat.le_trans (Nat.log2_self_le hzero) hdiv)
  obtain ⟨i, hi⟩ : ∃ i, k = i + ((num / den).log2 + 1 - 53) :=
    ⟨k - ((num / den).log2 + 1 - 53), by omega⟩
  have hstep : 0 < Nat.pow 2 ((num / den).log2 + 1 - 53) := Nat.pow_pos (by decide)
  have hpow : 2 ^ k = 2 ^ i * Nat.pow 2 ((num / den).log2 + 1 - 53) := by
    rw [hi, Nat.pow_add]
    rfl
  rw [nearestUnits]
  refine Nat.le_trans (Nat.min_le_left _ _) ?_
  rw [hpow]
  refine Nat.mul_le_mul_right _ (roundQuotient_le (Nat.mul_pos hden hstep) ?_)
  rw [hpow] at h
  rw [Nat.mul_comm den, ← Nat.mul_assoc]
  exact h

/-- What is at least a power of two is rounded to at least that power. -/
theorem le_nearestUnits (hden : 0 < den) (hk : k ≤ 2098) (h : 2 ^ k * den ≤ num) :
    2 ^ k ≤ nearestUnits num den := by
  have hdiv : 2 ^ k ≤ num / den := (Nat.le_div_iff_mul_le hden).2 h
  have hzero : num / den ≠ 0 := by
    have := Nat.pow_pos (n := k) (show 0 < 2 by decide)
    omega
  have hlog : k ≤ (num / den).log2 := (Nat.le_log2 hzero).2 hdiv
  have hstep : 0 < Nat.pow 2 ((num / den).log2 + 1 - 53) := Nat.pow_pos (by decide)
  obtain ⟨i, hi⟩ : ∃ i, (num / den).log2 = i + ((num / den).log2 + 1 - 53) :=
    ⟨(num / den).log2 - ((num / den).log2 + 1 - 53), by omega⟩
  have hpow : 2 ^ (num / den).log2 = 2 ^ i * Nat.pow 2 ((num / den).log2 + 1 - 53) := by
    conv_lhs => rw [hi]
    rw [Nat.pow_add]
    rfl
  have hnum : 2 ^ (num / den).log2 * den ≤ num :=
    Nat.le_trans (Nat.mul_le_mul_right den (Nat.log2_self_le hzero)) (Nat.div_mul_le_self num den)
  obtain ⟨top, htop, hinfinite⟩ := exists_infinite_eq
  rw [nearestUnits, hinfinite]
  refine Nat.le_min.2 ⟨?_, Nat.pow_le_pow_right (by decide) (by omega)⟩
  refine Nat.le_trans (Nat.pow_le_pow_right (by decide) hlog) ?_
  rw [hpow]
  refine Nat.mul_le_mul_right _ (le_roundQuotient (Nat.mul_pos hden hstep) ?_)
  rw [hpow] at hnum
  rw [Nat.mul_comm den, ← Nat.mul_assoc]
  exact hnum

/-! ## Powers of ten -/

theorem one_le_powerOfTen (n : Nat) : one ≤ powerOfTen n := by
  rw [powerOfTen, decimalUnits, show (Nat.toDigits 10 1).length = 1 from rfl, if_neg (by omega)]
  obtain ⟨i, hi, hone⟩ := exists_one_eq
  obtain ⟨top, htop, hinfinite⟩ := exists_infinite_eq
  split
  · rw [hone, hinfinite]
    exact Nat.pow_le_pow_right (by decide) (by omega)
  · rw [if_pos (by omega), Nat.one_mul, hone]
    refine le_nearestUnits (by decide) (by omega) ?_
    rw [Nat.mul_one]
    exact Nat.le_mul_of_pos_left _ (Nat.pow_pos (by decide))

theorem divUnits_le (n : Nat) (h : units ≤ 2 ^ k) : divUnits units (powerOfTen n) ≤ 2 ^ k := by
  have hone := one_le_powerOfTen n
  exact nearestUnits_le (Nat.lt_of_lt_of_le one_pos hone) (Nat.mul_le_mul h hone)

theorem divByPowerOfTen_le (n : Nat) (h : units ≤ 2 ^ k) : divByPowerOfTen units n ≤ 2 ^ k := by
  fun_induction divByPowerOfTen units n with
  | case1 units n _ => exact divUnits_le n h
  | case2 units n _ ih => exact ih (divUnits_le 308 h)

/-- **A significand of 64 bits is not scaled to infinity.** -/
theorem isFinite_of_ofScaled? {negative : Bool} {exponent : Int} {d : Double}
    (hword : significand ≤ Json.largestWord)
    (h : ofScaled? negative significand exponent = some d) : d.isFinite = true := by
  obtain ⟨i, hi, hone⟩ := exists_one_eq
  obtain ⟨top, htop, hinfinite⟩ := exists_infinite_eq
  have hstart : nearestUnits (significand * one) 1 ≤ 2 ^ (64 + i) := by
    refine nearestUnits_le (by decide) ?_
    rw [Nat.mul_one, hone, Nat.pow_add]
    exact Nat.mul_le_mul_right _ (Nat.le_trans hword (by decide))
  have hfinite : ∀ units, units ≤ 2 ^ (64 + i) → units < infinite := fun units hunits =>
    hinfinite ▸ Nat.lt_of_le_of_lt hunits (Nat.pow_lt_pow_right (by decide) (by omega))
  rw [ofScaled?] at h
  rw [isFinite, decide_eq_true_eq]
  split_ifs at h
  · rw [← Option.some.inj h]
    exact hfinite 0 (Nat.zero_le _)
  · rw [← Option.some.inj h]
    exact hfinite _ (divByPowerOfTen_le _ hstart)
  · dsimp only at h
    split at h
    · next hbelow =>
      rw [← Option.some.inj h]
      exact hbelow
    · cases h

end FormIntake.Double
