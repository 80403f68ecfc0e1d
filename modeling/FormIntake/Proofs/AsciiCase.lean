/-
  FormIntake — texts in capitals and in small letters.

  Only the small letters a to z have another capital than themselves, 32 places in
  front of them (`toUpper_cases`).  So digits and blanks are what they were, before
  and after a text is put in capitals.  Texts that differ in the case of letters at most
  are the same if their capitals stand at the same places (`eq_of_lower_eq`).
-/
import FormIntake.Proofs.Text
import FormIntake.Text.AsciiCase

namespace FormIntake.Text

variable {a b c : Char} {cs ds : List Char}

/-- What holds of every character of a text is decided there, and not over all
    characters.  A local instance where the letters of a scheme are looked through. -/
@[reducible]
def decidableForallMem (p : Char → Prop) [DecidablePred p] (cs : List Char) :
    Decidable (∀ c ∈ cs, p c) :=
  List.decidableBAll p cs

theorem toUpper_cases (c : Char) :
    c.toUpper = c ∨ 97 ≤ c.toNat ∧ c.toNat ≤ 122 ∧ c.toUpper.toNat + 32 = c.toNat := by
  unfold Char.toUpper
  split
  · next h =>
    obtain ⟨hlow, hhigh⟩ := h
    have hlow : 97 ≤ c.val.toNat := UInt32.le_iff_toNat_le.1 hlow
    have hhigh : c.val.toNat ≤ 122 := UInt32.le_iff_toNat_le.1 hhigh
    refine Or.inr ⟨hlow, hhigh, ?_⟩
    -- the distance to the capital is added modulo the width of a character
    rw [Char.toNat_mk, UInt32.toNat_add, show ('A'.val - 'a'.val).toNat = 2 ^ 32 - 32 from rfl,
      ← Char.toNat_val]
    omega
  · exact Or.inl rfl

theorem isDigit_toUpper (c : Char) : c.toUpper.isDigit = c.isDigit := by
  rcases toUpper_cases c with h | ⟨hlow, hhigh, h⟩
  · rw [h]
  · rw [Bool.eq_iff_iff, Char.isDigit_iff_toNat, Char.isDigit_iff_toNat]
    rw [show '0'.toNat = 48 from rfl, show '9'.toNat = 57 from rfl]
    omega

theorem toUpper_of_isDigit (h : c.isDigit = true) : c.toUpper = c := by
  obtain ⟨-, hhigh⟩ := Char.isDigit_iff_toNat.1 h
  rw [show '9'.toNat = 57 from rfl] at hhigh
  exact (toUpper_cases c).resolve_right fun h => by omega

theorem isBlankChar_toUpper (c : Char) : isBlankChar c.toUpper = isBlankChar c := by
  rcases toUpper_cases c with h | ⟨hlow, hhigh, h⟩
  · rw [h]
  · rw [isBlankChar_of_visible (by omega) (by omega), isBlankChar_of_visible (by omega) (by omega)]

theorem isUpper_iff : c.isUpper = true ↔ 65 ≤ c.toNat ∧ c.toNat ≤ 90 := by
  have h : c.isUpper = true ↔ 'A'.val ≤ c.val ∧ c.val ≤ 'Z'.val := decide_eq_true_iff
  rw [h, UInt32.le_iff_toNat_le, UInt32.le_iff_toNat_le]
  rfl

theorem isLower_iff : c.isLower = true ↔ 97 ≤ c.toNat ∧ c.toNat ≤ 122 := by
  have h : c.isLower = (decide ('a'.val ≤ c.val) && decide (c.val ≤ 'z'.val)) := rfl
  rw [h, Bool.and_eq_true, decide_eq_true_iff, decide_eq_true_iff, UInt32.le_iff_toNat_le,
    UInt32.le_iff_toNat_le]
  rfl

theorem isUpper_of_isDigit (h : c.isDigit = true) : c.isUpper = false := by
  obtain ⟨-, hhigh⟩ := Char.isDigit_iff_toNat.1 h
  rw [show '9'.toNat = 57 from rfl] at hhigh
  rw [← Bool.not_eq_true, isUpper_iff]
  omega

theorem isBlankChar_of_isUpper (h : c.isUpper = true) : isBlankChar c = false := by
  obtain ⟨hlow, hhigh⟩ := isUpper_iff.1 h
  exact isBlankChar_of_visible (by omega) (by omega)

theorem isAlpha_of_isUpper_toUpper (h : c.toUpper.isUpper = true) : c.isAlpha = true := by
  have halpha : c.isAlpha = (c.isUpper || c.isLower) := rfl
  rw [halpha, Bool.or_eq_true]
  rcases toUpper_cases c with heq | ⟨hlow, hhigh, -⟩
  · exact Or.inl (heq ▸ h)
  · exact Or.inr (isLower_iff.2 ⟨hlow, hhigh⟩)

/-! ## Small letters -/

theorem toLower_of_isUpper (h : c.isUpper = true) : c.toLower.toNat = c.toNat + 32 := by
  obtain ⟨hlow, hhigh⟩ := isUpper_iff.1 h
  have hupper : c.val ≥ 'A'.val ∧ c.val ≤ 'Z'.val := of_decide_eq_true h
  unfold Char.toLower
  rw [dif_pos hupper, Char.toNat_mk, UInt32.toNat_add,
    show ('a'.val - 'A'.val).toNat = 32 from rfl, ← Char.toNat_val]
  rw [← Char.toNat_val] at hhigh hlow
  omega

theorem toLower_of_not_isUpper (h : c.isUpper = false) : c.toLower = c := by
  have hupper : ¬ (c.val ≥ 'A'.val ∧ c.val ≤ 'Z'.val) := of_decide_eq_false h
  unfold Char.toLower
  rw [dif_neg hupper]

theorem isUpper_of_isLower (h : c.isLower = true) : c.isUpper = false := by
  obtain ⟨hlow, -⟩ := isLower_iff.1 h
  rw [← Bool.not_eq_true, isUpper_iff]
  omega

/-- Letters that are both capitals or both small differ in more than their case. -/
theorem eq_of_toLower_eq (h : a.toLower = b.toLower) (hcase : a.isUpper = b.isUpper) : a = b := by
  cases ha : a.isUpper with
  | false =>
    rw [ha] at hcase
    rwa [toLower_of_not_isUpper ha, toLower_of_not_isUpper hcase.symm] at h
  | true =>
    rw [ha] at hcase
    have := congrArg Char.toNat h
    rw [toLower_of_isUpper ha, toLower_of_isUpper hcase.symm] at this
    exact Char.toNat_inj.1 (by omega)

/-! ## Whole texts -/

@[simp] theorem upper_append (front back : List Char) :
    upper (front ++ back) = upper front ++ upper back := List.map_append

@[simp] theorem upper_cons (c : Char) (cs : List Char) :
    upper (c :: cs) = c.toUpper :: upper cs := rfl

theorem upper_of_isDigit (h : ∀ c ∈ cs, c.isDigit = true) : upper cs = cs :=
  (List.map_congr_left fun c hc => toUpper_of_isDigit (h c hc)).trans (List.map_id cs)

/-- Texts that agree in small letters and in where their capitals stand are the same. -/
theorem eq_of_lower_eq (h : lower cs = lower ds) (hcase : cs.map Char.isUpper = ds.map Char.isUpper) :
    cs = ds := by
  induction cs generalizing ds with
  | nil => exact (List.map_eq_nil_iff.1 h.symm).symm
  | cons a cs ih =>
    cases ds with
    | nil => cases h
    | cons b ds =>
      obtain ⟨hhead, htail⟩ := List.cons.inj h
      obtain ⟨hhead', htail'⟩ := List.cons.inj hcase
      rw [eq_of_toLower_eq hhead hhead', ih htail htail']

/-- Blanks may be trimmed before or after a text is put in capitals. -/
theorem trimChars_upper (cs : List Char) : trimChars (upper cs) = upper (trimChars cs) := by
  have hdrop : ∀ cs : List Char,
      (upper cs).dropWhile isBlankChar = upper (cs.dropWhile isBlankChar) := by
    intro cs
    rw [upper, List.dropWhile_map, Function.comp_def]
    simp only [isBlankChar_toUpper]
    rfl
  have hreverse : ∀ cs : List Char, (upper cs).reverse = upper cs.reverse :=
    fun cs => List.map_reverse.symm
  rw [trimChars, hdrop, trimEnd, hreverse, hdrop, hreverse]
  rfl

end FormIntake.Text
