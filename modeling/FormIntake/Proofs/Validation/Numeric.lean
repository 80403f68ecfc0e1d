/-
  FormIntake — which texts, numbers and decimals a field takes.

  The rules of the bounds that these fields have (`CountBound.Takes`, `ValueRange.Takes`),
  and with them those of the fields:

  * `CountBound.checkText_eq_ok_iff`: the number of characters of a text is in its bound;
  * `NumberOptions.check_eq_ok_iff`: a number is written in digits, and their count or
    their value is in its bound;
  * `DecimalOptions.check_eq_ok_iff`: a decimal is `decimalChars` of its parts, and the
    double nearest to it is in its range.  The parts are read back from the text
    (`readDecimal_decimalChars`).
-/
import FormIntake.Proofs.Validation.Rating
import FormIntake.Proofs.Validation.Traversal

namespace FormIntake

open Validation Text

/-! ## Bounds -/

/-- A count within its bound.  A bound without a number, or with the number zero, is none. -/
structure CountBound.Takes (b : CountBound) (count : Nat) : Prop where
  exactly : b.rule = some .exactly → ∀ n, b.given = some n → 0 < n → count = n
  atLeast : b.rule = some .atLeast → ∀ n, b.given = some n → 0 < n → n ≤ count
  atMost : b.rule = some .atMost → ∀ n, b.given = some n → 0 < n → count ≤ n

/-- A value within its range, ends included. -/
structure ValueRange.Takes (r : ValueRange) (v : Double) : Prop where
  min : ∀ b, r.min = some b → b ≤ v
  max : ∀ b, r.max = some b → v ≤ b

/-- The rule of a bound and its number, if the bound has both. -/
theorem CountBound.takes_iff {b : CountBound} {count : Nat} : b.Takes count ↔
    ∀ rule, b.rule = some rule → ∀ n, b.given = some n → 0 < n → rule.holds count n = true := by
  constructor
  · rintro ⟨hexactly, hleast, hmost⟩ rule hrule n hn hpos
    cases rule with
    | exactly => simpa [CountRule.holds] using hexactly hrule n hn hpos
    | atLeast => simpa [CountRule.holds] using hleast hrule n hn hpos
    | atMost => simpa [CountRule.holds] using hmost hrule n hn hpos
  · intro h
    refine ⟨fun hrule n hn hpos => ?_, fun hrule n hn hpos => ?_, fun hrule n hn hpos => ?_⟩
    · simpa [CountRule.holds] using h _ hrule n hn hpos
    · simpa [CountRule.holds] using h _ hrule n hn hpos
    · simpa [CountRule.holds] using h _ hrule n hn hpos

theorem CountBound.holds_iff {b : CountBound} {count : Nat} :
    b.holds count = true ↔ b.Takes count := by
  rw [takes_iff, holds]
  split
  · next rule n hrule hn =>
    simp only [hrule, hn, Bool.or_eq_true, beq_iff_eq, Option.some.injEq, forall_eq']
    rw [Nat.pos_iff_ne_zero, or_iff_not_imp_left]
  · next hnone =>
    refine iff_of_true rfl fun rule hrule n hn _ => ?_
    exact absurd hn (hnone rule n hrule)

theorem ValueRange.holds_iff {r : ValueRange} {v : Double} : r.holds v = true ↔ r.Takes v := by
  rw [holds, Bool.and_eq_true, Option.all_eq_true, Option.all_eq_true]
  simp only [decide_eq_true_eq]
  constructor
  · rintro ⟨hmin, hmax⟩
    exact ⟨hmin, hmax⟩
  · rintro ⟨hmin, hmax⟩
    exact ⟨hmin, hmax⟩

/-! ## Texts and whole numbers -/

/-- **Which texts a field takes.** -/
theorem CountBound.checkText_eq_ok_iff {b : CountBound} {answer : String} :
    b.checkText answer = .ok () ↔ b.Takes answer.length := by
  rw [checkText, require_eq_ok, holds_iff]

/-- A whole number that a field takes: digits alone, which are as many as its rule says or
    have a value in its range. -/
structure NumberOptions.Takes (o : NumberOptions) (answer : String) : Prop where
  digits : ∀ c ∈ answer.toList, c.isDigit = true
  length : o.rule = some .length → o.length.Takes answer.toList.length
  range : o.rule = some .range →
    answer.toList ≠ [] ∧ o.range.Takes (Double.ofDecimal false (value answer.toList) 0)

/-- **Which whole numbers a field takes.** -/
theorem NumberOptions.check_eq_ok_iff {o : NumberOptions} {answer : String} :
    o.check answer = .ok () ↔ o.Takes answer := by
  have hparts : o.Takes answer ↔ (∀ c ∈ answer.toList, c.isDigit = true) ∧
      (o.rule = some .length → o.length.Takes answer.toList.length) ∧
      (o.rule = some .range →
        answer.toList ≠ [] ∧ o.range.Takes (Double.ofDecimal false (value answer.toList) 0)) :=
    ⟨fun ⟨hdigits, hlength, hrange⟩ => ⟨hdigits, hlength, hrange⟩,
      fun ⟨hdigits, hlength, hrange⟩ => ⟨hdigits, hlength, hrange⟩⟩
  rw [hparts, check, check_bind_eq_ok, require_eq_ok, List.all_eq_true]
  refine and_congr_right fun _ => ?_
  split
  · next hrule => simp [hrule, pure, Except.pure]
  · next hrule => simp [hrule, CountBound.holds_iff]
  · next hrule => simp [hrule, check_bind_eq_ok, ValueRange.holds_iff]

/-! ## Decimals -/

open Text.Pattern

/-- A decimal as it is written: a sign for a negative one, the whole part without leading
    zeros, and behind a point the places, if there are any. -/
def decimalChars (negative : Bool) (whole : Nat) (places : List Char) : List Char :=
  (if negative then ['-'] else []) ++ (digits whole ++ if places = [] then [] else '.' :: places)

/-- The pattern of the whole part. -/
def wholeFormat : Pattern := .either (.char '0') ratingFormat

/-- The pattern of the places, with the point in front of them. -/
def placesFormat : Pattern := .option (.andThen (.char '.') (.some (.one Char.isDigit)))

variable {cs places : List Char} {negative : Bool} {whole : Nat}

theorem matches_wholeFormat_iff : Matches wholeFormat cs ↔ ∃ n, cs = digits n := by
  rw [wholeFormat, matches_either_iff, matches_char_iff, matches_ratingFormat_iff]
  constructor
  · rintro (rfl | ⟨n, -, rfl⟩)
    · exact ⟨0, rfl⟩
    · exact ⟨n, rfl⟩
  · rintro ⟨n, rfl⟩
    rcases Nat.eq_zero_or_pos n with rfl | hn
    · exact Or.inl rfl
    · exact Or.inr ⟨n, hn, rfl⟩

theorem matches_placesFormat_iff : Matches placesFormat cs ↔
    ∃ places, (∀ c ∈ places, c.isDigit = true) ∧
      cs = if places = [] then [] else '.' :: places := by
  rw [placesFormat, matches_option_iff, matches_char_andThen_iff]
  simp only [matches_some_one_iff]
  constructor
  · rintro (rfl | ⟨places, rfl, hne, hplaces⟩)
    · exact ⟨[], by simp, rfl⟩
    · exact ⟨places, hplaces, by rw [if_neg hne]⟩
  · rintro ⟨places, hplaces, rfl⟩
    by_cases hne : places = []
    · rw [if_pos hne]
      exact Or.inl rfl
    · rw [if_neg hne]
      exact Or.inr ⟨places, rfl, hne, hplaces⟩

/-- **The format of a decimal**: the texts of its parts. -/
theorem matches_decimalFormat_iff : Matches decimalFormat cs ↔
    ∃ negative whole places, (∀ c ∈ places, c.isDigit = true) ∧
      cs = decimalChars negative whole places := by
  have hformat : Matches decimalFormat cs ↔
      Matches (.andThen (.option (.char '-')) (.andThen wholeFormat placesFormat)) cs := Iff.rfl
  rw [hformat]
  simp only [matches_andThen_iff, matches_wholeFormat_iff, matches_placesFormat_iff,
    matches_option_iff, matches_char_iff]
  constructor
  · rintro ⟨_, _, rfl, rfl | rfl, _, _, rfl, ⟨whole, rfl⟩, places, hplaces, rfl⟩
    · exact ⟨false, whole, places, hplaces, rfl⟩
    · exact ⟨true, whole, places, hplaces, rfl⟩
  · rintro ⟨negative, whole, places, hplaces, rfl⟩
    refine ⟨_, _, rfl, ?_, _, _, rfl, ⟨whole, rfl⟩, places, hplaces, rfl⟩
    cases negative with
    | false => exact Or.inl rfl
    | true => exact Or.inr rfl

/-- The first character tells the sign. -/
theorem head?_decimalChars :
    ((decimalChars negative whole places).head? == .some '-') = negative := by
  cases negative with
  | true => rfl
  | false =>
    obtain ⟨d, ds, hds⟩ := List.exists_cons_of_ne_nil (digits_ne_nil whole)
    have hd : d ≠ '-' := by
      rintro rfl
      have hdigit : '-' ∈ digits whole := by rw [hds]; exact List.mem_cons_self
      exact notMem_digits rfl whole hdigit
    simp [decimalChars, hds, hd]

/-- The digits are those of the whole part and the places. -/
theorem filter_decimalChars (hplaces : ∀ c ∈ places, c.isDigit = true) :
    (decimalChars negative whole places).filter Char.isDigit = digits whole ++ places := by
  have hsign : (if negative then ['-'] else []).filter Char.isDigit = [] := by
    cases negative <;> rfl
  have hwhole : (digits whole).filter Char.isDigit = digits whole :=
    List.filter_eq_self.2 fun _ => isDigit_of_mem_digits
  have hpoint : (if places = [] then [] else '.' :: places).filter Char.isDigit = places := by
    split
    · next hnil => rw [hnil]; rfl
    · rw [List.filter_cons_of_neg (by decide), List.filter_eq_self.2 hplaces]
  rw [decimalChars, List.filter_append, List.filter_append, hsign, hwhole, hpoint, List.nil_append]

/-- Behind the first point stand the places. -/
theorem dropWhile_decimalChars :
    ((decimalChars negative whole places).dropWhile (· != '.')).drop 1 = places := by
  have hfront : ∀ c ∈ (if negative then ['-'] else []) ++ digits whole, (c != '.') = true := by
    intro c hc
    rcases List.mem_append.1 hc with hc | hc
    · cases negative with
      | false => cases hc
      | true => rw [List.mem_singleton.1 hc]; rfl
    · rw [bne_iff_ne]
      rintro rfl
      exact notMem_digits rfl whole hc
  rw [decimalChars, ← List.append_assoc]
  by_cases hnil : places = []
  · rw [if_pos hnil, List.append_nil, List.dropWhile_eq_nil_iff.2 hfront, hnil]
    rfl
  · rw [if_neg hnil, dropWhile_exact hfront (by simp)]
    rfl

/-- A decimal has its value back when it is read. -/
theorem readDecimal_decimalChars (hplaces : ∀ c ∈ places, c.isDigit = true) :
    readDecimal (decimalChars negative whole places) =
      Double.ofDecimal negative (value (digits whole ++ places)) (-places.length) := by
  rw [readDecimal, filter_decimalChars hplaces, head?_decimalChars, dropWhile_decimalChars]

/-- A decimal that a field takes: its range holds the double nearest to it. -/
def DecimalOptions.Takes (o : DecimalOptions) (answer : String) : Prop :=
  ∃ negative whole places, (∀ c ∈ places, c.isDigit = true) ∧
    answer.toList = decimalChars negative whole places ∧
    (o.ranged = true → o.range.Takes
      (Double.ofDecimal negative (value (digits whole ++ places)) (-places.length)))

/-- **Which decimals a field takes.** -/
theorem DecimalOptions.check_eq_ok_iff {o : DecimalOptions} {answer : String} :
    o.check answer = .ok () ↔ o.Takes answer := by
  rw [check, check_bind_eq_ok, require_eq_ok, require_eq_ok, accepts_iff,
    matches_decimalFormat_iff, Bool.or_eq_true, Bool.not_eq_true', ValueRange.holds_iff,
    ← Bool.not_eq_true, ← imp_iff_not_or]
  constructor
  · rintro ⟨⟨negative, whole, places, hplaces, hanswer⟩, hrange⟩
    rw [hanswer, readDecimal_decimalChars hplaces] at hrange
    exact ⟨negative, whole, places, hplaces, hanswer, hrange⟩
  · rintro ⟨negative, whole, places, hplaces, hanswer, hrange⟩
    refine ⟨⟨negative, whole, places, hplaces, hanswer⟩, ?_⟩
    rwa [hanswer, readDecimal_decimalChars hplaces]

end FormIntake
