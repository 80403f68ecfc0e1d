/-
  FormIntake — days, written and read back.

  `ofIso?_iso`: a date is read back from its year, month and day.  `ofName?_shortName`: so is
  a day of the week from its short name.
-/
import FormIntake.Calendar.Weekday
import FormIntake.Proofs.Digits
import FormIntake.Proofs.Text

namespace FormIntake

namespace Date

variable {cs rest : List Char}

/-- The characters do not go on with a digit. -/
def NoDigit (cs : List Char) : Prop := ∀ c, cs.head? = some c → c.isDigit = false

/-- A row of digits is read as its value. -/
theorem readNumber_paddedDigits (width n : Nat) (hrest : NoDigit rest) :
    readNumber (Text.paddedDigits width n ++ rest) = some (n, rest) := by
  have hdigits : ∀ c ∈ Text.paddedDigits width n, c.isDigit = true :=
    fun _ => Text.isDigit_of_mem_paddedDigits
  rw [readNumber, takeWhile_exact hdigits hrest, dropWhile_exact hdigits hrest]
  simp [Text.paddedDigits_ne_nil, Text.value_paddedDigits]

/-- As many digits as there may be are read as their value, whatever follows. -/
theorem readShortNumber_paddedDigits {width n : Nat} (hwidth : 0 < width) (hn : n < 10 ^ width)
    (rest : List Char) :
    readShortNumber width (Text.paddedDigits width n ++ rest) = some (n, rest) := by
  have hlength := Text.length_paddedDigits hwidth hn
  have hdigits : ∀ c ∈ Text.paddedDigits width n, c.isDigit = true :=
    fun _ => Text.isDigit_of_mem_paddedDigits
  have htake : ((Text.paddedDigits width n ++ rest).take width).takeWhile Char.isDigit =
      Text.paddedDigits width n := by
    rw [List.take_left' hlength, List.takeWhile_eq_self_iff.2 hdigits]
  rw [readShortNumber, htake, List.drop_left' rfl]
  simp [Text.paddedDigits_ne_nil, Text.value_paddedDigits]

/-- **A year is read back**: with a sign up to the hyphen, without one as four digits. -/
theorem readYear_yearText (year : Int) (hrest : NoDigit rest) :
    readYear (yearText year ++ rest) = some (year, rest) := by
  rw [yearText]
  split
  · rw [List.cons_append, readYear, readNumber_paddedDigits _ _ hrest, Option.map_some]
    have : -(year.natAbs : Int) = year := by omega
    rw [this]
  · split
    · rw [List.cons_append, readYear, readNumber_paddedDigits _ _ hrest, Option.map_some]
      have : (year.natAbs : Int) = year := by omega
      rw [this]
    · obtain ⟨c, cs, hcs, hc⟩ := Text.exists_paddedDigits_eq 4 year.natAbs
      have hsign : ∀ d : Char, d.isDigit = false → ∀ tail,
          Text.paddedDigits 4 year.natAbs ++ rest = d :: tail → False := by
        intro d hd tail heq
        rw [hcs, List.cons_append] at heq
        rw [(List.cons.inj heq).1, hd] at hc
        cases hc
      have hread : readShortNumber 4 (Text.paddedDigits 4 year.natAbs ++ rest) =
          some (year.natAbs, rest) := readShortNumber_paddedDigits (by decide) (by omega) rest
      rw [readYear.eq_3 _ (hsign '-' rfl) (hsign '+' rfl), hread, Option.map_some]
      have : (year.natAbs : Int) = year := by omega
      rw [this]

/-! ## Hyphens -/

theorem dropWhile_paddedDigits (width n : Nat) (rest : List Char) :
    (Text.paddedDigits width n ++ rest).dropWhile Text.isBlankChar =
      Text.paddedDigits width n ++ rest := by
  obtain ⟨d, ds, hds, hd⟩ := Text.exists_paddedDigits_eq width n
  refine Text.dropWhile_isBlankChar fun c hc => ?_
  rw [hds] at hc
  exact Option.some.inj hc ▸ Text.isBlankChar_of_isDigit hd

theorem dropWhile_yearText (year : Int) (rest : List Char) :
    (yearText year ++ rest).dropWhile Text.isBlankChar = yearText year ++ rest := by
  rw [yearText]
  split
  · exact Text.dropWhile_isBlankChar (by rintro c ⟨⟩; rfl)
  · split
    · exact Text.dropWhile_isBlankChar (by rintro c ⟨⟩; rfl)
    · exact dropWhile_paddedDigits 4 _ rest

theorem readHyphen_paddedDigits (width n : Nat) (rest : List Char) :
    readHyphen ('-' :: (Text.paddedDigits width n ++ rest)) =
      some (Text.paddedDigits width n ++ rest) := by
  rw [readHyphen, Text.dropWhile_isBlankChar (by rintro c ⟨⟩; rfl)]
  exact congrArg some (dropWhile_paddedDigits width n rest)

theorem daysInMonth_le (year : Int) (month : Nat) : daysInMonth year month ≤ 31 := by
  unfold daysInMonth
  split_ifs <;> decide

/-- **A date is read back from its year, month and day.** -/
theorem ofIso?_iso (d : Date) : ofIso? d.iso = some d := by
  obtain ⟨-, -, -, hmonth, -, hday⟩ := d.isDay
  have hdays := daysInMonth_le d.year d.month
  have hlast : Text.paddedDigits 2 d.day = Text.paddedDigits 2 d.day ++ [] :=
    (List.append_nil _).symm
  have hyear : NoDigit ('-' :: (Text.paddedDigits 2 d.month ++ '-' :: Text.paddedDigits 2 d.day)) := by
    rintro c ⟨⟩
    rfl
  rw [ofIso?, iso, String.toList_ofList, List.append_assoc, List.cons_append, dropWhile_yearText,
    readYear_yearText _ hyear]
  simp only [Option.bind_eq_bind, Option.bind_some]
  rw [readHyphen_paddedDigits, Option.bind_some,
    readShortNumber_paddedDigits (by decide) (by omega), Option.bind_some]
  dsimp only
  rw [hlast, readHyphen_paddedDigits, Option.bind_some,
    readShortNumber_paddedDigits (by decide) (by omega), Option.bind_some]
  simp only [List.all_nil, if_true]
  rw [of?, dif_pos d.isDay]

end Date

/-- **A day of the week is read back from its short name.** -/
theorem Weekday.ofName?_shortName (d : Weekday) : ofName? d.shortName = some d := by
  cases d <;> decide

end FormIntake
