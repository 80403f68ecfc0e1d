/-
  FormIntake — days as answers write them.

  `ofDayMonthYear?_dayMonthYear`: a day of a year of four digits is read back from its
  day, short name of the month and year.  The reader takes more than that: blanks in front
  of the numbers, days of one digit, names in any case, signs.  It reads in three steps
  (`steps_of_ofDayMonthYear?`), and what a step has read is stated on its own
  (`digits_of_readShortNumber`, `name_of_readMonthName`).
-/
import FormIntake.Proofs.AsciiCase
import FormIntake.Proofs.Calendar.Date

namespace FormIntake.Date

open Text

variable {cs rest name : List Char} {n width month i : Nat} {d : Date}

/-! ## The steps of the reader -/

/-- A short number is a row of digits at the front. -/
theorem digits_of_readShortNumber (h : readShortNumber width cs = some (n, rest)) :
    ∃ ds, cs = ds ++ rest ∧ ds ≠ [] ∧ ds.length ≤ width ∧ (∀ c ∈ ds, c.isDigit = true) ∧
      n = value ds := by
  have hprefix : (cs.take width).takeWhile Char.isDigit <+: cs :=
    (List.takeWhile_prefix _).trans (List.take_prefix _ _)
  rw [readShortNumber] at h
  split at h
  · cases h
  · next hne =>
    cases h
    refine ⟨_, ?_, ?_, ?_, fun c hc => List.mem_takeWhile_imp hc, rfl⟩
    · exact (List.prefix_iff_eq_append.1 hprefix).symm
    · simpa using hne
    · exact (List.takeWhile_prefix _).length_le.trans (List.length_take_le _ _)

/-- The names of the months have three letters, a capital and two small ones. -/
theorem letters_of_mem_monthNames (h : name ∈ monthNames) :
    ∃ a b c, name = [a, b, c] ∧ a.isUpper = true ∧ b.isLower = true ∧ c.isLower = true := by
  have hall : ∀ name ∈ monthNames, name.map Char.isUpper = [true, false, false] ∧
      name.map Char.isLower = [false, true, true] := by decide
  obtain ⟨hupper, hlower⟩ := hall name h
  obtain ⟨a, b, c, rfl⟩ := List.length_eq_three.1 (by simpa using congrArg List.length hupper)
  simp only [List.map_cons, List.map_nil, List.cons.injEq, and_true] at hupper hlower
  exact ⟨a, b, c, rfl, hupper.1, hlower.2.1, hlower.2.2⟩

theorem length_of_mem_monthNames (h : name ∈ monthNames) : name.length = 3 := by
  obtain ⟨a, b, c, rfl, -⟩ := letters_of_mem_monthNames h
  rfl

/-- What is read as a month is its name, but for the case of letters. -/
theorem name_of_readMonthName (h : readMonthName cs = some (month, rest)) :
    ∃ name, monthNames[month - 1]? = some name ∧ 1 ≤ month ∧ lower name = lower (cs.take 3) ∧
      rest = cs.drop 3 := by
  obtain ⟨i, hi, heq⟩ := Option.map_eq_some_iff.1 h
  cases heq
  obtain ⟨hlt, hname, -⟩ := List.findIdx?_eq_some_iff_getElem.1 hi
  exact ⟨monthNames[i], List.getElem?_eq_getElem hlt, Nat.le_add_left 1 i, beq_iff_eq.1 hname, rfl⟩

/-- A month is read back from its name. -/
theorem readMonthName_append (h : monthNames[i]? = some name)
    (rest : List Char) : readMonthName (name ++ rest) = some (i + 1, rest) := by
  have hfind : ∀ i : Fin 12,
      monthNames.findIdx? (fun name => sameIgnoringCase name (monthNames.getD i [])) = some i.val := by
    decide
  obtain ⟨hlt, -⟩ := List.getElem?_eq_some_iff.1 h
  have hlength := length_of_mem_monthNames (List.mem_of_getElem? h)
  have hi := hfind ⟨i, hlt⟩
  rw [List.getD_eq_getElem?_getD, h, Option.getD_some] at hi
  rw [readMonthName, List.take_left' hlength, List.drop_left' hlength, hi, Option.map_some]

/-- A date is read in three steps, with blanks in front of each, up to the end. -/
theorem steps_of_ofDayMonthYear? (h : ofDayMonthYear? cs = some d) :
    ∃ rest rest', readShortNumber 2 (cs.dropWhile isBlankChar) = some (d.day, rest) ∧
      readMonthName (rest.dropWhile isBlankChar) = some (d.month, rest') ∧
      readYear (rest'.dropWhile isBlankChar) = some (d.year, []) := by
  obtain ⟨⟨day, rest⟩, hday, h⟩ := Option.bind_eq_some_iff.1 h
  obtain ⟨⟨month, rest'⟩, hmonth, h⟩ := Option.bind_eq_some_iff.1 h
  obtain ⟨⟨year, rest''⟩, hyear, h⟩ := Option.bind_eq_some_iff.1 h
  dsimp only at hmonth hyear h
  split at h
  · next hend =>
    rw [List.isEmpty_iff.1 hend] at hyear
    rw [of?] at h
    split at h
    · cases h
      exact ⟨rest, rest', hday, hmonth, hyear⟩
    · cases h
  · cases h

/-! ## Reading back -/

theorem getElem?_monthNames (d : Date) :
    monthNames[d.month - 1]? = some (monthNames.getD (d.month - 1) []) := by
  have hmonth := d.isDay.2.2.2.1
  have hlt : d.month - 1 < monthNames.length := by
    rw [show monthNames.length = 12 from rfl]
    omega
  rw [List.getD_eq_getElem?_getD, List.getElem?_eq_getElem hlt, Option.getD_some]

theorem of?_eq (d : Date) : of? d.year d.month d.day = some d := by
  rw [of?, dif_pos d.isDay]

theorem yearText_eq {year : Int} (hlow : 0 ≤ year) (hhigh : year ≤ 9999) :
    yearText year = paddedDigits 4 year.natAbs := by
  rw [yearText]
  rw [if_neg (by omega), if_neg (by omega)]

theorem dropWhile_space_monthName (h : name ∈ monthNames) (rest : List Char) :
    (' ' :: (name ++ rest)).dropWhile isBlankChar = name ++ rest := by
  obtain ⟨a, b, c, rfl, ha, -⟩ := letters_of_mem_monthNames h
  rw [List.dropWhile_cons_of_pos (by decide)]
  exact dropWhile_isBlankChar fun e he => Option.some.inj he ▸ isBlankChar_of_isUpper ha

theorem dropWhile_space_yearText (year : Int) :
    (' ' :: yearText year).dropWhile isBlankChar = yearText year := by
  rw [List.dropWhile_cons_of_pos (by decide), ← List.append_nil (yearText year),
    dropWhile_yearText]

/-- **A date is read back from its day, the name of its month and its year.** -/
theorem ofDayMonthYear?_dayMonthYear (hlow : 0 ≤ d.year) (hhigh : d.year ≤ 9999) :
    ofDayMonthYear? d.dayMonthYear = some d := by
  obtain ⟨-, -, hone, hmonth, -, hday⟩ := d.isDay
  have hdays := daysInMonth_le d.year d.month
  have hname := getElem?_monthNames d
  have hyear : readYear (yearText d.year ++ []) = some (d.year, []) :=
    readYear_yearText d.year fun c hc => by cases hc
  have hsucc : d.month - 1 + 1 = d.month := by omega
  rw [List.append_nil] at hyear
  rw [ofDayMonthYear?, dayMonthYear, ← yearText_eq hlow hhigh, List.append_assoc,
    List.cons_append, dropWhile_paddedDigits,
    readShortNumber_paddedDigits (by decide) (by omega)]
  simp only [Option.bind_eq_bind, Option.bind_some]
  rw [dropWhile_space_monthName (List.mem_of_getElem? hname), readMonthName_append hname,
    Option.bind_some]
  dsimp only
  rw [dropWhile_space_yearText, hyear, Option.bind_some, hsucc]
  exact of?_eq d

end FormIntake.Date
