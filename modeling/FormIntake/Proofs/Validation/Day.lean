/-
  FormIntake — which texts are dates that a field takes.

  The format of a date lets the digits of every script through, and the reader of dates
  takes more than one spelling.  Together they leave one: a text of the format that is
  read as a day is that day as it is written (`ofDayMonthYear?_eq_some_iff`).  So the check
  takes the renderings of the allowed days (`DateOptions.check_iff_denotes`).
-/
import FormIntake.Proofs.Calendar.DayMonthYear
import FormIntake.Proofs.Text.Pattern
import FormIntake.Proofs.Validation.Traversal
import FormIntake.Validation.Day

namespace FormIntake

open Validation Text

variable {cs day year : List Char} {d : Date} {c : Char}

/-! ## The format -/

/-- Two digits, three letters of which only the first is a capital, and four digits. -/
theorem matches_dateFormat_iff : dateFormat.Matches cs ↔
    ∃ day a b c year, cs = day ++ ' ' :: a :: b :: c :: ' ' :: year ∧
      day.length = 2 ∧ (∀ e ∈ day, isDecimalDigit e = true) ∧
      a.isUpper = true ∧ b.isLower = true ∧ c.isLower = true ∧
      year.length = 4 ∧ ∀ e ∈ year, isDecimalDigit e = true := by
  rw [dateFormat]
  simp only [Pattern.matches_sequence_cons_iff, Pattern.matches_sequence_nil_iff, Pattern.matches_times_one_iff,
    Pattern.matches_one_iff, Pattern.matches_char_iff]
  constructor
  · rintro ⟨day, _, rfl, hday, _, _, rfl, rfl, _, _, rfl, ⟨a, ha, rfl⟩, bc, _, rfl, hbc, _, _, rfl,
      rfl, year, _, rfl, hyear, rfl⟩
    obtain ⟨b, c, rfl⟩ := List.length_eq_two.1 hbc.1
    refine ⟨day, a, b, c, year, by simp, hday.1, hday.2, ha, hbc.2 b (by simp), hbc.2 c (by simp),
      hyear.1, hyear.2⟩
  · rintro ⟨day, a, b, c, year, rfl, hlen, hday, ha, hb, hc, hlen', hyear⟩
    refine ⟨day, _, rfl, ⟨hlen, hday⟩, [' '], _, rfl, rfl, [a], _, rfl, ⟨a, ha, rfl⟩, [b, c], _, rfl,
      ⟨rfl, by simp [hb, hc]⟩, [' '], _, rfl, rfl, year, [], (List.append_nil _).symm, ⟨hlen', hyear⟩,
      rfl⟩

/-- No decimal digit of any script is blank. -/
theorem isBlankChar_of_isDecimalDigit (h : isDecimalDigit c = true) : isBlankChar c = false := by
  have hall : ∀ z ∈ decimalZeros, ∀ k < 10, isBlankChar (Char.ofNat (z + k)) = false := by
    decide +kernel
  obtain ⟨z, hz, hc⟩ := List.any_eq_true.1 h
  simp only [Bool.and_eq_true, decide_eq_true_eq] at hc
  have hk := hall z hz (c.toNat - z) (by omega)
  rwa [Nat.add_sub_cancel' hc.1, Char.ofNat_toNat] at hk

/-- An ASCII digit is one of the decimal digits. -/
theorem isDecimalDigit_of_isDigit (h : c.isDigit = true) : isDecimalDigit c = true := by
  obtain ⟨hlow, hhigh⟩ := Char.isDigit_iff_toNat.1 h
  rw [show '0'.toNat = 48 from rfl] at hlow
  rw [show '9'.toNat = 57 from rfl] at hhigh
  refine List.any_eq_true.2 ⟨0x30, by decide, ?_⟩
  simp only [Bool.and_eq_true, decide_eq_true_eq]
  omega

/-- **A day as it is written has the format.** -/
theorem matches_dateFormat_dayMonthYear (hlow : 0 ≤ d.year) (hhigh : d.year ≤ 9999) :
    dateFormat.Matches d.dayMonthYear := by
  have hdays : d.day ≤ 31 := d.isDay.2.2.2.2.2.trans (Date.daysInMonth_le _ _)
  obtain ⟨a, b, c, hname, ha, hb, hc⟩ :=
    Date.letters_of_mem_monthNames (List.mem_of_getElem? (Date.getElem?_monthNames d))
  refine matches_dateFormat_iff.2 ⟨paddedDigits 2 d.day, a, b, c, paddedDigits 4 d.year.natAbs, ?_,
    length_paddedDigits (by decide) (by omega),
    fun e he => isDecimalDigit_of_isDigit (isDigit_of_mem_paddedDigits he), ha, hb, hc,
    length_paddedDigits (by decide) (by omega),
    fun e he => isDecimalDigit_of_isDigit (isDigit_of_mem_paddedDigits he)⟩
  rw [Date.dayMonthYear, hname]
  simp

/-! ## The format and the reader -/

/-- In a text of the format the reader takes both digits in front as the day.  After one
    digit it would have to take the other and a space for the name of a month. -/
theorem digits_of_readDay {d₁ d₂ : Char} {tail rest : List Char} {n : Nat} {m : Nat × List Char}
    (h : Date.readShortNumber 2 (d₁ :: d₂ :: ' ' :: tail) = some (n, rest))
    (hd₂ : isBlankChar d₂ = false)
    (hmonth : Date.readMonthName (rest.dropWhile isBlankChar) = some m) :
    rest = ' ' :: tail ∧ (∀ c ∈ [d₁, d₂], c.isDigit = true) ∧ n = value [d₁, d₂] := by
  have hspace : ∀ name ∈ Date.monthNames, ' ' ∉ lower name := by decide
  obtain ⟨ds, hsplit, hne, hlen, hdigits, rfl⟩ := Date.digits_of_readShortNumber h
  match ds, hne, hlen with
  | [x], _, _ =>
    obtain ⟨-, rfl⟩ := List.cons.inj hsplit
    rw [List.dropWhile_cons_of_neg (by simp [hd₂])] at hmonth
    obtain ⟨name, hname, -, hlower, -⟩ := Date.name_of_readMonthName hmonth
    refine absurd ?_ (hspace name (List.mem_of_getElem? hname))
    rw [hlower]
    exact List.mem_map.2 ⟨' ', by simp, rfl⟩
  | [x, y], _, _ =>
    obtain ⟨hx, htail⟩ := List.cons.inj hsplit
    obtain ⟨hy, hrest⟩ := List.cons.inj htail
    rw [hx, hy]
    exact ⟨hrest.symm, hdigits, rfl⟩

/-- A capital and two small letters that are read as a month are its name. -/
theorem name_of_readMonth {a b c : Char} {tail rest : List Char} {month : Nat}
    (h : Date.readMonthName (a :: b :: c :: tail) = some (month, rest)) (ha : a.isUpper = true)
    (hb : b.isLower = true) (hc : c.isLower = true) :
    Date.monthNames[month - 1]? = some [a, b, c] ∧ rest = tail := by
  obtain ⟨name, hname, -, hlower, rfl⟩ := Date.name_of_readMonthName h
  obtain ⟨a', b', c', rfl, ha', hb', hc'⟩ :=
    Date.letters_of_mem_monthNames (List.mem_of_getElem? hname)
  have heq : [a', b', c'] = [a, b, c] := by
    refine eq_of_lower_eq hlower ?_
    simp [ha, ha', isUpper_of_isLower hb, isUpper_of_isLower hc, isUpper_of_isLower hb',
      isUpper_of_isLower hc']
  exact ⟨heq ▸ hname, rfl⟩

/-- Decimal digits that are read as a year up to the end are ASCII digits. -/
theorem digits_of_readYear {y : Int} (h : Date.readYear year = some (y, []))
    (hdecimal : ∀ c ∈ year, isDecimalDigit c = true) :
    (∀ c ∈ year, c.isDigit = true) ∧ y = value year := by
  have hsign : ∀ sign, isDecimalDigit sign = false → ∀ tail, year = sign :: tail → False := by
    rintro sign hnot tail rfl
    rw [hdecimal sign List.mem_cons_self] at hnot
    cases hnot
  rw [Date.readYear.eq_3 year (hsign '-' (by decide)) (hsign '+' (by decide))] at h
  obtain ⟨⟨n, rest⟩, hread, heq⟩ := Option.map_eq_some_iff.1 h
  obtain ⟨rfl, rfl⟩ := Prod.mk.inj heq
  obtain ⟨ds, hsplit, -, -, hdigits, rfl⟩ := Date.digits_of_readShortNumber hread
  rw [List.append_nil] at hsplit
  rw [hsplit]
  exact ⟨hdigits, rfl⟩

/-- A text of the format that is read as a day is that day as it is written. -/
theorem eq_dayMonthYear_of_matches (hformat : dateFormat.Matches cs)
    (h : Date.ofDayMonthYear? cs = some d) :
    cs = d.dayMonthYear ∧ 0 ≤ d.year ∧ d.year ≤ 9999 := by
  obtain ⟨day, a, b, c, year, rfl, hlen, hday, ha, hb, hc, hlen', hyear⟩ :=
    matches_dateFormat_iff.1 hformat
  obtain ⟨d₁, d₂, rfl⟩ := List.length_eq_two.1 hlen
  have hd₁ := isBlankChar_of_isDecimalDigit (hday d₁ (by simp))
  have hd₂ := isBlankChar_of_isDecimalDigit (hday d₂ (by simp))
  have hfirst : ∀ e, year.head? = some e → isBlankChar e = false := fun e he =>
    isBlankChar_of_isDecimalDigit (hyear e (List.mem_of_head? he))
  obtain ⟨rest, rest', hread, hmonth, hread'⟩ := Date.steps_of_ofDayMonthYear? h
  -- the day
  rw [List.cons_append, List.dropWhile_cons_of_neg (by simp [hd₁])] at hread
  obtain ⟨rfl, hdigits, hdayValue⟩ := digits_of_readDay hread hd₂ hmonth
  -- the month
  rw [List.dropWhile_cons_of_pos (by decide),
    List.dropWhile_cons_of_neg (by simp [isBlankChar_of_isUpper ha])] at hmonth
  obtain ⟨hname, rfl⟩ := name_of_readMonth hmonth ha hb hc
  -- the year
  rw [List.dropWhile_cons_of_pos (by decide), dropWhile_isBlankChar hfirst] at hread'
  obtain ⟨hdigits', hyearValue⟩ := digits_of_readYear hread' hyear
  have hlt := value_lt hdigits'
  have hdayText := paddedDigits_value (by simp) hdigits
  have hyearText := paddedDigits_value (by omega : 0 < year.length) hdigits'
  rw [hlen'] at hlt hyearText
  rw [Date.dayMonthYear, List.getD_eq_getElem?_getD, hname, hdayValue, hyearValue, Int.natAbs_natCast,
    hyearText]
  refine ⟨?_, by omega, by omega⟩
  rw [hlen] at hdayText
  simp [hdayText]

/-- **The format and the reader leave one text for each day.** -/
theorem ofDayMonthYear?_eq_some_iff (hformat : dateFormat.Matches cs) :
    Date.ofDayMonthYear? cs = some d ↔ cs = d.dayMonthYear ∧ 0 ≤ d.year ∧ d.year ≤ 9999 := by
  constructor
  · exact eq_dayMonthYear_of_matches hformat
  · rintro ⟨rfl, hlow, hhigh⟩
    exact Date.ofDayMonthYear?_dayMonthYear hlow hhigh

/-! ## The check -/

namespace DateOptions

variable {o : DateOptions} {today d : Date}

/-- A day that the field takes today: within the bounds of its rule, and on no day of the
    week that is closed. -/
structure Takes (o : DateOptions) (today d : Date) : Prop where
  noPast : o.rule = some .noPast → today ≤ d
  noFuture : o.rule = some .noFuture → d ≤ today
  first : o.rule = some .between → ∀ first, o.first = some first → first ≤ d
  last : o.rule = some .between → ∀ last, o.last = some last → d ≤ last
  opened : d.weekday ∉ o.closed

theorem inRange_iff : o.inRange today d = true ↔
    (o.rule = some .noPast → today ≤ d) ∧ (o.rule = some .noFuture → d ≤ today) ∧
      (o.rule = some .between → ∀ first, o.first = some first → first ≤ d) ∧
      (o.rule = some .between → ∀ last, o.last = some last → d ≤ last) := by
  rw [inRange]
  cases o.rule with
  | none => simp
  | some rule => cases rule <;> simp [Option.all_eq_true]

theorem takes_iff : o.Takes today d ↔ o.inRange today d = true ∧ d.weekday ∉ o.closed := by
  rw [inRange_iff]
  constructor
  · rintro ⟨hpast, hfuture, hfirst, hlast, hopened⟩
    exact ⟨⟨hpast, hfuture, hfirst, hlast⟩, hopened⟩
  · rintro ⟨⟨hpast, hfuture, hfirst, hlast⟩, hopened⟩
    exact ⟨hpast, hfuture, hfirst, hlast, hopened⟩

theorem check_eq_ok_iff {answer : String} : o.check today answer = .ok () ↔
    dateFormat.Matches answer.toList ∧
      ∃ d, Date.ofDayMonthYear? answer.toList = some d ∧ o.Takes today d := by
  rw [check, check_bind_eq_ok, require_eq_ok, Pattern.accepts_iff]
  refine and_congr_right fun _ => ?_
  cases Date.ofDayMonthYear? answer.toList with
  | none => simp
  | some d => simp [check_bind_eq_ok, takes_iff, inRange_iff]

end DateOptions

/-- The text is the day as it is written, and the day is of a year of four digits. -/
structure Denotes (text : String) (d : Date) : Prop where
  text_eq : text.toList = d.dayMonthYear
  low : 0 ≤ d.year
  high : d.year ≤ 9999

/-- A text denotes one day at most. -/
theorem Denotes.unique {text : String} {d' : Date} (h : Denotes text d) (h' : Denotes text d') :
    d = d' := by
  have hread := Date.ofDayMonthYear?_dayMonthYear h.low h.high
  rw [← h.text_eq, h'.text_eq, Date.ofDayMonthYear?_dayMonthYear h'.low h'.high] at hread
  exact (Option.some.inj hread).symm

theorem DateOptions.check_eq_ok_iff_denotes {o : DateOptions} {today : Date} {answer : String} :
    o.check today answer = .ok () ↔ ∃ d, Denotes answer d ∧ o.Takes today d := by
  rw [check_eq_ok_iff]
  constructor
  · rintro ⟨hformat, d, hread, htakes⟩
    obtain ⟨htext, hlow, hhigh⟩ := (ofDayMonthYear?_eq_some_iff hformat).1 hread
    exact ⟨d, ⟨htext, hlow, hhigh⟩, htakes⟩
  · rintro ⟨d, ⟨htext, hlow, hhigh⟩, htakes⟩
    rw [htext]
    exact ⟨matches_dateFormat_dayMonthYear hlow hhigh, d,
      Date.ofDayMonthYear?_dayMonthYear hlow hhigh, htakes⟩

/-- **Which dates a field takes**: the days of the years 0 to 9999 that its rule and the days
    of the week allow, each in the one way it is written.  So a text that is taken denotes
    one day, and different texts denote different days. -/
theorem DateOptions.check_iff_denotes (o : DateOptions) (today : Date) :
    (∀ answer, o.check today answer = .ok () ↔ ∃! d, Denotes answer d ∧ o.Takes today d) ∧
    (∀ answer d d', Denotes answer d → Denotes answer d' → d = d') ∧
    (∀ answer answer' d, Denotes answer d → Denotes answer' d → answer = answer') := by
  refine ⟨fun answer => ?_, fun answer d d' h h' => h.unique h', fun answer answer' d h h' => ?_⟩
  · rw [check_eq_ok_iff_denotes]
    constructor
    · rintro ⟨d, hdenotes, htakes⟩
      exact ⟨d, ⟨hdenotes, htakes⟩, fun d' h' => h'.1.unique hdenotes⟩
    · rintro ⟨d, ⟨hdenotes, htakes⟩, -⟩
      exact ⟨d, hdenotes, htakes⟩
  · exact String.toList_inj.1 (h.text_eq.trans h'.text_eq.symm)

/-- The year 0 is a leap year. -/
example : DateOptions.check {} ⟨2024, 1, 1, by decide⟩ "29 Feb 0000" = .ok () := by
  decide

end FormIntake
