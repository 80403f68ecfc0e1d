/-
  FormIntake — the slips that an identity number shows.

  Within a series the letters tell changed digits (`letters_of_series?`); at one sum,
  the letters of all series differ (`eq_of_letterAt?`).

  `Mistyped` lists the slips: a digit for another one, two neighbouring digits that
  change places, another series, another check letter.  None of them leads from a
  valid number to a valid one (`isValidUpper_of_mistyped`).
-/
import FormIntake.Identifier.Nric
import FormIntake.Proofs.AsciiCase
import FormIntake.Proofs.Identifier.CheckDigit

namespace FormIntake.Identifier.Nric

open Text

attribute [local instance] decidableForallMem

/-- The letters of the five series. -/
def seriesLetters : List Char := ['S', 'T', 'F', 'G', 'M']

/-- The check letter of a series at a sum. -/
def letterAt? (series : Char) (sum : Nat) : Option Char := do
  let (offset, letters) ← series? series
  checkChar letters (sum + offset)

/-- What is typed for a number by one slip.  The case of letters is no difference. -/
inductive Mistyped : List Char → List Char → Prop
  | digit {front back d d'} : d.isDigit = true → d'.isDigit = true → d' ≠ d →
      Mistyped (front ++ d :: back) (front ++ d' :: back)
  | swap {front back d e} : d.isDigit = true → e.isDigit = true → e ≠ d →
      Mistyped (front ++ d :: e :: back) (front ++ e :: d :: back)
  | series {p p' rest} : p'.toUpper ∈ seriesLetters → p'.toUpper ≠ p.toUpper →
      Mistyped (p :: rest) (p' :: rest)
  | check {front c c'} : c'.toUpper ≠ c.toUpper → Mistyped (front ++ [c]) (front ++ [c'])

variable {p p' c d e : Char} {cs cs' ds front back : List Char} {offset n : Nat}
  {letters : List Char}

/-! ## The letters of a series -/

theorem letters_of_series? (h : series? p = some (offset, letters)) :
    p ∈ seriesLetters ∧ Discerning weights letters ∧ ∀ c ∈ letters, c.isUpper = true := by
  have hweights : ∀ w ∈ weights, Nat.Coprime 11 w := by decide
  unfold series? at h
  split at h
  case h_6 => cases h
  all_goals
    cases h
    exact ⟨by decide, ⟨hweights, by decide, by decide⟩, by decide⟩

theorem letterAt?_of_series? (h : series? p = some (offset, letters)) (n : Nat) :
    letterAt? p n = checkChar letters (n + offset) := by
  rw [letterAt?, h]
  rfl

theorem series?_of_letterAt? (h : letterAt? p n = some c) :
    ∃ offset letters, series? p = some (offset, letters) ∧
      checkChar letters (n + offset) = some c := by
  cases hp : series? p with
  | none => rw [letterAt?, hp] at h; cases h
  | some x => exact ⟨x.1, x.2, rfl, by rwa [← letterAt?_of_series? hp]⟩

theorem isUpper_of_letterAt? (h : letterAt? p n = some c) : c.isUpper = true := by
  obtain ⟨offset, letters, hp, hc⟩ := series?_of_letterAt? h
  exact (letters_of_series? hp).2.2 c (mem_of_checkChar hc)

theorem mem_seriesLetters_of_letterAt? (h : letterAt? p n = some c) : p ∈ seriesLetters := by
  obtain ⟨offset, letters, hp, -⟩ := series?_of_letterAt? h
  exact (letters_of_series? hp).1

theorem exists_letterAt? (h : p ∈ seriesLetters) (n : Nat) : ∃ c, letterAt? p n = some c := by
  have hall : ∀ p ∈ seriesLetters, (series? p).isSome = true := by decide
  obtain ⟨⟨offset, letters⟩, hp⟩ := Option.isSome_iff_exists.1 (hall p h)
  rw [letterAt?_of_series? hp]
  exact exists_checkChar (letters_of_series? hp).2.1.length _

/-- Only the remainder of the sum matters. -/
theorem letterAt?_mod (p : Char) (n : Nat) : letterAt? p (n % 11) = letterAt? p n := by
  cases hp : series? p with
  | none => rw [letterAt?, letterAt?, hp]; rfl
  | some x =>
    rw [letterAt?_of_series? hp, letterAt?_of_series? hp, checkChar, checkChar, Nat.mod_add_mod]

/-- At one sum the letter tells the series apart. -/
theorem eq_of_letterAt? (h : letterAt? p n = some c) (h' : letterAt? p' n = some c) : p' = p := by
  have hall : ∀ r : Fin 11, ∀ p ∈ seriesLetters, ∀ p' ∈ seriesLetters,
      letterAt? p' r = letterAt? p r → p' = p := by decide
  refine hall ⟨n % 11, Nat.mod_lt n (by decide)⟩ p (mem_seriesLetters_of_letterAt? h) p'
    (mem_seriesLetters_of_letterAt? h') ?_
  rw [letterAt?_mod, letterAt?_mod, h, h']

/-! ## Numbers in capitals -/

theorem checkLetter?_of_series? (h : series? p = some (offset, letters)) (ds : List Char) :
    checkLetter? p ds = digitCheck? weights letters offset ds := by
  rw [checkLetter?, h]
  rfl

theorem series?_of_checkLetter? (h : checkLetter? p ds = some c) :
    ∃ offset letters, series? p = some (offset, letters) := by
  cases hp : series? p with
  | none => rw [checkLetter?, hp] at h; cases h
  | some x => exact ⟨x.1, x.2, rfl⟩

theorem checkLetter?_eq_some_iff : checkLetter? p ds = some c ↔
    ds.length = 7 ∧ (∀ d ∈ ds, d.isDigit = true) ∧
      letterAt? p (weightedSum weights (digitValues ds)) = some c := by
  cases hp : series? p with
  | none => simp [checkLetter?, letterAt?, hp]
  | some x =>
    rw [letterAt?_of_series? hp, checkLetter?_of_series? hp]
    exact digitCheck?_eq_some_iff

theorem isValidUpper_split :
    isValidUpper (p :: (ds ++ [c])) = true ↔ checkLetter? p ds = some c := by
  rw [isValidUpper, List.dropLast_concat, List.getLast?_concat]
  cases checkLetter? p ds <;> simp

theorem isValidUpper_iff : isValidUpper cs = true ↔
    ∃ p ds c, cs = p :: (ds ++ [c]) ∧ checkLetter? p ds = some c := by
  constructor
  · intro h
    match cs with
    | [] => cases h
    | p :: rest =>
      rcases List.eq_nil_or_concat rest with rfl | ⟨ds, c, rfl⟩
      · simp [isValidUpper] at h
      · rw [List.concat_eq_append] at h ⊢
        exact ⟨p, ds, c, rfl, isValidUpper_split.1 h⟩
  · rintro ⟨p, ds, c, rfl, h⟩
    exact isValidUpper_split.2 h

/-- A digit of a number stands between its series and its check letter. -/
theorem exists_split_of_digit (h : checkLetter? p ds = some c) (hd : d.isDigit = true)
    (heq : front ++ d :: back = p :: (ds ++ [c])) :
    ∃ u v, front = p :: u ∧ back = v ++ [c] ∧ ds = u ++ d :: v := by
  obtain ⟨-, -, hletter⟩ := checkLetter?_eq_some_iff.1 h
  have hc : d ≠ c := by
    rintro rfl
    exact absurd (isUpper_of_letterAt? hletter) (by simp [isUpper_of_isDigit hd])
  rw [← List.cons_append] at heq
  obtain ⟨v, rfl, hbody⟩ := exists_split_of_ne heq hc
  match front, hbody with
  | [], hbody =>
    obtain ⟨rfl, -⟩ := List.cons.inj hbody
    have hseries : ∀ p ∈ seriesLetters, p.isDigit = false := by decide
    exact absurd hd (by simp [hseries p (mem_seriesLetters_of_letterAt? hletter)])
  | q :: u, hbody =>
    obtain ⟨rfl, rfl⟩ := List.cons.inj hbody
    exact ⟨u, v, rfl, rfl, rfl⟩

/-! ## Slips -/

theorem eq_of_checkLetter?_change (hd : checkLetter? p (front ++ d :: back) = some c)
    (he : checkLetter? p (front ++ e :: back) = some c) : d = e := by
  obtain ⟨offset, letters, hp⟩ := series?_of_checkLetter? hd
  rw [checkLetter?_of_series? hp] at hd he
  exact (letters_of_series? hp).2.1.eq_of_change hd he

theorem eq_of_checkLetter?_swap (hd : checkLetter? p (front ++ d :: e :: back) = some c)
    (he : checkLetter? p (front ++ e :: d :: back) = some c) : d = e := by
  obtain ⟨offset, letters, hp⟩ := series?_of_checkLetter? hd
  rw [checkLetter?_of_series? hp] at hd he
  exact (letters_of_series? hp).2.1.eq_of_swap (by decide) hd he

/-- **No slip leads from a valid number to a valid one.** -/
theorem isValidUpper_of_mistyped (hslip : Mistyped cs cs') (h : isValidUpper (upper cs) = true) :
    isValidUpper (upper cs') = false := by
  obtain ⟨p, ds, c, heq, hcheck⟩ := isValidUpper_iff.1 h
  rw [← Bool.not_eq_true]
  intro h'
  cases hslip with
  | @digit front back d d' hd hd' hne =>
    rw [upper_append, upper_cons, toUpper_of_isDigit hd] at heq
    rw [upper_append, upper_cons, toUpper_of_isDigit hd'] at h'
    obtain ⟨u, v, hu, hv, rfl⟩ := exists_split_of_digit hcheck hd heq
    have hcheck' : checkLetter? p (u ++ d' :: v) = some c := by
      rw [← isValidUpper_split]
      simpa [hu, hv] using h'
    exact hne (eq_of_checkLetter?_change hcheck' hcheck)
  | @swap front back d e hd he hne =>
    simp only [upper_append, upper_cons, toUpper_of_isDigit hd, toUpper_of_isDigit he] at heq h'
    obtain ⟨u, v, hu, hv, rfl⟩ := exists_split_of_digit hcheck hd heq
    -- the second digit is not the check letter either
    obtain ⟨w, hw, rfl⟩ : ∃ w, upper back = w ++ [c] ∧ v = e :: w := by
      have hsecond : (upper front ++ [d]) ++ e :: upper back = p :: ((u ++ d :: v) ++ [c]) := by
        simpa using heq
      obtain ⟨u', w, hu', hw, hds⟩ := exists_split_of_digit hcheck he hsecond
      rw [hu, List.cons_append] at hu'
      obtain ⟨-, rfl⟩ := List.cons.inj hu'
      refine ⟨w, hw, ?_⟩
      simpa using hds
    have hcheck' : checkLetter? p (u ++ e :: d :: w) = some c := by
      rw [← isValidUpper_split]
      simpa [hu, hw] using h'
    exact hne (eq_of_checkLetter?_swap hcheck' hcheck)
  | @series q q' rest hmem hne =>
    rw [upper_cons] at heq h'
    obtain ⟨rfl, hrest⟩ := List.cons.inj heq
    rw [hrest, isValidUpper_split] at h'
    exact hne (eq_of_letterAt? (checkLetter?_eq_some_iff.1 hcheck).2.2
      (checkLetter?_eq_some_iff.1 h').2.2)
  | @check front a b hne =>
    rw [upper_append, ← List.cons_append] at heq
    obtain ⟨hfront, hlast⟩ := List.append_inj' heq rfl
    obtain ⟨rfl, -⟩ := List.cons.inj hlast
    rw [upper_append, hfront, List.cons_append] at h'
    exact hne (Option.some.inj ((isValidUpper_split.1 h').symm.trans hcheck))

/-! ## The form of a number -/

theorem isValid_iff {s : String} : isValid s = true ↔
    ∃ p ds c, upper s.toList = p :: (ds ++ [c]) ∧ checkLetter? p ds = some c := isValidUpper_iff

/-- **What the check letter of an identity number is good for.**  A series and seven
    digits have one check letter, which may be written in either case.  No slip leads
    from a valid number to a valid one, the case of letters does not matter, and
    nothing else is valid than the letter of a series, seven digits and a letter. -/
theorem isValid_catches :
    (∀ p ∈ seriesLetters, ∀ ds : List Char, ds.length = 7 → (∀ d ∈ ds, d.isDigit = true) →
      ∃ c, c.isUpper = true ∧
        ∀ c', isValid (String.ofList (p :: (ds ++ [c']))) = true ↔ c'.toUpper = c) ∧
    (∀ s t : String, isValid s = true → Mistyped s.toList t.toList → isValid t = false) ∧
    (∀ s t : String, upper s.toList = upper t.toList → isValid s = isValid t) ∧
    (∀ s : String, isValid s = true →
      ∃ p ds c, s.toList = p :: (ds ++ [c]) ∧ p.toUpper ∈ seriesLetters ∧ ds.length = 7 ∧
        (∀ d ∈ ds, d.isDigit = true) ∧ c.isAlpha = true) := by
  refine ⟨?_, ?_, ?_, ?_⟩
  · intro p hp ds hlen hdigits
    obtain ⟨c, hc⟩ := exists_letterAt? hp (weightedSum weights (digitValues ds))
    refine ⟨c, isUpper_of_letterAt? hc, fun c' => ?_⟩
    have hcapital : ∀ p ∈ seriesLetters, p.toUpper = p := by decide
    have hupper : upper (p :: (ds ++ [c'])) = p :: (ds ++ [c'.toUpper]) := by
      rw [upper_cons, upper_append, upper_of_isDigit hdigits, hcapital p hp]
      rfl
    rw [isValid, String.toList_ofList, hupper, isValidUpper_split, checkLetter?_eq_some_iff, hc,
      Option.some_inj]
    exact ⟨fun h => h.2.2.symm, fun h => ⟨hlen, hdigits, h.symm⟩⟩
  · exact fun s t hs hslip => isValidUpper_of_mistyped hslip hs
  · intro s t h
    rw [isValid, isValid, h]
  · intro s hs
    obtain ⟨p, ds, c, heq, hcheck⟩ := isValid_iff.1 hs
    obtain ⟨hlen, hdigits, hletter⟩ := checkLetter?_eq_some_iff.1 hcheck
    obtain ⟨p', rest, hs, rfl, hrest⟩ := List.map_eq_cons_iff.1 heq
    obtain ⟨ds', last, rfl, rfl, hlast⟩ := List.map_eq_append_iff.1 hrest
    obtain ⟨c', rfl, rfl⟩ := List.map_eq_singleton_iff.1 hlast
    refine ⟨p', ds', c', hs, mem_seriesLetters_of_letterAt? hletter, ?_, ?_, ?_⟩
    · simpa using hlen
    · intro d hd
      rw [← isDigit_toUpper]
      exact hdigits _ (List.mem_map_of_mem hd)
    · exact isAlpha_of_isUpper_toUpper (isUpper_of_letterAt? hletter)

/-- Two digits that changed places, and a small check letter. -/
theorem isValid_catches_swap :
    isValid "S9912345a" = true ∧ isValid "S9913245a" = false := by
  have hvalid : isValid "S9912345a" = true := by decide
  have hslip : Mistyped ("S991".toList ++ '2' :: '3' :: "45a".toList)
      ("S991".toList ++ '3' :: '2' :: "45a".toList) := .swap rfl rfl (by decide)
  exact ⟨hvalid, isValid_catches.2.1 "S9912345a" "S9913245a" hvalid hslip⟩

end FormIntake.Identifier.Nric
