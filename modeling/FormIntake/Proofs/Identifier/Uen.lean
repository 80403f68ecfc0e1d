/-
  FormIntake — the slips that a registration number shows.

  `Registers` says by which scheme a check character goes with the characters in front
  of it.  A changed digit never leads to another scheme, and within each scheme it
  changes the check character (`Registers.eq_of_change`); that holds of two digits that
  change places where all characters in front are digits (`Registers.eq_of_swap`), and
  of the mark of the century of another entity (`Registers.eq_of_century`).

  `Mistyped` lists these slips.  None of them leads from a valid number to a valid one
  (`isValidUpper_of_mistyped`).
-/
import FormIntake.Identifier.Uen
import FormIntake.Proofs.AsciiCase
import FormIntake.Proofs.Identifier.CheckDigit

namespace FormIntake.Identifier.Uen

open Text

attribute [local instance] decidableForallMem

/-- The letters that mark the century of another entity. -/
def centuries : List Char := ['R', 'S', 'T']

/-- The check letters of businesses and of local companies. -/
def businessLetters : List Char := "XMKECAWLJDB".toList

@[inherit_doc businessLetters]
def companyLetters : List Char := "ZKCMDNERGWH".toList

/-- A check character goes with the characters in front of it. -/
inductive Registers (currentYear : Int) (cs : List Char) (c : Char) : Prop
  | business : digitCheck? businessWeights businessLetters 0 cs = some c →
      Registers currentYear cs c
  | company : isCompanyYear currentYear cs = true →
      digitCheck? companyWeights companyLetters 0 cs = some c → Registers currentYear cs c
  | entity : isEntity currentYear cs = true → entityCheck? cs = some c → Registers currentYear cs c

/-- The number is that of a business or of a company. -/
def IsCommercial (cs : List Char) : Prop :=
  (trimChars cs).length = 9 ∨
    (trimChars cs).length = 10 ∧ ∃ d rest, trimChars cs = d :: rest ∧ d.isDigit = true

/-- What is typed for a number by one slip.  The case of letters is no difference. -/
inductive Mistyped : List Char → List Char → Prop
  | digit {front back d d'} : d.isDigit = true → d'.isDigit = true → d' ≠ d →
      Mistyped (front ++ d :: back) (front ++ d' :: back)
  | swap {front back d e} : IsCommercial (front ++ d :: e :: back) → d.isDigit = true →
      e.isDigit = true → e ≠ d → Mistyped (front ++ d :: e :: back) (front ++ e :: d :: back)
  | century {blanks rest p p'} : (∀ b ∈ blanks, isBlankChar b = true) → p.toUpper ∈ centuries →
      p'.toUpper ∈ centuries → p'.toUpper ≠ p.toUpper →
      Mistyped (blanks ++ p :: rest) (blanks ++ p' :: rest)
  | check {front blanks c c'} : isBlankChar c = false → isBlankChar c' = false →
      (∀ b ∈ blanks, isBlankChar b = true) → c'.toUpper ≠ c.toUpper →
      Mistyped (front ++ c :: blanks) (front ++ c' :: blanks)

variable {currentYear : Int} {c d e p p' : Char} {cs cs' front back : List Char}

/-! ## The schemes -/

theorem discerning_business : Discerning businessWeights businessLetters :=
  ⟨by decide, by decide, by decide⟩

theorem discerning_company : Discerning companyWeights companyLetters :=
  ⟨by decide, by decide, by decide⟩

theorem discerning_entity : Discerning entityWeights alphabet := ⟨by decide, by decide, by decide⟩

theorem isEntity_cons (h : isEntity currentYear cs = true) :
    cs.length = 9 ∧ ∃ p rest, cs = p :: rest ∧ p ∈ centuries := by
  unfold isEntity at h
  split at h
  · simp only [Bool.and_eq_true, List.contains_iff_mem] at h
    exact ⟨rfl, _, _, rfl, h.1.1.1.1⟩
  · cases h

theorem isDigit_of_mem_centuries (h : p ∈ centuries) : p.isDigit = false := by
  have hall : ∀ p ∈ centuries, p.isDigit = false := by decide
  exact hall p h

theorem checkChar?_eq_some_iff :
    checkChar? currentYear cs = some c ↔ Registers currentYear cs c := by
  rw [checkChar?]
  constructor
  · intro h
    split at h
    · exact .business h
    · split at h
      · split at h
        · next hyear => exact .company hyear h
        · cases h
      · split at h
        · next hentity => exact .entity hentity h
        · cases h
  · rintro (h | ⟨hyear, h⟩ | ⟨hentity, h⟩)
    · have hlen : cs.length = 8 := (digitCheck?_eq_some_iff.1 h).1
      rw [if_pos hlen]
      exact h
    · obtain ⟨hlen, hdigits, -⟩ := digitCheck?_eq_some_iff.1 h
      rw [if_neg (by rw [hlen]; decide), if_pos (List.all_eq_true.2 hdigits), if_pos hyear]
      exact h
    · obtain ⟨hlen, q, rest, rfl, hq⟩ := isEntity_cons hentity
      rw [if_neg (by rw [hlen]; decide), if_neg (by simp [isDigit_of_mem_centuries hq]),
        if_pos hentity]
      exact h

theorem isValidUpper_concat : isValidUpper currentYear (cs ++ [c]) = true ↔
    Registers currentYear cs c := by
  rw [isValidUpper, List.dropLast_concat, List.getLast?_concat, ← checkChar?_eq_some_iff]
  cases checkChar? currentYear cs <;> simp

theorem isValidUpper_iff : isValidUpper currentYear cs = true ↔
    ∃ body c, cs = body ++ [c] ∧ Registers currentYear body c := by
  constructor
  · intro h
    rcases List.eq_nil_or_concat cs with rfl | ⟨body, c, rfl⟩
    · simp [isValidUpper] at h
    · rw [List.concat_eq_append] at h ⊢
      exact ⟨body, c, rfl, isValidUpper_concat.1 h⟩
  · rintro ⟨body, c, rfl, h⟩
    exact isValidUpper_concat.2 h

/-- No check character is a digit. -/
theorem Registers.isUpper (h : Registers currentYear cs c) : c.isUpper = true := by
  have hbusiness : ∀ c ∈ businessLetters, c.isUpper = true := by decide
  have hcompany : ∀ c ∈ companyLetters, c.isUpper = true := by decide
  have hentity : ∀ c ∈ alphabet.take 11, c.isUpper = true := by decide
  rcases h with h | ⟨-, h⟩ | ⟨-, h⟩
  · exact hbusiness c (mem_of_checkChar (digitCheck?_eq_some_iff.1 h).2.2)
  · exact hcompany c (mem_of_checkChar (digitCheck?_eq_some_iff.1 h).2.2)
  · obtain ⟨values, -, hc⟩ := Option.bind_eq_some_iff.1 h
    rw [← checkChar_take] at hc
    exact hentity c (mem_of_checkChar hc)

theorem Registers.ne_nil (h : Registers currentYear cs c) : cs ≠ [] := by
  rintro rfl
  rcases h with h | ⟨-, h⟩ | ⟨h, -⟩
  · cases h
  · cases h
  · cases h

/-- Two numbers of one length, both of digits or both not, are of one scheme. -/
theorem Registers.same_scheme (h : Registers currentYear cs c) (h' : Registers currentYear cs' d)
    (hlen : cs.length = cs'.length) (hdigits : cs.all Char.isDigit = cs'.all Char.isDigit) :
    (digitCheck? businessWeights businessLetters 0 cs = some c ∧
      digitCheck? businessWeights businessLetters 0 cs' = some d) ∨
    (digitCheck? companyWeights companyLetters 0 cs = some c ∧
      digitCheck? companyWeights companyLetters 0 cs' = some d) ∨
    (isEntity currentYear cs = true ∧ isEntity currentYear cs' = true ∧
      entityCheck? cs = some c ∧ entityCheck? cs' = some d) := by
  have hbusiness : ∀ {cs c}, digitCheck? businessWeights businessLetters 0 cs = some c →
      cs.length = 8 := fun h => (digitCheck?_eq_some_iff.1 h).1
  have hcompany : ∀ {cs c}, digitCheck? companyWeights companyLetters 0 cs = some c →
      cs.length = 9 ∧ cs.all Char.isDigit = true := fun h =>
    ⟨(digitCheck?_eq_some_iff.1 h).1, List.all_eq_true.2 (digitCheck?_eq_some_iff.1 h).2.1⟩
  have hentity : ∀ {cs}, isEntity currentYear cs = true →
      cs.length = 9 ∧ cs.all Char.isDigit = false := by
    intro cs h
    obtain ⟨hlen, q, rest, rfl, hq⟩ := isEntity_cons h
    exact ⟨hlen, by simp [isDigit_of_mem_centuries hq]⟩
  rcases h with h | ⟨-, h⟩ | ⟨he, h⟩ <;> rcases h' with h' | ⟨-, h'⟩ | ⟨he', h'⟩
  · exact Or.inl ⟨h, h'⟩
  · have := hbusiness h
    have := (hcompany h').1
    omega
  · have := hbusiness h
    have := (hentity he').1
    omega
  · have := (hcompany h).1
    have := hbusiness h'
    omega
  · exact Or.inr (Or.inl ⟨h, h'⟩)
  · rw [(hcompany h).2, (hentity he').2] at hdigits
    cases hdigits
  · have := (hentity he).1
    have := hbusiness h'
    omega
  · rw [(hentity he).2, (hcompany h').2] at hdigits
    cases hdigits
  · exact Or.inr (Or.inr ⟨he, he', h, h'⟩)

/-! ## The alphabet of other entities -/

/-- The value of a character. -/
def alphabetValue (c : Char) : Nat := (alphabet.idxOf? c).getD 0

theorem alphabetValues?_eq_map {values : List Nat} (h : alphabetValues? cs = some values) :
    values = cs.map alphabetValue := by
  induction cs generalizing values with
  | nil =>
    cases h
    rfl
  | cons c cs ih =>
    rw [alphabetValues?, List.mapM_cons] at h
    obtain ⟨v, hv, h⟩ := Option.bind_eq_some_iff.1 h
    obtain ⟨vs, hvs, h⟩ := Option.bind_eq_some_iff.1 h
    cases h
    rw [List.map_cons, alphabetValue, hv, ih hvs]
    rfl

/-- The digits stand in a row behind the letters. -/
theorem alphabetValue_of_isDigit (h : d.isDigit = true) :
    alphabetValue d = 22 + (d.toNat - '0'.toNat) := by
  have hall : ∀ k : Fin 10, alphabetValue (Char.ofNat (48 + k)) = 22 + k := by decide
  obtain ⟨hlow, hhigh⟩ := Char.isDigit_iff_toNat.1 h
  rw [show '0'.toNat = 48 from rfl] at hlow ⊢
  rw [show '9'.toNat = 57 from rfl] at hhigh
  have hk := hall ⟨d.toNat - 48, by omega⟩
  rwa [Nat.add_sub_cancel' hlow, Char.ofNat_toNat] at hk

theorem eq_of_alphabetValue_modEq (hd : d.isDigit = true) (he : e.isDigit = true)
    (h : alphabetValue d ≡ alphabetValue e [MOD 11]) : d = e := by
  rw [alphabetValue_of_isDigit hd, alphabetValue_of_isDigit he] at h
  exact eq_of_digitValue_modEq hd he (Nat.ModEq.add_left_cancel' 22 h)

theorem modEq_of_entityCheck? (hlen : front.length < 9)
    (hd : entityCheck? (front ++ d :: back) = some c)
    (he : entityCheck? (front ++ e :: back) = some c) :
    alphabetValue d ≡ alphabetValue e [MOD 11] := by
  obtain ⟨values, hvalues, hd⟩ := Option.bind_eq_some_iff.1 hd
  obtain ⟨values', hvalues', he⟩ := Option.bind_eq_some_iff.1 he
  rw [alphabetValues?_eq_map hvalues, List.map_append, List.map_cons] at hd
  rw [alphabetValues?_eq_map hvalues', List.map_append, List.map_cons] at he
  exact discerning_entity.modEq (by rwa [List.length_map]) hd he

/-! ## Slips in front of the check character -/

theorem Registers.eq_of_change (hd : Registers currentYear (front ++ d :: back) c)
    (he : Registers currentYear (front ++ e :: back) c) (hd' : d.isDigit = true)
    (he' : e.isDigit = true) : d = e := by
  have hdigits : (front ++ d :: back).all Char.isDigit = (front ++ e :: back).all Char.isDigit := by
    simp [hd', he']
  rcases hd.same_scheme he (by simp) hdigits with ⟨h, h'⟩ | ⟨h, h'⟩ | ⟨hentity, -, h, h'⟩
  · exact discerning_business.eq_of_change h h'
  · exact discerning_company.eq_of_change h h'
  · have hlen := (isEntity_cons hentity).1
    rw [List.length_append, List.length_cons] at hlen
    exact eq_of_alphabetValue_modEq hd' he' (modEq_of_entityCheck? (by omega) h h')

theorem Registers.eq_of_swap (hd : Registers currentYear (front ++ d :: e :: back) c)
    (he : Registers currentYear (front ++ e :: d :: back) c)
    (hentity : isEntity currentYear (front ++ d :: e :: back) = false) : d = e := by
  have hdigits : (front ++ d :: e :: back).all Char.isDigit =
      (front ++ e :: d :: back).all Char.isDigit := by
    simp [Bool.and_left_comm]
  rcases hd.same_scheme he (by simp) hdigits with ⟨h, h'⟩ | ⟨h, h'⟩ | ⟨hentity', -, -, -⟩
  · exact discerning_business.eq_of_swap (by decide) h h'
  · exact discerning_company.eq_of_swap (by decide) h h'
  · rw [hentity] at hentity'
    cases hentity'

theorem Registers.eq_of_century (h : Registers currentYear (p :: cs) c)
    (h' : Registers currentYear (p' :: cs) c) (hp : p ∈ centuries) (hp' : p' ∈ centuries) :
    p = p' := by
  have hall : ∀ p ∈ centuries, ∀ p' ∈ centuries,
      alphabetValue p % 11 = alphabetValue p' % 11 → p = p' := by decide
  have hdigits : (p :: cs).all Char.isDigit = (p' :: cs).all Char.isDigit := by
    simp [isDigit_of_mem_centuries hp, isDigit_of_mem_centuries hp']
  have hnot : ∀ {weights letters}, digitCheck? weights letters 0 (p :: cs) ≠ some c := by
    intro weights letters h
    have hdigit := (digitCheck?_eq_some_iff.1 h).2.1 p List.mem_cons_self
    rw [isDigit_of_mem_centuries hp] at hdigit
    cases hdigit
  rcases h.same_scheme h' rfl hdigits with ⟨h, -⟩ | ⟨h, -⟩ | ⟨-, -, h, h'⟩
  · exact absurd h hnot
  · exact absurd h hnot
  · rw [← List.nil_append (p :: cs)] at h
    rw [← List.nil_append (p' :: cs)] at h'
    exact hall p hp p' hp' (modEq_of_entityCheck? (by decide) h h')

/-! ## Slips -/

theorem isEntity_of_isCommercial (hcommercial : IsCommercial cs)
    (h : upper (trimChars cs) = front ++ [c]) : isEntity currentYear front = false := by
  rw [← Bool.not_eq_true]
  intro hentity
  obtain ⟨hlen, q, rest, rfl, hq⟩ := isEntity_cons hentity
  rcases hcommercial with hnine | ⟨-, d, digits, hfront, hd⟩
  · have := congrArg List.length h
    simp only [upper, List.length_map, List.length_append, List.length_singleton] at this
    omega
  · rw [hfront, upper_cons, List.cons_append, toUpper_of_isDigit hd] at h
    obtain ⟨rfl, -⟩ := List.cons.inj h
    rw [isDigit_of_mem_centuries hq] at hd
    cases hd

theorem isBlankChar_of_mem_centuries (h : p.toUpper ∈ centuries) : isBlankChar p = false := by
  have hall : ∀ p ∈ centuries, isBlankChar p = false := by decide
  rw [← isBlankChar_toUpper]
  exact hall _ h

/-- **No slip leads from a valid number to a valid one.** -/
theorem isValidUpper_of_mistyped (hslip : Mistyped cs cs')
    (h : isValidUpper currentYear (upper (trimChars cs)) = true) :
    isValidUpper currentYear (upper (trimChars cs')) = false := by
  obtain ⟨body, last, heq, hbody⟩ := isValidUpper_iff.1 h
  have hlast : ∀ {d}, d.isDigit = true → d ≠ last := by
    rintro d hd rfl
    exact absurd hbody.isUpper (by simp [isUpper_of_isDigit hd])
  rw [← Bool.not_eq_true]
  intro h'
  cases hslip with
  | @digit front back d d' hd hd' hne =>
    rw [trimChars_append_cons (isBlankChar_of_isDigit hd), upper_append, upper_cons,
      toUpper_of_isDigit hd] at heq
    rw [trimChars_append_cons (isBlankChar_of_isDigit hd'), upper_append, upper_cons,
      toUpper_of_isDigit hd'] at h'
    obtain ⟨rest, hback, rfl⟩ := exists_split_of_ne heq (hlast hd)
    rw [hback, ← List.cons_append, ← List.append_assoc, isValidUpper_concat] at h'
    exact hne (h'.eq_of_change hbody hd' hd)
  | @swap front back d e hcommercial hd he hne =>
    have hentity : isEntity currentYear body = false := isEntity_of_isCommercial hcommercial heq
    have hpair : ∀ {d e}, d.isDigit = true → e.isDigit = true →
        upper (trimChars (front ++ d :: e :: back)) =
          upper (front.dropWhile isBlankChar) ++ d :: e :: upper (trimEnd back) := by
      intro d e hd he
      have hback : trimEnd (e :: back) = e :: trimEnd back :=
        trimEnd_append_cons (isBlankChar_of_isDigit he) [] back
      rw [trimChars_append_cons (isBlankChar_of_isDigit hd), hback, upper_append, upper_cons,
        upper_cons, toUpper_of_isDigit hd, toUpper_of_isDigit he]
    rw [hpair hd he] at heq
    rw [hpair he hd] at h'
    obtain ⟨rest, hrest, rfl⟩ := exists_split_of_ne heq (hlast hd)
    -- the second digit is not the check character either
    rw [← List.nil_append (e :: _)] at hrest
    obtain ⟨rest', hback, rfl⟩ := exists_split_of_ne hrest (hlast he)
    rw [hback, ← List.cons_append, ← List.cons_append, ← List.append_assoc,
      isValidUpper_concat] at h'
    exact hne (hbody.eq_of_swap h' hentity).symm
  | @century blanks rest p p' hblanks hp hp' hne =>
    have hfront : ∀ {p}, p.toUpper ∈ centuries →
        upper (trimChars (blanks ++ p :: rest)) = p.toUpper :: upper (trimEnd rest) := by
      intro p hp
      rw [trimChars_append_cons (isBlankChar_of_mem_centuries hp),
        List.dropWhile_eq_nil_iff.2 hblanks, List.nil_append, upper_cons]
    rw [hfront hp] at heq
    rw [hfront hp'] at h'
    obtain ⟨q, body, rfl⟩ := List.exists_cons_of_ne_nil hbody.ne_nil
    rw [List.cons_append] at heq
    obtain ⟨rfl, hrest⟩ := List.cons.inj heq
    rw [hrest, ← List.cons_append, isValidUpper_concat] at h'
    exact hne (h'.eq_of_century hbody hp' hp)
  | @check front blanks a b ha hb hblanks hne =>
    have hback : ∀ {a}, isBlankChar a = false →
        upper (trimChars (front ++ a :: blanks)) =
          upper (front.dropWhile isBlankChar) ++ [a.toUpper] := by
      intro a ha
      have hnil : trimEnd blanks = [] := trimEnd_append [] hblanks
      rw [trimChars_append_cons ha, hnil, upper_append, upper_cons]
      rfl
    rw [hback ha] at heq
    rw [hback hb, isValidUpper_concat, ← checkChar?_eq_some_iff] at h'
    obtain ⟨rfl, hsame⟩ := List.append_inj' heq rfl
    rw [checkChar?_eq_some_iff.2 hbody, ← List.singleton_inj.1 hsame] at h'
    exact hne (Option.some.inj h').symm

/-- **What the check character of a registration number is good for.**  Blanks around a
    number and the case of its letters do not matter, and no slip leads from a valid
    number to a valid one, whatever year it is. -/
theorem isValid_detects (currentYear : Int) :
    (∀ (s : String) (front back : List Char), (∀ b ∈ front, isBlankChar b = true) →
      (∀ b ∈ back, isBlankChar b = true) →
      isValid (String.ofList (front ++ s.toList ++ back)) currentYear = isValid s currentYear) ∧
    (∀ s t : String, upper s.toList = upper t.toList →
      isValid s currentYear = isValid t currentYear) ∧
    (∀ s t : String, isValid s currentYear = true → Mistyped s.toList t.toList →
      isValid t currentYear = false) := by
  refine ⟨fun s front back hfront hback => ?_, fun s t h => ?_, fun s t hs hslip => ?_⟩
  · rw [isValid, isValid, String.toList_ofList, trimChars_surrounded hfront hback]
  · rw [isValid, isValid, ← trimChars_upper, ← trimChars_upper, h]
  · exact isValidUpper_of_mistyped hslip hs

/-- The year of a company moved by a slip: still in the past, but the check letter shows it. -/
theorem isValid_detects_year :
    isValid "197401143c " 2024 = true ∧ isValid "196401143c " 2024 = false := by
  have hvalid : isValid "197401143c " 2024 = true := by decide
  have hslip : Mistyped ("19".toList ++ '7' :: "401143c ".toList)
      ("19".toList ++ '6' :: "401143c ".toList) := .digit rfl rfl (by decide)
  exact ⟨hvalid, (isValid_detects 2024).2.2 "197401143c " "196401143c " hvalid hslip⟩

end FormIntake.Identifier.Uen
