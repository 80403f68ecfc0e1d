/-
  FormIntake — registration numbers as the years go by.

  The current year matters to companies and to other entities with the mark T.  A company
  that is registered stays so.  Of an entity only the last two digits of the current year
  are looked at, and they begin at zero again with every century: a number marked T is
  valid in the years from its own two digits on to the end of each century
  (`Registers.later_iff`).  So a valid number stays valid up to the end of the century,
  and all but those marked T stay so for ever (`isValid_later`).
-/
import FormIntake.Proofs.Identifier.Uen

namespace FormIntake.Identifier.Uen

open Text

variable {year year' : Int} {c : Char} {cs : List Char}

/-- The number is marked T and has these two digits for its year. -/
def MarkedYear (s : String) (n : Nat) : Prop :=
  ∃ y₁ y₂ rest, upper (trimChars s.toList) = 'T' :: y₁ :: y₂ :: rest ∧ n = value [y₁, y₂]

/-! ## The schemes -/

theorem isCompanyYear_later (h : isCompanyYear year cs = true) (hle : year ≤ year') :
    isCompanyYear year' cs = true := by
  rw [isCompanyYear, decide_eq_true_eq] at h ⊢
  exact h.trans hle

theorem isEntityYear_iff {ds : List Char} :
    isEntityYear year c ds = true ↔ (c = 'T' → (value ds : Int) ≤ year % 100) := by
  rw [isEntityYear, Bool.or_eq_true, bne_iff_ne, decide_eq_true_eq]
  exact or_iff_not_imp_left.trans (by rw [ne_eq, not_not])

/-- The year is the only thing about another entity that may change. -/
theorem isEntity_later_iff (h : isEntity year cs = true) : isEntity year' cs = true ↔
    ∀ y₁ y₂ rest, cs = 'T' :: y₁ :: y₂ :: rest → (value [y₁, y₂] : Int) ≤ year' % 100 := by
  unfold isEntity at h ⊢
  split at h
  · next p y₁ y₂ k₁ k₂ d₁ d₂ d₃ d₄ =>
    simp only [Bool.and_eq_true, isEntityYear_iff] at h ⊢
    obtain ⟨⟨⟨hcentury, -⟩, hkind⟩, hdigits⟩ := h
    constructor
    · rintro ⟨⟨⟨-, hyear⟩, -⟩, -⟩ z₁ z₂ rest heq
      cases heq
      exact hyear rfl
    · intro hyear
      refine ⟨⟨⟨hcentury, ?_⟩, hkind⟩, hdigits⟩
      rintro rfl
      exact hyear y₁ y₂ _ rfl
  · cases h

/-- The characters of a business and of a company are digits. -/
theorem digitCheck?_ne_some {weights : List Nat} {letters rest : List Char} {offset : Nat} {p : Char}
    (hp : p.isDigit = false) : digitCheck? weights letters offset (p :: rest) ≠ some c := by
  intro h
  have hdigit := (digitCheck?_eq_some_iff.1 h).2.1 p List.mem_cons_self
  rw [hp] at hdigit
  cases hdigit

/-- **A check character that goes with the others still does in a later year**, unless the
    two digits behind the mark T are after those of that year. -/
theorem Registers.later_iff (h : Registers year cs c) (hle : year ≤ year') :
    Registers year' cs c ↔
      ∀ y₁ y₂ rest, cs = 'T' :: y₁ :: y₂ :: rest → (value [y₁, y₂] : Int) ≤ year' % 100 := by
  rcases h with h | ⟨hyear, h⟩ | ⟨hentity, h⟩
  · refine iff_of_true (.business h) ?_
    rintro y₁ y₂ rest rfl
    exact absurd h (digitCheck?_ne_some rfl)
  · refine iff_of_true (.company (isCompanyYear_later hyear hle) h) ?_
    rintro y₁ y₂ rest rfl
    exact absurd h (digitCheck?_ne_some rfl)
  · rw [← isEntity_later_iff hentity]
    constructor
    · obtain ⟨-, p, rest, rfl, hp⟩ := isEntity_cons hentity
      have hdigit := isDigit_of_mem_centuries hp
      rintro (h' | ⟨-, h'⟩ | ⟨hentity', -⟩)
      · exact absurd h' (digitCheck?_ne_some hdigit)
      · exact absurd h' (digitCheck?_ne_some hdigit)
      · exact hentity'
    · exact fun hentity' => .entity hentity' h

/-- Up to the end of the century nothing changes. -/
theorem Registers.later (h : Registers year cs c) (hle : year ≤ year')
    (hcentury : year / 100 = year' / 100) : Registers year' cs c := by
  refine (h.later_iff hle).2 fun y₁ y₂ rest heq => ?_
  have hnow := (h.later_iff le_rfl).1 h y₁ y₂ rest heq
  omega

/-! ## Numbers -/

/-- There are characters enough for the mark and the year in front of the check character. -/
theorem Registers.exists_front (h : Registers year cs c) : ∃ a b d tail, cs = a :: b :: d :: tail := by
  have hlen : 3 ≤ cs.length := by
    rcases h with h | ⟨-, h⟩ | ⟨hentity, -⟩
    · have hlen : cs.length = 8 := (digitCheck?_eq_some_iff.1 h).1
      omega
    · have hlen : cs.length = 9 := (digitCheck?_eq_some_iff.1 h).1
      omega
    · have hlen := (isEntity_cons hentity).1
      omega
  rcases cs with _ | ⟨a, _ | ⟨b, _ | ⟨d, tail⟩⟩⟩
  · cases hlen
  · simp at hlen
  · simp at hlen
  · exact ⟨a, b, d, tail, rfl⟩

/-- **What becomes of a valid number in later years.**  It is valid in a later year if and
    only if it is not marked T or its two digits are not after those of that year.  So it
    stays valid up to the end of the century, and a number marked T whose digits are not
    00 is invalid again in the first year of every later one. -/
theorem isValid_later (s : String) (year year' : Int) (h : isValid s year = true)
    (hle : year ≤ year') :
    (isValid s year' = true ↔ ∀ n, MarkedYear s n → (n : Int) ≤ year' % 100) ∧
    (year / 100 = year' / 100 → isValid s year' = true) ∧
    (∀ n, MarkedYear s n → 0 < n → year' % 100 = 0 → isValid s year' = false) := by
  obtain ⟨body, c, hs, hbody⟩ := isValidUpper_iff.1 h
  have hvalid : isValid s year' = true ↔ Registers year' body c := by
    rw [isValid, hs, isValidUpper_concat]
  have hmarked : (∀ n, MarkedYear s n → (n : Int) ≤ year' % 100) ↔
      ∀ y₁ y₂ rest, body = 'T' :: y₁ :: y₂ :: rest → (value [y₁, y₂] : Int) ≤ year' % 100 := by
    constructor
    · rintro hall y₁ y₂ rest rfl
      exact hall _ ⟨y₁, y₂, rest ++ [c], hs, rfl⟩
    · rintro hall _ ⟨y₁, y₂, rest, hs', rfl⟩
      rw [hs] at hs'
      -- the check character stands behind the year
      obtain ⟨a, b, d, tail, rfl⟩ := hbody.exists_front
      cases hs'
      exact hall _ _ _ rfl
  have hiff : isValid s year' = true ↔ ∀ n, MarkedYear s n → (n : Int) ≤ year' % 100 :=
    hvalid.trans ((hbody.later_iff hle).trans hmarked.symm)
  refine ⟨hiff, fun hcentury => hvalid.2 (hbody.later hle hcentury), fun n hn hpos hfirst => ?_⟩
  rw [← Bool.not_eq_true, hiff]
  intro hall
  have := hall n hn
  omega

/-- A number of the year 2009 is valid to the end of the century. -/
theorem isValid_later_2099 : isValid " t09ll0001d" 2024 = true ∧ isValid " t09ll0001d" 2099 = true := by
  have hvalid : isValid " t09ll0001d" 2024 = true := by decide
  exact ⟨hvalid, (isValid_later _ 2024 2099 hvalid (by decide)).2.1 (by decide)⟩

/-- A number of the year 2009 is valid in 2024 and invalid in 2100. -/
theorem isValid_expires : isValid "T09LL0001D" 2024 = true ∧ isValid "T09LL0001D" 2100 = false := by
  decide

end FormIntake.Identifier.Uen
