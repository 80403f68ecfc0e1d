/-
  FormIntake — numbers of JSON, written and read back.

  Whole numbers of 64 bits are read back from their text (`number?_writeInt`).  A double is
  `Legible` if its text is a numeral that stands for it.  This depends on its digits, because
  a numeral of many digits is scaled and rounded more than once: 1.5 is legible, and
  103229554275233.328125 is not (`Double.not_legible`).

  What a numeral stands for is a whole number of 64 bits or a finite double
  (`Numeral.sound_of_number?`).
-/
import FormIntake.Json.Printer
import FormIntake.Json.Token
import FormIntake.Proofs.Digits
import FormIntake.Proofs.Number.Rounding
import Mathlib.Data.List.TakeWhile

namespace FormIntake

/-- The text of a double is a numeral that stands for it. -/
def Double.Legible (d : Double) : Prop :=
  (Json.Numeral.read? (Bytes.ofText d.text)).bind Json.Numeral.number? = some (.real d)

/-- The double 103229554275233.328125 has the text `103229554275233.33`, whose 17 digits are
    rounded before they are divided: it stands for 103229554275233.3125. -/
theorem Double.not_legible :
    ¬ (Double.mk false ((64 * 103229554275233 + 21) * Nat.pow 2 1068)).Legible := by
  unfold Legible
  decide +kernel

namespace Json

/-! ## The bytes of a numeral -/

theorem isNumeralByte_of_isDigit {b : UInt8} (h : Numeral.isDigit b = true) :
    isNumeralByte b = true := by
  simp [isNumeralByte, h]

namespace Numeral

variable {b rest : Bytes}

theorem readDigits_split (b : Bytes) :
    ∃ front, b = front ++ (readDigits b).2 ∧ ∀ x ∈ front, isNumeralByte x = true := by
  refine ⟨b.takeWhile isDigit, List.takeWhile_append_dropWhile.symm, fun x hx => ?_⟩
  exact isNumeralByte_of_isDigit (List.mem_takeWhile_imp hx)

theorem readFraction_split {ds : List Nat} (h : readFraction b = some (ds, rest)) :
    ∃ front, b = front ++ rest ∧ ∀ x ∈ front, isNumeralByte x = true := by
  unfold readFraction at h
  split at h
  · cases h
    exact ⟨[], rfl, by simp⟩
  · next point after =>
    split at h
    · next hpoint =>
      dsimp only at h
      split at h
      · cases h
      · cases h
        obtain ⟨front, hsplit, hfront⟩ := readDigits_split after
        refine ⟨point :: front, by rw [List.cons_append, ← hsplit], ?_⟩
        exact List.forall_mem_cons.2 ⟨by rw [hpoint]; decide, hfront⟩
    · cases h
      exact ⟨[], rfl, by simp⟩

theorem readSign_split (b : Bytes) :
    ∃ front, b = front ++ (readSign b).2 ∧ ∀ x ∈ front, isNumeralByte x = true := by
  unfold readSign
  split
  · exact ⟨[], rfl, by simp⟩
  · next sign after =>
    split
    · next hsign => exact ⟨[sign], rfl, by simp [hsign]; decide⟩
    · split
      · next hsign => exact ⟨[sign], rfl, by simp [hsign]; decide⟩
      · exact ⟨[], rfl, by simp⟩

theorem readExponent_split {e : Option Int} (h : readExponent b = some (e, rest)) :
    ∃ front, b = front ++ rest ∧ ∀ x ∈ front, isNumeralByte x = true := by
  unfold readExponent at h
  split at h
  · cases h
    exact ⟨[], rfl, by simp⟩
  · next mark after =>
    split at h
    · next hmark =>
      dsimp only at h
      split at h
      · cases h
      · cases h
        obtain ⟨sign, hsign, hallSign⟩ := readSign_split after
        obtain ⟨digits, hdigits, hallDigits⟩ := readDigits_split (readSign after).2
        refine ⟨mark :: (sign ++ digits), ?_, List.forall_mem_cons.2 ⟨?_, ?_⟩⟩
        · rw [List.cons_append, List.append_assoc, ← hdigits, ← hsign]
        · rcases hmark with rfl | rfl <;> decide
        · intro x hx
          exact (List.mem_append.1 hx).elim (hallSign x) (hallDigits x)
    · cases h
      exact ⟨[], rfl, by simp⟩

/-- A numeral is a row of digits, signs, points and exponent marks. -/
theorem isNumeralByte_of_read? {n : Numeral} (h : read? b = some n) :
    b ≠ [] ∧ ∀ x ∈ b, isNumeralByte x = true := by
  simp only [read?, Option.bind_eq_bind] at h
  generalize hunsigned : (if (b.head? == some 45) = true then b.tail else b) = unsigned at h
  split at h
  · cases h
  · next hwhole =>
    simp only [Option.bind_eq_some_iff] at h
    obtain ⟨⟨fraction, afterFraction⟩, hfraction, ⟨exponent, afterExponent⟩, hexponent, h⟩ := h
    dsimp only at hexponent h
    split at h
    · next hend =>
      cases List.isEmpty_iff.1 hend
      obtain ⟨f₁, hsplit₁, hall₁⟩ := readDigits_split unsigned
      obtain ⟨f₂, hsplit₂, hall₂⟩ := readFraction_split hfraction
      obtain ⟨f₃, hsplit₃, hall₃⟩ := readExponent_split hexponent
      -- without the sign the bytes are digits, then a fraction, then an exponent
      have hbody : ∀ x ∈ unsigned, isNumeralByte x = true := by
        rw [hsplit₁, hsplit₂, hsplit₃, List.append_nil]
        intro x hx
        simp only [List.mem_append] at hx
        exact hx.elim (hall₁ x) fun hx => hx.elim (hall₂ x) (hall₃ x)
      subst hunsigned
      cases b with
      | nil => simp [readDigits] at hwhole
      | cons sign b =>
        refine ⟨by simp, ?_⟩
        by_cases hsign : sign = 45
        · subst hsign
          exact List.forall_mem_cons.2 ⟨by decide, by simpa using hbody⟩
        · simpa [hsign] using hbody
    · cases h

end Numeral

/-- The bytes do not go on with a byte of a numeral. -/
def Stops (rest : Bytes) : Prop := ∀ b, rest.head? = some b → isNumeralByte b = false

theorem stops_nil : Stops [] := by
  rintro b ⟨⟩

theorem stops_cons {b : UInt8} (h : isNumeralByte b = false) (rest : Bytes) : Stops (b :: rest) := by
  rintro c ⟨⟩
  exact h

/-- A numeral that does not go on is a token. -/
theorem next?_numeral {b : UInt8} {bs rest : Bytes} {n : Numeral}
    (h : Numeral.read? (b :: bs) = some n) (hrest : Stops rest) :
    Token.next? b (bs ++ rest) = some (.number n.number?, rest) := by
  obtain ⟨-, hall⟩ := Numeral.isNumeralByte_of_read? h
  obtain ⟨hb, hbs⟩ := List.forall_mem_cons.1 hall
  have hne : ∀ c, isNumeralByte c = false → b ≠ c := by
    rintro c hc rfl
    rw [hb] at hc
    cases hc
  have hpunctuation : punctuation? b = none := by
    rw [punctuation?, if_neg (hne 91 rfl), if_neg (hne 93 rfl), if_neg (hne 123 rfl),
      if_neg (hne 125 rfl), if_neg (hne 44 rfl), if_neg (hne 58 rfl)]
  rw [Token.next?]
  simp only [hpunctuation, if_neg (hne 34 rfl), hb, if_true, takeWhile_exact hbs hrest,
    dropWhile_exact hbs hrest, h, Option.map_some]

/-! ## Whole numbers -/

namespace Numeral

/-- Digits written without leading zeros may open a numeral. -/
theorem digitValues_digits (n : Nat) : (digitValues (Text.digits n)).isEmpty = false ∧
    ((digitValues (Text.digits n)).head? = some 0 → (digitValues (Text.digits n)).length = 1) := by
  cases hrow : Text.digits n with
  | nil => exact absurd hrow (Text.digits_ne_nil n)
  | cons c cs =>
    refine ⟨rfl, fun hhead => ?_⟩
    have hc : c.isDigit = true := Text.isDigit_of_mem_digits (hrow ▸ List.mem_cons_self)
    obtain ⟨hlow, -⟩ := Char.isDigit_iff_toNat.1 hc
    have hnat : c.toNat - 48 = 0 := Option.some.inj hhead
    have hzero : c = '0' := by
      rw [← Char.ofNat_toNat c, show c.toNat = 48 from Nat.le_antisymm (by omega) hlow]
    have hn : n = 0 := Text.eq_zero_of_head?_digits (by rw [hrow, hzero]; rfl)
    rw [hn] at hrow
    rw [← hrow]
    rfl

/-- A row of digits is a numeral, with or without a sign. -/
theorem read?_digits (n : Nat) :
    read? (Bytes.ofChars (Text.digits n)) = some ⟨false, digitValues (Text.digits n), [], none⟩ ∧
      read? (45 :: Bytes.ofChars (Text.digits n)) =
        some ⟨true, digitValues (Text.digits n), [], none⟩ := by
  obtain ⟨hempty, hlead⟩ := digitValues_digits n
  have hread : readDigits (Bytes.ofChars (Text.digits n)) = (digitValues (Text.digits n), []) := by
    rw [← List.append_nil (Bytes.ofChars _)]
    exact readDigits_ofChars (fun c hc => Text.isDigit_of_mem_digits hc) (by simp)
  have hguard : ((digitValues (Text.digits n)).isEmpty ||
      (digitValues (Text.digits n)).head? == some 0 &&
        decide (1 < (digitValues (Text.digits n)).length)) = false := by
    rw [hempty, Bool.false_or, Bool.and_eq_false_imp]
    intro hzero
    rw [hlead (by simpa using hzero)]
    rfl
  have hsign : ((Bytes.ofChars (Text.digits n)).head? == some 45) = false := by
    cases hrow : Text.digits n with
    | nil => rfl
    | cons c cs =>
      have hc : c.isDigit = true := Text.isDigit_of_mem_digits (hrow ▸ List.mem_cons_self)
      rw [Bytes.ofChars_cons_of_lt (toNat_lt_of_isDigit hc), List.head?_cons, beq_eq_false_iff_ne]
      intro heq
      have := (isDigit_ofNat hc).1
      rw [Option.some.inj heq] at this
      exact absurd this (by decide)
  constructor
  · simp [read?, hsign, hread, hguard, readFraction, readExponent]
  · simp [read?, hread, hguard, readFraction, readExponent]

end Numeral

/-- **Whole numbers of 64 bits are read back.** -/
theorem number?_writeInt {i : Int} (h : leastInt ≤ i ∧ i ≤ greatestInt) :
    (Numeral.read? (Bytes.ofChars (writeInt i))).bind Numeral.number? = some (.int i) := by
  rw [writeInt]
  -- the absolute value is named, so that it is not rewritten below
  obtain ⟨n, hn⟩ : ∃ n, i.natAbs = n := ⟨_, rfl⟩
  obtain ⟨hbare, hsigned⟩ := Numeral.read?_digits n
  have hvalue : Numeral.ofDigits (Numeral.digitValues (Text.digits n)) = n := by
    rw [Numeral.ofDigits_digitValues, Text.value_digits]
  rw [hn]
  split
  · next hneg =>
    have habs : -(n : Int) = i := by omega
    have hzero : n ≠ 0 := by omega
    rw [Bytes.ofChars_cons_of_lt (by decide), show UInt8.ofNat '-'.toNat = 45 from rfl, hsigned]
    simp [Numeral.number?, hvalue, habs, h, hzero]
  · next hpos =>
    have habs : (n : Int) = i := by omega
    rw [hbare]
    simp [Numeral.number?, hvalue, habs, h]

/-! ## Any number -/

/-- What a number may be: a whole number of 64 bits, or a double with a property. -/
def Number.Sound (p : Double → Prop) : Number → Prop
  | .int i => leastInt ≤ i ∧ i ≤ greatestInt
  | .real d => p d

theorem Number.Sound.mono {p q : Double → Prop} {n : Number} (hpq : ∀ d, p d → q d)
    (h : n.Sound p) : n.Sound q := by
  cases n with
  | int i => exact h
  | real d => exact hpq d h

/-- **Whole numbers and legible doubles are read back.** -/
theorem number?_writeNumber {n : Number} (h : n.Sound Double.Legible) :
    (Numeral.read? (Bytes.ofChars (writeNumber n))).bind Numeral.number? = some n := by
  cases n with
  | int i => exact number?_writeInt h
  | real d =>
    have hlegible : d.Legible := h
    rwa [Double.Legible, Bytes.ofText_eq] at hlegible

/-- The first digits of a numeral make a significand of 64 bits. -/
theorem Numeral.takeDigits_le {significand : Nat} {ds : List Nat} (h : significand ≤ largestWord) :
    (takeDigits significand ds).1 ≤ largestWord := by
  fun_induction takeDigits significand ds with
  | case1 => exact h
  | case2 _ _ _ hfits ih => exact ih hfits
  | case3 => exact h

theorem Numeral.isFinite_of_double? {n : Numeral} {d : Double} (h : n.double? = some d) :
    d.isFinite = true := by
  have hhigh : (takeDigits 0 n.whole).1 ≤ largestWord := takeDigits_le (Nat.zero_le _)
  exact Double.isFinite_of_ofScaled? (takeDigits_le hhigh) h

/-- **A numeral stands for a whole number of 64 bits or for a finite double.** -/
theorem Numeral.sound_of_number? {n : Numeral} {x : Number} (h : n.number? = some x) :
    x.Sound fun d => d.isFinite = true := by
  rw [number?] at h
  generalize (if n.negative = true then -(ofDigits n.whole : Int) else ofDigits n.whole) = i at h
  split at h
  · next hint =>
    cases h
    simp only [Bool.and_eq_true, decide_eq_true_eq] at hint
    exact ⟨hint.1.2, hint.2⟩
  · obtain ⟨d, hd, rfl⟩ := Option.map_eq_some_iff.1 h
    exact isFinite_of_double? hd

end Json

end FormIntake
