/-
  FormIntake — rows of decimal digits.

  A number is written without leading zeros (`eq_zero_of_head?_digits`), and zeros in front
  of it fill a width and do not change its value (`value_paddedDigits`).  The other way
  round, a row of digits is the number it stands for, written with as many digits
  (`paddedDigits_value`); with no zero at its front it is that number as it is written
  (`digits_value`).  Where a number has a greatest value, a row of digits is read if its number
  is not above that (`readUpTo?_eq_some_iff`).  In bytes a row of digits is read as far as it
  goes (`readDigits_ofChars`).
-/
import FormIntake.Json.Numeral
import FormIntake.Proofs.Json.Text
import FormIntake.Text.Numeral
import Mathlib.Algebra.Group.Nat.Defs
import Mathlib.Data.List.Induction
import Mathlib.Data.List.TakeWhile

namespace FormIntake

section

variable {α : Type} {p : α → Bool} {xs rest : List α}

/-- What has a property ends where something follows that has not. -/
theorem takeWhile_exact (h : ∀ x ∈ xs, p x = true) (hrest : ∀ x, rest.head? = some x → p x = false) :
    (xs ++ rest).takeWhile p = xs := by
  rw [List.takeWhile_append_of_pos h]
  cases rest with
  | nil => simp
  | cons x rest => simp [hrest x rfl]

theorem dropWhile_exact (h : ∀ x ∈ xs, p x = true) (hrest : ∀ x, rest.head? = some x → p x = false) :
    (xs ++ rest).dropWhile p = rest := by
  rw [List.dropWhile_append_of_pos h]
  cases rest with
  | nil => simp
  | cons x rest => simp [hrest x rfl]

end

namespace Text

variable {n m max width : Nat} {c d : Char} {cs ds : List Char}

theorem digits_ne_nil (n : Nat) : digits n ≠ [] := Nat.toDigits_ne_nil

theorem eq_zero_of_head?_digits (h : (digits n).head? = some '0') : n = 0 := by
  induction n using Nat.strongRecOn with
  | ind n ih =>
    rw [digits, Nat.toDigits_eq_if (by decide)] at h
    split at h
    · exact Nat.digitChar_eq_zero.1 (Option.some.inj h)
    · next hlarge =>
      -- the leading digit is that of a tenth
      rw [List.head?_append, Option.or_of_isSome (by simp [Nat.toDigits_ne_nil])] at h
      have := ih (n / 10) (by omega) h
      omega

/-- Zero alone is written with a zero at the front. -/
theorem head?_digits_ne (h : 1 ≤ n) : (digits n).head? ≠ some '0' := by
  intro hzero
  have := eq_zero_of_head?_digits hzero
  omega

theorem eq_toString_iff {s : String} : s = toString n ↔ s.toList = digits n := by
  rw [Nat.toString_eq_ofList_toDigits, ← String.toList_inj, String.toList_ofList, digits]

/-- Numbers that are written alike are the same. -/
theorem eq_of_toString_eq (h : toString m = toString n) : m = n := by
  have hdigits : digits m = digits n := (eq_toString_iff.1 rfl).symm.trans (eq_toString_iff.1 h)
  rw [← value_digits m, hdigits, value_digits]

theorem length_digits_le (hwidth : 0 < width) (h : n < 10 ^ width) : (digits n).length ≤ width :=
  (Nat.length_toDigits_le_iff (by decide) hwidth).2 h

theorem length_paddedDigits (hwidth : 0 < width) (h : n < 10 ^ width) :
    (paddedDigits width n).length = width := by
  have := length_digits_le hwidth h
  rw [paddedDigits, List.length_append, List.length_replicate]
  omega

theorem paddedDigits_ne_nil (width n : Nat) : paddedDigits width n ≠ [] :=
  List.append_ne_nil_of_right_ne_nil _ (digits_ne_nil n)

theorem value_paddedDigits (width n : Nat) : value (paddedDigits width n) = n := by
  rw [value, paddedDigits, Nat.ofDigitChars_append, Nat.ofDigitChars_replicate_zero, Nat.mul_zero]
  exact value_digits n

theorem isDigit_of_mem_paddedDigits (h : c ∈ paddedDigits width n) : c.isDigit = true := by
  rcases List.mem_append.1 h with h | h
  · rw [List.eq_of_mem_replicate h]
    rfl
  · exact isDigit_of_mem_digits h

theorem exists_paddedDigits_eq (width n : Nat) :
    ∃ c cs, paddedDigits width n = c :: cs ∧ c.isDigit = true := by
  obtain ⟨c, cs, hcs⟩ := List.exists_cons_of_ne_nil (paddedDigits_ne_nil width n)
  exact ⟨c, cs, hcs, isDigit_of_mem_paddedDigits (hcs ▸ List.mem_cons_self)⟩

/-! ### Rows of digits by their number -/

theorem value_concat (cs : List Char) (c : Char) :
    value (cs ++ [c]) = 10 * value cs + (c.toNat - '0'.toNat) := by
  rw [value, Nat.ofDigitChars_append, Nat.ofDigitChars_cons, Nat.ofDigitChars_nil, value]

theorem digitValue_lt (h : c.isDigit = true) : c.toNat - '0'.toNat < 10 := by
  obtain ⟨-, hhigh⟩ := Char.isDigit_iff_toNat.1 h
  rw [show '9'.toNat = 57 from rfl] at hhigh
  rw [show '0'.toNat = 48 from rfl]
  omega

theorem eq_of_digitValue_eq (hc : c.isDigit = true) (hd : d.isDigit = true)
    (h : c.toNat - '0'.toNat = d.toNat - '0'.toNat) : c = d := by
  obtain ⟨hc, -⟩ := Char.isDigit_iff_toNat.1 hc
  obtain ⟨hd, -⟩ := Char.isDigit_iff_toNat.1 hd
  exact Char.toNat_inj.1 (by omega)

theorem value_lt (h : ∀ c ∈ cs, c.isDigit = true) : value cs < 10 ^ cs.length := by
  induction cs using List.reverseRecOn with
  | nil => exact Nat.one_pos
  | append_singleton cs c ih =>
    rw [List.forall_mem_append, List.forall_mem_singleton] at h
    have hcs := ih h.1
    have hc := digitValue_lt h.2
    rw [value_concat, List.length_append, List.length_singleton, Nat.pow_succ]
    omega

/-- Rows of digits of one length that stand for one number are the same. -/
theorem eq_of_value_eq (hcs : ∀ c ∈ cs, c.isDigit = true) (hds : ∀ c ∈ ds, c.isDigit = true)
    (hlen : cs.length = ds.length) (h : value cs = value ds) : cs = ds := by
  induction cs using List.reverseRecOn generalizing ds with
  | nil => exact (List.length_eq_zero_iff.1 hlen.symm).symm
  | append_singleton cs c ih =>
    rcases List.eq_nil_or_concat ds with rfl | ⟨ds, d, rfl⟩
    · simp at hlen
    · rw [List.concat_eq_append] at hds hlen h ⊢
      rw [List.forall_mem_append, List.forall_mem_singleton] at hcs hds
      rw [value_concat, value_concat] at h
      have hc := digitValue_lt hcs.2
      have hd := digitValue_lt hds.2
      have hfront := ih hcs.1 hds.1 (by simpa using hlen) (by omega)
      rw [hfront, eq_of_digitValue_eq hcs.2 hds.2 (by omega)]

/-- A row of digits is the number it stands for, written with as many digits. -/
theorem paddedDigits_value (hpos : 0 < cs.length) (h : ∀ c ∈ cs, c.isDigit = true) :
    paddedDigits cs.length (value cs) = cs :=
  eq_of_value_eq (fun _ => isDigit_of_mem_paddedDigits) h (length_paddedDigits hpos (value_lt h))
    (value_paddedDigits _ _)

/-- A row of digits that begins with no zero is the number it stands for. -/
theorem digits_value (hne : cs ≠ []) (h : ∀ c ∈ cs, c.isDigit = true)
    (hzero : cs.head? ≠ some '0') : digits (value cs) = cs := by
  have hpadded := paddedDigits_value (List.length_pos_of_ne_nil hne) h
  rw [paddedDigits] at hpadded
  cases hfill : cs.length - (digits (value cs)).length with
  | zero => rwa [hfill] at hpadded
  | succ k =>
    -- the first of the zeros that fill the width would be at the front
    rw [hfill] at hpadded
    exact absurd (hpadded ▸ rfl) hzero

/-! ### Numbers that have a greatest value -/

/-- More digits make a number no smaller. -/
theorem le_ofDigitChars (n : Nat) (cs : List Char) : n ≤ Nat.ofDigitChars 10 cs n := by
  rw [Nat.ofDigitChars_eq_ofDigitChars_zero]
  have hone : 1 ≤ 10 ^ cs.length := Nat.pow_pos (by omega)
  have hle : 1 * n ≤ 10 ^ cs.length * n := Nat.mul_le_mul_right n hone
  omega

theorem addDigit?_eq_some_iff : addDigit? max n c = some m ↔
    c.isDigit = true ∧ m = 10 * n + (c.toNat - '0'.toNat) ∧ m ≤ max := by
  simp only [addDigit?, Option.ite_none_right_eq_some, Bool.and_eq_true, decide_eq_true_eq,
    Option.some.injEq]
  constructor
  · rintro ⟨⟨hc, hle⟩, rfl⟩
    exact ⟨hc, rfl, hle⟩
  · rintro ⟨hc, rfl, hle⟩
    exact ⟨⟨hc, hle⟩, rfl⟩

/-- Reading stops early only at a number that is too large with all its digits as well. -/
theorem foldlM_addDigit?_eq_some_iff (hn : n ≤ max) : cs.foldlM (addDigit? max) n = some m ↔
    (∀ c ∈ cs, c.isDigit = true) ∧ m = Nat.ofDigitChars 10 cs n ∧ m ≤ max := by
  induction cs generalizing n with
  | nil =>
    show some n = some m ↔ _
    rw [Nat.ofDigitChars_nil, Option.some.injEq]
    constructor
    · rintro rfl
      exact ⟨by simp, rfl, hn⟩
    · rintro ⟨-, rfl, -⟩
      rfl
  | cons c cs ih =>
    show (addDigit? max n c).bind (fun k => cs.foldlM (addDigit? max) k) = some m ↔ _
    rw [Nat.ofDigitChars_cons, List.forall_mem_cons, Option.bind_eq_some_iff]
    constructor
    · rintro ⟨k, hk, hrest⟩
      obtain ⟨hc, rfl, hle⟩ := addDigit?_eq_some_iff.1 hk
      obtain ⟨hcs, hm, hmax⟩ := (ih hle).1 hrest
      exact ⟨⟨hc, hcs⟩, hm, hmax⟩
    · rintro ⟨⟨hc, hcs⟩, hm, hmax⟩
      have hgrows := le_ofDigitChars (10 * n + (c.toNat - '0'.toNat)) cs
      have hle : 10 * n + (c.toNat - '0'.toNat) ≤ max := by omega
      exact ⟨_, addDigit?_eq_some_iff.2 ⟨hc, rfl, hle⟩, (ih hle).2 ⟨hcs, hm, hmax⟩⟩

/-- A row of digits is read if the number it stands for is not too large. -/
theorem readUpTo?_eq_some_iff (hne : cs ≠ []) (h : ∀ c ∈ cs, c.isDigit = true) :
    readUpTo? max cs = some m ↔ m = value cs ∧ m ≤ max := by
  have hplus : withoutPlus cs = cs := by
    rw [withoutPlus.eq_def]
    split
    · next rest => exact absurd (h '+' List.mem_cons_self) (by decide)
    · rfl
  have hread : readUpTo? max cs = cs.foldlM (addDigit? max) 0 := by
    rw [readUpTo?, hplus, if_neg (by simpa using hne)]
  rw [hread, foldlM_addDigit?_eq_some_iff (Nat.zero_le max)]
  exact and_iff_right h

end Text

/-! ## Digits as bytes -/

theorem toNat_lt_of_isDigit {c : Char} (h : c.isDigit = true) : c.toNat < 128 :=
  Nat.lt_of_le_of_lt (Char.isDigit_iff_toNat.1 h).2 (by decide)

namespace Json.Numeral

/-- A digit as a byte. -/
theorem isDigit_ofNat {c : Char} (h : c.isDigit = true) :
    isDigit (UInt8.ofNat c.toNat) = true ∧ (UInt8.ofNat c.toNat).toNat = c.toNat := by
  obtain ⟨hlow, hhigh⟩ := Char.isDigit_iff_toNat.1 h
  rw [show '0'.toNat = 48 from rfl] at hlow
  rw [show '9'.toNat = 57 from rfl] at hhigh
  have hnat : (UInt8.ofNat c.toNat).toNat = c.toNat := by
    rw [UInt8.toNat_ofNat', Nat.mod_eq_of_lt (by omega)]
  refine ⟨?_, hnat⟩
  rw [isDigit, Bool.and_eq_true, decide_eq_true_eq, decide_eq_true_eq, UInt8.le_iff_toNat_le,
    UInt8.le_iff_toNat_le, hnat]
  exact ⟨hlow, hhigh⟩

/-- The numbers of a row of digits. -/
def digitValues (cs : List Char) : List Nat := cs.map fun c => c.toNat - 48

theorem ofDigits_digitValues (cs : List Char) : ofDigits (digitValues cs) = Text.value cs := by
  rw [ofDigits, digitValues, List.foldl_map, Text.value, Nat.ofDigitChars_eq_foldl]
  rfl

theorem ofChars_eq_map {cs : List Char} (h : ∀ c ∈ cs, c.isDigit = true) :
    Bytes.ofChars cs = cs.map fun c => UInt8.ofNat c.toNat := by
  induction cs with
  | nil => rfl
  | cons c cs ih =>
    obtain ⟨hc, hcs⟩ := List.forall_mem_cons.1 h
    rw [Bytes.ofChars_cons_of_lt (toNat_lt_of_isDigit hc), ih hcs, List.map_cons]

/-- A row of digits is read as far as it goes. -/
theorem readDigits_ofChars {cs : List Char} (h : ∀ c ∈ cs, c.isDigit = true) {rest : Bytes}
    (hrest : ∀ b, rest.head? = some b → isDigit b = false) :
    readDigits (Bytes.ofChars cs ++ rest) = (digitValues cs, rest) := by
  have hall : ∀ b ∈ cs.map fun c => UInt8.ofNat c.toNat, isDigit b = true := by
    intro b hb
    obtain ⟨c, hc, rfl⟩ := List.mem_map.1 hb
    exact (isDigit_ofNat (h c hc)).1
  have hvalues : ∀ c ∈ cs, (UInt8.ofNat c.toNat).toNat - 48 = c.toNat - 48 := fun c hc => by
    rw [(isDigit_ofNat (h c hc)).2]
  rw [ofChars_eq_map h, readDigits, takeWhile_exact hall hrest, dropWhile_exact hall hrest,
    List.map_map, digitValues]
  exact congrArg (·, rest) (List.map_congr_left hvalues)

end Json.Numeral

end FormIntake
