/-
  FormIntake — what a weighted sum tells apart.

  Modulo eleven, a changed value changes the sum if its weight is prime to eleven
  (`modEq_of_weightedSum_change`), and so do two neighbours that change places if
  their weights differ (`modEq_of_weightedSum_swap`).  A check character tells sums
  from one another if no character stands twice in its alphabet (`modEq_of_checkChar`).

  `digitCheck?` is the check character of a row of digits.  A changed digit changes it
  (`Discerning.eq_of_change`), and so do two that change places (`Discerning.eq_of_swap`).
-/
import FormIntake.Identifier.CheckDigit
import Mathlib.Algebra.Ring.Divisibility.Basic
import Mathlib.Algebra.Ring.Int.Defs
import Mathlib.Data.Int.ModEq
import Mathlib.Data.List.Chain
import Mathlib.Data.Nat.Prime.Int
import Mathlib.Tactic.NormNum.Prime
import Mathlib.Tactic.Ring

namespace FormIntake.Identifier

variable {weights front back : List Nat} {x y s t : Nat} {alphabet : List Char} {c d e : Char}

/-! ## Weighted sums -/

theorem modEq_of_weightedSum_change (hweights : ∀ w ∈ weights, Nat.Coprime 11 w)
    (hlen : front.length < weights.length)
    (h : weightedSum weights (front ++ x :: back) ≡
      weightedSum weights (front ++ y :: back) [MOD 11]) : x ≡ y [MOD 11] := by
  induction front generalizing weights with
  | nil =>
    cases weights with
    | nil => cases hlen
    | cons w weights =>
      exact (Nat.ModEq.add_right_cancel' _ h).cancel_left_of_coprime (hweights w List.mem_cons_self)
  | cons z front ih =>
    cases weights with
    | nil => cases hlen
    | cons w weights =>
      exact ih (fun w hw => hweights w (List.mem_cons_of_mem _ hw)) (Nat.lt_of_succ_lt_succ hlen)
        (Nat.ModEq.add_left_cancel' _ h)

/-- Two neighbours weigh as much the other way round only if they agree or their
    weights do. -/
theorem modEq_of_swap {v w : Nat} (hw : ¬ v ≡ w [MOD 11])
    (h : v * x + w * y ≡ v * y + w * x [MOD 11]) : x ≡ y [MOD 11] := by
  rw [Nat.modEq_iff_dvd] at h hw ⊢
  have hprime := Nat.prime_iff_prime_int.1 (by norm_num : Nat.Prime 11)
  have heq : ((v * y + w * x : ℕ) : ℤ) - (v * x + w * y : ℕ) = (w - v) * (x - y) := by
    push_cast
    ring
  rw [heq] at h
  exact dvd_sub_comm.1 ((hprime.dvd_or_dvd h).resolve_left hw)

theorem modEq_of_weightedSum_swap (hweights : weights.IsChain fun v w => ¬ v ≡ w [MOD 11])
    (hlen : front.length + 1 < weights.length)
    (h : weightedSum weights (front ++ x :: y :: back) ≡
      weightedSum weights (front ++ y :: x :: back) [MOD 11]) : x ≡ y [MOD 11] := by
  induction front generalizing weights with
  | nil =>
    match weights, hlen with
    | v :: w :: weights, _ =>
      have hneighbours : ¬ v ≡ w [MOD 11] := (List.isChain_cons_cons.1 hweights).1
      refine modEq_of_swap hneighbours (Nat.ModEq.add_right_cancel' (weightedSum weights back) ?_)
      simpa [weightedSum, Nat.add_assoc] using h
  | cons z front ih =>
    cases weights with
    | nil => cases hlen
    | cons w weights =>
      exact ih hweights.tail (Nat.lt_of_succ_lt_succ hlen) (Nat.ModEq.add_left_cancel' _ h)

/-! ## Check characters -/

/-- Weights and check characters that tell sums from one another when one of their
    values has changed. -/
structure Discerning (weights : List Nat) (alphabet : List Char) : Prop where
  coprime : ∀ w ∈ weights, Nat.Coprime 11 w
  nodup : alphabet.Nodup
  length : 11 ≤ alphabet.length

theorem mem_of_checkChar (h : checkChar alphabet s = some c) : c ∈ alphabet :=
  List.mem_of_getElem? h

/-- Only the first eleven characters are check characters. -/
theorem checkChar_take (alphabet : List Char) (s : Nat) :
    checkChar (alphabet.take 11) s = checkChar alphabet s :=
  List.getElem?_take_of_lt (Nat.mod_lt s (by decide))

theorem exists_checkChar (hlen : 11 ≤ alphabet.length) (s : Nat) :
    ∃ c, checkChar alphabet s = some c :=
  ⟨_, List.getElem?_eq_getElem (Nat.lt_of_lt_of_le (Nat.mod_lt s (by decide)) hlen)⟩

theorem modEq_of_checkChar (hnodup : alphabet.Nodup) (hlen : 11 ≤ alphabet.length)
    (hs : checkChar alphabet s = some c) (ht : checkChar alphabet t = some c) : s ≡ t [MOD 11] :=
  (List.getElem?_inj (Nat.lt_of_lt_of_le (Nat.mod_lt s (by decide)) hlen) hnodup).1
    (hs.trans ht.symm)

/-- One check character for two numbers that differ in one value. -/
theorem Discerning.modEq (h : Discerning weights alphabet) {offset : Nat}
    (hlen : front.length < weights.length)
    (hx : checkChar alphabet (weightedSum weights (front ++ x :: back) + offset) = some c)
    (hy : checkChar alphabet (weightedSum weights (front ++ y :: back) + offset) = some c) :
    x ≡ y [MOD 11] :=
  modEq_of_weightedSum_change h.coprime hlen
    (Nat.ModEq.add_right_cancel' offset (modEq_of_checkChar h.nodup h.length hx hy))

/-! ## Digits -/

/-- The check character of a row of digits, one for each weight. -/
def digitCheck? (weights : List Nat) (alphabet : List Char) (offset : Nat) (ds : List Char) :
    Option Char :=
  if ds.length = weights.length ∧ ds.all Char.isDigit then
    checkChar alphabet (weightedSum weights (digitValues ds) + offset)
  else none

theorem digitCheck?_eq_some_iff {offset : Nat} {ds : List Char} :
    digitCheck? weights alphabet offset ds = some c ↔
      ds.length = weights.length ∧ (∀ d ∈ ds, d.isDigit = true) ∧
        checkChar alphabet (weightedSum weights (digitValues ds) + offset) = some c := by
  rw [digitCheck?, ← List.all_eq_true]
  split
  · next h => exact ⟨fun hc => ⟨h.1, h.2, hc⟩, fun hc => hc.2.2⟩
  · next h => exact ⟨nofun, fun hc => absurd ⟨hc.1, hc.2.1⟩ h⟩

theorem digitValues_append_cons (front back : List Char) (d : Char) :
    digitValues (front ++ d :: back) =
      digitValues front ++ (d.toNat - '0'.toNat) :: digitValues back := by
  simp [digitValues]

@[simp] theorem length_digitValues (ds : List Char) : (digitValues ds).length = ds.length :=
  List.length_map _

/-- Modulo eleven every digit has a value of its own. -/
theorem eq_of_digitValue_modEq (hc : c.isDigit = true) (hd : d.isDigit = true)
    (h : c.toNat - '0'.toNat ≡ d.toNat - '0'.toNat [MOD 11]) : c = d := by
  obtain ⟨hc, hc'⟩ := Char.isDigit_iff_toNat.1 hc
  obtain ⟨hd, hd'⟩ := Char.isDigit_iff_toNat.1 hd
  rw [show '0'.toNat = 48 from rfl] at hc hd h
  rw [show '9'.toNat = 57 from rfl] at hc' hd'
  have heq : c.toNat - 48 = d.toNat - 48 := h.eq_of_lt_of_lt (by omega) (by omega)
  exact Char.toNat_inj.1 (by omega)

/-- **A changed digit changes the check character.** -/
theorem Discerning.eq_of_change (h : Discerning weights alphabet) {offset : Nat}
    {front back : List Char}
    (hd : digitCheck? weights alphabet offset (front ++ d :: back) = some c)
    (he : digitCheck? weights alphabet offset (front ++ e :: back) = some c) : d = e := by
  obtain ⟨hlen, hdigits, hd⟩ := digitCheck?_eq_some_iff.1 hd
  obtain ⟨-, hdigits', he⟩ := digitCheck?_eq_some_iff.1 he
  rw [digitValues_append_cons] at hd he
  have hfront : (digitValues front).length < weights.length := by
    simp only [List.length_append, List.length_cons] at hlen
    rw [length_digitValues]
    omega
  exact eq_of_digitValue_modEq (hdigits d (by simp)) (hdigits' e (by simp)) (h.modEq hfront hd he)

/-- **Neighbouring digits that change places change the check character.** -/
theorem Discerning.eq_of_swap (h : Discerning weights alphabet)
    (hweights : weights.IsChain fun v w => ¬ v ≡ w [MOD 11]) {offset : Nat} {front back : List Char}
    (hd : digitCheck? weights alphabet offset (front ++ d :: e :: back) = some c)
    (he : digitCheck? weights alphabet offset (front ++ e :: d :: back) = some c) : d = e := by
  obtain ⟨hlen, hdigits, hd⟩ := digitCheck?_eq_some_iff.1 hd
  obtain ⟨-, -, he⟩ := digitCheck?_eq_some_iff.1 he
  rw [digitValues_append_cons] at hd he
  have hfront : (digitValues front).length + 1 < weights.length := by
    simp only [List.length_append, List.length_cons] at hlen
    rw [length_digitValues]
    omega
  have hsum := Nat.ModEq.add_right_cancel' offset (modEq_of_checkChar h.nodup h.length hd he)
  exact eq_of_digitValue_modEq (hdigits d (by simp)) (hdigits e (by simp))
    (modEq_of_weightedSum_swap hweights hfront hsum)

/-! ## The character behind the others -/

/-- A character that is not the last one stands in front of it. -/
theorem exists_split_of_ne {front back body : List Char} (h : front ++ d :: back = body ++ [c])
    (hne : d ≠ c) : ∃ rest, back = rest ++ [c] ∧ body = front ++ d :: rest := by
  rcases List.eq_nil_or_concat back with rfl | ⟨rest, last, rfl⟩
  · exact absurd (List.singleton_inj.1 (List.append_inj' h rfl).2) hne
  · rw [List.concat_eq_append, ← List.cons_append, ← List.append_assoc] at h
    obtain ⟨rfl, hlast⟩ := List.append_inj' h rfl
    exact ⟨rest, by rw [List.concat_eq_append, hlast], rfl⟩

end FormIntake.Identifier
