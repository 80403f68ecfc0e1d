/-
  FormIntake — which choices a field takes.

  One choice is one of the options, or a free answer where the field allows one.

  The check of several choices sorts them twice, by what they look like and by
  whether they are listed, and looks for repetitions group by group
  (`check_eq_ok_iff_groups`).  `CheckboxOptions.Takes` is the rule without groups, and
  the check decides it (`check_eq_ok_iff`): every listed option lies in one of the
  two groups without repetitions, so it occurs once at most.
-/
import FormIntake.Proofs.Validation.Traversal
import FormIntake.Validation.Choice
import Mathlib.Data.List.Dedup
import Mathlib.Data.List.Perm.Subperm

namespace FormIntake

open Validation

/-! ## One choice -/

theorem isFreeAnswer_iff {others : Bool} {answer : String} :
    isFreeAnswer others answer = true ↔ others = true ∧ othersMark <+: answer.toList := by
  rw [isFreeAnswer, Bool.and_eq_true, List.isPrefixOf_iff_prefix]

theorem ChoiceOptions.checkListed_eq_ok_iff {o : ChoiceOptions} {answer : String} :
    o.checkListed answer = .ok () ↔ answer ∈ o.options := by
  rw [checkListed, require_eq_ok, List.contains_iff_mem]

theorem ChoiceOptions.check_eq_ok_iff {o : ChoiceOptions} {answer : String} :
    o.check answer = .ok () ↔
      answer ∈ o.options ∨ o.others = true ∧ othersMark <+: answer.toList := by
  rw [check, require_eq_ok, Bool.or_eq_true, List.contains_iff_mem, isFreeAnswer_iff]

theorem checkYesNo_eq_ok_iff {answer : String} :
    checkYesNo answer = .ok () ↔ answer = "Yes" ∨ answer = "No" := by
  rw [checkYesNo, require_eq_ok, Bool.or_eq_true, beq_iff_eq, beq_iff_eq]

theorem checkCountry_eq_ok_iff {answer : String} :
    checkCountry answer = .ok () ↔ answer ∈ Country.names := by
  rw [checkCountry, require_eq_ok, Country.isName, List.contains_iff_mem]

/-! ## Several choices -/

namespace CheckboxOptions

/-- Several choices that a field takes: as many as it asks for, each a listed option
    or a free answer where one is allowed, no option twice, and one at most that is
    not listed. -/
structure Takes (o : CheckboxOptions) (answers : List String) : Prop where
  fewest : o.bounded = true → ∀ n, o.fewest = some n → 0 < n → n ≤ answers.length
  most : o.bounded = true → ∀ n, o.most = some n → 0 < n → answers.length ≤ n
  free : ∀ a ∈ answers, a ∉ o.options → o.others = true ∧ othersMark <+: a.toList
  listed : ∀ a ∈ o.options, answers.count a ≤ 1
  unlisted : (answers.filter fun a => a ∉ o.options).length ≤ 1

variable {o : CheckboxOptions} {answers answers' : List String} {a : String} {count : Nat}

/-! ### The parts of the check -/

theorem isListed_iff : o.isListed a = true ↔ a ∈ o.options := List.contains_iff_mem

theorem reachesFewest_iff : o.reachesFewest count = true ↔
    (o.bounded = true → ∀ n, o.fewest = some n → 0 < n → n ≤ count) := by
  rw [reachesFewest, Bool.or_eq_true, Bool.not_eq_true', Option.all_eq_true]
  cases o.bounded with
  | false => simp
  | true =>
    simp only [Bool.true_eq_false, false_or, decide_eq_true_eq, true_imp_iff]
    -- the number zero is reached by every count
    exact forall₂_congr fun n _ => ⟨fun h _ => h, fun h => by omega⟩

theorem keepsToMost_iff : o.keepsToMost count = true ↔
    (o.bounded = true → ∀ n, o.most = some n → 0 < n → count ≤ n) := by
  rw [keepsToMost, Bool.or_eq_true, Bool.not_eq_true', Option.all_eq_true]
  cases o.bounded with
  | false => simp
  | true =>
    simp only [Bool.true_eq_false, false_or, Bool.or_eq_true, beq_iff_eq, decide_eq_true_eq,
      true_imp_iff]
    exact forall₂_congr fun n _ => ⟨fun h _ => by omega, fun h => by omega⟩

/-- The check passes if the count is within its bounds, every choice may be made, and
    the groups that may not hold repetitions hold none. -/
theorem check_eq_ok_iff_groups : o.check answers = .ok () ↔
    o.reachesFewest answers.length = true ∧ o.keepsToMost answers.length = true ∧
      (∀ a ∈ answers, o.isListed a = true ∨ isFreeAnswer o.others a = true) ∧
      (answers.filter fun a => !isFreeAnswer o.others a).Nodup ∧
      ((answers.filter (isFreeAnswer o.others)).filter fun a => !o.isListed a).length ≤ 1 ∧
      ((answers.filter (isFreeAnswer o.others)).filter o.isListed).Nodup := by
  simp only [check, List.partition_eq_filter_filter, check_bind_eq_ok, require_eq_ok,
    List.all_eq_true, Bool.or_eq_true, Bool.and_eq_true, decide_eq_true_eq]
  rfl

/-! ### The rule -/

theorem nodup_filter_iff {p : String → Bool} :
    (answers.filter p).Nodup ↔ ∀ a, p a = true → answers.count a ≤ 1 := by
  rw [List.nodup_iff_count_le_one]
  refine forall_congr' fun a => ?_
  by_cases h : p a = true
  · simp [List.count_filter h, h]
  · have hcount : (answers.filter p).count a = 0 := List.count_eq_zero_of_not_mem (by simp [h])
    simp [hcount, h]

/-- The free answers that are not listed are all the choices that are not. -/
theorem filter_unlisted_eq
    (hchoices : ∀ a ∈ answers, o.isListed a = true ∨ isFreeAnswer o.others a = true) :
    (answers.filter (isFreeAnswer o.others)).filter (fun a => !o.isListed a) =
      answers.filter fun a => a ∉ o.options := by
  rw [List.filter_filter]
  refine List.filter_congr fun a ha => ?_
  rw [Bool.eq_iff_iff, Bool.and_eq_true, Bool.not_eq_true', decide_eq_true_eq, ← isListed_iff,
    Bool.not_eq_true]
  exact ⟨And.left, fun hlisted => ⟨hlisted, (hchoices a ha).resolve_left (by simp [hlisted])⟩⟩

/-- Every option lies in the group of the choices that do not look free or in that of
    the listed ones that do. -/
theorem nodup_groups_iff
    (hchoices : ∀ a ∈ answers, o.isListed a = true ∨ isFreeAnswer o.others a = true) :
    ((answers.filter fun a => !isFreeAnswer o.others a).Nodup ∧
      ((answers.filter (isFreeAnswer o.others)).filter o.isListed).Nodup) ↔
    ∀ a ∈ o.options, answers.count a ≤ 1 := by
  rw [List.filter_filter, nodup_filter_iff, nodup_filter_iff]
  simp only [Bool.not_eq_true', Bool.and_eq_true]
  constructor
  · rintro ⟨hregular, hfree⟩ a ha
    cases h : isFreeAnswer o.others a with
    | false => exact hregular a h
    | true => exact hfree a ⟨isListed_iff.2 ha, h⟩
  · intro hoptions
    refine ⟨fun a h => ?_, fun a h => hoptions a (isListed_iff.1 h.1)⟩
    -- a choice that does not look free is listed
    by_cases ha : a ∈ answers
    · exact hoptions a (isListed_iff.1 ((hchoices a ha).resolve_right (by simp [h])))
    · rw [List.count_eq_zero_of_not_mem ha]
      exact Nat.zero_le 1

theorem check_eq_ok_iff : o.check answers = .ok () ↔ o.Takes answers := by
  rw [check_eq_ok_iff_groups, reachesFewest_iff, keepsToMost_iff]
  have hfree : (∀ a ∈ answers, o.isListed a = true ∨ isFreeAnswer o.others a = true) ↔
      ∀ a ∈ answers, a ∉ o.options → o.others = true ∧ othersMark <+: a.toList := by
    simp only [isListed_iff, isFreeAnswer_iff, or_iff_not_imp_left]
  constructor
  · rintro ⟨hfewest, hmost, hchoices, hregular, hunlisted, hlisted⟩
    refine ⟨hfewest, hmost, hfree.1 hchoices, (nodup_groups_iff hchoices).1 ⟨hregular, hlisted⟩, ?_⟩
    rwa [← filter_unlisted_eq hchoices]
  · rintro ⟨hfewest, hmost, hanswers, hoptions, hunlisted⟩
    have hchoices := hfree.2 hanswers
    obtain ⟨hregular, hlisted⟩ := (nodup_groups_iff hchoices).2 hoptions
    refine ⟨hfewest, hmost, hchoices, hregular, ?_, hlisted⟩
    rwa [filter_unlisted_eq hchoices]

/-! ### What the rule says of all choices -/

theorem Takes.nodup (h : o.Takes answers) : answers.Nodup := by
  rw [List.nodup_iff_count_le_one]
  intro a
  by_cases ha : a ∈ o.options
  · exact h.listed a ha
  · -- every occurrence is one of a choice that is not listed
    calc answers.count a
        = (answers.filter fun a => a ∉ o.options).count a := by
          rw [List.count_filter]
          simpa using ha
      _ ≤ (answers.filter fun a => a ∉ o.options).length := List.count_le_length
      _ ≤ 1 := h.unlisted

theorem Takes.length_le (h : o.Takes answers) : answers.length ≤ o.options.dedup.length + 1 := by
  have hlisted : (answers.filter (· ∈ o.options)).length ≤ o.options.dedup.length := by
    refine (List.subperm_of_subset (h.nodup.filter _) fun a ha => ?_).length_le
    rw [List.mem_dedup]
    simpa using (List.mem_filter.1 ha).2
  have hsplit := List.length_eq_length_filter_add (l := answers) (· ∈ o.options)
  have hunlisted : (answers.filter fun a => !decide (a ∈ o.options)).length ≤ 1 := by
    simpa using h.unlisted
  omega

theorem Takes.perm (h : o.Takes answers) (hperm : answers.Perm answers') : o.Takes answers' where
  fewest := by rw [← hperm.length_eq]; exact h.fewest
  most := by rw [← hperm.length_eq]; exact h.most
  free := fun a ha => h.free a (hperm.mem_iff.2 ha)
  listed := fun a ha => by rw [← hperm.count_eq]; exact h.listed a ha
  unlisted := by rw [← (hperm.filter _).length_eq]; exact h.unlisted

/-- **Which choices a field takes.**  The check passes if and only if the rule holds.
    Choices that are taken differ from one another and are one more at most than the
    options, and their order does not matter. -/
theorem check_decides (o : CheckboxOptions) (answers : List String) :
    (o.check answers = .ok () ↔ o.Takes answers) ∧
    (o.check answers = .ok () →
      answers.Nodup ∧ answers.length ≤ o.options.dedup.length + 1) ∧
    (∀ answers', answers.Perm answers' →
      (o.check answers = .ok () ↔ o.check answers' = .ok ())) := by
  refine ⟨check_eq_ok_iff, fun h => ?_, fun answers' hperm => ?_⟩
  · have htakes := check_eq_ok_iff.1 h
    exact ⟨htakes.nodup, htakes.length_le⟩
  · rw [check_eq_ok_iff, check_eq_ok_iff]
    exact ⟨fun h => h.perm hperm, fun h => h.perm hperm.symm⟩

/-- An option that looks like a free answer may be chosen beside one. -/
example :
    let o : CheckboxOptions := { options := ["a", "Others: b"], others := true }
    o.check ["Others: c", "Others: b", "a"] = .ok () ∧
      o.check ["Others: b", "Others: b"] = .error .checkboxRepeatedOther := by decide

end CheckboxOptions

end FormIntake
