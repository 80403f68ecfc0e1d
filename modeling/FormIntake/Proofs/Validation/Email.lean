/-
  FormIntake — which texts are e-mail addresses.

  `EmailAddress.IsLocalPart` and `EmailAddress.IsDomain` are the grammar of the two sides
  of an address, by what cutting them at their dots gives.  The format of an address is
  this grammar around one at sign (`matches_format_iff`).  So what follows the last at
  sign of a text of that format is the domain that the format has seen
  (`domain?_of_notMem`), and `EmailOptions.check_iff_address` holds it to the listed ones.
-/
import FormIntake.Proofs.Text.Pattern
import FormIntake.Proofs.Validation.Traversal
import FormIntake.Validation.Email

namespace FormIntake

open Validation Text Text.Pattern

namespace EmailAddress

variable {cs before after : List Char} {c : Char}

/-! ## The grammar -/

/-- What stands before the at sign: between dots, letters, digits and marks, one at
    least. -/
def IsLocalPart (cs : List Char) : Prop :=
  ∀ piece ∈ cs.splitOn '.', piece ≠ [] ∧ ∀ c ∈ piece, c.isAlphanum = true ∨ c ∈ marks

/-- A label of a domain other than the last: 1 to 63 letters, digits and hyphens, with a
    hyphen at neither end. -/
structure IsLabel (cs : List Char) : Prop where
  one_le : 1 ≤ cs.length
  length_le : cs.length ≤ 63
  chars : ∀ c ∈ cs, c.isAlphanum = true ∨ c = '-'
  front : cs.head? ≠ some '-'
  back : cs.getLast? ≠ some '-'

/-- The last label of a domain: two letters at least. -/
structure IsTopLabel (cs : List Char) : Prop where
  two_le : 2 ≤ cs.length
  letters : ∀ c ∈ cs, c.isAlpha = true

/-- What stands behind the at sign: two labels at least, with dots between them. -/
def IsDomain (cs : List Char) : Prop :=
  ∃ labels top, cs.splitOn '.' = labels ++ [top] ∧ labels ≠ [] ∧
    (∀ label ∈ labels, IsLabel label) ∧ IsTopLabel top

/-! ## The format is the grammar -/

/-- The pattern of the last label. -/
def topLabel : Pattern := .sequence [.one Char.isAlpha, .some (.one Char.isAlpha)]

theorem isAtomChar_iff : isAtomChar c = true ↔ c.isAlphanum = true ∨ c ∈ marks := by
  rw [isAtomChar, Bool.or_eq_true, List.contains_iff_mem]

theorem isLabelChar_iff : isLabelChar c = true ↔ c.isAlphanum = true ∨ c = '-' := by
  rw [isLabelChar, Bool.or_eq_true, beq_iff_eq]

theorem matches_atom_iff :
    Matches atom cs ↔ cs ≠ [] ∧ ∀ c ∈ cs, c.isAlphanum = true ∨ c ∈ marks := by
  rw [atom, matches_some_one_iff]
  simp only [isAtomChar_iff]

/-- What may stand at the ends of a label is what may stand in it, but for hyphens. -/
theorem isAlphanum_iff_edge : c.isAlphanum = true ↔ (c.isAlphanum = true ∨ c = '-') ∧ c ≠ '-' := by
  constructor
  · intro h
    refine ⟨Or.inl h, ?_⟩
    rintro rfl
    cases h
  · rintro ⟨h, hne⟩
    exact h.resolve_right hne

theorem isLabel_singleton_iff : IsLabel [c] ↔ c.isAlphanum = true := by
  rw [isAlphanum_iff_edge]
  constructor
  · intro h
    exact ⟨h.chars c List.mem_cons_self, by simpa using h.front⟩
  · rintro ⟨hc, hne⟩
    exact ⟨le_rfl, by simp, by simpa using hc, by simpa using hne, by simpa using hne⟩

/-- A label of two characters at least, by its ends. -/
theorem isLabel_surrounded_iff {mid : List Char} {d : Char} : IsLabel (c :: (mid ++ [d])) ↔
    c.isAlphanum = true ∧ (mid.length ≤ 61 ∧ ∀ e ∈ mid, e.isAlphanum = true ∨ e = '-') ∧
      d.isAlphanum = true := by
  have hlast : (c :: (mid ++ [d])).getLast? = some d := by
    rw [← List.cons_append, List.getLast?_concat]
  rw [isAlphanum_iff_edge (c := c), isAlphanum_iff_edge (c := d)]
  constructor
  · rintro ⟨-, hlen, hchars, hfront, hback⟩
    rw [hlast] at hback
    obtain ⟨hc, hrest⟩ := List.forall_mem_cons.1 hchars
    obtain ⟨hmid, hd⟩ := List.forall_mem_append.1 hrest
    simp only [List.length_cons, List.length_append, List.length_nil] at hlen
    exact ⟨⟨hc, by simpa using hfront⟩, ⟨by omega, hmid⟩, hd d (by simp), by simpa using hback⟩
  · rintro ⟨⟨hc, hne⟩, ⟨hlen, hmid⟩, hd, hne'⟩
    refine ⟨by simp, by simp; omega, ?_, by simpa using hne, ?_⟩
    · refine List.forall_mem_cons.2 ⟨hc, List.forall_mem_append.2 ⟨hmid, ?_⟩⟩
      simpa using hd
    · rw [hlast]
      simpa using hne'

theorem matches_label_iff : Matches label cs ↔ IsLabel cs := by
  rw [label, matches_one_andThen_iff]
  simp only [matches_option_iff, matches_andThen_iff, matches_upTo_one_iff, matches_one_iff,
    isLabelChar_iff]
  constructor
  · rintro ⟨c, _, rfl, hc, rfl | ⟨mid, _, rfl, hmid, d, hd, rfl⟩⟩
    · exact isLabel_singleton_iff.2 hc
    · exact isLabel_surrounded_iff.2 ⟨hc, hmid, hd⟩
  · intro h
    obtain ⟨c, rest, rfl⟩ := List.exists_cons_of_length_pos h.one_le
    rcases List.eq_nil_or_concat' rest with rfl | ⟨mid, d, rfl⟩
    · exact ⟨c, [], rfl, isLabel_singleton_iff.1 h, Or.inl rfl⟩
    · obtain ⟨hc, hmid, hd⟩ := isLabel_surrounded_iff.1 h
      exact ⟨c, mid ++ [d], rfl, hc, Or.inr ⟨mid, [d], rfl, hmid, d, hd, rfl⟩⟩

theorem matches_topLabel_iff : Matches topLabel cs ↔ IsTopLabel cs := by
  rw [topLabel, matches_sequence_cons_iff]
  simp only [matches_sequence_cons_iff, matches_sequence_nil_iff, matches_one_iff,
    matches_some_one_iff]
  constructor
  · rintro ⟨_, _, rfl, ⟨c, hc, rfl⟩, s, _, rfl, ⟨hne, hs⟩, rfl⟩
    have hpos := List.length_pos_of_ne_nil hne
    exact ⟨by simp; omega, by simpa [hc] using hs⟩
  · rintro ⟨hlen, hall⟩
    obtain ⟨c, rest, rfl⟩ := List.exists_cons_of_length_pos (by omega : 0 < cs.length)
    obtain ⟨hc, hrest⟩ := List.forall_mem_cons.1 hall
    refine ⟨[c], rest, rfl, ⟨c, hc, rfl⟩, rest, [], by simp, ⟨?_, hrest⟩, rfl⟩
    rintro rfl
    simp at hlen

theorem dot_notMem_of_atom (h : Matches atom cs) : '.' ∉ cs := by
  intro hdot
  have hnot : ¬ (Char.isAlphanum '.' = true ∨ '.' ∈ marks) := by decide
  exact hnot ((matches_atom_iff.1 h).2 '.' hdot)

theorem dot_notMem_of_label (h : Matches label cs) : '.' ∉ cs := by
  intro hdot
  have hnot : ¬ (Char.isAlphanum '.' = true ∨ '.' = '-') := by decide
  exact hnot ((matches_label_iff.1 h).chars '.' hdot)

theorem dot_notMem_of_topLabel (h : Matches topLabel cs) : '.' ∉ cs := by
  intro hdot
  cases (matches_topLabel_iff.1 h).letters '.' hdot

/-- **The format of an address**: the grammar of its two sides around an at sign. -/
theorem matches_format_iff : Matches format cs ↔
    ∃ before after, cs = before ++ '@' :: after ∧ IsLocalPart before ∧ IsDomain after := by
  have hformat : Matches format cs ↔ Matches (.andThen
      (.andThen atom (.many (.andThen (.char '.') atom)))
      (.andThen (.char '@') (.andThen (.some (.andThen label (.char '.'))) topLabel))) cs :=
    matches_andThen_assoc
  rw [hformat, matches_andThen_iff]
  simp only [matches_char_andThen_iff, matches_separated_iff fun _ => dot_notMem_of_atom,
    matches_terminated_iff (fun _ => dot_notMem_of_label) fun _ => dot_notMem_of_topLabel,
    matches_atom_iff, matches_label_iff, matches_topLabel_iff]
  constructor
  · rintro ⟨before, _, rfl, hbefore, after, rfl, hafter⟩
    exact ⟨before, after, rfl, hbefore, hafter⟩
  · rintro ⟨before, after, rfl, hbefore, hafter⟩
    exact ⟨before, _, rfl, hbefore, after, rfl, hafter⟩

/-! ## The at sign -/

theorem IsLocalPart.at_notMem (h : IsLocalPart cs) : '@' ∉ cs := by
  intro hat
  obtain ⟨piece, hpiece, hat⟩ := exists_mem_splitOn hat (by decide : '@' ≠ '.')
  have hnot : ¬ (Char.isAlphanum '@' = true ∨ '@' ∈ marks) := by decide
  exact hnot ((h piece hpiece).2 '@' hat)

theorem IsDomain.at_notMem (h : IsDomain cs) : '@' ∉ cs := by
  intro hat
  obtain ⟨labels, top, hsplit, -, hlabels, htop⟩ := h
  obtain ⟨piece, hpiece, hat⟩ := exists_mem_splitOn hat (by decide : '@' ≠ '.')
  rw [hsplit] at hpiece
  rcases List.mem_append.1 hpiece with hpiece | hpiece
  · have hnot : ¬ (Char.isAlphanum '@' = true ∨ '@' = '-') := by decide
    exact hnot ((hlabels piece hpiece).chars '@' hat)
  · cases htop.letters '@' (List.mem_singleton.1 hpiece ▸ hat)

/-- What follows the last at sign of an address is its domain. -/
theorem domain?_of_notMem (h : '@' ∉ after) : domain? (before ++ '@' :: after) = some after := by
  have hrev : '@' ∉ after.reverse := by rwa [List.mem_reverse]
  rw [domain?, List.reverse_append, List.reverse_cons, List.append_assoc, List.singleton_append,
    splitFirst_append hrev, Option.map_some, List.reverse_reverse]

end EmailAddress

namespace EmailOptions

open EmailAddress

variable {o : EmailOptions} {answer : String} {before after : List Char}

theorem lists_iff {domain : List Char} : o.lists domain = true ↔
    ∃ d ∈ o.domains, lower (trimChars d.toList) = lower ('@' :: domain) := by
  rw [lists, List.any_eq_true]
  simp only [sameIgnoringCase, beq_iff_eq]

/-- The check passes if the answer is short enough and has the format, and its domain is
    listed where a list is asked for. -/
theorem check_eq_ok_iff_format : o.check answer = .ok () ↔
    answer.utf8ByteSize ≤ maxBytes ∧ Matches format answer.toList ∧
      (o.restricted = true → o.domains ≠ [] →
        ∃ d, domain? answer.toList = .some d ∧ o.lists d = true) := by
  rw [check, check_bind_eq_ok, require_eq_ok, Bool.and_eq_true, decide_eq_true_eq, accepts_iff,
    and_assoc]
  refine and_congr_right fun _ => and_congr_right fun _ => ?_
  have hasked : (o.restricted && !o.domains.isEmpty) = true ↔ o.restricted = true ∧ o.domains ≠ [] := by
    simp
  split
  · next h =>
    obtain ⟨hrestricted, hdomains⟩ := hasked.1 h
    simp only [hrestricted, hdomains, ne_eq, not_false_eq_true, true_imp_iff]
    cases domain? answer.toList <;> simp
  · next h =>
    refine iff_of_true rfl fun hrestricted hdomains => absurd ?_ h
    exact hasked.2 ⟨hrestricted, hdomains⟩

/-- A text of the format has a domain: there is an at sign to cut it at. -/
theorem check_ne_emailWithoutDomain (o : EmailOptions) (answer : String) :
    o.check answer ≠ .error .emailWithoutDomain := by
  intro h
  by_cases hformat : (decide (answer.utf8ByteSize ≤ maxBytes) && format.accepts answer.toList) = true
  · obtain ⟨before, after, hanswer, -, hafter⟩ :=
      matches_format_iff.1 (accepts_iff.1 (Bool.and_eq_true_iff.1 hformat).2)
    have hcheck : o.check answer =
        if o.restricted && !o.domains.isEmpty then require (o.lists after) .emailDomain else .ok () := by
      rw [check, require, if_pos hformat, hanswer, domain?_of_notMem hafter.at_notMem]
      rfl
    rw [hcheck, require] at h
    split at h
    · split at h <;> cases h
    · cases h
  · rw [check, require, if_neg hformat] at h
    cases h

/-- An address that a field takes: short enough, of the grammar, and with a domain that is
    listed where a list is asked for. -/
def Takes (o : EmailOptions) (answer : String) : Prop :=
  answer.utf8ByteSize ≤ maxBytes ∧
    ∃ before after, answer.toList = before ++ '@' :: after ∧ IsLocalPart before ∧ IsDomain after ∧
      (o.restricted = true → o.domains ≠ [] →
        ∃ d ∈ o.domains, lower (trimChars d.toList) = lower ('@' :: after))

theorem check_eq_ok_iff : o.check answer = .ok () ↔ o.Takes answer := by
  rw [check_eq_ok_iff_format, matches_format_iff, Takes]
  refine and_congr_right fun _ => ?_
  constructor
  · rintro ⟨⟨before, after, hanswer, hbefore, hafter⟩, hlisted⟩
    refine ⟨before, after, hanswer, hbefore, hafter, fun hrestricted hdomains => ?_⟩
    -- the domain looked up is the one that the format has seen
    obtain ⟨d, hd, hlists⟩ := hlisted hrestricted hdomains
    rw [hanswer, domain?_of_notMem hafter.at_notMem] at hd
    cases hd
    exact lists_iff.1 hlists
  · rintro ⟨before, after, hanswer, hbefore, hafter, hlisted⟩
    refine ⟨⟨before, after, hanswer, hbefore, hafter⟩, fun hrestricted hdomains => ?_⟩
    refine ⟨after, ?_, lists_iff.2 (hlisted hrestricted hdomains)⟩
    rw [hanswer, domain?_of_notMem hafter.at_notMem]

/-- There is one at sign between the two sides of an address. -/
theorem count_at (hbefore : IsLocalPart before) (hafter : IsDomain after) :
    (before ++ '@' :: after).count '@' = 1 := by
  rw [List.count_append, List.count_cons_self, List.count_eq_zero_of_not_mem hbefore.at_notMem,
    List.count_eq_zero_of_not_mem hafter.at_notMem]

/-- **Which e-mail addresses a field takes**: those of the grammar, 254 bytes long at most
    and with one at sign, whose domain is on the list if a list is asked for and not empty.
    A listed domain has an at sign in front; blanks around it and the case of letters do
    not matter. -/
theorem check_iff_address (o : EmailOptions) (answer : String) : o.check answer = .ok () ↔
    answer.utf8ByteSize ≤ 254 ∧ answer.toList.count '@' = 1 ∧
      ∃ before after, answer.toList = before ++ '@' :: after ∧ IsLocalPart before ∧
        IsDomain after ∧
        (o.restricted = true → o.domains ≠ [] →
          ∃ d ∈ o.domains, lower (trimChars d.toList) = lower ('@' :: after)) := by
  rw [check_eq_ok_iff, Takes, maxBytes]
  refine and_congr_right fun _ => ?_
  constructor
  · rintro ⟨before, after, hanswer, hbefore, hafter, hlisted⟩
    refine ⟨?_, before, after, hanswer, hbefore, hafter, hlisted⟩
    rw [hanswer, count_at hbefore hafter]
  · rintro ⟨-, haddress⟩
    exact haddress

/-- Neither blanks around a listed domain nor capitals matter. -/
example : EmailOptions.check { restricted := true, domains := [" @Open.gov.sg "] }
    "a.b@open.GOV.sg" = .ok () := by
  decide

end EmailOptions

end FormIntake
