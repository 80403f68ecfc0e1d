/-
  FormIntake — trimming and cutting texts.

  `Text.Trimmed` texts are those that trimming leaves alone; a space in front of
  one is what trimming takes away.  Of a blank text it leaves nothing
  (`trim_eq_empty_iff`).  Marks are trimmed from the ends only, so a text is left alone
  if and only if there is none at either end (`trimMark_eq_self_iff`).
-/
import FormIntake.Text.Blank
import FormIntake.Text.Split
import Mathlib.Data.List.DropRight
import Mathlib.Data.List.TakeWhile

namespace FormIntake.Text

/-- No blank at either end. -/
structure Trimmed (cs : List Char) : Prop where
  front : ∀ c, cs.head? = some c → isBlankChar c = false
  back : ∀ c, cs.getLast? = some c → isBlankChar c = false

variable {cs : List Char} {c mark : Char}

/-- No visible ASCII character is blank. -/
theorem isBlankChar_of_visible (hlow : 33 ≤ c.toNat) (hhigh : c.toNat ≤ 126) :
    isBlankChar c = false := by
  simp only [isBlankChar]
  grind

theorem isBlankChar_of_isDigit (h : c.isDigit = true) : isBlankChar c = false := by
  obtain ⟨hlow, hhigh⟩ := Char.isDigit_iff_toNat.1 h
  rw [show '0'.toNat = 48 from rfl] at hlow
  rw [show '9'.toNat = 57 from rfl] at hhigh
  exact isBlankChar_of_visible (by omega) (by omega)

theorem dropWhile_isBlankChar (h : ∀ c, cs.head? = some c → isBlankChar c = false) :
    cs.dropWhile isBlankChar = cs := by
  cases cs with
  | nil => rfl
  | cons c cs => rw [List.dropWhile_cons, if_neg (by rw [h c rfl]; simp)]

/-- Trimming leaves a trimmed text alone. -/
theorem trimChars_of_trimmed (h : Trimmed cs) : trimChars cs = cs := by
  have hback : ∀ c, cs.reverse.head? = some c → isBlankChar c = false := by
    intro c hc
    rw [List.head?_reverse] at hc
    exact h.back c hc
  rw [trimChars, dropWhile_isBlankChar h.front, trimEnd, dropWhile_isBlankChar hback,
    List.reverse_reverse]

/-- Trimming takes a space in front away. -/
theorem trimChars_space (h : Trimmed cs) : trimChars (' ' :: cs) = cs := by
  have hspace : trimChars (' ' :: cs) = trimChars cs := by
    rw [trimChars, List.dropWhile_cons, if_pos (by decide)]
    rfl
  rw [hspace, trimChars_of_trimmed h]

/-- Only the ends matter. -/
theorem trimmed_of_ends {a b : Char} (ha : isBlankChar a = false) (hb : isBlankChar b = false)
    (cs : List Char) : Trimmed (a :: (cs ++ [b])) where
  front := by
    rintro c ⟨⟩
    exact ha
  back := by
    intro c hc
    rw [← List.cons_append, List.getLast?_concat] at hc
    cases hc
    exact hb

/-- A text is blank if trimming leaves nothing of it. -/
theorem trim_eq_empty_iff {s : String} : trim s = "" ↔ isBlank s = true := by
  have hdrop : ∀ cs : List Char, cs.dropWhile isBlankChar = [] ↔ ∀ c ∈ cs, isBlankChar c = true :=
    fun cs => List.dropWhile_eq_nil_iff
  rw [trim, ← String.toList_inj, String.toList_ofList, String.toList_empty, trimChars, trimEnd,
    List.reverse_eq_nil_iff, hdrop, isBlank, List.all_eq_true]
  simp only [List.mem_reverse]
  constructor
  · intro h
    -- what is left after the blanks in front does not begin with a blank
    refine (hdrop _).1 (List.eq_nil_iff_forall_not_mem.2 fun c hc => ?_)
    have hne : s.toList.dropWhile isBlankChar ≠ [] := List.ne_nil_of_mem hc
    exact absurd (h _ (List.head_mem hne)) (by simpa using List.head_dropWhile_not isBlankChar hne)
  · intro h c hc
    exact h c ((List.dropWhile_sublist _).subset hc)

theorem splitFirst_append {sep : Char} {before : List Char} (h : sep ∉ before) (after : List Char) :
    splitFirst sep (before ++ sep :: after) = some (before, after) :=
  splitFirst_eq_some_iff.2 ⟨rfl, h⟩

/-- The separator is in no piece. -/
theorem notMem_of_mem_splitOn {sep : Char} {piece : List Char} (h : piece ∈ cs.splitOn sep) :
    sep ∉ piece := by
  induction cs generalizing piece with
  | nil =>
    rw [List.splitOn_nil, List.mem_singleton] at h
    rw [h]
    exact List.not_mem_nil
  | cons c cs ih =>
    rw [List.splitOn_cons_eq_if_modifyHead] at h
    split at h
    · rcases List.mem_cons.1 h with rfl | h
      · exact List.not_mem_nil
      · exact ih h
    · next hc =>
      cases hsplit : cs.splitOn sep with
      | nil => exact absurd hsplit (List.splitOn_ne_nil _ _)
      | cons first rest =>
        rw [hsplit] at h ih
        rw [List.modifyHead_cons] at h
        rcases List.mem_cons.1 h with rfl | h
        · rw [List.mem_cons, not_or]
          exact ⟨fun heq => hc (by simp [heq]), ih List.mem_cons_self⟩
        · exact ih (List.mem_cons_of_mem _ h)

/-! ## Blanks at the end -/

theorem mem_of_mem_trimEnd (h : c ∈ trimEnd cs) : c ∈ cs :=
  (List.rdropWhile_prefix isBlankChar cs).subset h

theorem mem_of_mem_trimChars (h : c ∈ trimChars cs) : c ∈ cs :=
  (List.dropWhile_sublist _).subset (mem_of_mem_trimEnd h)

theorem trimEnd_append_cons (hc : isBlankChar c = false) (before after : List Char) :
    trimEnd (before ++ c :: after) = before ++ c :: trimEnd after := by
  rw [trimEnd, trimEnd, List.reverse_append, List.reverse_cons, List.append_assoc,
    List.dropWhile_append]
  split
  · next hblank =>
    rw [List.isEmpty_iff] at hblank
    rw [hblank, List.singleton_append, List.dropWhile_cons_of_neg (by simp [hc])]
    simp
  · simp

theorem trimEnd_concat (hc : isBlankChar c = false) (cs : List Char) :
    trimEnd (cs ++ [c]) = cs ++ [c] :=
  trimEnd_append_cons hc cs []

theorem trimEnd_trimEnd (cs : List Char) : trimEnd (trimEnd cs) = trimEnd cs :=
  List.rdropWhile_idempotent isBlankChar cs

theorem trimEnd_append (cs : List Char) {back : List Char} (hback : ∀ b ∈ back, isBlankChar b = true) :
    trimEnd (cs ++ back) = trimEnd cs := by
  have hreverse : ∀ b ∈ back.reverse, isBlankChar b = true := fun b hb =>
    hback b (List.mem_reverse.1 hb)
  rw [trimEnd, List.reverse_append, List.dropWhile_append_of_pos hreverse, trimEnd]

/-- Trimming goes up to a character that is no blank, from either end. -/
theorem trimChars_append_cons (hc : isBlankChar c = false) (before after : List Char) :
    trimChars (before ++ c :: after) = before.dropWhile isBlankChar ++ c :: trimEnd after := by
  have hfront : (before ++ c :: after).dropWhile isBlankChar =
      before.dropWhile isBlankChar ++ c :: after := by
    rw [List.dropWhile_append]
    split
    · next hblank =>
      rw [List.isEmpty_iff.1 hblank, List.dropWhile_cons_of_neg (by simp [hc])]
      rfl
    · rfl
  rw [trimChars, hfront, trimEnd_append_cons hc]

/-- Blanks around a text do not matter. -/
theorem trimChars_surrounded {front back : List Char} (hfront : ∀ b ∈ front, isBlankChar b = true)
    (hback : ∀ b ∈ back, isBlankChar b = true) (cs : List Char) :
    trimChars (front ++ cs ++ back) = trimChars cs := by
  rw [trimChars, List.append_assoc, List.dropWhile_append_of_pos hfront, List.dropWhile_append]
  split
  · next hblank =>
    rw [List.dropWhile_eq_nil_iff.2 hback, trimChars, List.isEmpty_iff.1 hblank]
  · rw [trimEnd_append _ hback, trimChars]

/-! ## Marks at the ends -/

theorem dropWhile_beq_eq_self_iff : cs.dropWhile (· == mark) = cs ↔ cs.head? ≠ some mark := by
  cases cs with
  | nil => simp
  | cons c cs =>
    rw [List.dropWhile_eq_self_iff, List.head?_cons]
    simp

theorem dropBack_eq_self_iff : cs.rdropWhile (· == mark) = cs ↔ cs.getLast? ≠ some mark := by
  rw [List.rdropWhile, List.reverse_eq_iff, dropWhile_beq_eq_self_iff, List.head?_reverse]

theorem trimMark_sublist (mark : Char) (cs : List Char) : (trimMark mark cs).Sublist cs :=
  (List.rdropWhile_prefix (· == mark) _).sublist.trans (List.dropWhile_sublist _)

/-- Nothing is trimmed if and only if the mark is at neither end. -/
theorem trimMark_eq_self_iff :
    trimMark mark cs = cs ↔ cs.head? ≠ some mark ∧ cs.getLast? ≠ some mark := by
  constructor
  · intro h
    have hfront : cs.dropWhile (· == mark) = cs := by
      refine (List.dropWhile_sublist _).eq_of_length_le ?_
      have hle := (List.rdropWhile_prefix (· == mark) (cs.dropWhile (· == mark))).length_le
      exact (congrArg List.length h).symm.le.trans hle
    rw [trimMark, hfront] at h
    exact ⟨dropWhile_beq_eq_self_iff.1 hfront, dropBack_eq_self_iff.1 h⟩
  · rintro ⟨hfront, hlast⟩
    rw [trimMark, dropWhile_beq_eq_self_iff.2 hfront]
    exact dropBack_eq_self_iff.2 hlast

/-- One mark at each end is dropped. -/
theorem trimMark_enclosed (h : mark ∉ cs) : trimMark mark (mark :: (cs ++ [mark])) = cs := by
  have hmark : (mark == mark) = true := beq_self_eq_true mark
  cases cs with
  | nil => simp [trimMark]
  | cons c cs =>
    have hfront : (c == mark) = false :=
      beq_eq_false_iff_ne.2 fun heq => h (heq ▸ List.mem_cons_self)
    have hback : ((c :: cs).rdropWhile (· == mark)) = c :: cs :=
      dropBack_eq_self_iff.2 fun hlast => h (List.mem_of_getLast? hlast)
    rw [trimMark, List.dropWhile_cons, if_pos hmark, List.cons_append, List.dropWhile_cons,
      if_neg (by simp [hfront]), ← List.cons_append]
    exact (List.rdropWhile_concat_pos (· == mark) _ _ hmark).trans hback

end FormIntake.Text
