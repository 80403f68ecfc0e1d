/-
  FormIntake — which texts a pattern accepts.

  * `matches_*_iff`: the texts of a pattern by its shape, and those of the derived
    patterns over one class of characters by their length and characters.
  * `matches_after_iff`: `p.after c` is what may follow `c` in a text of `p`.  So taking a
    pattern apart character by character decides its texts (`accepts_iff`).
  * `matches_separated_iff` and `matches_terminated_iff`: repetitions with a separator are
    lists of pieces, those that cutting the text at the separator gives.
-/
import FormIntake.Proofs.Text
import FormIntake.Text.Pattern

namespace FormIntake.Text.Pattern

variable {p q : Pattern} {k : Char → Bool} {c sep : Char} {cs s t : List Char} {n : Nat}

/-! ## Texts by the shape of the pattern -/

theorem not_matches_never : ¬ Matches .never cs := nofun

theorem matches_empty_iff : Matches .empty cs ↔ cs = [] := by
  constructor
  · rintro ⟨⟩
    rfl
  · rintro rfl
    exact .empty

theorem matches_one_iff : Matches (.one k) cs ↔ ∃ c, k c = true ∧ cs = [c] := by
  constructor
  · rintro (_ | h)
    exact ⟨_, h, rfl⟩
  · rintro ⟨c, h, rfl⟩
    exact .one h

theorem matches_andThen_iff :
    Matches (.andThen p q) cs ↔ ∃ s t, cs = s ++ t ∧ Matches p s ∧ Matches q t := by
  constructor
  · rintro (_ | _ | ⟨hs, ht⟩)
    exact ⟨_, _, rfl, hs, ht⟩
  · rintro ⟨s, t, rfl, hs, ht⟩
    exact .andThen hs ht

theorem matches_either_iff : Matches (.either p q) cs ↔ Matches p cs ∨ Matches q cs := by
  constructor
  · rintro (_ | _ | _ | h | h)
    · exact Or.inl h
    · exact Or.inr h
  · rintro (h | h)
    · exact .left h
    · exact .right h

/-- Any number of texts of a pattern are pieces that make up the whole. -/
theorem matches_many_iff : Matches (.many p) cs ↔
    ∃ pieces : List (List Char), cs = pieces.flatten ∧ ∀ s ∈ pieces, Matches p s := by
  constructor
  · intro h
    generalize hm : Pattern.many p = m at h
    induction h with
    | none => exact ⟨[], rfl, by simp⟩
    | more hs _ _ ih =>
      obtain ⟨pieces, rfl, hpieces⟩ := ih hm
      cases hm
      exact ⟨_ :: pieces, rfl, List.forall_mem_cons.2 ⟨hs, hpieces⟩⟩
    | _ => cases hm
  · rintro ⟨pieces, rfl, hpieces⟩
    induction pieces with
    | nil => exact .none
    | cons s pieces ih =>
      obtain ⟨hs, hpieces⟩ := List.forall_mem_cons.1 hpieces
      exact .more hs (ih hpieces)

/-! ## Taking a pattern apart -/

theorem acceptsEmpty_iff : p.acceptsEmpty = true ↔ Matches p [] := by
  induction p with
  | never => simp [acceptsEmpty, not_matches_never]
  | empty => simp [acceptsEmpty, matches_empty_iff]
  | one k => simp [acceptsEmpty, matches_one_iff]
  | andThen p q ihp ihq =>
    rw [acceptsEmpty, Bool.and_eq_true, ihp, ihq, matches_andThen_iff]
    constructor
    · rintro ⟨hp, hq⟩
      exact ⟨[], [], rfl, hp, hq⟩
    · rintro ⟨s, t, hst, hp, hq⟩
      obtain ⟨rfl, rfl⟩ := List.append_eq_nil_iff.1 hst.symm
      exact ⟨hp, hq⟩
  | either p q ihp ihq => rw [acceptsEmpty, Bool.or_eq_true, ihp, ihq, matches_either_iff]
  | many p _ => exact iff_of_true rfl .none

/-- Leaving out what makes no difference makes no difference. -/
theorem matches_joined_iff : Matches (joined p q) cs ↔ Matches (.andThen p q) cs := by
  unfold joined
  split
  · simp [matches_andThen_iff, not_matches_never]
  · simp [matches_andThen_iff, matches_empty_iff]
  · rfl

theorem matches_merged_iff : Matches (merged p q) cs ↔ Matches (.either p q) cs := by
  unfold merged
  split
  · simp [matches_either_iff, not_matches_never]
  · simp [matches_either_iff, not_matches_never]
  · rfl

theorem matches_andThen_assoc {r : Pattern} :
    Matches (.andThen p (.andThen q r)) cs ↔ Matches (.andThen (.andThen p q) r) cs := by
  simp only [matches_andThen_iff]
  constructor
  · rintro ⟨s, _, rfl, hs, t, u, rfl, ht, hu⟩
    exact ⟨s ++ t, u, (List.append_assoc s t u).symm, ⟨s, t, rfl, hs, ht⟩, hu⟩
  · rintro ⟨_, u, rfl, ⟨s, t, rfl, hs, ht⟩, hu⟩
    exact ⟨s, t ++ u, List.append_assoc s t u, hs, t, u, rfl, ht, hu⟩

/-- A text of two patterns that begins with `c` has it in the first, or the first is
    empty there. -/
theorem matches_andThen_cons_iff : Matches (.andThen p q) (c :: cs) ↔
    (∃ s t, cs = s ++ t ∧ Matches p (c :: s) ∧ Matches q t) ∨
      Matches p [] ∧ Matches q (c :: cs) := by
  rw [matches_andThen_iff]
  constructor
  · rintro ⟨s, t, hst, hs, ht⟩
    cases s with
    | nil => exact Or.inr ⟨hs, hst ▸ ht⟩
    | cons d s =>
      obtain ⟨rfl, rfl⟩ := List.cons.inj hst
      exact Or.inl ⟨s, t, rfl, hs, ht⟩
  · rintro (⟨s, t, rfl, hs, ht⟩ | ⟨hs, ht⟩)
    · exact ⟨c :: s, t, rfl, hs, ht⟩
    · exact ⟨[], c :: cs, rfl, hs, ht⟩

/-- A repetition that begins with `c` has it in its first piece that is not empty. -/
theorem matches_many_cons_iff : Matches (.many p) (c :: cs) ↔
    ∃ s t, cs = s ++ t ∧ Matches p (c :: s) ∧ Matches (.many p) t := by
  constructor
  · rw [matches_many_iff]
    rintro ⟨pieces, hcs, hpieces⟩
    induction pieces with
    | nil => cases hcs
    | cons piece pieces ih =>
      obtain ⟨hpiece, hrest⟩ := List.forall_mem_cons.1 hpieces
      cases piece with
      | nil => exact ih hcs hrest
      | cons d s =>
        obtain ⟨rfl, rfl⟩ := List.cons.inj hcs
        exact ⟨s, pieces.flatten, rfl, hpiece, matches_many_iff.2 ⟨pieces, rfl, hrest⟩⟩
  · rintro ⟨s, t, rfl, hs, ht⟩
    exact .more hs ht

/-- **What may follow a character in a text of the pattern.** -/
theorem matches_after_iff : Matches (p.after c) cs ↔ Matches p (c :: cs) := by
  induction p generalizing cs with
  | never => exact iff_of_false not_matches_never not_matches_never
  | empty => simp [after, not_matches_never, matches_empty_iff]
  | one k =>
    rw [after, matches_one_iff]
    split
    · next h =>
      rw [matches_empty_iff]
      constructor
      · rintro rfl
        exact ⟨c, h, rfl⟩
      · rintro ⟨d, -, hd⟩
        exact (List.cons.inj hd).2
    · next h =>
      refine iff_of_false not_matches_never ?_
      rintro ⟨d, hd, hcs⟩
      obtain ⟨rfl, -⟩ := List.cons.inj hcs
      exact h hd
  | andThen p q ihp ihq =>
    rw [after, matches_andThen_cons_iff, ← acceptsEmpty_iff]
    split
    · next h =>
      rw [matches_merged_iff, matches_either_iff, matches_joined_iff, matches_andThen_iff, ihq]
      simp [ihp, h]
    · next h =>
      rw [matches_joined_iff, matches_andThen_iff]
      simp [ihp, h]
  | either p q ihp ihq =>
    rw [after, matches_merged_iff, matches_either_iff, matches_either_iff, ihp, ihq]
  | many p ih =>
    rw [after, matches_joined_iff, matches_andThen_iff, matches_many_cons_iff]
    simp only [ih]

/-- **A pattern accepts its texts and no others.** -/
theorem accepts_iff : p.accepts cs = true ↔ Matches p cs := by
  induction cs generalizing p with
  | nil => exact acceptsEmpty_iff
  | cons c cs ih =>
    rw [← matches_after_iff, ← ih]
    rfl

/-! ## Derived patterns -/

theorem matches_char_iff : Matches (.char c) cs ↔ cs = [c] := by
  rw [char, matches_one_iff]
  simp

theorem matches_option_iff : Matches (.option p) cs ↔ cs = [] ∨ Matches p cs := by
  rw [option, matches_either_iff, matches_empty_iff]

theorem matches_sequence_nil_iff : Matches (.sequence []) cs ↔ cs = [] := matches_empty_iff

theorem matches_sequence_cons_iff {ps : List Pattern} : Matches (.sequence (p :: ps)) cs ↔
    ∃ s t, cs = s ++ t ∧ Matches p s ∧ Matches (.sequence ps) t := matches_andThen_iff

theorem matches_char_andThen_iff :
    Matches (.andThen (.char c) p) cs ↔ ∃ t, cs = c :: t ∧ Matches p t := by
  simp only [matches_andThen_iff, matches_char_iff]
  constructor
  · rintro ⟨_, t, rfl, rfl, ht⟩
    exact ⟨t, rfl, ht⟩
  · rintro ⟨t, rfl, ht⟩
    exact ⟨[c], t, rfl, rfl, ht⟩

theorem matches_one_andThen_iff :
    Matches (.andThen (.one k) p) cs ↔ ∃ c t, cs = c :: t ∧ k c = true ∧ Matches p t := by
  simp only [matches_andThen_iff, matches_one_iff]
  constructor
  · rintro ⟨_, t, rfl, ⟨c, hc, rfl⟩, ht⟩
    exact ⟨c, t, rfl, hc, ht⟩
  · rintro ⟨c, t, rfl, hc, ht⟩
    exact ⟨[c], t, rfl, ⟨c, hc, rfl⟩, ht⟩

/-- A number of characters of a class. -/
theorem matches_times_one_iff :
    Matches (.times (.one k) n) cs ↔ cs.length = n ∧ ∀ c ∈ cs, k c = true := by
  induction n generalizing cs with
  | zero => simp +contextual [times, matches_empty_iff]
  | succ n ih =>
    rw [times, matches_one_andThen_iff]
    simp only [ih]
    cases cs with
    | nil => simp
    | cons c cs => simp [and_left_comm]

theorem matches_upTo_one_iff :
    Matches (.upTo (.one k) n) cs ↔ cs.length ≤ n ∧ ∀ c ∈ cs, k c = true := by
  induction n generalizing cs with
  | zero => simp +contextual [upTo, matches_empty_iff]
  | succ n ih =>
    rw [upTo, matches_option_iff, matches_one_andThen_iff]
    simp only [ih]
    cases cs with
    | nil => simp
    | cons c cs => simp [and_left_comm]

theorem matches_many_one_iff : Matches (.many (.one k)) cs ↔ ∀ c ∈ cs, k c = true := by
  induction cs with
  | nil => simpa using Matches.none
  | cons c cs ih =>
    rw [matches_many_cons_iff, List.forall_mem_cons, ← ih]
    constructor
    · rintro ⟨s, t, rfl, hs, ht⟩
      obtain ⟨d, hd, hs⟩ := matches_one_iff.1 hs
      obtain ⟨rfl, rfl⟩ := List.cons.inj hs
      exact ⟨hd, ht⟩
    · rintro ⟨hc, hcs⟩
      exact ⟨[], cs, rfl, .one hc, hcs⟩

theorem matches_some_one_iff :
    Matches (.some (.one k)) cs ↔ cs ≠ [] ∧ ∀ c ∈ cs, k c = true := by
  rw [Pattern.some, matches_one_andThen_iff]
  simp only [matches_many_one_iff]
  cases cs <;> simp

/-! ## Repetitions with a separator -/

theorem intercalate_cons (sep : Char) (piece : List Char) (pieces : List (List Char)) :
    [sep].intercalate (piece :: pieces) = piece ++ (pieces.map (sep :: ·)).flatten := by
  induction pieces generalizing piece with
  | nil => simp
  | cons next pieces ih => rw [List.intercalate_cons_cons, ih]; simp

theorem intercalate_concat (sep : Char) (pieces : List (List Char)) (last : List Char) :
    [sep].intercalate (pieces ++ [last]) = (pieces.map (· ++ [sep])).flatten ++ last := by
  induction pieces with
  | nil => simp
  | cons piece pieces ih =>
    rw [List.cons_append, List.intercalate_cons_of_ne_nil (by simp), ih]
    simp

/-- What is no separator is in one of the pieces. -/
theorem exists_mem_splitOn (h : c ∈ cs) (hc : c ≠ sep) : ∃ piece ∈ cs.splitOn sep, c ∈ piece := by
  have hjoined : [sep].intercalate (cs.splitOn sep) = cs := List.intercalate_splitOn sep
  obtain ⟨first, pieces, hsplit⟩ := List.exists_cons_of_ne_nil (List.splitOn_ne_nil sep cs)
  rw [← hjoined, hsplit, intercalate_cons] at h
  rw [hsplit]
  rcases List.mem_append.1 h with h | h
  · exact ⟨first, List.mem_cons_self, h⟩
  · obtain ⟨_, hmem, h⟩ := List.mem_flatten.1 h
    obtain ⟨piece, hpiece, rfl⟩ := List.mem_map.1 hmem
    exact ⟨piece, List.mem_cons_of_mem _ hpiece, (List.mem_cons.1 h).resolve_left hc⟩

/-- A repetition of pieces that are dressed up by a function. -/
theorem matches_many_map_iff {g : List Char → List Char}
    (h : ∀ s, Matches q s ↔ ∃ t, s = g t ∧ Matches p t) : Matches (.many q) cs ↔
    ∃ pieces : List (List Char), cs = (pieces.map g).flatten ∧ ∀ t ∈ pieces, Matches p t := by
  rw [matches_many_iff]
  constructor
  · rintro ⟨pieces, rfl, hpieces⟩
    induction pieces with
    | nil => exact ⟨[], rfl, by simp⟩
    | cons s pieces ih =>
      obtain ⟨hs, hrest⟩ := List.forall_mem_cons.1 hpieces
      obtain ⟨t, rfl, ht⟩ := (h s).1 hs
      obtain ⟨ts, hts, hall⟩ := ih hrest
      exact ⟨t :: ts, by simp [hts], List.forall_mem_cons.2 ⟨ht, hall⟩⟩
  · rintro ⟨pieces, rfl, hpieces⟩
    refine ⟨pieces.map g, rfl, fun s hs => ?_⟩
    obtain ⟨t, ht, rfl⟩ := List.mem_map.1 hs
    exact (h _).2 ⟨t, rfl, hpieces t ht⟩

theorem matches_some_map_iff {g : List Char → List Char}
    (h : ∀ s, Matches q s ↔ ∃ t, s = g t ∧ Matches p t) : Matches (.some q) cs ↔
    ∃ pieces : List (List Char), pieces ≠ [] ∧ cs = (pieces.map g).flatten ∧
      ∀ t ∈ pieces, Matches p t := by
  rw [Pattern.some, matches_andThen_iff]
  simp only [h, matches_many_map_iff h]
  constructor
  · rintro ⟨_, _, rfl, ⟨t, rfl, ht⟩, pieces, rfl, hpieces⟩
    exact ⟨t :: pieces, List.cons_ne_nil _ _, rfl, List.forall_mem_cons.2 ⟨ht, hpieces⟩⟩
  · rintro ⟨pieces, hne, rfl, hall⟩
    obtain ⟨t, pieces, rfl⟩ := List.exists_cons_of_ne_nil hne
    obtain ⟨ht, hpieces⟩ := List.forall_mem_cons.1 hall
    exact ⟨g t, (pieces.map g).flatten, rfl, ⟨t, rfl, ht⟩, pieces, rfl, hpieces⟩

/-- Pieces with a separator between them. -/
theorem matches_separated_iff (hp : ∀ s, Matches p s → sep ∉ s) :
    Matches (.andThen p (.many (.andThen (.char sep) p))) cs ↔
      ∀ piece ∈ cs.splitOn sep, Matches p piece := by
  rw [matches_andThen_iff]
  simp only [matches_many_map_iff fun _ => matches_char_andThen_iff]
  constructor
  · rintro ⟨first, _, rfl, hfirst, pieces, rfl, hpieces⟩
    have hall := List.forall_mem_cons.2 ⟨hfirst, hpieces⟩
    rw [← intercalate_cons,
      List.splitOn_intercalate sep (fun s hs => hp s (hall s hs)) (List.cons_ne_nil _ _)]
    exact hall
  · intro hall
    obtain ⟨first, pieces, hsplit⟩ := List.exists_cons_of_ne_nil (List.splitOn_ne_nil sep cs)
    rw [hsplit] at hall
    obtain ⟨hfirst, hpieces⟩ := List.forall_mem_cons.1 hall
    refine ⟨first, _, ?_, hfirst, pieces, rfl, hpieces⟩
    rw [← intercalate_cons, ← hsplit, List.intercalate_splitOn]

theorem matches_andThen_char_iff :
    Matches (.andThen p (.char c)) cs ↔ ∃ s, cs = s ++ [c] ∧ Matches p s := by
  simp only [matches_andThen_iff, matches_char_iff]
  constructor
  · rintro ⟨s, _, rfl, hs, rfl⟩
    exact ⟨s, rfl, hs⟩
  · rintro ⟨s, rfl, hs⟩
    exact ⟨s, [c], rfl, hs, rfl⟩

/-- Pieces, one at least, with a separator behind each of them, and a last one of another
    pattern. -/
theorem matches_terminated_iff (hp : ∀ s, Matches p s → sep ∉ s) (hq : ∀ s, Matches q s → sep ∉ s) :
    Matches (.andThen (.some (.andThen p (.char sep))) q) cs ↔
      ∃ pieces last, cs.splitOn sep = pieces ++ [last] ∧ pieces ≠ [] ∧
        (∀ piece ∈ pieces, Matches p piece) ∧ Matches q last := by
  rw [matches_andThen_iff]
  simp only [matches_some_map_iff fun _ => matches_andThen_char_iff]
  constructor
  · rintro ⟨_, last, rfl, ⟨pieces, hne, rfl, hpieces⟩, hlast⟩
    refine ⟨pieces, last, ?_, hne, hpieces, hlast⟩
    rw [← intercalate_concat]
    refine List.splitOn_intercalate sep (fun s hs => ?_) (by simp)
    rcases List.mem_append.1 hs with hs | hs
    · exact hp s (hpieces s hs)
    · exact hq s (List.mem_singleton.1 hs ▸ hlast)
  · rintro ⟨pieces, last, hsplit, hne, hpieces, hlast⟩
    refine ⟨_, last, ?_, ⟨pieces, hne, rfl, hpieces⟩, hlast⟩
    rw [← intercalate_concat, ← hsplit, List.intercalate_splitOn]

end FormIntake.Text.Pattern
