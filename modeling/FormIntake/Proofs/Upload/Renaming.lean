/-
  FormIntake — what files are called once their names differ.

  `names us` are the names of files.  A file that finds its name taken by the files
  behind it gets the least number that is free there (`freeName_cases`), and
  there is one among as many numbers as files are behind it.

  * `withDistinctNames_distinguishes`: names become distinct, and nothing else
    changes.  Where no name is another one with a number in front, the number of a
    file is the number of files behind it that had its name (`numberedFromEnd`).
  * `keepsName_iff`: the last file of a name keeps it unless a file behind it was
    given that name as a numbered one.  This does happen: numbers look at the names
    behind a file only (`keepsName_fails`).
-/
import FormIntake.Proofs.Upload.Naming

namespace FormIntake.Upload

variable {u v : Upload} {us front back : List Upload} {taken : List String} {name : String}

/-- The names of files. -/
def names (us : List Upload) : List String := us.map (·.filename)

@[simp]
theorem names_nil : names [] = [] := rfl

@[simp]
theorem names_cons (u : Upload) (us : List Upload) : names (u :: us) = u.filename :: names us := rfl

theorem length_names (us : List Upload) : (names us).length = us.length := List.length_map _

/-! ## Numbers in front of a name -/

/-- A number is cut off at the first hyphen. -/
theorem numbered_inj {j k : Nat} {m n : String} (h : numbered j m = numbered k n) : j = k ∧ m = n := by
  have hlist := congrArg String.toList h
  simp only [toList_numbered] at hlist
  have hcut : ∀ (i : Nat) (n : String),
      (Text.digits i ++ '-' :: n.toList).takeWhile Char.isDigit = Text.digits i := by
    intro i n
    rw [List.takeWhile_append_of_pos fun c hc => Text.isDigit_of_mem_digits hc]
    simp
  have hdigits : Text.digits j = Text.digits k := by rw [← hcut j m, hlist, hcut k n]
  rw [hdigits] at hlist
  refine ⟨?_, String.toList_inj.1 (List.cons.inj (List.append_cancel_left hlist)).2⟩
  rw [← Text.value_digits j, hdigits, Text.value_digits]

theorem numbered_ne (k : Nat) (name : String) : numbered k name ≠ name := by
  intro h
  have hlen := congrArg (fun s => s.toList.length) h
  simp only [toList_numbered, List.length_append, List.length_cons] at hlen
  omega

theorem ne_numbered_of_hyphenless (h : '-' ∉ name.toList) (k : Nat) (n : String) :
    name ≠ numbered k n := by
  rintro rfl
  rw [toList_numbered] at h
  exact h (List.mem_append_right _ List.mem_cons_self)

/-- The least number from one on that makes a name which is not taken. -/
structure LeastFree (taken : List String) (name : String) (k : Nat) : Prop where
  pos : 0 < k
  free : numbered k name ∉ taken
  least : ∀ j, 0 < j → j < k → numbered j name ∈ taken

theorem LeastFree.eq {j k : Nat} (hj : LeastFree taken name j) (hk : LeastFree taken name k) :
    j = k := by
  rcases Nat.lt_trichotomy j k with hlt | heq | hgt
  · exact absurd (hk.least j hj.pos hlt) hj.free
  · exact heq
  · exact absurd (hj.least k hk.pos hgt) hk.free

/-- If the name is taken itself, the numbers below the least free one are at most as
    many as the other names taken. -/
theorem LeastFree.le_length {k : Nat} (h : LeastFree taken name k) (hname : name ∈ taken) :
    k ≤ taken.length := by
  have hsub : name :: (List.range (k - 1)).map (fun j => numbered (j + 1) name) ⊆ taken := by
    intro n hn
    rcases List.mem_cons.1 hn with rfl | hn
    · exact hname
    · obtain ⟨j, hj, rfl⟩ := List.mem_map.1 hn
      have hlt := List.mem_range.1 hj
      exact h.least (j + 1) (by omega) (by omega)
  have hinjective : Function.Injective fun j => numbered (j + 1) name :=
    fun i j heq => Nat.succ.inj (numbered_injective name heq)
  have hnodup : (name :: (List.range (k - 1)).map fun j => numbered (j + 1) name).Nodup := by
    refine List.nodup_cons.2 ⟨fun hmem => ?_, List.nodup_range.map hinjective⟩
    obtain ⟨j, -, heq⟩ := List.mem_map.1 hmem
    exact numbered_ne _ _ heq
  have hle := (List.subperm_of_subset hnodup hsub).length_le
  rw [List.length_cons, List.length_map, List.length_range] at hle
  have := h.pos
  omega

/-- **A name that is taken is numbered with the least free number.** -/
theorem freeName_cases (taken : List String) (name : String) :
    name ∉ taken ∧ freeName taken name = name ∨
      name ∈ taken ∧ ∃ k, LeastFree taken name k ∧ freeName taken name = numbered k name := by
  by_cases h : name ∈ taken
  · obtain ⟨k, hpos, heq, hfree, hleast⟩ := exists_firstFree taken name
    exact Or.inr ⟨h, k, ⟨hpos, hfree, hleast⟩, (freeName_of_mem h).trans heq⟩
  · exact Or.inl ⟨h, freeName_of_notMem h⟩

theorem freeName_of_leastFree {k : Nat} (hname : name ∈ taken) (hk : LeastFree taken name k) :
    freeName taken name = numbered k name := by
  rcases freeName_cases taken name with ⟨hnot, -⟩ | ⟨-, j, hj, heq⟩
  · exact absurd hname hnot
  · rw [heq, hj.eq hk]

/-! ## Files and the files behind them -/

theorem withDistinctNames_cons (u : Upload) (us : List Upload) :
    withDistinctNames (u :: us) =
      { u with filename := freeName (names (withDistinctNames us)) u.filename } ::
        withDistinctNames us := rfl

theorem length_withDistinctNames (us : List Upload) : (withDistinctNames us).length = us.length :=
  (forall₂_renamed us).length_eq.symm

/-- Files are renamed with regard to the files behind them only. -/
theorem withDistinctNames_split (front : List Upload) (u : Upload) (back : List Upload) :
    ∃ before, before.length = front.length ∧ withDistinctNames (front ++ u :: back) =
      before ++ withDistinctNames (u :: back) := by
  induction front with
  | nil => exact ⟨[], rfl, rfl⟩
  | cons w front ih =>
    obtain ⟨before, hlength, heq⟩ := ih
    rw [List.cons_append, withDistinctNames_cons, heq]
    exact ⟨_ :: before, by rw [List.length_cons, hlength, List.length_cons], rfl⟩

/-- The file at a place is renamed with regard to the files behind that place. -/
theorem getElem?_withDistinctNames (front : List Upload) (u : Upload) (back : List Upload) :
    (withDistinctNames (front ++ u :: back))[front.length]? =
      some { u with filename := freeName (names (withDistinctNames back)) u.filename } := by
  obtain ⟨before, hlength, heq⟩ := withDistinctNames_split front u back
  rw [heq, ← hlength, List.getElem?_append_right (Nat.le_refl _), Nat.sub_self]
  rfl

/-- A name that was there is still taken: either its last file kept it, or it was
    taken before. -/
theorem names_subset (us : List Upload) : names us ⊆ names (withDistinctNames us) := by
  induction us with
  | nil => exact List.Subset.refl _
  | cons u us ih =>
    intro n hn
    rw [withDistinctNames_cons, names_cons, List.mem_cons]
    rcases List.mem_cons.1 hn with rfl | hn
    · rcases freeName_cases (names (withDistinctNames us)) u.filename with ⟨-, heq⟩ | ⟨htaken, -⟩
      · exact Or.inl heq.symm
      · exact Or.inr htaken
    · exact Or.inr (ih hn)

/-- Distinct names are left alone. -/
theorem withDistinctNames_eq_self (h : (names us).Nodup) : withDistinctNames us = us := by
  induction us with
  | nil => rfl
  | cons u us ih =>
    rw [names_cons, List.nodup_cons] at h
    rw [withDistinctNames_cons, ih h.2, freeName_of_notMem h.1]

theorem getLast?_withDistinctNames (us : List Upload) :
    (withDistinctNames us).getLast? = us.getLast? := by
  induction us with
  | nil => rfl
  | cons u us ih =>
    cases us with
    | nil => rfl
    | cons v us =>
      rw [withDistinctNames_cons, withDistinctNames_cons, List.getLast?_cons_cons,
        ← withDistinctNames_cons, ih, List.getLast?_cons_cons]

/-! ## Names without numbers

If no name is another one with a number in front, the numbers given count the files
behind that have the same name. -/

/-- No file has the name of another one with a number in front. -/
def Unnumbered (us : List Upload) : Prop :=
  ∀ u ∈ us, ∀ v ∈ us, v.filename ≠ u.filename → ∀ k, 0 < k → u.filename ≠ numbered k v.filename

/-- The name with a number in front, for zero the name itself. -/
def counted : Nat → String → String
  | 0, name => name
  | k + 1, name => numbered (k + 1) name

/-- The files with the number of files behind them that have the same name. -/
def numberedFromEnd : List Upload → List Upload
  | [] => []
  | u :: rest =>
    { u with filename := counted ((names rest).count u.filename) u.filename } :: numberedFromEnd rest

theorem counted_of_pos {k : Nat} (hk : 0 < k) (name : String) : counted k name = numbered k name := by
  obtain ⟨j, rfl⟩ : ∃ j, k = j + 1 := ⟨k - 1, by omega⟩
  rfl

/-- Names without hyphens are no numbered ones. -/
theorem unnumbered_of_hyphenless (h : ∀ u ∈ us, '-' ∉ u.filename.toList) : Unnumbered us :=
  fun u hu v _ _ k _ => ne_numbered_of_hyphenless (h u hu) k v.filename

theorem Unnumbered.ne_numbered (h : Unnumbered us) {m n : String} (hm : m ∈ names us)
    (hn : n ∈ names us) {k : Nat} (hk : 0 < k) : m ≠ numbered k n := by
  obtain ⟨u, hu, rfl⟩ := List.mem_map.1 hm
  obtain ⟨v, hv, rfl⟩ := List.mem_map.1 hn
  intro heq
  refine h u hu v hv (fun hne => ?_) k hk heq
  exact numbered_ne k v.filename (heq.symm.trans hne.symm)

/-- The names given to the files: of a name that `n` files have, the first `n` numbers
    from zero on. -/
theorem mem_names_numberedFromEnd : name ∈ names (numberedFromEnd us) ↔
    ∃ n j, j < (names us).count n ∧ name = counted j n := by
  induction us with
  | nil => simp [numberedFromEnd]
  | cons u us ih =>
    rw [numberedFromEnd, names_cons, List.mem_cons, ih, names_cons]
    constructor
    · rintro (rfl | ⟨n, j, hj, rfl⟩)
      · exact ⟨u.filename, _, by rw [List.count_cons_self]; omega, rfl⟩
      · exact ⟨n, j, Nat.lt_of_lt_of_le hj List.count_le_count_cons, rfl⟩
    · rintro ⟨n, j, hj, rfl⟩
      by_cases hn : u.filename = n
      · subst hn
        rw [List.count_cons_self] at hj
        rcases Nat.lt_or_eq_of_le (Nat.le_of_lt_succ hj) with hlt | rfl
        · exact Or.inr ⟨_, j, hlt, rfl⟩
        · exact Or.inl rfl
      · rw [List.count_cons_of_ne hn] at hj
        exact Or.inr ⟨n, j, hj, rfl⟩

/-- The next number is free, and all before it are taken. -/
theorem freeName_numberedFromEnd (h : Unnumbered (u :: us)) :
    freeName (names (numberedFromEnd us)) u.filename =
      counted ((names us).count u.filename) u.filename := by
  have hmem : ∀ n j, j < (names us).count n → n ∈ names (u :: us) := fun n j hj =>
    List.mem_cons_of_mem _ (List.count_pos_iff.1 (Nat.lt_of_le_of_lt (Nat.zero_le j) hj))
  have hu : u.filename ∈ names (u :: us) := List.mem_cons_self
  by_cases hcount : (names us).count u.filename = 0
  · rw [hcount]
    refine freeName_of_notMem fun htaken => ?_
    obtain ⟨n, j, hj, heq⟩ := mem_names_numberedFromEnd.1 htaken
    cases j with
    | zero =>
      have hn : n = u.filename := heq.symm
      rw [hn, hcount] at hj
      exact Nat.not_lt_zero _ hj
    | succ j => exact h.ne_numbered hu (hmem n _ hj) (Nat.succ_pos j) heq
  · have hpos := Nat.pos_of_ne_zero hcount
    have hbare : u.filename ∈ names (numberedFromEnd us) :=
      mem_names_numberedFromEnd.2 ⟨u.filename, 0, hpos, rfl⟩
    rw [counted_of_pos hpos]
    refine freeName_of_leastFree hbare ⟨hpos, fun htaken => ?_, fun j hj hlt => ?_⟩
    · obtain ⟨n, j, hj, heq⟩ := mem_names_numberedFromEnd.1 htaken
      cases j with
      | zero => exact h.ne_numbered (hmem n 0 hj) hu hpos heq.symm
      | succ j =>
        obtain ⟨hnumber, hname⟩ := numbered_inj heq
        rw [← hname] at hj
        omega
    · exact mem_names_numberedFromEnd.2 ⟨u.filename, j, hlt, (counted_of_pos hj _).symm⟩

theorem withDistinctNames_eq_numberedFromEnd (h : Unnumbered us) :
    withDistinctNames us = numberedFromEnd us := by
  induction us with
  | nil => rfl
  | cons u us ih =>
    have hrest : Unnumbered us := fun v hv w hw =>
      h v (List.mem_cons_of_mem _ hv) w (List.mem_cons_of_mem _ hw)
    rw [withDistinctNames_cons, ih hrest, freeName_numberedFromEnd h]
    rfl

/-! ## The main statements -/

/-- **Names become distinct, and nothing else changes.**  Files keep their places, ids
    and contents.  A file whose name is taken by the files behind it gets a number that
    is no greater than the number of these; the last file keeps its name.  Where no name
    is another one with a number in front, the number is the number of files behind that
    had the name.  Distinct names are kept. -/
theorem withDistinctNames_distinguishes (us : List Upload) :
    (names (withDistinctNames us)).Nodup ∧
      List.Forall₂ Renamed us (withDistinctNames us) ∧
      (∀ front u back, us = front ++ u :: back → ∃ v, (withDistinctNames us)[front.length]? = some v ∧
        (v.filename = u.filename ∨
          ∃ k ≤ back.length, LeastFree (names (withDistinctNames back)) u.filename k ∧
            v.filename = numbered k u.filename)) ∧
      (withDistinctNames us).getLast? = us.getLast? ∧
      (Unnumbered us → withDistinctNames us = numberedFromEnd us) ∧
      withDistinctNames (withDistinctNames us) = withDistinctNames us := by
  refine ⟨nodup_withDistinctNames us, forall₂_renamed us, ?_, getLast?_withDistinctNames us,
    withDistinctNames_eq_numberedFromEnd, withDistinctNames_eq_self (nodup_withDistinctNames us)⟩
  rintro front u back rfl
  refine ⟨_, getElem?_withDistinctNames front u back, ?_⟩
  rcases freeName_cases (names (withDistinctNames back)) u.filename with
    ⟨-, heq⟩ | ⟨htaken, k, hk, heq⟩
  · exact Or.inl heq
  · have hle := hk.le_length htaken
    rw [length_names, length_withDistinctNames] at hle
    exact Or.inr ⟨k, hle, hk, heq⟩

theorem withDistinctNames_distinguishes_hyphenless :
    Unnumbered [⟨"a", "x.pdf", [1]⟩, ⟨"b", "x.pdf", [2]⟩, ⟨"c", "y.pdf", [3]⟩, ⟨"d", "x.pdf", [4]⟩] ∧
      withDistinctNames
          [⟨"a", "x.pdf", [1]⟩, ⟨"b", "x.pdf", [2]⟩, ⟨"c", "y.pdf", [3]⟩, ⟨"d", "x.pdf", [4]⟩] =
        [⟨"a", "2-x.pdf", [1]⟩, ⟨"b", "1-x.pdf", [2]⟩, ⟨"c", "y.pdf", [3]⟩, ⟨"d", "x.pdf", [4]⟩] := by
  have h : Unnumbered
      [⟨"a", "x.pdf", [1]⟩, ⟨"b", "x.pdf", [2]⟩, ⟨"c", "y.pdf", [3]⟩, ⟨"d", "x.pdf", [4]⟩] :=
    unnumbered_of_hyphenless (by decide)
  obtain ⟨-, -, -, -, hcounted, -⟩ := withDistinctNames_distinguishes
    [⟨"a", "x.pdf", [1]⟩, ⟨"b", "x.pdf", [2]⟩, ⟨"c", "y.pdf", [3]⟩, ⟨"d", "x.pdf", [4]⟩]
  exact ⟨h, (hcounted h).trans (by decide)⟩

/-! ## The last file of a name -/

/-- A file named `m` is given the number `k`. -/
def Gives (us : List Upload) (k : Nat) (m : String) : Prop :=
  ∃ front v back, us = front ++ v :: back ∧ v.filename = m ∧
    m ∈ names (withDistinctNames back) ∧ LeastFree (names (withDistinctNames back)) m k

theorem Gives.cons {k : Nat} {m : String} (h : Gives us k m) (u : Upload) : Gives (u :: us) k m := by
  obtain ⟨front, v, back, rfl, hv⟩ := h
  exact ⟨u :: front, v, back, rfl, hv⟩

theorem Gives.pos {k : Nat} {m : String} (h : Gives us k m) : 0 < k := by
  obtain ⟨_, _, _, _, _, _, hk⟩ := h
  exact hk.pos

theorem Gives.mem_names {k : Nat} {m : String} (h : Gives us k m) : m ∈ names us := by
  obtain ⟨front, v, back, rfl, rfl, -⟩ := h
  exact List.mem_map_of_mem List.mem_append_cons_self

/-- The names that are taken: those that were there, and the numbered ones that were
    given. -/
theorem mem_names_withDistinctNames : name ∈ names (withDistinctNames us) ↔
    name ∈ names us ∨ ∃ k m, Gives us k m ∧ name = numbered k m := by
  constructor
  · intro h
    induction us with
    | nil => exact Or.inl h
    | cons u us ih =>
      rw [withDistinctNames_cons, names_cons, List.mem_cons] at h
      rcases h with h | h
      · rcases freeName_cases (names (withDistinctNames us)) u.filename with
          ⟨-, heq⟩ | ⟨htaken, k, hk, heq⟩
        · exact Or.inl (List.mem_cons.2 (Or.inl (h.trans heq)))
        · exact Or.inr ⟨k, u.filename, ⟨[], u, us, rfl, rfl, htaken, hk⟩, h.trans heq⟩
      · rcases ih h with h | ⟨k, m, hgives, rfl⟩
        · exact Or.inl (List.mem_cons_of_mem _ h)
        · exact Or.inr ⟨k, m, hgives.cons u, rfl⟩
  · rintro (h | ⟨k, m, ⟨front, v, back, rfl, rfl, htaken, hk⟩, rfl⟩)
    · exact names_subset us h
    · have hplace := getElem?_withDistinctNames front v back
      rw [freeName_of_leastFree htaken hk] at hplace
      exact List.mem_map_of_mem (List.mem_of_getElem? hplace)

theorem keeps_iff_notMem (front : List Upload) (u : Upload) (back : List Upload) :
    (withDistinctNames (front ++ u :: back))[front.length]? = some u ↔
      u.filename ∉ names (withDistinctNames back) := by
  rw [getElem?_withDistinctNames, Option.some.injEq]
  constructor
  · intro h htaken
    have heq : freeName (names (withDistinctNames back)) u.filename = u.filename :=
      congrArg Upload.filename h
    exact freeName_notMem _ _ (heq.symm ▸ htaken)
  · intro h
    rw [freeName_of_notMem h]

/-- **The last file of a name keeps it unless a file behind it was given that name.**
    This cannot happen where the name is no number in front of a name behind it, and a
    name that is given is never one behind the file that gets it. -/
theorem keepsName_iff (front : List Upload) (u : Upload) (back : List Upload)
    (hlast : u.filename ∉ names back) :
    ((withDistinctNames (front ++ u :: back))[front.length]? = some u ↔
        ∀ k m, Gives back k m → u.filename ≠ numbered k m) ∧
      ((∀ k, 0 < k → ∀ m ∈ names back, u.filename ≠ numbered k m) →
        (withDistinctNames (front ++ u :: back))[front.length]? = some u) ∧
      ∀ k m, Gives back k m → ∃ front' v back', back = front' ++ v :: back' ∧ v.filename = m ∧
        (withDistinctNames back)[front'.length]? = some { v with filename := numbered k m } ∧
        numbered k m ∉ names back' := by
  have hkeeps : (withDistinctNames (front ++ u :: back))[front.length]? = some u ↔
      ∀ k m, Gives back k m → u.filename ≠ numbered k m := by
    rw [keeps_iff_notMem, mem_names_withDistinctNames]
    constructor
    · intro h k m hgives heq
      exact h (Or.inr ⟨k, m, hgives, heq⟩)
    · rintro h (hbehind | ⟨k, m, hgives, heq⟩)
      · exact hlast hbehind
      · exact h k m hgives heq
  refine ⟨hkeeps, fun h => hkeeps.2 fun k m hgives => h k hgives.pos m hgives.mem_names, ?_⟩
  rintro k m ⟨front', v, back', rfl, rfl, htaken, hk⟩
  refine ⟨front', v, back', rfl, rfl, ?_, fun hmem => hk.free (names_subset back' hmem)⟩
  rw [getElem?_withDistinctNames, freeName_of_leastFree htaken hk]

theorem keepsName_iff_hyphenless :
    "y" ∉ names [⟨"c", "x", []⟩, ⟨"d", "x", []⟩] ∧
      (withDistinctNames [⟨"a", "x", []⟩, ⟨"b", "y", []⟩, ⟨"c", "x", []⟩, ⟨"d", "x", []⟩])[1]? =
        some ⟨"b", "y", []⟩ := by
  have hlast : "y" ∉ names [⟨"c", "x", []⟩, ⟨"d", "x", []⟩] := by decide
  obtain ⟨-, hkeeps, -⟩ := keepsName_iff [⟨"a", "x", []⟩] ⟨"b", "y", []⟩
    [⟨"c", "x", []⟩, ⟨"d", "x", []⟩] hlast
  exact ⟨hlast, hkeeps fun k _ m _ => ne_numbered_of_hyphenless (by decide) k m⟩

/-- The only file named `1-x` loses its name to one of two files named `x` behind it. -/
theorem keepsName_fails :
    "1-x" ∉ names [⟨"b", "x", []⟩, ⟨"c", "x", []⟩] ∧
      withDistinctNames [⟨"a", "1-x", []⟩, ⟨"b", "x", []⟩, ⟨"c", "x", []⟩] =
        [⟨"a", "1-1-x", []⟩, ⟨"b", "1-x", []⟩, ⟨"c", "x", []⟩] := by
  decide

end FormIntake.Upload
