/-
  FormIntake — which tables a field takes.

  `TableOptions.Takes` is the rule of a table: how many rows it may have, and that every
  row has one cell for each column which that column takes.  The check passes if and only
  if the rule holds (`TableOptions.check_eq_ok_iff`).  `Field.process_table_iff` puts it
  together with what becomes of blank tables: a field that need not be answered takes any
  of them, and a field that must be answered holds a blank table to the same rule as any
  other.
-/
import FormIntake.Proofs.Validation.Decision

namespace FormIntake

open Validation

/-! ## Cells and rows -/

/-- A cell that a column takes: not blank if the column must be filled in, and one of the
    options, letter for letter, if the column has options and the cell is not blank. -/
structure Column.Takes (c : Column) (cell : String) : Prop where
  filled : c.required = true → Text.trim cell ≠ ""
  listed : ∀ options, c.kind = .dropdown options → Text.trim cell ≠ "" → cell ∈ options

theorem Column.check_eq_ok_iff {c : Column} {cell : String} :
    c.check cell = .ok () ↔ c.Takes cell := by
  have hblank := Text.trim_eq_empty_iff (s := cell)
  rw [check]
  split
  · next h =>
    rw [require_eq_ok, Bool.not_eq_true']
    constructor
    · intro hrequired
      exact ⟨by simp [hrequired], fun _ _ hne => absurd (hblank.2 h) hne⟩
    · intro htakes
      rw [← Bool.not_eq_true]
      exact fun hrequired => htakes.filled hrequired (hblank.2 h)
  · next h =>
    have hne : Text.trim cell ≠ "" := mt hblank.1 h
    split
    · next hkind =>
      refine iff_of_true rfl ⟨fun _ => hne, fun options hoptions => ?_⟩
      rw [hkind] at hoptions
      cases hoptions
    · next options hkind =>
      rw [require_eq_ok, List.contains_iff_mem]
      constructor
      · intro hmem
        refine ⟨fun _ => hne, fun options' hoptions _ => ?_⟩
        rw [hkind] at hoptions
        cases hoptions
        exact hmem
      · exact fun htakes => htakes.listed options hkind hne

theorem checkCells_eq_ok_iff {columns : List Column} {cells : List String}
    (hlen : cells.length = columns.length) :
    checkCells columns cells = .ok () ↔ List.Forall₂ Column.Takes columns cells := by
  induction columns generalizing cells with
  | nil =>
    rw [List.length_eq_zero_iff.1 hlen]
    exact iff_of_true rfl .nil
  | cons column columns ih =>
    cases cells with
    | nil => cases hlen
    | cons cell cells =>
      rw [checkCells, check_bind_eq_ok, Column.check_eq_ok_iff, ih (Nat.succ.inj hlen),
        List.forall₂_cons]

namespace TableOptions

variable {o : TableOptions} {row : List String} {rows : List (List String)}

/-- A table that is taken: not too few rows and not too many, just the fewest where no
    rows may be added to them, and in each row a cell for each column, in their order. -/
structure Takes (o : TableOptions) (rows : List (List String)) : Prop where
  fewest : o.fewestRows ≤ rows.length
  most : o.growing = true → ∀ n, o.mostRows = some n → rows.length ≤ n
  fixed : o.growing = false → 0 < o.fewestRows → rows.length = o.fewestRows
  cells : ∀ row ∈ rows, List.Forall₂ Column.Takes o.columns row

theorem checkRow_eq_ok_iff :
    o.checkRow row = .ok () ↔ List.Forall₂ Column.Takes o.columns row := by
  rw [checkRow, check_bind_eq_ok, require_eq_ok, beq_iff_eq]
  constructor
  · rintro ⟨hlen, hcells⟩
    exact (checkCells_eq_ok_iff hlen).1 hcells
  · intro hcells
    exact ⟨hcells.length_eq.symm, (checkCells_eq_ok_iff hcells.length_eq.symm).2 hcells⟩

/-- The bounds on the number of rows, as they are checked. -/
theorem rowCount_iff : ((o.growing = true → (o.mostRows.all fun n => rows.length ≤ n) = true) ∧
      (o.growing = false → (o.fewestRows == 0 || rows.length == o.fewestRows) = true)) ↔
    (o.growing = true → ∀ n, o.mostRows = some n → rows.length ≤ n) ∧
      (o.growing = false → 0 < o.fewestRows → rows.length = o.fewestRows) := by
  simp only [Option.all_eq_true, decide_eq_true_eq, Bool.or_eq_true, beq_iff_eq]
  refine and_congr_right fun _ => imp_congr_right fun _ => ?_
  omega

/-- **The check of a table is its rule.** -/
theorem check_eq_ok_iff : o.check rows = .ok () ↔ o.Takes rows := by
  have hparts : o.check rows = .ok () ↔ o.fewestRows ≤ rows.length ∧
      ((o.growing = true → (o.mostRows.all fun n => rows.length ≤ n) = true) ∧
        (o.growing = false → (o.fewestRows == 0 || rows.length == o.fewestRows) = true)) ∧
      ∀ row ∈ rows, List.Forall₂ Column.Takes o.columns row := by
    rw [check, check_bind_eq_ok, require_eq_ok, decide_eq_true_eq]
    refine and_congr_right fun _ => ?_
    cases o.growing with
    | true =>
      simp only [if_true, check_bind_eq_ok, require_eq_ok, forM_eq_ok, checkRow_eq_ok_iff,
        true_imp_iff, Bool.true_eq_false, false_imp_iff, and_true]
    | false =>
      simp only [Bool.false_eq_true, if_false, check_bind_eq_ok, require_eq_ok, forM_eq_ok,
        checkRow_eq_ok_iff, true_imp_iff, false_imp_iff, true_and]
  rw [hparts, rowCount_iff]
  constructor
  · rintro ⟨hfewest, ⟨hmost, hfixed⟩, hcells⟩
    exact ⟨hfewest, hmost, hfixed, hcells⟩
  · rintro ⟨hfewest, hmost, hfixed, hcells⟩
    exact ⟨hfewest, ⟨hmost, hfixed⟩, hcells⟩

end TableOptions

/-- **Which lists of children a field takes.** -/
theorem ChildrenOptions.check_eq_ok_iff {o : ChildrenOptions} {rows : List (List String)} :
    o.check rows = .ok () ↔ (o.several = true ∨ rows.length ≤ 1) ∧
      ∀ row ∈ rows, row.length = o.subFields.length := by
  rw [check, check_bind_eq_ok, require_eq_ok, require_eq_ok, Bool.or_eq_true, decide_eq_true_eq,
    List.all_eq_true]
  simp only [beq_iff_eq]

/-! ## Responses -/

namespace Field

variable {f : Field} {o : TableOptions} {dir : Phone.Directory} {today : Date} {r : Response}
  {a : Answer} {rows : List (List String)}

/-- An answer to a field of tables is held to the rule of the table unless it is blank and
    need not be given. -/
theorem checkAnswer_table (hkind : f.kind = .table o) :
    f.checkAnswer dir today true (.rows rows) = .ok () ↔
      f.required = false ∧ (Answer.rows rows).Blank ∨ o.Takes rows := by
  have hrule : f.kind.verdict? dir today (.rows rows) = some (o.check rows) := by
    rw [hkind]
    rfl
  have hcheck : (o.check rows).mapError FieldError.invalidAnswer = .ok () ↔ o.Takes rows := by
    rw [← TableOptions.check_eq_ok_iff]
    cases o.check rows <;> simp [Except.mapError]
  by_cases hblank : (Answer.rows rows).Blank
  · rw [checkAnswer_blank hblank, hkind, Bool.and_true]
    cases f.required with
    | true => simpa [FieldKind.checkBlank] using hcheck
    | false => simp [hblank]
  · rw [checkAnswer_shown hblank hrule, hcheck]
    simp [hblank]

theorem gives_table_iff : r.Gives .table a ↔ ∃ rows, a = .rows rows ∧ SaysRows r.answers rows := by
  constructor
  · intro h
    cases h with
    | table hrows => exact ⟨_, rfl, hrows⟩
    | nothing ht => cases ht
    | single ht hsingle => exact absurd (by decide) hsingle
  · rintro ⟨rows, rfl, hrows⟩
    exact .table hrows

/-- **Which tables a field takes.**  A response that is shown to the respondent is accepted
    if and only if it says rows that are all blank, where the field need not be answered, or
    rows that the rule of the table takes; and what is accepted are these rows. -/
theorem process_table_iff (f : Field) (o : TableOptions) (dir : Phone.Directory) (today : Date)
    (r : Response) (hkind : f.kind = .table o) (htype : r.type = .table)
    (hvisible : r.visible = true) :
    ∀ a, f.process dir today r = .ok a ↔ ∃ rows, a = .rows rows ∧ SaysRows r.answers rows ∧
      (f.required = false ∧ (∀ row ∈ rows, ∀ cell ∈ row, Text.trim cell = "") ∨ o.Takes rows) := by
  have hfield : f.type = .table := by rw [Field.type, hkind]; rfl
  intro a
  constructor
  · intro h
    obtain ⟨-, hgives⟩ := gives_of_process h
    rw [process_of_gives (htype.trans hfield.symm) hgives, hvisible, map_eq_ok_iff] at h
    rw [hfield, gives_table_iff] at hgives
    obtain ⟨rows, rfl, hrows⟩ := hgives
    obtain ⟨⟨⟩, hcheck, -⟩ := h
    exact ⟨rows, rfl, hrows, (checkAnswer_table hkind).1 hcheck⟩
  · rintro ⟨rows, rfl, hrows, htakes⟩
    have hgives : r.Gives f.type (.rows rows) := hfield ▸ .table hrows
    rw [process_of_gives (htype.trans hfield.symm) hgives, hvisible,
      (checkAnswer_table hkind).2 htakes]
    rfl

/-- A table with a list of options that need not be chosen from, and one such cell blank. -/
theorem process_table_iff_blank_cell :
    let o : TableOptions :=
      { fewestRows := 1, mostRows := some 2, growing := true,
        columns := [⟨"Pick", false, .dropdown ["a", "b"]⟩, ⟨"Say", true, .shortText⟩] }
    let dir : Phone.Directory := .ofList []
    let today : Date := ⟨2024, 1, 1, by decide⟩
    Field.process { id := "t", kind := .table o } dir today
        (.rows "t" .table [["a", "x"], ["", "y"]]) = .ok (.rows [["a", "x"], ["", "y"]]) := by
  intro o dir today
  have htakes : o.Takes [["a", "x"], ["", "y"]] := TableOptions.check_eq_ok_iff.1 rfl
  exact (process_table_iff _ o dir today _ rfl rfl rfl _).2 ⟨_, rfl, .array, .inr htakes⟩

end Field

end FormIntake
