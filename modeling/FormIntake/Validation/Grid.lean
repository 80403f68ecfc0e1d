/-
  FormIntake — tables and lists of children as answers.
-/
import FormIntake.Field.Basic
import FormIntake.Text.Blank
import FormIntake.Validation.Require

namespace FormIntake

open Validation

/-- Check a cell.  A blank cell is an option of no list. -/
def Column.check (c : Column) (cell : String) : Verdict :=
  if Text.isBlank cell then require (!c.required) .tableBlankCell
  else
    match c.kind with
    | .shortText => pure ()
    | .dropdown options => require (options.contains cell) .tableOption

/-- Check the cells of a row from left to right. -/
def checkCells : List Column → List String → Verdict
  | column :: columns, cell :: cells => do
    column.check cell
    checkCells columns cells
  | _, _ => pure ()

namespace TableOptions

/-- Check a row. -/
def checkRow (o : TableOptions) (row : List String) : Verdict := do
  require (row.length == o.columns.length) .tableRowWidth
  checkCells o.columns row

/-- Check a table: the number of its rows, then the rows from top to bottom. -/
def check (o : TableOptions) (rows : List (List String)) : Verdict := do
  require (o.fewestRows ≤ rows.length) .tableTooFewRows
  if o.growing then require (o.mostRows.all fun n => rows.length ≤ n) .tableTooManyRows
  else require (o.fewestRows == 0 || rows.length == o.fewestRows) .tableRowCount
  rows.forM o.checkRow

end TableOptions

/-- Check a list of children. -/
def ChildrenOptions.check (o : ChildrenOptions) (rows : List (List String)) : Verdict := do
  require (o.several || rows.length ≤ 1) .childrenSeveral
  require (rows.all fun row => row.length == o.subFields.length) .childrenWidth

end FormIntake
