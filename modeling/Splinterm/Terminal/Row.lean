import Mathlib.Data.List.Basic
import Splinterm.Lib.Hoare
import Splinterm.Terminal.Cell

/-!
# Rows

Row storage and the editing functions of a terminal row. A wide character is a
leader cell followed by spacers that count its remaining columns down to one;
every edit clears the wide characters it would cut before it writes.
-/

namespace Splinterm.Terminal

open Lib.Hoare

/-- A row and whether it ends in a hard line break or wraps into the next. -/
structure Row where
  cells : List Cell
  dirty : Bool
  linebreak : Bool
deriving DecidableEq

abbrev RowM := EStateM Fault Row

namespace Row

/-- A fresh row: clean empty cells, a hard line break, not dirty. -/
def new (columns : Nat) : Row :=
  { cells := List.replicate columns { attributes := { clean := true } }
    dirty := false
    linebreak := true }

/-- Newly exposed grid content. -/
def newDirty (columns : Nat) : Row :=
  { cells := List.replicate columns {}, dirty := true, linebreak := true }

/-- What a reader of the row sees: cell contents and attributes without the clean
bit, and the line break flag. -/
def semantic (row : Row) : List Cell × Bool := (row.cells.map Cell.semantic, row.linebreak)

/-! ## Wide characters -/

/-- The spacer payload at the front, zero when there is none. -/
def firstPayload : List Cell → Nat
  | [] => 0
  | cell :: _ =>
    match cell.content with
    | .spacer remaining => remaining
    | _ => 0

/-- The cells start with the spacers `remaining`, …, `1`. -/
def countsDown : Nat → List Cell → Bool
  | 0, _ => true
  | _ + 1, [] => false
  | remaining + 1, cell :: rest => decide (cell.content = .spacer (remaining + 1)) && countsDown remaining rest

/-- The scan of `clear_wide_intersections` from `column` on: a complete wide
character that meets `[start, stop)` becomes empty cells. The scan moves right at
every turn, so `fuel` at least the number of cells reaches the end of the row. -/
def clearFrom (start stop : Nat) : Nat → Nat → List Cell → List Cell
  | 0, _, cells => cells
  | _ + 1, _, [] => []
  | fuel + 1, column, leader :: rest =>
    let remaining := firstPayload rest
    if 0 < remaining ∧ countsDown remaining rest = true then
      (if column < stop ∧ start < column + (remaining + 1) then
          List.replicate (remaining + 1) default
        else leader :: rest.take remaining)
        ++ clearFrom start stop fuel (column + (remaining + 1)) (rest.drop remaining)
    else leader :: clearFrom start stop fuel (column + 1) rest

def clearWideIntersections (start stop : Nat) (row : Row) : Row :=
  let cells := clearFrom start stop row.cells.length 0 row.cells
  -- a cleared wide character had spacers, so clearing one changes the cells
  { row with cells, dirty := row.dirty || decide (cells ≠ row.cells) }

/-- The nearest cell at or left of `column` that continues no wide character. -/
def leaderOf (cells : List Cell) : Nat → Nat
  | 0 => 0
  | column + 1 =>
    if (cells.getD (column + 1) default).content.isContinuation then leaderOf cells column
    else column + 1

/-- The scan of `repair_wide_cells`: a spacer outside a complete wide character
becomes empty. Every turn that makes progress moves right, so running out of
`fuel` before the end of the row means the loop does not end. -/
def repairFrom : Nat → Nat → List Cell → Option (List Cell)
  | 0, column, cells => if column < cells.length then none else some cells
  | fuel + 1, column, cells =>
    if column < cells.length then
      match (cells.getD column default).content with
      | .spacer (payload + 1) =>
        let leader := leaderOf cells column
        if leader < column ∧ countsDown (payload + 1) (cells.drop (leader + 1)) = true then
          repairFrom fuel (leader + (payload + 2)) cells
        else
          repairFrom fuel (column + 1)
            (cells.set column { cells.getD column default with content := .empty })
      | _ => repairFrom fuel (column + 1) cells
    else some cells

def repairWideCells : RowM Unit := do
  let row ← get
  match repairFrom row.cells.length 0 row.cells with
  | some cells => set { row with cells }
  | none => throw .diverge

/-! ## Edits -/

def eraseCells (start stop : Nat) (background : Color) (cells : List Cell) : List Cell :=
  cells.take start ++ List.replicate (stop - start) (Cell.erased background) ++ cells.drop stop

/-- `erase` on a range already known to fit the row. -/
def eraseRange (start stop : Nat) (background : Color) (row : Row) : Row :=
  let row := row.clearWideIntersections start stop
  { row with cells := eraseCells start stop background row.cells, dirty := true }

def assertRange (start stop : Nat) : RowM Unit := do
  let row ← get
  ensure (start ≤ stop ∧ stop ≤ row.cells.length) .panic

/-- Erases a half-open range, keeping only the background. -/
def erase (start stop : Nat) (background : Color) : RowM Unit := do
  assertRange start stop
  modify (eraseRange start stop background)

/-- Erases the row and restores its hard line break. -/
def eraseAll (background : Color) (row : Row) : Row :=
  { row.eraseRange 0 row.cells.length background with linebreak := true }

def setLinebreak (linebreak : Bool) (row : Row) : Row := { row with linebreak }

/-- `row[column]` for writing: the row becomes dirty and the cell unclean. -/
def editCell (column : Nat) (edit : Cell → Cell) : RowM Unit := do
  let row ← get
  ensure (column < row.cells.length) .panic
  let cell := row.cells.getD column default
  let cell := { cell with attributes := { cell.attributes with clean := false } }
  set { row with cells := row.cells.set column (edit cell), dirty := true }

def setContent (column : Nat) (content : CellContent) : RowM Unit := do
  ensure content.Fits .panic
  editCell column fun cell => { cell with content }

/-- Fills a half-open range with one content and its attributes. -/
def fill (start stop : Nat) (content : CellContent) (attributes : Attributes) : RowM Unit := do
  assertRange start stop
  modify (clearWideIntersections start stop)
  whenever (start < stop) (ensure content.Fits .panic)
  modify fun row =>
    { row with
      cells := row.cells.take start ++ List.replicate (stop - start) ⟨content, { attributes with clean := false }⟩ ++
        row.cells.drop stop
      dirty := true }

/-- Inserts blank cells, dropping the rightmost ones. -/
def insertCells (column count : Nat) (background : Color) : RowM Unit := do
  let row ← get
  let columns := row.cells.length
  ensure (column < columns) .panic
  let count := min count (columns - column)
  whenever (count ≠ 0) do
    modify (clearWideIntersections column (column + 1))
    modify (clearWideIntersections (columns - count) (columns - count + 1))
    modify fun row =>
      { row with
        cells := row.cells.take (column + count) ++ (row.cells.take (columns - count)).drop column }
    erase column (column + count) background
    repairWideCells

/-- Deletes cells, erasing the tail. -/
def deleteCells (column count : Nat) (background : Color) : RowM Unit := do
  let row ← get
  let columns := row.cells.length
  ensure (column < columns) .panic
  let count := min count (columns - column)
  whenever (count ≠ 0) do
    modify (clearWideIntersections column (column + count))
    whenever (column + count < columns)
      (modify (clearWideIntersections (column + count) (column + count + 1)))
    modify fun row =>
      { row with
        cells := row.cells.take column ++ row.cells.drop (column + count) ++ row.cells.drop (columns - count) }
    erase (columns - count) columns background
    repairWideCells

/-- Changes the width without reflowing: a wide character cut by the new edge
loses its content. -/
def resizeWithoutReflow (columns : Nat) (row : Row) : Row :=
  let oldColumns := row.cells.length
  if oldColumns < columns then
    { row with
      cells := row.cells ++ List.replicate (columns - oldColumns) default
      dirty := true }
  else if columns < oldColumns then
    let cells :=
      if 0 < columns ∧ (row.cells.getD columns default).content.isContinuation then
        let leader := leaderOf row.cells columns
        row.cells.take leader ++
          ((row.cells.take columns).drop leader).map (fun cell => { cell with content := .empty })
      else row.cells.take columns
    { row with cells }
  else row

end Row

end Splinterm.Terminal
