import Splinterm.Terminal.Grid

/-!
# Reflow

Resizing a grid by rewrapping its logical lines. The builder takes the cells of
the old rows in chronological order, one wide character or single cell at a time,
and fills rows of the new width; it remembers where the cursors, the view and the
start of every old row ended up.
-/

namespace Splinterm.Terminal

open Lib Hoare

namespace Reflow

structure Mappings where
  cursor : Option (Nat × Nat) := none
  savedCursor : Option (Nat × Nat) := none
  view : Option (Nat × Nat) := none

structure Origins where
  cursor : Nat × Nat
  savedCursor : Nat × Nat
  view : Nat × Nat

structure Builder where
  columns : Nat
  rows : List Row := []
  current : List Cell := []
  mappings : Mappings := {}
  rowMappings : OrdMap Nat Nat := .empty
  origins : Origins

namespace Builder

variable (b : Builder)

def mapOrigin (physicalRow sourceColumn outputColumn : Nat) : Builder :=
  let output := (b.rows.length, outputColumn)
  let source := (physicalRow, sourceColumn)
  { b with
    mappings :=
      { cursor := if source = b.origins.cursor then some output else b.mappings.cursor
        savedCursor :=
          if source = b.origins.savedCursor then some output else b.mappings.savedCursor
        view := if source = b.origins.view then some output else b.mappings.view } }

def pushCurrent (linebreak : Bool) : Builder :=
  { b with
    rows := b.rows ++ [{ cells := b.current, linebreak, dirty := true }]
    current := [] }

/-- Pads the row being filled with `cell`. -/
def pad (cell : Cell) : Builder :=
  { b with current := b.current ++ List.replicate (b.columns - b.current.length) cell }

def finish (linebreak : Bool) : Builder := (b.pad default).pushCurrent linebreak

def finishWrapped : Builder := (b.pad { content := .spacer 0 }).pushCurrent false

def finishHardLine : Builder := b.finish true

def appendUnit (physicalRow sourceColumn sourceWidth : Nat) (output : List Cell) : Builder :=
  let output := if b.columns < output.length then [] else output
  let outputWidth := max output.length 1
  let b := if b.current ≠ [] ∧ b.columns < b.current.length + outputWidth then b.finishWrapped else b
  let outputColumn := b.current.length
  let b := { b with current := b.current ++ (if output = [] then [default] else output) }
  (List.range sourceWidth).foldl
    (fun b offset => b.mapOrigin physicalRow (sourceColumn + offset) (outputColumn + min offset (outputWidth - 1)))
    b

end Builder

/-- A composed leader whose continuation cells are missing gets them back. -/
def cellsForComposedWidth (leader : Cell) (width : Nat) : List Cell :=
  leader :: (List.range (width - 1)).map fun offset => { content := .spacer (width - 1 - offset) }

/-- The unit at `column`: how many old columns it takes and the cells it becomes. -/
def reflowUnit (composedWidth : Nat → Nat) (cells : List Cell) (column count maximumWidth : Nat) : Nat × List Cell :=
  let leader := cells.getD column default
  let following := cells.drop (column + 1)
  match leader.content with
  | .spacer (_ + 1) => (1, [default])
  | .composed key =>
    let width := max (composedWidth key) 1
    if maximumWidth < width then (min width (count - column), [])
    else if width ≤ count - column ∧ Row.countsDown (width - 1) following = true then
      (width, (cells.drop column).take width)
    else (1, cellsForComposedWidth leader width)
  | _ =>
    let width := Row.firstPayload following + 1
    if column + 1 < count ∧ 1 < width ∧ width ≤ count - column
        ∧ Row.countsDown (width - 1) following = true then
      if maximumWidth < width then (width, []) else (width, (cells.drop column).take width)
    else (1, [leader])

/-- Appends the units of one old row from `column` on; every unit takes at least
one column, so `fuel` at least `count` reaches the end. -/
def appendUnits (composedWidth : Nat → Nat) (physicalRow : Nat) (cells : List Cell) (count : Nat) :
    Nat → Nat → Builder → Builder
  | 0, _, b => b
  | fuel + 1, column, b =>
    if column < count then
      let unit := reflowUnit composedWidth cells column count b.columns
      appendUnits composedWidth physicalRow cells count fuel (column + unit.1)
        (b.appendUnit physicalRow column unit.1 unit.2)
    else b

/-- One past the last cell that is neither empty nor padding. -/
def meaningful (cells : List Cell) : Nat :=
  (cells.reverse.dropWhile fun cell => cell.content = .empty || cell.content = .spacer 0).length

/-- How many cells of an old row take part: its content, the empty cells before a
soft wrap, and everything up to a tracked position. -/
def contentCount (row : Row) (trackerColumn : Nat) : Nat :=
  let content := meaningful row.cells
  let content :=
    if row.linebreak = false ∧ 0 < content then
      content + ((row.cells.drop content).takeWhile fun cell => cell.content = .empty).length
    else content
  min (max content trackerColumn) row.cells.length

structure State where
  builder : Builder
  sawRow : Bool := false
  lastLinebreak : Bool := true
  pendingEmptyLinebreaks : Nat := 0

/-- Hard breaks of empty lines are held back until a later line has content. -/
def flushPending : Nat → Builder → Builder
  | 0, b => b
  | pending + 1, b => flushPending pending b.finishHardLine

def trackerColumn (origins : Origins) (physicalRow : Nat) : Nat :=
  let tracked := fun (origin : Nat × Nat) => if physicalRow = origin.1 then origin.2 + 1 else 0
  max (tracked origins.cursor) (max (tracked origins.savedCursor) (tracked origins.view))

def reflowRow (composedWidth : Nat → Nat) (st : State) (physicalRow : Nat) (slot : Slot) : State :=
  match slot.row with
  | none => st
  | some row =>
    let b := { st.builder with
      rowMappings := st.builder.rowMappings.insert slot.id st.builder.rows.length }
    let count := contentCount row (trackerColumn b.origins physicalRow)
    let b := if 0 < count then flushPending st.pendingEmptyLinebreaks b else b
    let pending := if 0 < count then 0 else st.pendingEmptyLinebreaks
    let b := appendUnits composedWidth physicalRow row.cells count count 0 b
    { builder := if row.linebreak = true ∧ 0 < count then b.finishHardLine else b
      sawRow := true
      lastLinebreak := if 0 < count then row.linebreak else st.lastLinebreak
      pendingEmptyLinebreaks := if row.linebreak = true ∧ count = 0 then pending + 1 else pending }

/-- Every old row in chronological order, then the line still being filled. -/
def build (composedWidth : Nat → Nat) (columns : Nat) (origins : Origins) (g : Grid) : Builder :=
  let st := (List.range g.rowCapacity).foldl
    (fun st distance =>
      reflowRow composedWidth st (g.absoluteIndex (g.screenRows + distance : Nat))
        (g.slot (g.screenRows + distance : Nat)))
    { builder := { columns, origins } }
  if st.builder.current ≠ [] then st.builder.finish st.lastLinebreak
  else if st.sawRow = false then st.builder.finishHardLine
  else st.builder

def adjustMapping (trimmed : Nat) (mapping : Option (Nat × Nat)) : Option (Nat × Nat) :=
  mapping.bind fun (row, column) => if trimmed ≤ row then some (row - trimmed, column) else none

/-- Drops the oldest rows that do not fit the new capacity. -/
def trim (capacity : Nat) (b : Builder) : Builder :=
  let trimmed := b.rows.length - capacity
  { b with
    rows := b.rows.drop trimmed
    mappings :=
      { cursor := adjustMapping trimmed b.mappings.cursor
        savedCursor := adjustMapping trimmed b.mappings.savedCursor
        view := adjustMapping trimmed b.mappings.view }
    rowMappings := Grid.mapOf (b.rowMappings.entries.filterMap fun (id, row) =>
      if trimmed ≤ row then some (id, row - trimmed) else none) }

def remapCursor (cursor : Cursor) (mapping : Option (Nat × Nat)) (g : Grid) : Cursor :=
  let (absoluteRow, column) := mapping.getD (g.offset, 0)
  let row := min (g.slots.index ((absoluteRow : Int) - g.offset)) (g.screenRows - 1)
  let column := min column (g.columns - 1)
  if cursor.deferredWrap = true ∧ column + 1 < g.columns then
    { position := ⟨column + 1, row⟩, deferredWrap := false }
  else { cursor with position := ⟨column, row⟩ }

end Reflow

namespace Grid

open Reflow

/-- Places rebuilt rows from slot zero on, so that the last of them is the bottom
of the screen, and allocates the screen rows above the first. -/
def placeRows (rows : List Row) (newScreenRows : Nat) (g : Grid) : Grid :=
  let g : Grid := { g with screenRows := newScreenRows }
  let g := rows.zipIdx.foldl (fun g (row, index) => g.setSlot (index : Nat) { row := some row }) g
  let g : Grid :=
    { g with
      offset := if newScreenRows ≤ rows.length then rows.length - newScreenRows
        else g.rowCapacity - (newScreenRows - rows.length) }
  (List.range newScreenRows).foldl
    (fun g (row : Nat) =>
      if (g.slot row).row.isNone then g.setSlot row { row := some (Row.new g.columns) } else g)
    g

/-- Where the view lands: on the screen it followed, or on the row it showed, but
never past the live screen. -/
def reflowedView (following : Bool) (mapping : Option (Nat × Nat)) (g : Grid) : Nat :=
  let view := if following then g.offset else (mapping.map (·.1)).getD g.offset
  if g.rowCapacity - g.screenRows < g.absoluteToScrollback view then
    g.slots.index ((g.scrollbackStart : Int) + (g.rowCapacity - g.screenRows : Nat))
  else view

/-- Rewraps the logical lines to the new width. The result also says which new
identity stands where each old row started. -/
def resizeWithReflow (newRowCapacity newColumns newScreenRows : Nat) (composedWidth : Nat → Nat)
    (g : Grid) : Except Fault (Grid × OrdMap Nat Nat) := do
  let dimensions ← Grid.new newRowCapacity newColumns
  rejectIf (¬ (1 ≤ newScreenRows ∧ newScreenRows ≤ dimensions.rowCapacity)) .panic
  let origin := fun (cursor : Cursor) => (g.absoluteIndex cursor.position.row, cursor.position.column)
  let origins : Origins :=
    { cursor := origin g.cursor, savedCursor := origin g.savedCursor, view := (g.view, 0) }
  let b := trim newRowCapacity (build composedWidth newColumns origins g)
  let placed := placeRows b.rows newScreenRows dimensions
  let placed := { placed with view := placed.reflowedView (g.view == g.offset) b.mappings.view }
  let placed :=
    { placed with
      cursor := remapCursor g.cursor b.mappings.cursor placed
      savedCursor := remapCursor g.savedCursor b.mappings.savedCursor placed
      generation := g.generation + 1
      nextRowId := g.nextRowId
      historyGeneration := g.historyGeneration + 1 }
  let resized := placed.reidentifyAllocatedRowsChronologically
  let leadingPadding := newScreenRows - b.rows.length
  let mapped := fun (row : Nat) =>
    if row < b.rows.length then some row
    else if 0 < leadingPadding then some (resized.absoluteIndex (leadingPadding - 1 : Nat))
    else none
  pure (resized, mapOf (b.rowMappings.entries.filterMap fun (id, row) =>
    (mapped row).bind fun index => ((resized.slots.get index).row).map fun _ => (id, (resized.slots.get index).id)))

end Grid

end Splinterm.Terminal
