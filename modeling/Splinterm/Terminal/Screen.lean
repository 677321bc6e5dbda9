import Splinterm.Terminal.State

/-!
# Printing, cursor movement, erasing and line operations

The commands that act on the active grid. Row numbers and columns come from the
cursor, which every write keeps on the screen.
-/

namespace Splinterm.Terminal

set_option linter.dupNamespace false

open Lib Hoare

/-- Moves only the column. -/
def Cursor.atColumn (cursor : Cursor) (column : Nat) : Cursor :=
  { cursor with position := { cursor.position with column } }

/-- Drops a pending wrap. -/
def Cursor.unwrapped (cursor : Cursor) : Cursor := { cursor with deferredWrap := false }

/-- `param_count` and `param_usize`: an absent or zero count means one. -/
def Param.count (param : Param) : Nat := param.valueOr 1 true

/-- `int.clamp(low, high)` for bounds that are in order. -/
def clampInt (low high : Nat) (value : Int) : Nat := min (max value.toNat low) high

def nextTabStop (stops : List Bool) (column : Nat) : Nat :=
  ((List.range' (column + 1) (stops.length - (column + 1))).find? fun candidate =>
    stops.getD candidate false).getD (stops.length - 1)

/-- The next tab stop to the left, or the first column. -/
def previousTabStop (stops : List Bool) (column : Nat) : Nat :=
  ((List.range column).reverse.find? fun candidate => stops.getD candidate false).getD 0

/-- Some row the placement covers is among the visible ones. -/
def placementIntersectsRows (placement : ImagePlacement) (orderedRows visibleRows : List Nat) : Bool :=
  match orderedRows.findIdx? (· = placement.rowId) with
  | some start => ((orderedRows.drop start).take placement.destination.rows).any (· ∈ visibleRows)
  | none => false

/-- The characters a combining character joins, when the cell holds any. -/
def ComposedTable.sequenceAt (table : ComposedTable) : CellContent → Option (List Char)
  | .scalar base => some [base]
  | .composed key => some ((table.chars key).getD [])
  | _ => none

def Row.writeLeader (column : Nat) (character : Char) (attributes : Attributes) : RowM Unit := do
  Row.setContent column (.scalar character)
  Row.editCell column fun cell => { cell with attributes := { attributes with clean := false } }

/-- A cell that continues a character for `remaining` more columns. -/
def Row.writeSpacer (column remaining : Nat) : RowM Unit := do
  Row.setContent column (.spacer remaining)
  Row.editCell column fun cell => { cell with attributes := {} }

/-- Stores a character and its continuation cells. -/
def Row.writeCharacter (column width : Nat) (character : Char) (attributes : Attributes) : RowM Unit := do
  modify (Row.clearWideIntersections column (column + width))
  Row.writeLeader column character attributes
  (List.range' 1 (width - 1)).forM fun offset => Row.writeSpacer (column + offset) (width - offset)
  modify (Row.setLinebreak true)

namespace Terminal

def background (t : Terminal) : Color := t.attributes.background

def setCursor (cursor : Cursor) : TerminalM Unit := onGrid (Grid.setCursor cursor)

/-- `grid_mut().row_mut(row).expect(..)` followed by an edit. -/
def onRow {α : Type} (row : Nat) (edit : RowM α) : TerminalM α := onGrid (Grid.onRow row edit)

/-! ## Vertical movement -/

def lineFeed : TerminalM Unit := do
  let t ← get
  let cursor := t.grid.cursor
  if cursor.position.row + 1 = t.scrollRegion.stop then
    -- a pending wrap survives a scroll: the source drops it on a copy only
    scrollGrid .forward t.scrollRegion 1 t.background
  else
    setCursor
      { position :=
          ⟨cursor.position.column, min (cursor.position.row + 1) (t.grid.screenRows - 1)⟩ }

def reverseIndex : TerminalM Unit := do
  let t ← get
  let cursor := t.grid.cursor
  if cursor.position.row = t.scrollRegion.start then
    scrollGrid .reverse t.scrollRegion 1 t.background
  else setCursor { position := ⟨cursor.position.column, cursor.position.row - 1⟩ }

/-! ## Printing -/

/-- Takes the wrap the last printed character left pending. -/
def takeDeferredWrap : TerminalM Cursor := do
  let t ← get
  let cursor := t.grid.cursor
  if cursor.deferredWrap = true then
    if t.modes.autoMargin = true then
      onRow cursor.position.row (modify (Row.setLinebreak false))
      setCursor { position := ⟨0, cursor.position.row⟩ }
      lineFeed
      let t ← get
      pure t.grid.cursor
    else pure cursor.unwrapped
  else pure cursor

/-- A wide character that does not fit pads the line and wraps. -/
def wrapWide (cursor : Cursor) : TerminalM Cursor := do
  let t ← get
  let row := cursor.position.row
  let column := cursor.position.column
  let columns := t.grid.columns
  overwriteImageCells ⟨row, row + 1, column, columns⟩
  (List.range' column (columns - column)).forM fun pad => onRow row (Row.setContent pad (.spacer 0))
  onRow row (modify (Row.setLinebreak false))
  setCursor { position := ⟨0, row⟩ }
  lineFeed
  let t ← get
  pure t.grid.cursor

def combine (charWidth : Char → Option Nat) (character : Char) : TerminalM Unit := do
  let t ← get
  let cursor := t.grid.cursor
  let column := cursor.position.column
  whenever (cursor.deferredWrap = true ∨ 0 < column) do
    let last := if cursor.deferredWrap then column else column - 1
    let row ← okOr .panic (t.grid.row cursor.position.row)
    ensure (last < row.cells.length) .panic
    let base := Row.leaderOf row.cells last
    match t.composed.sequenceAt (row.cells.getD base default).content with
    | none => pure ()
    | some sequence =>
      whenever (sequence.length < 64) do
        let interned := t.composed.intern charWidth (sequence ++ [character])
        set { t with composed := interned.2 }
        match interned.1 with
        | some key => onRow cursor.position.row (Row.setContent base (.composed key))
        | none => pure ()

/-- Stores the character at the cursor and advances past it. -/
def putCharacter (character : Char) (cursor : Cursor) (width : Nat) : TerminalM Unit := do
  let t ← get
  let row := cursor.position.row
  let column := cursor.position.column
  let columns := t.grid.columns
  overwriteImageCells ⟨row, row + 1, column, if t.modes.insert then columns else column + width⟩
  whenever (t.modes.insert = true) (onRow row (Row.insertCells column width t.background))
  onRow row (Row.writeCharacter column width character t.attributes)
  if columns ≤ column + width then
    setCursor { position := ⟨columns - 1, row⟩, deferredWrap := t.modes.autoMargin }
  else setCursor (cursor.atColumn (column + width))

def print (charWidth : Char → Option Nat) (character : Char) : TerminalM Unit := do
  let width := (charWidth character).getD 0
  if width = 0 then combine charWidth character
  else
    let t ← get
    let columns := t.grid.columns
    whenever (width ≤ columns) do
      let cursor ← takeDeferredWrap
      let t ← get
      if columns < cursor.position.column + width then
        if t.modes.autoMargin = true then
          let cursor ← wrapWide cursor
          putCharacter character (cursor.atColumn 0) width
        -- without automatic margins a wide glyph is clipped to one cell
        else putCharacter character cursor 1
      else putCharacter character cursor width

/-! ## Cursor movement -/

def clearDeferredWrap (homeColumn : Bool) : TerminalM Unit := do
  let t ← get
  let cursor := t.grid.cursor.unwrapped
  setCursor (if homeColumn then cursor.atColumn 0 else cursor)

def carriageReturn : TerminalM Unit := do
  let t ← get
  setCursor (t.grid.cursor.unwrapped.atColumn 0)

def backspace : TerminalM Unit := do
  let t ← get
  let cursor := t.grid.cursor
  let position := cursor.position
  setCursor <|
    if cursor.deferredWrap then cursor.unwrapped
    else if 0 < position.column then cursor.atColumn (position.column - 1)
    else if t.modes.reverseWrap = true ∧ 0 < position.row then
      { cursor with position := ⟨t.grid.columns - 1, position.row - 1⟩ }
    else cursor

def tab (count : Nat) (forward : Bool) : TerminalM Unit := do
  let t ← get
  let stops := t.tabStops
  let cursor := t.grid.cursor
  let turns := min count stops.length
  -- looking left reads the entries below the cursor column
  whenever (forward = false ∧ 0 < turns) (ensure (cursor.position.column ≤ stops.length) .panic)
  let next := if forward then nextTabStop stops else previousTabStop stops
  setCursor (cursor.unwrapped.atColumn (next^[turns] cursor.position.column))

def moveCursor (columnDelta rowDelta : Int) : TerminalM Unit := do
  let t ← get
  let position := t.grid.cursor.position
  let minRow := if t.modes.origin then t.scrollRegion.start else 0
  let maxRow := if t.modes.origin then t.scrollRegion.stop - 1 else t.grid.screenRows - 1
  ensure (minRow ≤ maxRow) .panic
  setCursor
    { position :=
        ⟨clampInt 0 (t.grid.columns - 1) (position.column + columnDelta),
          clampInt minRow maxRow (position.row + rowDelta)⟩ }

def setColumn (column : Nat) : TerminalM Unit := do
  let t ← get
  setCursor (t.grid.cursor.unwrapped.atColumn (min column (t.grid.columns - 1)))

def setRow (row : Nat) : TerminalM Unit := do
  let t ← get
  let base := if t.modes.origin then t.scrollRegion.start else 0
  let last := if t.modes.origin then t.scrollRegion.stop - 1 else t.grid.screenRows - 1
  setCursor { position := ⟨t.grid.cursor.position.column, min (base + row) last⟩ }

def setPosition (params : Params) : TerminalM Unit := do
  setRow ((params.get 0).valueOr 1 true - 1)
  setColumn ((params.get 1).valueOr 1 true - 1)

/-! ## Erasing -/

def eraseLine (mode : Nat) : TerminalM Unit := do
  clearDeferredWrap false
  let t ← get
  let position := t.grid.cursor.position
  let columns := t.grid.columns
  let erase := fun (start stop : Nat) => do
    overwriteImageCells ⟨position.row, position.row + 1, start, stop⟩
    onRow position.row (Row.erase start stop t.background)
  if mode = 0 then erase position.column columns
  else if mode = 1 then erase 0 (position.column + 1)
  else if mode = 2 then erase 0 columns

/-- Erases whole screen rows. -/
def eraseRows (rows : List Nat) (background : Color) : TerminalM Unit :=
  rows.forM fun row => onRow row (modify (Row.eraseAll background))

/-- Removes the explicitly deleted placements that show on the screen. -/
def removeVisiblePlacements : TerminalM Unit := do
  let t ← get
  let visible ← fromResult t.grid.screenRowIds
  let ordered := t.grid.orderedRetainedRowIds
  let targets := (t.images.placements t.active).filter fun placement =>
    placement.erasePolicy = .explicitDelete && placementIntersectsRows placement ordered visible
  targets.forM fun placement => do
    let _ ← onImages (ImagePlane.removePlacement t.active placement.id)

def eraseDisplay (mode : Nat) : TerminalM Unit := do
  clearDeferredWrap false
  let t ← get
  let row := t.grid.cursor.position.row
  let column := t.grid.cursor.position.column
  let columns := t.grid.columns
  let rows := t.grid.screenRows
  if mode = 0 then
    overwriteImageCells ⟨row, row + 1, column, columns⟩
    overwriteImageCells ⟨row + 1, rows, 0, columns⟩
    onRow row (Row.erase column columns t.background)
    eraseRows (List.range' (row + 1) (rows - (row + 1))) t.background
  else if mode = 1 then
    overwriteImageCells ⟨0, row, 0, columns⟩
    overwriteImageCells ⟨row, row + 1, 0, column + 1⟩
    eraseRows (List.range row) t.background
    onRow row (Row.erase 0 (column + 1) t.background)
  else if mode = 2 then
    overwriteImageCells ⟨0, rows, 0, columns⟩
    removeVisiblePlacements
    eraseRows (List.range rows) t.background
  else if mode = 3 then onGrid (modify Grid.clearScrollback)

/-- Inserting and deleting cells: both cut images to the right edge first. -/
def shiftCharacters (shift : Nat → Nat → Color → RowM Unit) (param : Param) : TerminalM Unit := do
  clearDeferredWrap false
  let t ← get
  let position := t.grid.cursor.position
  overwriteImageCells ⟨position.row, position.row + 1, position.column, t.grid.columns⟩
  onRow position.row (shift position.column param.count t.background)

def insertCharacters (param : Param) : TerminalM Unit := shiftCharacters Row.insertCells param

def deleteCharacters (param : Param) : TerminalM Unit := shiftCharacters Row.deleteCells param

def eraseCharacters (param : Param) : TerminalM Unit := do
  clearDeferredWrap false
  let t ← get
  let position := t.grid.cursor.position
  let stop := min (position.column + param.count) t.grid.columns
  overwriteImageCells ⟨position.row, position.row + 1, position.column, stop⟩
  onRow position.row (Row.erase position.column stop t.background)

/-! ## Lines and the scroll region -/

/-- Inserting and deleting lines scroll the part of the region below the cursor. -/
def shiftLines (direction : ScrollDirection) (param : Param) : TerminalM Unit := do
  clearDeferredWrap true
  let t ← get
  let row := t.grid.cursor.position.row
  whenever (t.scrollRegion.start ≤ row ∧ row < t.scrollRegion.stop) do
    let region ← ScrollRegion.new row t.scrollRegion.stop
    scrollGrid direction region (min param.count (region.stop - region.start)) t.background

def insertLines (param : Param) : TerminalM Unit := shiftLines .reverse param

def deleteLines (param : Param) : TerminalM Unit := shiftLines .forward param

def scrollLines (direction : ScrollDirection) (param : Param) : TerminalM Unit := do
  let t ← get
  let height := t.scrollRegion.stop - t.scrollRegion.start
  scrollGrid direction t.scrollRegion (min param.count height) t.background

def setScrollRegion (params : Params) : TerminalM Unit := do
  let t ← get
  let rows := t.grid.screenRows
  let start := min ((params.get 0).valueOr 1 true - 1) (rows - 1)
  let stop := min ((params.get 1).valueOr rows true) rows
  whenever (start + 1 < stop) do
    let region ← ScrollRegion.new start stop
    set { t with scrollRegion := region }
    setCursor { position := ⟨0, if t.modes.origin then start else 0⟩ }

/-! ## Saved state -/

def saveCursor : TerminalM Unit := do
  let t ← get
  onGrid (Grid.setSavedCursor t.grid.cursor)
  modify fun t => { t with savedAttributes := t.attributes }

def restoreCursor : TerminalM Unit := do
  let t ← get
  setCursor t.grid.savedCursor
  modify fun t => { t with attributes := t.savedAttributes }

end Terminal

end Splinterm.Terminal
