import Splinterm.Lib.RingBuffer
import Splinterm.Lib.OrdMap
import Splinterm.Terminal.Row

/-!
# Grids

Circular row storage for the screen and its history. Position zero is the top of
the live screen; negative positions are history, newest first, and everything is
read modulo the capacity. Row numbers and columns are natural numbers: every
write of the source clamps them at zero, and the capacity and column bounds that
`Grid.new` asserts keep them inside the signed 32-bit range.
-/

namespace Splinterm.Terminal

open Lib Hoare

structure Coordinate where
  column : Nat
  row : Nat
deriving DecidableEq

structure Cursor where
  position : Coordinate := ⟨0, 0⟩
  deferredWrap : Bool := false
deriving DecidableEq

/-- Half-open range of screen rows. -/
structure ScrollRegion where
  start : Nat
  stop : Nat
  ordered : start ≤ stop
deriving DecidableEq

def ScrollRegion.new {σ : Type} (start stop : Nat) : EStateM Fault σ ScrollRegion :=
  if h : start ≤ stop then pure ⟨start, stop, h⟩ else throw .panic

inductive ScrollDirection where
  | forward
  | reverse
deriving DecidableEq

/-- A physical slot: its row when allocated, and the row's stable identity. -/
structure Slot where
  row : Option Row := none
  id : Nat := 0
deriving DecidableEq

structure Grid where
  slots : RingBuffer Slot
  columns : Nat
  offset : Nat
  view : Nat
  screenRows : Nat
  cursor : Cursor
  savedCursor : Cursor
  generation : Nat
  nextRowId : Nat
  historyGeneration : Nat

abbrev GridM := EStateM Fault Grid

def isPowerOfTwo (n : Nat) : Bool := decide (n = 2 ^ n.log2 ∧ 0 < n)

/-- The least power of two that is at least `n`. -/
def nextPowerOfTwo (n : Nat) : Nat := if n ≤ 1 then 1 else 2 ^ ((n - 1).log2 + 1)

/-- `usize::checked_next_power_of_two(..).expect(..)`. -/
def checkedNextPowerOfTwo (n : Nat) : Except Fault Nat :=
  if nextPowerOfTwo n < 2 ^ 64 then .ok (nextPowerOfTwo n) else .error .panic

namespace Grid

variable (g : Grid)

def rowCapacity : Nat := g.slots.size

/-- The physical slot of an offset-relative row. -/
def absoluteIndex (row : Int) : Nat := g.slots.index (g.offset + row)

def slot (row : Int) : Slot := g.slots.get (g.offset + row)

def setSlot (row : Int) (slot : Slot) : Grid :=
  { g with slots := g.slots.set (g.offset + row) slot }

def row (row : Int) : Option Row := (g.slot row).row

def rowId (row : Int) : Option Nat := (g.slot row).row.map fun _ => (g.slot row).id

/-- Empty row slots. -/
def new (rowCapacity columns : Nat) : Except Fault Grid :=
  if h : 0 < rowCapacity then do
    rejectIf (isPowerOfTwo rowCapacity = false) .panic
    rejectIf (columns = 0) .panic
    rejectIf (2 ^ 31 ≤ columns) .panic
    rejectIf (2 ^ 30 < rowCapacity) .panic
    pure
      { slots := .replicate rowCapacity h {}
        columns
        offset := 0
        view := 0
        screenRows := 1
        cursor := {}
        savedCursor := {}
        generation := 0
        nextRowId := 1
        historyGeneration := 1 }
  else .error .panic

def bumpGeneration : Grid := { g with generation := g.generation + 1 }

def bumpHistoryGeneration : Grid :=
  { g with historyGeneration := g.historyGeneration + 1 }

/-- Gives the slot at `row` the next identity. -/
def assignNewRowId (row : Int) : Grid :=
  { g.setSlot row { g.slot row with id := g.nextRowId } with nextRowId := g.nextRowId + 1 }

/-- `row_or_allocate` followed by an edit of the row it returns. -/
def editOrAllocate (row : Int) (edit : Row → Row) : Grid :=
  let g := g.bumpGeneration
  match g.row row with
  | some r => g.setSlot row { g.slot row with row := some (edit r) }
  | none =>
    let g := (g.setSlot row { g.slot row with row := some (Row.new g.columns) }).assignNewRowId row
    g.setSlot row { g.slot row with row := some (edit (Row.new g.columns)) }

/-- A grid whose visible rows are all allocated. -/
def withScreenSize (rowCapacity columns screenRows : Nat) : Except Fault Grid := do
  let g ← Grid.new rowCapacity columns
  rejectIf (¬ (1 ≤ screenRows ∧ screenRows ≤ g.rowCapacity)) .panic
  let g := { g with screenRows }
  pure ((List.range screenRows).foldl (fun g (row : Nat) => g.editOrAllocate row id) g)

/-! ## Reading -/

/-- The oldest slot, in the coordinates of the live screen. -/
def scrollbackStart : Nat := g.absoluteIndex g.screenRows

/-- All slots, oldest history first, the bottom of the screen last. -/
def chronological : List Slot :=
  g.slots.window (g.offset + g.screenRows) g.rowCapacity

def Slot.identified (slot : Slot) : Option (Nat × Row) := slot.row.map fun row => (slot.id, row)

def retainedRowIds : List Nat :=
  g.slots.items.filterMap fun slot => slot.row.map fun _ => slot.id

def orderedRetainedRowIds : List Nat :=
  g.chronological.filterMap fun slot => slot.row.map fun _ => slot.id

/-- `screen_row_ids`, which expects every live-screen row to be allocated. -/
def screenRowIds : Except Fault (List Nat) :=
  (List.range g.screenRows).mapM fun row : Nat =>
    match g.rowId row with
    | some id => .ok id
    | none => .error .panic

def scrollbackRowsChronological : List (Nat × Row) :=
  (g.slots.window (g.offset + g.screenRows) (g.rowCapacity - g.screenRows)).filterMap
    Slot.identified

/-- The newest `maximumRows` history rows with the counts and identities of the
whole history. -/
structure ScrollbackRows where
  rows : List (Nat × Row)
  available : Nat
  omitted : Nat
  oldest : Option Nat
  newest : Option Nat

def snapshotScrollbackRows (maximumRows : Nat) : ScrollbackRows :=
  let rows := g.scrollbackRowsChronological
  let omitted := rows.length - maximumRows
  { rows := rows.drop omitted
    available := rows.length
    omitted
    oldest := rows.head?.map (·.1)
    newest := rows.getLast?.map (·.1) }

/-- One slot of the loop of `snapshotScrollbackPage`: the queue lets go of its oldest row. -/
def pageSlot (beforeRowId maximumRows : Nat) (queue : List (Nat × Row) × Bool) (slot : Slot) :
    List (Nat × Row) × Bool :=
  match Slot.identified slot with
  | none => queue
  | some (id, row) =>
    if beforeRowId ≤ id then queue
    else if queue.1.length = maximumRows then (queue.1.tail ++ [(id, row)], true)
    else (queue.1 ++ [(id, row)], queue.2)

/-- The newest `maximumRows` history rows with identities below `beforeRowId`, and whether
older ones were left out. -/
def snapshotScrollbackPage (beforeRowId maximumRows : Nat) : List (Nat × Row) × Bool :=
  if maximumRows = 0 then ([], false)
  else
    (g.slots.window (g.offset + g.screenRows) (g.rowCapacity - g.screenRows)).foldl
      (pageSlot beforeRowId maximumRows) ([], false)

/-- All allocated rows, the bottom of the screen first and the oldest history last. -/
def rowsReverse : List (Nat × Row) :=
  g.chronological.reverse.filterMap Slot.identified

def newestScrollbackRowIds (maximumRows : Nat) : List Nat :=
  (g.snapshotScrollbackRows maximumRows).rows.map (·.1)

def snapshotViewRows : List Row :=
  (g.slots.window g.view g.screenRows).filterMap (·.row)

/-! ## Cursors and rows -/

def OnScreen (cursor : Cursor) : Prop :=
  cursor.position.column < g.columns ∧ cursor.position.row < g.screenRows

instance (g : Grid) (cursor : Cursor) : Decidable (g.OnScreen cursor) :=
  inferInstanceAs (Decidable (_ ∧ _))

def setCursor (cursor : Cursor) : GridM Unit := do
  let g ← get
  ensure (g.OnScreen cursor) .panic
  whenever (g.cursor ≠ cursor) (set { g.bumpGeneration with cursor })

def setSavedCursor (cursor : Cursor) : GridM Unit := do
  let g ← get
  ensure (g.OnScreen cursor) .panic
  whenever (g.savedCursor ≠ cursor) (set { g.bumpGeneration with savedCursor := cursor })

/-- `row_mut(row).expect(..)` followed by an edit of the row. -/
def onRow {α : Type} (row : Int) (edit : RowM α) : GridM α := do
  let g ← get
  let r ← okOr .panic (g.row row)
  set g.bumpGeneration
  zoom (fun _ => r) (fun r g => g.setSlot row { g.slot row with row := some r }) edit

/-- Drops every row outside the visible screen. -/
def clearScrollback : Grid :=
  let visible := (List.range g.screenRows).map fun row : Nat => g.absoluteIndex row
  let hidden := fun (index : Nat) => !visible.contains index
  let hadHistory := g.slots.items.zipIdx.any fun (slot, index) => slot.row.isSome && hidden index
  if hadHistory then
    { g.bumpGeneration.bumpHistoryGeneration with
      slots := g.slots.mapIdx fun index slot => if hidden index then {} else slot
      view := g.offset }
  else g

/-- Clears every visible row and homes both cursors. -/
def resetVisible (background : Color) (g : Grid) : Grid :=
  let g := (List.range g.screenRows).foldl
    (fun g (row : Nat) => g.editOrAllocate row (Row.eraseAll background)) g
  { g with cursor := {}, savedCursor := {}, view := g.offset }

/-! ## Identities -/

def reidentifyAllocatedRow (row : Int) : Grid :=
  if (g.slot row).row.isSome then g.assignNewRowId row else g

/-- Fresh identities for every allocated row, oldest first. -/
def reidentifyAllocatedRowsChronologically : Grid :=
  (List.range g.rowCapacity).foldl
    (fun g (distance : Nat) => g.reidentifyAllocatedRow (g.screenRows + distance)) g

/-- Fresh identities for the newest history rows, oldest first. -/
def reidentifyNewestHistoryRows (count : Nat) : Grid :=
  let count := min count (g.rowCapacity - g.screenRows)
  (List.range count).foldl
    (fun g (distance : Nat) => g.reidentifyAllocatedRow ((distance : Int) - count)) g

/-- `history_namespace`: what a reset grid must not reuse. -/
def historyNamespace : Nat × Nat := (g.nextRowId, g.historyGeneration)

def continueHistoryNamespace (historySpace : Nat × Nat) (g : Grid) : Grid :=
  reidentifyAllocatedRowsChronologically
    { g with nextRowId := historySpace.1, historyGeneration := historySpace.2 + 1 }

/-! ## Scrolling -/

def swapRows (first second : Int) : Grid :=
  if g.absoluteIndex first = g.absoluteIndex second then g
  else
    { g.bumpGeneration with
      slots := g.slots.swap (g.offset + first) (g.offset + second) }

/-- Erases or allocates the row and gives it a new identity. -/
def recycleRow (background : Color) (g : Grid) (row : Int) : Grid :=
  let r := match g.row row with
    | some r => r.eraseAll background
    | none => (Row.new g.columns).eraseAll background
  (g.bumpGeneration.setSlot row { g.slot row with row := some r }).assignNewRowId row

def absoluteToScrollback (absoluteRow : Nat) : Nat :=
  g.slots.index ((absoluteRow : Int) - g.scrollbackStart)

/-- The view after a forward scroll that already moved the offset: it follows the
screen, or steps off the rows that were recycled under it. -/
def viewAfterForward (rows viewDistance : Nat) (following : Bool) : Nat :=
  if following then g.offset
  else if viewDistance < rows then
    let oldest := g.scrollbackStart
    let distanceToLive := g.slots.index ((g.offset : Int) - oldest)
    g.slots.index (oldest + min (rows - viewDistance) distanceToLive)
  else g.view

def scrollForwardCore (start stop rows : Nat) (background : Color) (g : Grid) : Grid :=
  let following := g.view == g.offset
  let viewDistance := g.absoluteToScrollback g.view
  let g := { g with offset := g.slots.index (g.offset + rows) }
  let g := { g with view := g.viewAfterForward rows viewDistance following }
  -- rows above and below the region go back to where they were, top row last
  let g := (List.range start).foldr (fun row g => g.swapRows ((row : Int) - rows) row) g
  let g := (List.range (g.screenRows - stop)).foldr
    (fun row g => g.swapRows (((stop + row : Nat) : Int) - rows) (stop + row : Nat)) g
  let g := (List.range rows).foldl (fun g row => g.recycleRow background (stop - rows + row : Nat)) g
  g.reidentifyNewestHistoryRows rows

def scrollReverseCore (start stop rows : Nat) (background : Color) (g : Grid) : Grid :=
  let following := g.view == g.offset
  let g := (List.range rows).foldl (fun g row => g.setSlot (stop - rows + row : Nat) {}) g
  let g : Grid := { g with offset := g.slots.index ((g.offset : Int) - rows) }
  let g : Grid :=
    if following = true ∨ g.absoluteToScrollback g.offset < g.absoluteToScrollback g.view
    then { g with view := g.offset } else g
  let g := (List.range (g.screenRows - stop)).foldl
    (fun g row => g.swapRows (stop + rows + row : Nat) (stop + row : Nat)) g
  let g := (List.range start).foldl (fun g row => g.swapRows (rows + row : Nat) row) g
  (List.range rows).foldl
    (fun g row => g.editOrAllocate (start + row : Nat) (Row.eraseAll background)) g

def scroll (direction : ScrollDirection) (region : ScrollRegion) (rows : Nat) (background : Color) : GridM Unit := do
  let g ← get
  ensure (region.start < region.stop ∧ region.stop ≤ g.screenRows) .panic
  ensure (rows ≤ region.stop - region.start) .panic
  whenever (0 < rows) do
    -- the coordinate conversions assert their inputs
    ensure (1 ≤ g.screenRows ∧ g.screenRows ≤ g.rowCapacity ∧ g.view < g.rowCapacity) .panic
    modify (match direction with
      | .forward => scrollForwardCore region.start region.stop rows background
      | .reverse => scrollReverseCore region.start region.stop rows background)

/-! ## Resizing without reflow -/

def resizedCursor (cursor : Cursor) (oldScreenRows newColumns newScreenRows : Nat) : Cursor :=
  let position := cursor.position
  { position :=
      { column := min position.column (newColumns - 1)
        row := if position.row = oldScreenRows - 1 then newScreenRows - 1
          else min position.row (newScreenRows - 1) } }

/-- The map a list of pairs describes, later pairs winning. -/
def mapOf (pairs : List (Nat × Nat)) : OrdMap Nat Nat :=
  pairs.foldl (fun m pair => m.insert pair.1 pair.2) OrdMap.empty

/-- Keeps the top of the screen, drops history, and says which new identity each
kept row received. -/
def resizeWithoutReflow (newRowCapacity newColumns newScreenRows : Nat) (g : Grid) :
    Except Fault (Grid × OrdMap Nat Nat) := do
  let resized ← Grid.new newRowCapacity newColumns
  rejectIf (¬ (1 ≤ newScreenRows ∧ newScreenRows ≤ resized.rowCapacity)) .panic
  let resized := { resized with screenRows := newScreenRows }
  let copiedRows := min g.screenRows newScreenRows
  let resized := (List.range newScreenRows).foldl
    (fun resized row =>
      let r :=
        if row < copiedRows then
          (((g.row row).getD (Row.newDirty g.columns)).resizeWithoutReflow newColumns).setLinebreak true
        else Row.newDirty newColumns
      resized.setSlot row { row := some r })
    resized
  let resized :=
    { resized with
      cursor := resizedCursor g.cursor g.screenRows newColumns newScreenRows
      savedCursor := resizedCursor g.savedCursor g.screenRows newColumns newScreenRows
      generation := g.generation + 1
      nextRowId := g.nextRowId
      historyGeneration := g.historyGeneration + 1 }
  let resized := resized.reidentifyAllocatedRowsChronologically
  pure (resized, mapOf ((List.range copiedRows).map fun row : Nat => ((g.slot row).id, (resized.slot row).id)))

end Grid

end Splinterm.Terminal
