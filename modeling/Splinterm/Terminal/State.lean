import Splinterm.Terminal.ImagePlane
import Splinterm.Terminal.Reflow
import Splinterm.Terminal.Sixel

/-!
# Terminal state

The terminal coordinator's state: two grids, the parser, modes, the image plane
and the transfers in flight. An update that is committed leaves the state through
`outbox`; the bounded history the source keeps for replay is rebuilt from it by
the caller, since nothing in a transition reads it.
-/

namespace Splinterm.Terminal

set_option linter.dupNamespace false

open Lib Hoare

structure SixelConfig where
  enabled : Bool := true
  privatePalette : Bool := true
  palette : List Nat :=
    [0xff000000, 0xff3333cc, 0xffcc2121, 0xff33cc33, 0xffcc33cc, 0xff33cccc, 0xffcccc33,
     0xff878787, 0xff424242, 0xff545499, 0xff994242, 0xff549954, 0xff995499, 0xff549999, 0xff999954, 0xffcccccc]

structure TerminalConfig where
  scrollbackLines : Nat := 1000
  tabWidth : Nat := 8
  oscLimit : Nat := 4096
  dcsLimit : Nat := 4096
  composedLimit : Nat := 4096
  eventLimit : Nat := 1024
  updateHistoryLimit : Nat := 256
  imageLimits : ImageLimits := {}
  sharedImageBudget : Option SharedBudget := none
  sharedKittyUploadBudget : Option SharedBudget := none
  sixel : SixelConfig := {}

inductive MouseTracking where
  | none
  | normal
  | button
  | any
deriving DecidableEq

structure TerminalModes where
  insert : Bool := false
  origin : Bool := false
  autoMargin : Bool := true
  reverseWrap : Bool := false
  applicationCursor : Bool := false
  applicationKeypad : Bool := false
  reverseVideo : Bool := false
  cursorVisible : Bool := true
  cursorBlink : Bool := true
  focusReporting : Bool := false
  bracketedPaste : Bool := false
  mouseTracking : MouseTracking := .none
  sgrMouse : Bool := false
deriving DecidableEq

/-! ## Composed characters -/

structure ComposedEntry where
  chars : List Char
  width : Nat
deriving DecidableEq

/-- Interned character sequences; a key is the position of its entry. -/
structure ComposedTable where
  entries : List ComposedEntry := []
  limit : Nat

namespace ComposedTable

/-- The width of a sequence: that of its first character, at least one. -/
def sequenceWidth (charWidth : Char → Option Nat) (chars : List Char) : Nat :=
  max ((chars.head?.bind charWidth).getD 0) 1

def intern (charWidth : Char → Option Nat) (chars : List Char) (table : ComposedTable) : Option Nat × ComposedTable :=
  match table.entries.findIdx? (·.chars = chars) with
  | some key => (some key, table)
  | none =>
    if table.limit ≤ table.entries.length ∨ composedKeyMax < table.entries.length then (none, table)
    else
      (some table.entries.length,
        { table with
          entries := table.entries ++ [{ chars, width := sequenceWidth charWidth chars }] })

def chars (table : ComposedTable) (key : Nat) : Option (List Char) :=
  table.entries[key]?.map (·.chars)

def width (table : ComposedTable) (key : Nat) : Nat := (table.entries[key]?.map (·.width)).getD 1

end ComposedTable

/-! ## Transfers in flight -/

/-- Bytes an encoded transfer holds of the upload budget, once it asked. -/
structure ItermTransfer where
  metadata : List UInt8
  metadataTruncated : Bool
  encoded : List UInt8 := []
  payloadTooBig : Bool := false
  payloadNoSpace : Bool := false
  reservation : Option Nat := none

structure KittyChunk where
  control : List UInt8
  controlTruncated : Bool
  encoded : List UInt8 := []
  encodedLimit : Nat
  payloadTooBig : Bool := false
  payloadNoSpace : Bool := false
  reservation : Option Nat := none

structure KittyUpload where
  command : Kitty.Command
  decodedChunks : List UInt8
  encodedBytes : Nat
  reservations : List Nat

/-- Application image ids of each screen. -/
structure KittyImageIds where
  normal : OrdMap Nat Nat := .empty
  alternate : OrdMap Nat Nat := .empty

namespace KittyImageIds

variable (ids : KittyImageIds) (screen : ActiveScreen)

def map : ActiveScreen → OrdMap Nat Nat
  | .normal => ids.normal
  | .alternate => ids.alternate

def setMap (m : OrdMap Nat Nat) : KittyImageIds :=
  match screen with
  | .normal => { ids with normal := m }
  | .alternate => { ids with alternate := m }

def get (id : Nat) : Option Nat :=
  (ids.map screen).get? id

def insert (id content : Nat) : KittyImageIds :=
  ids.setMap screen ((ids.map screen).insert id content)

def remove (id : Nat) : KittyImageIds :=
  ids.setMap screen ((ids.map screen).erase id)

def clear : KittyImageIds :=
  ids.setMap screen .empty

end KittyImageIds

inductive SixelPaletteMode where
  | privatePalette
  | shared
deriving DecidableEq

/-- Known cell geometry. A zero extent means the geometry is unknown, so a value of
this type can be divided by. -/
structure CellPixels where
  width : Nat
  height : Nat
  width_pos : 0 < width
  height_pos : 0 < height

def CellPixels.size (cell : CellPixels) : PixelSize := ⟨cell.width, cell.height⟩

/-! ## The terminal -/

structure Terminal where
  normal : Grid
  alternate : Grid
  active : ActiveScreen := .normal
  parser : Parser
  config : TerminalConfig
  attributes : Attributes := {}
  savedAttributes : Attributes := {}
  scrollRegion : ScrollRegion
  modes : TerminalModes := {}
  synchronizedUpdates : Bool := false
  synchronizedChange : ChangeSet := {}
  tabStops : List Bool
  composed : ComposedTable
  images : ImagePlane
  sixelDecoder : Option SixelDecoder := none
  kittyChunk : Option KittyChunk := none
  kittyUpload : Option KittyUpload := none
  itermTransfer : Option ItermTransfer := none
  uploadAdmissions : Nat := 0
  kittyImageIds : KittyImageIds := {}
  cellPixels : Option CellPixels := none
  sixelScrolling : Bool := true
  sixelCursorRight : Bool := false
  sixelPaletteMode : SixelPaletteMode
  sixelSharedPalette : List Nat
  sixelPaletteSize : Nat := maxSixelColors
  sixelMaximumWidth : Nat
  sixelMaximumHeight : Nat
  title : List UInt8 := []
  palette : List Nat
  initialPalette : List Nat
  defaultColors : List Nat
  initialDefaultColors : List Nat
  events : List TerminalEvent := []
  eventOverflowed : Bool := false
  revision : Nat := 0
  outbox : List TerminalUpdate := []
  currentChange : Option ChangeSet := none

abbrev TerminalM := EStateM Fault Terminal

def cubeComponent (part : Nat) : Nat := if part = 0 then 0 else 55 + part * 40

def defaultPalette : List Nat :=
  [0x000000, 0x800000, 0x008000, 0x808000, 0x000080, 0x800080, 0x008080, 0xc0c0c0,
   0x808080, 0xff0000, 0x00ff00, 0xffff00, 0x0000ff, 0xff00ff, 0x00ffff, 0xffffff]
  ++ (List.range 216).map (fun value =>
    cubeComponent (value / 36) * 2 ^ 16 + cubeComponent (value / 6 % 6) * 2 ^ 8
      + cubeComponent (value % 6))
  ++ (List.range 24).map fun offset => (8 + offset * 10) * 2 ^ 16 + (8 + offset * 10) * 2 ^ 8 + (8 + offset * 10)

/-- Encoded Kitty bytes in flight a daemon admits by default. -/
def defaultKittyUploadBytesPerDaemon : Nat := 16777216

def defaultTabStops (tabWidth columns : Nat) : List Bool :=
  (List.range columns).map fun column => decide (0 < column ∧ column % tabWidth = 0)

namespace Terminal

def normalCapacity (config : TerminalConfig) (rows : Nat) : Except Fault Nat := do
  let requested := max (min (config.scrollbackLines + rows) (2 ^ 64 - 1)) rows
  let capacity ← checkedNextPowerOfTwo requested
  pure (min capacity (2 ^ 30))

def alternateCapacity (rows : Nat) : Except Fault Nat := do
  let capacity ← checkedNextPowerOfTwo rows
  pure (min capacity (2 ^ 30))

/-- `Terminal::new`; its assertions are the faults. -/
def new (columns rows : Nat) (config : TerminalConfig) : Except Fault Terminal := do
  rejectIf (¬ (0 < columns ∧ 0 < rows)) .panic
  let normalCapacity ← normalCapacity config rows
  rejectIf (normalCapacity < rows) .panic
  let alternateCapacity ← alternateCapacity rows
  rejectIf (alternateCapacity < rows) .panic
  rejectIf (config.tabWidth = 0) .panic
  rejectIf (config.eventLimit = 0) .panic
  rejectIf (config.updateHistoryLimit = 0) .panic
  let normal ← Grid.withScreenSize normalCapacity columns rows
  let alternate ← Grid.withScreenSize alternateCapacity columns rows
  pure
    { normal
      alternate
      parser := { oscLimit := config.oscLimit, dcsLimit := config.dcsLimit }
      config
      scrollRegion := ⟨0, rows, Nat.zero_le rows⟩
      tabStops := defaultTabStops config.tabWidth columns
      composed := { limit := config.composedLimit }
      images := ImagePlane.new config.imageLimits config.sharedImageBudget
      sixelPaletteMode := if config.sixel.privatePalette then .privatePalette else .shared
      sixelSharedPalette := sixelPalette config.sixel.palette
      sixelMaximumWidth := config.imageLimits.maximumDimension
      sixelMaximumHeight := config.imageLimits.maximumDimension
      palette := defaultPalette
      initialPalette := defaultPalette
      defaultColors := [0xffffff, 0x000000, 0xffffff]
      initialDefaultColors := [0xffffff, 0x000000, 0xffffff] }

def grid (t : Terminal) : Grid :=
  match t.active with
  | .normal => t.normal
  | .alternate => t.alternate

def setGrid (g : Grid) (t : Terminal) : Terminal :=
  match t.active with
  | .normal => { t with normal := g }
  | .alternate => { t with alternate := g }

/-- `grid_mut()` followed by a grid operation. -/
def onGrid {α : Type} (m : GridM α) : TerminalM α := zoom grid setGrid m

/-- A plane operation whose rejection the caller inspects. -/
def onImages {α : Type} (m : PlaneM α) : TerminalM (Except ImageError α) := fun t =>
  match m t.images with
  | .ok a images => .ok (.ok a) { t with images }
  | .error (.rejected e) images => .ok (.error e) { t with images }
  | .error (.fault f) images => .error f { t with images }

/-- A plane operation without a rejection path. -/
def onPlane {α : Type} (m : PlaneM α) : TerminalM α := do
  match ← onImages m with
  | .ok a => pure a
  | .error _ => throw .panic

/-- `current_change.as_mut().expect(..).push(..)`. -/
def pushDamage (damage : TerminalDamage) : TerminalM Unit := do
  let t ← get
  let change ← okOr .panic t.currentChange
  set { t with currentChange := some (change.push damage) }

/-- The events a full queue leaves behind: its last entry says so. -/
def overflowed (events : List TerminalEvent) : List TerminalEvent :=
  if events = [] then [] else events.dropLast ++ [.eventQueueOverflow]

def appendEvent (event : TerminalEvent) (change : ChangeSet) : ChangeSet :=
  { change with events := change.events ++ [event] }

def pushEvent (event : TerminalEvent) (t : Terminal) : Terminal :=
  let t := { t with currentChange := t.currentChange.map (appendEvent event) }
  if t.events.length < t.config.eventLimit then { t with events := t.events ++ [event] }
  else if t.eventOverflowed = false then
    { t with
      eventOverflowed := true
      events := overflowed t.events
      currentChange := t.currentChange.map (appendEvent .eventQueueOverflow) }
  else t

def emit (event : TerminalEvent) : TerminalM Unit := modify (pushEvent event)

def resetTabStops (columns : Nat) (t : Terminal) : Terminal :=
  { t with tabStops := defaultTabStops t.config.tabWidth columns }

def setCellPixelSize (width height : Nat) (t : Terminal) : Terminal :=
  { t with
    cellPixels :=
      if h : 0 < width ∧ 0 < height then some ⟨width, height, h.1, h.2⟩ else none }

def drainEvents (t : Terminal) : Terminal := { t with events := [], eventOverflowed := false }

def pruneActiveImageAnchors : TerminalM Unit := do
  let t ← get
  whenever (t.images.hasPlacements t.active = true)
    (onPlane (ImagePlane.retainAnchors t.active t.grid.retainedRowIds))

/-- Text written over a rectangle of the screen cuts the images under it. -/
def overwriteImageCells (rect : CellRect) : TerminalM Unit := do
  let t ← get
  whenever (t.images.hasPlacements t.active = true) do
    let rowIds ← fromResult t.grid.screenRowIds
    let changed ← onPlane (ImagePlane.removeTextOverlaps t.active rowIds rect)
    whenever (changed = true) (pushDamage (.images t.active))

/-- Scrolls the active grid; rows of the normal screen that become history take
the images anchored to them along. -/
def scrollGrid (direction : ScrollDirection) (region : ScrollRegion) (rows : Nat)
    (background : Color) : TerminalM Unit := do
  let t ← get
  if t.active = .normal ∧ t.images.hasPlacements .normal = true then
    let before ← fromResult t.grid.screenRowIds
    onGrid (Grid.scroll direction region rows background)
    whenever (direction = .forward ∧ region.start = 0 ∧ region.stop = before.length ∧ 0 < rows) do
      let t ← get
      let history := t.normal.newestScrollbackRowIds rows
      let changed ← onPlane
        (ImagePlane.remapAnchors .normal (Grid.mapOf ((before.take rows).zip history)))
      whenever (changed = true) (pushDamage (.images .normal))
  else onGrid (Grid.scroll direction region rows background)

end Terminal

end Splinterm.Terminal
