import Mathlib.Data.List.Sort
import Splinterm.Terminal.Change

/-!
# Image contents and placements

The data of the image plane: bounded contents with their pixels, placements
anchored to stable row identities, the accounting of both, and the checks a
content or a placement has to pass.
-/

namespace Splinterm.Terminal

open Lib Hoare

inductive ImageSourceFormat where
  | sixel
  | kittyRgb
  | kittyRgba
  | kittyPng
  | iterm2

inductive ImageAlphaMode where
  | opaqueAlpha
  | premultiplied

inductive ImageRetention where
  | whilePlaced
  | explicitDelete
deriving DecidableEq

inductive ImageErasePolicy where
  | textOverwrite
  | explicitDelete
deriving DecidableEq

structure PixelRect where
  x : Nat
  y : Nat
  width : Nat
  height : Nat
deriving DecidableEq

structure CellExtent where
  columns : Nat
  rows : Nat
deriving DecidableEq

structure PixelSize where
  width : Nat
  height : Nat
deriving DecidableEq

structure ImageContentMetadata where
  id : Nat
  generation : Nat
  width : Nat
  height : Nat
  sourceFormat : ImageSourceFormat
  alphaMode : ImageAlphaMode
  digest : List UInt8
  byteCharge : Nat
  retention : ImageRetention

structure ImageContent where
  metadata : ImageContentMetadata
  pixels : List UInt8

structure ImagePlacement where
  id : Nat
  contentId : Nat
  screen : ActiveScreen
  rowId : Nat
  column : Nat
  source : PixelRect
  destination : CellExtent
  sourceCellSize : Option PixelSize
  xOffset : Int
  yOffset : Int
  zIndex : Int
  applicationImageId : Option Nat
  applicationPlacementId : Option Nat
  creationOrder : Nat
  erasePolicy : ImageErasePolicy
deriving DecidableEq

structure NewImageContent where
  width : Nat
  height : Nat
  sourceFormat : ImageSourceFormat
  alphaMode : ImageAlphaMode
  pixels : List UInt8
  retention : ImageRetention

structure NewImagePlacementOptions where
  column : Nat
  source : PixelRect
  destination : CellExtent
  sourceCellSize : Option PixelSize
  xOffset : Int
  yOffset : Int
  zIndex : Int
  applicationImageId : Option Nat
  applicationPlacementId : Option Nat
  erasePolicy : ImageErasePolicy

structure NewImagePlacement extends NewImagePlacementOptions where
  contentId : Nat
  rowId : Nat

def NewImagePlacementOptions.bind (options : NewImagePlacementOptions) (contentId rowId : Nat) : NewImagePlacement :=
  { options with contentId, rowId }

def NewImagePlacement.store (screen : ActiveScreen) (id creationOrder : Nat) (input : NewImagePlacement) :
    ImagePlacement :=
  { input with id, screen, creationOrder }

structure ImageLimits where
  bytesPerContent : Nat := 16777216
  bytesPerTerminal : Nat := 33554432
  contentsPerTerminal : Nat := 64
  placementsPerTerminal : Nat := 256
  maximumDimension : Nat := 4096
  maximumPixels : Nat := 4194304

structure ImageMetrics where
  contentBytes : Nat := 0
  contentCount : Nat := 0
  placementCount : Nat := 0
  highWaterContentBytes : Nat := 0
  highWaterContentCount : Nat := 0
  highWaterPlacementCount : Nat := 0
deriving DecidableEq

inductive ImageError where
  | dimensions
  | pixelLength
  | contentBytes
  | terminalBytes
  | daemonBytes
  | contentCount
  | placementCount
  | unknownContent
  | unknownPlacement
  | invalidAnchor
  | invalidCrop
  | invalidDestination
  | identityExhausted

/-- A byte budget shared with other terminals. `others n` is what they hold when
this terminal asks for the `n`-th time, so every interleaving with them is one
such function. -/
structure SharedBudget where
  limit : Nat
  others : Nat → Nat

structure ImageCatalog where
  contents : OrdMap Nat ImageContent := .empty
  reservations : OrdMap Nat Nat := .empty
  placements : OrdMap Nat ImagePlacement := .empty

structure ImagePlane where
  normal : ImageCatalog := {}
  alternate : ImageCatalog := {}
  limits : ImageLimits
  sharedBudget : Option SharedBudget
  admissions : Nat := 0
  metrics : ImageMetrics := {}
  nextContentId : Nat := 1
  nextPlacementId : Nat := 1
  nextGeneration : Nat := 1
  nextCreationOrder : Nat := 1

/-- A plane operation stops with a rejection the caller handles, or with a fault. -/
inductive ImageStop where
  | rejected (error : ImageError)
  | fault (fault : Fault)

abbrev PlaneM := EStateM ImageStop ImagePlane

/-! ## Checks -/

/-- The byte length of an admissible image. -/
def validateContentGeometry (limits : ImageLimits) (width height : Nat) : Except ImageError Nat := do
  rejectIf (width = 0 ∨ height = 0 ∨ limits.maximumDimension < width ∨ limits.maximumDimension < height) .dimensions
  rejectIf (limits.maximumPixels < width * height) .dimensions
  rejectIf (2 ^ 64 ≤ width * height * 4) .pixelLength
  rejectIf (limits.bytesPerContent < width * height * 4) .contentBytes
  pure (width * height * 4)

def validateContent (limits : ImageLimits) (input : NewImageContent) : Except ImageError Nat := do
  let expected ← validateContentGeometry limits input.width input.height
  rejectIf (input.pixels.length ≠ expected) .pixelLength
  pure expected

def validateCrop (crop : PixelRect) (width height : Nat) : Except ImageError Unit :=
  rejectIf (crop.width = 0 ∨ crop.height = 0 ∨ width < crop.x + crop.width ∨ height < crop.y + crop.height) .invalidCrop

def validateSourceCellSize (cellSize : Option PixelSize) : Except ImageError Unit :=
  match cellSize with
  | some size => rejectIf (size.width = 0 ∨ size.height = 0) .invalidDestination
  | none => .ok ()

/-- A 32-bit checked product. -/
def checkedMul32 (a b : Nat) : Option Nat :=
  if a < 2 ^ 32 ∧ a * b < 2 ^ 32 then some (a * b) else none

def orReject {α : Type} (error : ImageError) : Option α → Except ImageError α
  | some a => .ok a
  | none => .error error

/-- The source fills the destination cells up to less than one cell in each
direction. -/
def validateSixelSourceCellSize (source : PixelRect) (destination : CellExtent)
    (cellSize : Option PixelSize) : Except ImageError Unit :=
  match cellSize with
  | none => .ok ()
  | some size => do
    rejectIf (size.width = 0 ∨ size.height = 0) .invalidDestination
    rejectIf (2 ^ 32 ≤ destination.columns ∨ 2 ^ 32 ≤ destination.rows) .invalidDestination
    let maximumWidth ← orReject .invalidDestination (checkedMul32 destination.columns size.width)
    let maximumHeight ← orReject .invalidDestination (checkedMul32 destination.rows size.height)
    rejectIf (maximumWidth < source.width ∨ maximumHeight < source.height
      ∨ source.width ≤ (destination.columns - 1) * size.width
      ∨ source.height ≤ (destination.rows - 1) * size.height) .invalidDestination

/-! ## Geometry of text overwrites -/

/-- Where an identity stands in a row order, the last occurrence winning. -/
def rowPosition (rowOrder : List Nat) (id : Nat) : Option Nat :=
  (rowOrder.zipIdx.foldl (fun found (candidate, index) =>
    if candidate = id then some index else found) none)

/-- A rectangle of cells, rows counted in a row order. -/
structure CellRect where
  startRow : Nat
  endRow : Nat
  startColumn : Nat
  endColumn : Nat

/-- One remaining piece of a placement after a rectangle was cut out of it. -/
def placementFragment (placement : ImagePlacement) (cellSize : PixelSize) (anchorRow : Nat)
    (rowOrder : List Nat) (x y columns rows : Nat) : Except ImageError (List NewImagePlacement) :=
  if columns = 0 ∨ rows = 0 then .ok []
  else do
    let clip := fun (cells size bound : Nat) => orReject .invalidCrop ((checkedMul32 cells size).map (min · bound))
    let pixelX ← clip x cellSize.width placement.source.width
    let pixelY ← clip y cellSize.height placement.source.height
    let pixelEndX ← clip (x + columns) cellSize.width placement.source.width
    let pixelEndY ← clip (y + rows) cellSize.height placement.source.height
    rejectIf (pixelEndX ≤ pixelX) .invalidCrop
    rejectIf (pixelEndY ≤ pixelY) .invalidCrop
    let rowId ← orReject .invalidAnchor (rowOrder[anchorRow + y]?)
    rejectIf (2 ^ 32 ≤ placement.source.x + pixelX ∨ 2 ^ 32 ≤ placement.source.y + pixelY)
      .invalidCrop
    pure [{ contentId := placement.contentId
            rowId
            column := placement.column + x
            source :=
              { x := placement.source.x + pixelX
                y := placement.source.y + pixelY
                width := pixelEndX - pixelX
                height := pixelEndY - pixelY }
            destination := { columns, rows }
            sourceCellSize := placement.sourceCellSize
            xOffset := if x = 0 then placement.xOffset else 0
            yOffset := if y = 0 then placement.yOffset else 0
            zIndex := placement.zIndex
            applicationImageId := placement.applicationImageId
            applicationPlacementId := placement.applicationPlacementId
            erasePolicy := placement.erasePolicy }]

/-- The pieces above, below, left and right of the rectangle. -/
def placementFragments (placement : ImagePlacement) (anchorRow : Nat) (rowOrder : List Nat)
    (rect : CellRect) : Except ImageError (List NewImagePlacement) :=
  match placement.sourceCellSize with
  | none => .ok []
  | some cellSize => do
    rejectIf (cellSize.width = 0 ∨ cellSize.height = 0) .invalidDestination
    let columns := placement.destination.columns
    let rows := placement.destination.rows
    let left := min (rect.startColumn - placement.column) columns
    let right := max (min (rect.endColumn - placement.column) columns) left
    let top := min (rect.startRow - anchorRow) rows
    let bottom := max (min (rect.endRow - anchorRow) rows) top
    let fragment := placementFragment placement cellSize anchorRow rowOrder
    let above ← fragment 0 0 columns top
    let below ← fragment 0 bottom columns (rows - bottom)
    let before ← fragment 0 top left (bottom - top)
    let after ← fragment right top (columns - right) (bottom - top)
    pure (above ++ below ++ before ++ after)

def placementsOverlap (rowOrder : List Nat) (left right : ImagePlacement) : Bool :=
  match rowPosition rowOrder left.rowId, rowPosition rowOrder right.rowId with
  | some leftRow, some rightRow =>
    decide (leftRow < rightRow + right.destination.rows)
      && decide (rightRow < leftRow + left.destination.rows)
      && decide (left.column < right.column + right.destination.columns)
      && decide (right.column < left.column + left.destination.columns)
  | _, _ => false

/-! ## Pixels -/

/-- `composite_bgra` on one channel: the source over what is there. -/
def compositeChannel (destination source alpha : UInt8) : UInt8 :=
  UInt8.ofNat (min (source.toNat + (destination.toNat * (255 - alpha.toNat) + 127) / 255) 255)

/-- Four bytes at `index`, or a fault when they are not all there. -/
def pixelAt (pixels : List UInt8) (index : Nat) : Except Fault (List UInt8) :=
  if index + 4 ≤ pixels.length then .ok ((pixels.drop index).take 4) else .error .panic

def setPixel (pixels : List UInt8) (index : Nat) (pixel : List UInt8) : List UInt8 :=
  pixels.take index ++ pixel ++ pixels.drop (index + 4)

def compositePixel (destination source : List UInt8) : List UInt8 :=
  List.zipWith (fun d s => compositeChannel d s (source.getD 3 0)) destination source

end Splinterm.Terminal
