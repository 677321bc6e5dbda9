import Splinterm.Terminal.Image

/-!
# The image plane

The operations that store, place, cut and reclaim images on the two screens. A
rejected operation stops with its error and the plane keeps what was done before
the rejection, as in the source; a counter that would go below zero, a missing
catalogue entry or a pixel index out of range is a fault.
-/

namespace Splinterm.Terminal.ImagePlane

open Lib Hoare

def new (limits : ImageLimits) (sharedBudget : Option SharedBudget) : ImagePlane :=
  { limits, sharedBudget }

variable (plane : ImagePlane) (screen : ActiveScreen) (rowOrder : List Nat)

def catalog : ActiveScreen → ImageCatalog
  | .normal => plane.normal
  | .alternate => plane.alternate

def setCatalog (catalog : ImageCatalog) : ImagePlane :=
  match screen with
  | .normal => { plane with normal := catalog }
  | .alternate => { plane with alternate := catalog }

/-- A checked computation of the source inside a plane operation. -/
def check {α : Type} (result : Except ImageError α) : PlaneM α :=
  match result with
  | .ok a => pure a
  | .error e => throw (.rejected e)

def rejectWhen (c : Prop) [Decidable c] (error : ImageError) : PlaneM Unit :=
  check (rejectIf c error)

/-- `checked_add(1)` fails on one of the counters. -/
def exhausted (counters : List Nat) : Bool := counters.any (2 ^ 64 - 1 ≤ ·)

def hasPlacements : Bool :=
  !(plane.catalog screen).placements.entries.isEmpty

def placements : List ImagePlacement :=
  (plane.catalog screen).placements.values

def content (id : Nat) : Option ImageContent :=
  (plane.catalog screen).contents.get? id

/-! ## Accounting -/

def updateHighWater : ImagePlane :=
  { plane with
    metrics :=
      { plane.metrics with
        highWaterContentBytes := max plane.metrics.highWaterContentBytes plane.metrics.contentBytes
        highWaterContentCount := max plane.metrics.highWaterContentCount plane.metrics.contentCount
        highWaterPlacementCount :=
          max plane.metrics.highWaterPlacementCount plane.metrics.placementCount } }

/-- Bytes this plane has reserved in the shared budget. -/
def reservedBytes : Nat :=
  plane.normal.reservations.values.sum + plane.alternate.reservations.values.sum

/-- Whether the shared budget admits `bytes` more; every question is answered
against what the other holders have at that moment. -/
def admits (bytes : Nat) : Bool :=
  match plane.sharedBudget with
  | none => true
  | some budget => decide (plane.reservedBytes + budget.others plane.admissions + bytes ≤ budget.limit)

def reserve (bytes : Nat) : PlaneM Unit := do
  let plane ← get
  set { plane with admissions := plane.admissions + 1 }
  rejectWhen (plane.admits bytes = false) .daemonBytes

def dropPlacement (id : Nat) : PlaneM Unit := do
  let plane ← get
  ensure (0 < plane.metrics.placementCount) (.fault .panic)
  let catalog := plane.catalog screen
  let plane := plane.setCatalog screen { catalog with placements := catalog.placements.erase id }
  set { plane with
    metrics := { plane.metrics with placementCount := plane.metrics.placementCount - 1 } }

def removeContentOnly (id : Nat) : PlaneM Unit := do
  let plane ← get
  let catalog := plane.catalog screen
  let content ← check (orReject .unknownContent (catalog.contents.get? id))
  ensure (content.metadata.byteCharge ≤ plane.metrics.contentBytes ∧ 0 < plane.metrics.contentCount)
    (.fault .panic)
  let plane := plane.setCatalog screen
    { catalog with
      contents := catalog.contents.erase id
      reservations := catalog.reservations.erase id }
  set { plane with
    metrics :=
      { plane.metrics with
        contentBytes := plane.metrics.contentBytes - content.metadata.byteCharge
        contentCount := plane.metrics.contentCount - 1 } }

def expecting {α : Type} (m : PlaneM α) : PlaneM α := fun plane =>
  match m plane with
  | .ok a plane => .ok a plane
  | .error (.rejected _) plane => .error (.fault .panic) plane
  | .error (.fault f) plane => .error (.fault f) plane

/-- Content kept only while placed, without a placement left. -/
def unplaced (catalog : ImageCatalog) : List Nat :=
  let referenced := catalog.placements.values.map (·.contentId)
  (catalog.contents.values.filter fun content =>
    content.metadata.retention = .whilePlaced && !referenced.contains content.metadata.id).map
    (·.metadata.id)

def reclaimScreen : PlaneM Unit := do
  let plane ← get
  (unplaced (plane.catalog screen)).forM fun id => expecting (removeContentOnly screen id)

def reclaimUnplacedWhilePlaced : PlaneM Unit := do
  reclaimScreen .normal
  reclaimScreen .alternate

/-! ## Contents -/

variable (sha256 : List UInt8 → List UInt8)

def makeContent (id generation expected : Nat) (input : NewImageContent) : ImageContent :=
  { metadata :=
      { id
        generation
        width := input.width
        height := input.height
        sourceFormat := input.sourceFormat
        alphaMode := input.alphaMode
        digest := sha256 input.pixels
        byteCharge := expected
        retention := input.retention }
    pixels := input.pixels }

/-- Stores one content under the limits of the terminal. -/
def insertContent (screen : ActiveScreen) (input : NewImageContent) : PlaneM Nat := do
  let plane ← get
  let expected ← check (validateContent plane.limits input)
  reclaimUnplacedWhilePlaced
  let plane ← get
  rejectWhen (plane.limits.contentsPerTerminal ≤ plane.metrics.contentCount) .contentCount
  let nextBytes := plane.metrics.contentBytes + expected
  rejectWhen (plane.limits.bytesPerTerminal < nextBytes) .terminalBytes
  rejectWhen (exhausted [plane.nextContentId, plane.nextGeneration]) .identityExhausted
  whenever (plane.sharedBudget.isSome = true) (reserve expected)
  let plane ← get
  let id := plane.nextContentId
  let catalog := plane.catalog screen
  let plane := plane.setCatalog screen
    { catalog with
      contents := catalog.contents.insert id
        (makeContent sha256 id plane.nextGeneration expected input)
      reservations :=
        if plane.sharedBudget.isSome then catalog.reservations.insert id expected
        else catalog.reservations }
  set { plane with
    nextContentId := id + 1
    nextGeneration := plane.nextGeneration + 1
    metrics :=
      { plane.metrics with
        contentBytes := nextBytes
        contentCount := plane.metrics.contentCount + 1 } }
  modify updateHighWater
  pure id

/-- `ImageBudgetReservation::resize`: only growth has to be admitted. -/
def resizeReservation (id bytes : Nat) : PlaneM Unit := do
  let plane ← get
  match (plane.catalog screen).reservations.get? id with
  | none => pure ()
  | some old => do
    whenever (old < bytes) (reserve (bytes - old))
    modify fun plane =>
      let catalog := plane.catalog screen
      plane.setCatalog screen
        { catalog with reservations := catalog.reservations.insert id bytes }

def placementIdsOf (contentId : Nat) : List Nat :=
  ((plane.placements screen).filter (·.contentId = contentId)).map (·.id)

/-- Replaces one content and drops its placements; the high-water marks stay. -/
def replaceContent (screen : ActiveScreen) (id : Nat) (input : NewImageContent) : PlaneM Nat := do
  let plane ← get
  let expected ← check (validateContent plane.limits input)
  let previous ← check (orReject .unknownContent ((plane.catalog screen).contents.get? id))
  let previousCharge := previous.metadata.byteCharge
  rejectWhen (plane.metrics.contentBytes < previousCharge) .terminalBytes
  let nextBytes := plane.metrics.contentBytes - previousCharge + expected
  rejectWhen (plane.limits.bytesPerTerminal < nextBytes) .terminalBytes
  let generation := plane.nextGeneration
  rejectWhen (exhausted [generation]) .identityExhausted
  resizeReservation screen id expected
  let placementIds := placementIdsOf plane screen id
  modify fun plane =>
    { plane with
      nextGeneration := generation + 1
      metrics := { plane.metrics with contentBytes := nextBytes } }
  placementIds.forM fun placementId => dropPlacement screen placementId
  modify fun plane =>
    let catalog := plane.catalog screen
    plane.setCatalog screen
      { catalog with
        contents := catalog.contents.insert id (makeContent sha256 id generation expected input) }
  pure id

/-- Everything `replaceContent` followed by a placement will ask for. -/
def preflightReplacementPlacement (replacedId : Nat)
    (content : NewImageContent) (placement : NewImagePlacement) : Except ImageError Unit := do
  let expected ← validateContent plane.limits content
  let previous ← orReject .unknownContent ((plane.catalog screen).contents.get? replacedId)
  rejectIf (plane.metrics.contentBytes < previous.metadata.byteCharge) .terminalBytes
  rejectIf (plane.limits.bytesPerTerminal <
    plane.metrics.contentBytes - previous.metadata.byteCharge + expected) .terminalBytes
  rejectIf (placement.rowId = 0) .invalidAnchor
  rejectIf (placement.destination.columns = 0 ∨ placement.destination.rows = 0) .invalidDestination
  validateCrop placement.source content.width content.height
  validateSourceCellSize placement.sourceCellSize
  let removed := (placementIdsOf plane screen replacedId).length
  rejectIf (plane.metrics.placementCount < removed) .placementCount
  rejectIf (plane.limits.placementsPerTerminal < plane.metrics.placementCount - removed + 1)
    .placementCount
  rejectIf (exhausted [plane.nextGeneration, plane.nextPlacementId, plane.nextCreationOrder]) .identityExhausted
  match (plane.catalog screen).reservations.get? replacedId with
  | none => pure ()
  | some old => rejectIf (old < expected ∧ plane.admits (expected - old) = false) .daemonBytes

/-! ## Placements -/

def insertPlacement (input : NewImagePlacement) : PlaneM Nat := do
  let plane ← get
  rejectWhen (input.rowId = 0) .invalidAnchor
  rejectWhen (input.destination.columns = 0 ∨ input.destination.rows = 0) .invalidDestination
  let content ← check (orReject .unknownContent ((plane.catalog screen).contents.get? input.contentId))
  check (validateCrop input.source content.metadata.width content.metadata.height)
  check (validateSourceCellSize input.sourceCellSize)
  rejectWhen (plane.limits.placementsPerTerminal ≤ plane.metrics.placementCount) .placementCount
  rejectWhen (exhausted [plane.nextPlacementId, plane.nextCreationOrder]) .identityExhausted
  let id := plane.nextPlacementId
  let catalog := plane.catalog screen
  let placed := plane.setCatalog screen
    { catalog with
      placements := catalog.placements.insert id
        (input.store screen id plane.nextCreationOrder) }
  set { placed with
    nextPlacementId := id + 1
    nextCreationOrder := plane.nextCreationOrder + 1
    metrics := { plane.metrics with placementCount := plane.metrics.placementCount + 1 } }
  modify updateHighWater
  pure id

/-- Runs `m`; a rejection becomes a value, and the plane keeps what `m` did. -/
def attempt {α : Type} (m : PlaneM α) : PlaneM (Except ImageError α) := fun plane =>
  match m plane with
  | .ok a plane => .ok (.ok a) plane
  | .error (.rejected e) plane => .ok (.error e) plane
  | .error (.fault f) plane => .error (.fault f) plane

def insertContentAndPlacement (screen : ActiveScreen) (content : NewImageContent) (rowId : Nat)
    (placement : NewImagePlacementOptions) : PlaneM (Nat × Nat) := do
  let plane ← get
  let _ ← check (validateContent plane.limits content)
  rejectWhen (rowId = 0) .invalidAnchor
  rejectWhen (placement.destination.columns = 0 ∨ placement.destination.rows = 0)
    .invalidDestination
  check (validateCrop placement.source content.width content.height)
  check (validateSourceCellSize placement.sourceCellSize)
  rejectWhen (plane.limits.placementsPerTerminal ≤ plane.metrics.placementCount) .placementCount
  rejectWhen (exhausted [plane.nextContentId, plane.nextGeneration, plane.nextPlacementId, plane.nextCreationOrder])
    .identityExhausted
  let contentId ← insertContent sha256 screen content
  match ← attempt (insertPlacement screen (placement.bind contentId rowId)) with
  | .ok placementId => pure (contentId, placementId)
  | .error error => do
    let _ ← attempt (removeContentOnly screen contentId)
    throw (.rejected error)

def removePlacement (id : Nat) : PlaneM Unit := do
  let plane ← get
  let _ ← check (orReject .unknownPlacement ((plane.catalog screen).placements.get? id))
  dropPlacement screen id
  reclaimUnplacedWhilePlaced

def removeContent (id : Nat) : PlaneM Unit := do
  let plane ← get
  (placementIdsOf plane screen id).forM fun placementId => dropPlacement screen placementId
  removeContentOnly screen id

def clearScreen : PlaneM Unit := do
  let plane ← get
  let catalog := plane.catalog screen
  let bytes := (catalog.contents.values.map (·.metadata.byteCharge)).sum
  let contentCount := catalog.contents.entries.length
  let placementCount := catalog.placements.entries.length
  ensure (bytes ≤ plane.metrics.contentBytes ∧ contentCount ≤ plane.metrics.contentCount
    ∧ placementCount ≤ plane.metrics.placementCount) (.fault .panic)
  let plane := plane.setCatalog screen {}
  set { plane with
    metrics :=
      { plane.metrics with
        contentBytes := plane.metrics.contentBytes - bytes
        contentCount := plane.metrics.contentCount - contentCount
        placementCount := plane.metrics.placementCount - placementCount } }

def retainAnchors (rowIds : List Nat) : PlaneM Unit := do
  let plane ← get
  (((plane.placements screen).filter fun p => !rowIds.contains p.rowId).map (·.id)).forM
    fun id => dropPlacement screen id
  reclaimUnplacedWhilePlaced

/-- Rebinds placements whose rows received new identities, and says whether any
did. -/
def remapAnchors (replacements : OrdMap Nat Nat) : PlaneM Bool := do
  let plane ← get
  let catalog := plane.catalog screen
  set (plane.setCatalog screen
    { catalog with
      placements := catalog.placements.mapValues fun p =>
        { p with rowId := (replacements.get? p.rowId).getD p.rowId } })
  pure (catalog.placements.values.any fun p => replacements.contains p.rowId)

/-! ## Text overwrites -/

/-- The text-overwrite placements that meet the rectangle, with their anchors. -/
def textOverlapTargets (rowOrder : List Nat) (rect : CellRect) : List (ImagePlacement × Nat) :=
  if rect.endRow ≤ rect.startRow ∨ rect.endColumn ≤ rect.startColumn then []
  else
    (plane.placements screen).filterMap fun placement =>
      if placement.erasePolicy ≠ .textOverwrite then none
      else
        (rowPosition rowOrder placement.rowId).bind fun anchorRow =>
          if anchorRow < rect.endRow ∧ rect.startRow < anchorRow + placement.destination.rows
              ∧ placement.column < rect.endColumn
              ∧ rect.startColumn < placement.column + placement.destination.columns then
            some (placement, anchorRow)
          else none

def splitTextOverlaps (rect : CellRect) : PlaneM Bool := do
  let plane ← get
  let targets := plane.textOverlapTargets screen rowOrder rect
  targets.forM fun (placement, anchorRow) => do
    let fragments ← check (placementFragments placement anchorRow rowOrder rect)
    dropPlacement screen placement.id
    fragments.forM fun fragment => do
      let _ ← insertPlacement screen fragment
      pure ()
  whenever (targets ≠ []) reclaimUnplacedWhilePlaced
  pure (decide (targets ≠ []))

def removeTextOverlapsWhole (rect : CellRect) : PlaneM Bool := do
  let plane ← get
  let targets := plane.textOverlapTargets screen rowOrder rect
  targets.forM fun (placement, _) => dropPlacement screen placement.id
  whenever (targets ≠ []) reclaimUnplacedWhilePlaced
  pure (decide (targets ≠ []))

/-- Runs `m` on a copy of the plane: the copy is kept only when `keep` accepts the
result, and the admissions it asked for were asked in any case. -/
def onCandidate {α : Type} (m : PlaneM α) (keep : Except ImageError α → Bool) : PlaneM (Except ImageError α) := do
  let original ← get
  let result ← attempt m
  modify fun candidate =>
    if keep result then candidate else { original with admissions := candidate.admissions }
  pure result

/-- Cuts the rectangle out of the placements that meet it, or removes them whole
when the pieces cannot be admitted. -/
def removeTextOverlaps (rect : CellRect) : PlaneM Bool := do
  let result ← onCandidate (splitTextOverlaps screen rowOrder rect)
    fun result => match result with
      | .ok changed => changed
      | .error _ => false
  match result with
  | .ok changed => pure changed
  | .error _ => removeTextOverlapsWhole screen rowOrder rect

def removeTextPlacementsOutsideColumns (columns : Nat) : PlaneM Bool := do
  let plane ← get
  let removed := ((plane.placements screen).filter fun p =>
    p.erasePolicy = .textOverwrite && decide (columns ≤ p.column)).map (·.id)
  removed.forM fun id => dropPlacement screen id
  whenever (removed ≠ []) reclaimUnplacedWhilePlaced
  pure (decide (removed ≠ []))

/-- Puts a placement back under its old identity. -/
def reinsertPlacement (placement : ImagePlacement) (plane : ImagePlane) : ImagePlane :=
  let catalog := plane.catalog screen
  let plane := plane.setCatalog screen
    { catalog with placements := catalog.placements.insert placement.id placement }
  { plane with
    metrics := { plane.metrics with placementCount := plane.metrics.placementCount + 1 } }

/-- Puts one placement back after cutting what lies under it; a placement whose row
is gone stays away. -/
def replayPlacement (placement : ImagePlacement) : PlaneM Unit :=
  match rowPosition rowOrder placement.rowId with
  | none => pure ()
  | some anchorRow => do
    let rect : CellRect :=
      { startRow := anchorRow
        endRow := anchorRow + placement.destination.rows
        startColumn := placement.column
        endColumn := placement.column + placement.destination.columns }
    match ← attempt (splitTextOverlaps screen rowOrder rect) with
    | .ok _ => pure ()
    | .error _ => do
      let _ ← removeTextOverlapsWhole screen rowOrder rect
      pure ()
    modify (reinsertPlacement screen placement)

/-- Replays overlapping text-overwrite placements in the order they were created. -/
def resolveTextOverlaps : PlaneM Bool := do
  let plane ← get
  let placements := ((plane.placements screen).filter (·.erasePolicy = .textOverwrite)).mergeSort
    fun a b => decide (a.creationOrder ≤ b.creationOrder)
  let participants := placements.filter fun p =>
    placements.any fun other => decide (p.id ≠ other.id) && placementsOverlap rowOrder p other
  whenever (participants ≠ []) do
    participants.forM fun p => dropPlacement screen p.id
    participants.forM (replayPlacement screen rowOrder)
    reclaimUnplacedWhilePlaced
  pure (decide (participants ≠ []))

/-! ## Sixel admission -/

def copyUnderlay (old : ImagePlacement) (oldContent : ImageContent) (originX originY newOriginX
    newOriginY outputWidth outputHeight : Nat) (pixels : List UInt8) : Except Fault (List UInt8) :=
  (List.range old.source.height).foldlM (fun pixels sourceY =>
    if originY + sourceY < newOriginY ∨ newOriginY + outputHeight ≤ originY + sourceY then pure pixels
    else
      (List.range old.source.width).foldlM (fun pixels sourceX =>
        if originX + sourceX < newOriginX ∨ newOriginX + outputWidth ≤ originX + sourceX then
          pure pixels
        else do
          let oldIndex := ((old.source.y + sourceY) * oldContent.metadata.width + (old.source.x + sourceX)) * 4
          let outputIndex := ((originY + sourceY - newOriginY) * outputWidth + (originX + sourceX - newOriginX)) * 4
          let pixel ← pixelAt oldContent.pixels oldIndex
          let _ ← pixelAt pixels outputIndex
          pure (setPixel pixels outputIndex pixel)) pixels) pixels

/-- Composites the new image over what was copied. -/
def compositeOver (content : NewImageContent) (outputWidth : Nat) (pixels : List UInt8) : Except Fault (List UInt8) :=
  (List.range content.height).foldlM (fun pixels y =>
    (List.range content.width).foldlM (fun pixels x => do
      let source ← pixelAt content.pixels ((y * content.width + x) * 4)
      let destination ← pixelAt pixels ((y * outputWidth + x) * 4)
      pure (setPixel pixels ((y * outputWidth + x) * 4) (compositePixel destination source)))
      pixels) pixels

/-- Every fourth byte is 255. -/
def allOpaque : List UInt8 → Bool
  | _ :: _ :: _ :: a :: rest => a = 255 && allOpaque rest
  | _ => true

/-- The size the composed image needs to keep the older images it covers. -/
def composedSize (targets : List (ImagePlacement × Nat)) (cellSize : PixelSize)
    (placement : NewImagePlacementOptions) (anchorRow width height : Nat) : Nat × Nat :=
  targets.foldl (fun (size : Nat × Nat) (old, oldAnchorRow) =>
    if old.sourceCellSize ≠ some cellSize then size
    else
      let endX := old.column * cellSize.width + old.source.width
      let endY := oldAnchorRow * cellSize.height + old.source.height
      let originX := placement.column * cellSize.width
      let originY := anchorRow * cellSize.height
      (if originX ≤ endX then
          max size.1 (min (endX - originX) (placement.destination.columns * cellSize.width))
        else size.1,
       if originY ≤ endY then
          max size.2 (min (endY - originY) (placement.destination.rows * cellSize.height))
        else size.2)) (width, height)

/-- The pixels of the older images the new one covers, on an empty image of the
composed size. -/
def underlay (targets : List (ImagePlacement × Nat))
    (cellSize : PixelSize) (column anchorRow width height : Nat) (pixels : List UInt8) : Except Fault (List UInt8) :=
  targets.foldlM (fun pixels (target : ImagePlacement × Nat) =>
    if target.1.sourceCellSize ≠ some cellSize then pure pixels
    else
      match (plane.catalog screen).contents.get? target.1.contentId with
      | none => pure pixels
      | some oldContent =>
        copyUnderlay target.1 oldContent (target.1.column * cellSize.width)
          (target.2 * cellSize.height) (column * cellSize.width) (anchorRow * cellSize.height)
          width height pixels) pixels

/-- The image as it will be stored: older images it covers show through. -/
def prepareSixelOverlap (rowOrder : List Nat)
    (rect : CellRect) (placement : NewImagePlacementOptions) (content : NewImageContent) :
    Except ImageStop NewImageContent :=
  let targets := plane.textOverlapTargets screen rowOrder rect
  match placement.sourceCellSize with
  | none => .ok content
  | some cellSize =>
    if targets = [] then .ok content
    else do
      let (width, height) :=
        composedSize targets cellSize placement rect.startRow content.width content.height
      let byteCount ← (validateContentGeometry plane.limits width height).mapError .rejected
      let pixels ← (plane.underlay screen targets cellSize placement.column rect.startRow width height
        (List.replicate byteCount 0)).mapError .fault
      let pixels ← (compositeOver content width pixels).mapError .fault
      let prepared : NewImageContent :=
        { content with
          width
          height
          pixels
          alphaMode := if allOpaque pixels then .opaqueAlpha else .premultiplied }
      let _ ← (validateContent plane.limits prepared).mapError .rejected
      pure prepared

/-- Stores a sixel: the images it covers are cut, or removed whole when the pieces
do not fit, or left alone when even that does not make room. -/
def insertSixelContentAndPlacement (screen : ActiveScreen) (content : NewImageContent)
    (rowOrder : List Nat) (rowId : Nat) (placement : NewImagePlacementOptions) : PlaneM (Nat × Nat) := do
  let plane ← get
  let _ ← check (validateContent plane.limits content)
  check (validateSixelSourceCellSize placement.source placement.destination placement.sourceCellSize)
  let anchorRow ← check (orReject .invalidAnchor (rowOrder.findIdx? (· = rowId)))
  let rect : CellRect :=
    { startRow := anchorRow
      endRow := anchorRow + placement.destination.rows
      startColumn := placement.column
      endColumn := placement.column + placement.destination.columns }
  let prepared ← fromResult (prepareSixelOverlap plane screen rowOrder rect placement content)
  let placement := { placement with
    source := { placement.source with width := prepared.width, height := prepared.height } }
  let insert := insertContentAndPlacement sha256 screen prepared rowId placement
  let accepted := fun (result : Except ImageError (Nat × Nat)) => match result with
    | .ok _ => true
    | .error _ => false
  match ← onCandidate (do let _ ← splitTextOverlaps screen rowOrder rect; insert) accepted with
  | .ok ids => pure ids
  | .error _ =>
    match ← onCandidate (do let _ ← removeTextOverlapsWhole screen rowOrder rect; insert) accepted with
    | .ok ids => pure ids
    | .error _ => insert

end Splinterm.Terminal.ImagePlane
