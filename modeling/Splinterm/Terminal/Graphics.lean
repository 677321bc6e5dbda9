import Splinterm.Terminal.Transaction

/-!
# Image protocols

The handlers of sixel, Kitty and iTerm2 images. They bypass the ordinary action
dispatch: data bytes only fill a transfer, and the end of a transfer runs its own
transaction. A refused command puts the image plane back.
-/

namespace Splinterm.Terminal

set_option linter.dupNamespace false

open Lib Hoare

/-- A graphics command stops with an error it reports, or with a fault. -/
inductive KittyStop where
  | refused (error : KittyError)
  | fault (fault : Fault)

abbrev KittyM := EStateM KittyStop Terminal

/-- What a reply is addressed to. -/
structure KittyCorrelation where
  imageId : Nat := 0
  placementId : Nat := 0
  quiet : Nat := 0

def Kitty.Command.correlation (command : Kitty.Command) : KittyCorrelation :=
  ⟨command.imageId, command.placementId, command.quiet⟩

/-- One field of control data that may not parse as a whole. -/
def KittyCorrelation.read (c : KittyCorrelation) (field : List UInt8) : KittyCorrelation :=
  match Kitty.splitField field with
  | none => c
  | some (_, value) =>
    match if validUtf8 value then parseUnsigned 10 (2 ^ 32) value else none with
    | none => c
    | some value =>
      if field.head? = some (ascii 'i') then { c with imageId := value }
      else if field.head? = some (ascii 'p') then { c with placementId := value }
      else if field.head? = some (ascii 'q') then { c with quiet := min value 255 }
      else c

def kittyCorrelation (control : List UInt8) : KittyCorrelation :=
  (control.splitOn (ascii ',')).foldl KittyCorrelation.read {}

/-- Some field sets the quiet mode. -/
def hasQuietField (control : List UInt8) : Bool :=
  (control.splitOn (ascii ',')).any fun field => (asciiText "q=").isPrefixOf field

/-- Only `m` and `q` fields, and an `m` among them. -/
def kittyContinuationControl (control : List UInt8) : Bool :=
  let fields := control.splitOn (ascii ',')
  (fields.all fun field =>
    (field.head? = some (ascii 'm') || field.head? = some (ascii 'q'))
      && field.tail.head? = some (ascii '='))
    && fields.any fun field => field.head? = some (ascii 'm')

/-- Cells along one axis that keep the aspect ratio of the other. -/
def kittyAspectExtent (sourceAxis fixedCells fixedCellPixels fixedSourceAxis derivedCellPixels : Nat) :
    Except KittyError Nat := do
  rejectIf (fixedCells = 0 ∨ fixedSourceAxis = 0 ∨ derivedCellPixels = 0)
    (.invalid "destination extent must be non-zero")
  let overflow : KittyError := .tooBig "destination extent overflow"
  let numerator := sourceAxis * fixedCells * fixedCellPixels
  let denominator := fixedSourceAxis * derivedCellPixels
  rejectIf (2 ^ 128 ≤ numerator ∨ 2 ^ 128 ≤ denominator) overflow
  rejectIf (2 ^ 128 ≤ numerator + (denominator - 1)) overflow
  let extent := max ((numerator + (denominator - 1)) / denominator) 1
  rejectIf (2 ^ 64 ≤ extent) overflow
  pure extent

/-- Division rounded up, for a nonzero divisor. -/
def divCeil (n d : Nat) : Nat := (n + (d - 1)) / d

namespace KittyM

def check {α : Type} (result : Except KittyError α) : KittyM α :=
  match result with
  | .ok a => pure a
  | .error e => throw (.refused e)

/-- A terminal operation inside a graphics command. -/
def run {α : Type} (m : TerminalM α) : KittyM α := fun t =>
  match m t with
  | .ok a t => .ok a t
  | .error f t => .error (.fault f) t

/-- A plane operation whose rejection refuses the command. -/
def plane {α : Type} (m : PlaneM α) : KittyM α := fun t =>
  match m t.images with
  | .ok a images => .ok a { t with images }
  | .error (.rejected e) images => .error (.refused (mapImageError e)) { t with images }
  | .error (.fault f) images => .error (.fault f) { t with images }

end KittyM

namespace Terminal

/-- Runs a graphics command; a refusal becomes a value. -/
def attemptCommand {α : Type} (m : KittyM α) : TerminalM (Except KittyError α) := fun t =>
  match m t with
  | .ok a t => .ok (.ok a) t
  | .error (.refused e) t => .ok (.error e) t
  | .error (.fault f) t => .error f t

/-! ## The upload budget -/

variable (t : Terminal)

/-- Encoded bytes this terminal holds of the upload budget. -/
def heldUploadBytes : Nat :=
  ((t.kittyChunk.bind (·.reservation)).getD 0) + ((t.itermTransfer.bind (·.reservation)).getD 0)
    + ((t.kittyUpload.map (·.reservations.sum)).getD 0)

/-- The budget answers a request against what everyone holds at that moment. -/
def admitsUpload (bytes : Nat) : Bool :=
  match t.config.sharedKittyUploadBudget with
  | none => t.heldUploadBytes + bytes ≤ defaultKittyUploadBytesPerDaemon
  | some budget => t.heldUploadBytes + budget.others t.uploadAdmissions + bytes ≤ budget.limit

/-! ## Replies -/

def replyKittyCorrelation (c : KittyCorrelation) (result : Except KittyError Unit) : TerminalM Unit :=
  whenever (¬ (c.imageId = 0 ∨ c.quiet = 2 ∨ (c.quiet = 1 ∧ result.isOk = true))) do
    let address := escapeByte :: asciiText "_Gi=" ++ decimal c.imageId
      ++ if c.placementId = 0 then [] else asciiText ",p=" ++ decimal c.placementId
    let status ← match result with
      | .ok _ => pure (asciiText "OK")
      | .error e => do
        emit (.imageRejected "Kitty graphics command")
        pure (asciiText e.code ++ [ascii ':'] ++ asciiText e.message)
    let text := address ++ [ascii ';'] ++ status ++ [escapeByte, ascii '\\']
    whenever (text.length ≤ 512) (reply text)

variable (command : Kitty.Command)

def replyKitty (result : Except KittyError Unit) : TerminalM Unit :=
  replyKittyCorrelation command.correlation result

def validateKittyDimensions (width height : Nat) : Except KittyError Unit :=
  let limits := t.config.imageLimits
  rejectIf (width = 0 ∨ height = 0 ∨ limits.maximumDimension < width
    ∨ limits.maximumDimension < height ∨ limits.maximumPixels < width * height)
    (.tooBig "image dimensions exceed limit")

def cursorAnchor (error : KittyError) : KittyM Nat := do
  let t ← get
  let rowIds ← KittyM.run (fromResult t.grid.screenRowIds)
  KittyM.check (Kitty.orFail error rowIds[t.grid.cursor.position.row]?)

/-! ## iTerm2 -/

def beginIterm (metadata : List UInt8) (metadataTruncated : Bool) : TerminalM Unit := do
  let t ← get
  match t.kittyUpload with
  | some upload =>
    set { t with kittyUpload := none }
    replyKitty upload.command (.error (.invalid "interleaved image upload"))
  | none => pure ()
  modify fun t => { t with kittyChunk := none, itermTransfer := some { metadata, metadataTruncated } }

/-- Asks the budget once per transfer, then collects bytes up to the limit. -/
def putIterm (b : UInt8) (t : Terminal) : Terminal :=
  match t.itermTransfer with
  | none => t
  | some transfer =>
    let asks := transfer.reservation.isNone && !transfer.payloadNoSpace
    let admitted := t.admitsUpload Iterm.maxEncodedBytes
    let transfer :=
      if asks then
        if admitted then { transfer with reservation := some Iterm.maxEncodedBytes }
        else { transfer with payloadNoSpace := true }
      else transfer
    let transfer :=
      if transfer.payloadNoSpace then transfer
      else if transfer.encoded.length < Iterm.maxEncodedBytes then
        { transfer with encoded := transfer.encoded ++ [b] }
      else { transfer with payloadTooBig := true }
    { t with
      itermTransfer := some transfer
      uploadAdmissions := if asks then t.uploadAdmissions + 1 else t.uploadAdmissions }

def abortIterm : Terminal := { t with itermTransfer := none }

variable (ext : External)

def itermPlacement (column width height : Nat) (destination : CellExtent) (cell : CellPixels) :
    NewImagePlacementOptions :=
  { column
    source := { x := 0, y := 0, width, height }
    destination
    sourceCellSize := some cell.size
    xOffset := 0
    yOffset := 0
    zIndex := 0
    applicationImageId := none
    applicationPlacementId := none
    erasePolicy := .textOverwrite }

def processIterm (transfer : ItermTransfer) : KittyM Unit := do
  KittyM.check (rejectIf (transfer.payloadNoSpace = true)
    (.noSpace "encoded upload budget exhausted"))
  KittyM.check (rejectIf (transfer.payloadTooBig = true)
    (.tooBig "encoded iTerm2 payload exceeds limit"))
  let command ← KittyM.check
    (Iterm.parseMetadata ext transfer.metadata transfer.metadataTruncated)
  let image ← KittyM.check (Iterm.decodePngPayload ext transfer.encoded command.declaredSize)
  let t ← get
  KittyM.check (t.validateKittyDimensions image.width image.height)
  let cell ← KittyM.check
    (Kitty.orFail (.invalid "iTerm2 cell geometry is unavailable") t.cellPixels)
  -- the extents divide by the image and cell dimensions
  ensure (0 < image.width ∧ 0 < image.height) (.fault .panic)
  let (columns, rows) ← KittyM.check (Iterm.destinationExtent command image.width image.height
    cell.width cell.height t.grid.columns t.grid.screenRows)
  let column := t.grid.cursor.position.column
  let rowId ← cursorAnchor (.invalid "iTerm2 cursor anchor is unavailable")
  let _ ← KittyM.plane (ImagePlane.insertContentAndPlacement ext.sha256 t.active
    { width := image.width
      height := image.height
      sourceFormat := image.format
      alphaMode := image.alphaMode
      pixels := image.pixels
      retention := .whilePlaced }
    rowId (itermPlacement column image.width image.height ⟨columns, rows⟩ cell))
  whenever (command.doNotMoveCursor = false) (KittyM.run (moveCursor (-(column : Int)) rows))

/-- Puts the image plane back; what it asked of the budget was asked. -/
def restoreImages (images : ImagePlane) (t : Terminal) : Terminal :=
  { t with images := { images with admissions := t.images.admissions } }

def endIterm : TerminalM Unit := do
  let t ← get
  match t.itermTransfer with
  | none => pure ()
  | some transfer =>
    set { t with itermTransfer := none }
    transact .osc do
      match ← attemptCommand (processIterm ext transfer) with
      | .ok _ => pure ()
      | .error _ =>
        modify (restoreImages t.images)
        emit (.imageRejected "iTerm2 inline image")

/-! ## Kitty transfers -/

def beginKitty (control : List UInt8) (controlTruncated : Bool) (t : Terminal) : Terminal :=
  let continues := match Kitty.parseControl control controlTruncated with
    | .ok command => command.more
    | .error _ => false
  { t with
    kittyChunk := some
      { control
        controlTruncated
        encodedLimit := if t.kittyUpload.isSome || continues then Kitty.maxEncodedChunkBytes
          else Kitty.maxEncodedUploadBytes } }

def putKitty (b : UInt8) (t : Terminal) : Terminal :=
  match t.kittyChunk with
  | none => t
  | some chunk =>
    let asks := chunk.reservation.isNone && !chunk.payloadNoSpace
    let admitted := t.admitsUpload chunk.encodedLimit
    let chunk :=
      if asks then
        if admitted then { chunk with reservation := some chunk.encodedLimit }
        else { chunk with payloadNoSpace := true }
      else chunk
    let chunk :=
      if chunk.payloadNoSpace then chunk
      else if chunk.encoded.length < chunk.encodedLimit then
        { chunk with encoded := chunk.encoded ++ [b] }
      else { chunk with payloadTooBig := true }
    { t with
      kittyChunk := some chunk
      uploadAdmissions := if asks then t.uploadAdmissions + 1 else t.uploadAdmissions }

def abortKitty : Terminal := { t with kittyChunk := none, kittyUpload := none }

def rejectKittyChunk (control : List UInt8) (fallback : KittyCorrelation) (error : KittyError) : TerminalM Unit := do
  let t ← get
  match t.kittyUpload with
  | some upload =>
    set { t with kittyUpload := none }
    let continuation := kittyCorrelation control
    let quiet := if hasQuietField control = true ∧ continuation.quiet ≤ 2 then continuation.quiet
      else upload.command.quiet
    replyKitty { upload.command with quiet } (.error error)
  | none => replyKittyCorrelation fallback (.error error)

/-! ## Kitty placements -/

/-- The crop of a command inside a content. -/
def kittyCrop (width height : Nat) : PixelRect :=
  let x := min command.sourceX width
  let y := min command.sourceY height
  let right := command.sourceWidth.elim width fun w => min (SixelDecoder.saturate32 (command.sourceX + w)) width
  let bottom := command.sourceHeight.elim height fun h => min (SixelDecoder.saturate32 (command.sourceY + h)) height
  { x, y, width := right - x, height := bottom - y }

def kittyExtent (crop : PixelRect) (cell : PixelSize) : Except KittyError CellExtent :=
  match command.columns, command.rows with
  | some columns, some rows => .ok ⟨columns, rows⟩
  | some columns, none => do
    pure ⟨columns, ← kittyAspectExtent crop.height columns cell.width crop.width cell.height⟩
  | none, some rows => do
    pure ⟨← kittyAspectExtent crop.width rows cell.height crop.height cell.width, rows⟩
  | none, none => .ok ⟨divCeil crop.width cell.width, divCeil crop.height cell.height⟩

def kittyPlacementInput (contentId : Nat)
    (applicationImageId : Option Nat) (width height : Nat) : KittyM NewImagePlacement := do
  let t ← get
  let crop := kittyCrop command width height
  KittyM.check (rejectIf (crop.width = 0 ∨ crop.height = 0) (.invalid "source crop is empty"))
  let cell := (t.cellPixels.map (·.size)).getD ⟨1, 1⟩
  KittyM.check (rejectIf (cell.width ≤ command.xOffset ∨ cell.height ≤ command.yOffset)
    (.invalid "cell offset exceeds cell size"))
  let destination ← KittyM.check (kittyExtent command crop cell)
  KittyM.check (rejectIf (destination.columns = 0 ∨ destination.rows = 0)
    (.invalid "destination extent must be non-zero"))
  let rowId ← cursorAnchor (.invalid "cursor anchor is unavailable")
  pure
    { contentId
      rowId
      column := t.grid.cursor.position.column
      source := crop
      destination
      sourceCellSize := some cell
      xOffset := command.xOffset
      yOffset := command.yOffset
      zIndex := command.zIndex
      applicationImageId
      applicationPlacementId :=
        if applicationImageId.isSome && command.placementId != 0 then some command.placementId
        else none
      erasePolicy := .explicitDelete }

def placeKittyContent (contentId : Nat) (applicationImageId : Option Nat) : KittyM Unit := do
  let t ← get
  let content ← KittyM.check (Kitty.orFail (.notFound "image content does not exist")
    (t.images.content t.active contentId))
  let placement ← kittyPlacementInput command contentId applicationImageId content.metadata.width
    content.metadata.height
  let existing := (t.images.placements t.active).filter fun p =>
    applicationImageId.isSome && p.applicationImageId = applicationImageId
      && command.placementId != 0 && p.applicationPlacementId = some command.placementId
  let result ← KittyM.plane (ImagePlane.onCandidate (do
      existing.forM fun p => ImagePlane.removePlacement t.active p.id
      let _ ← ImagePlane.insertPlacement t.active placement)
    fun result => result.isOk)
  KittyM.check (result.mapError mapImageError)
  whenever (command.noCursorMove = false)
    (KittyM.run (moveCursor placement.destination.columns placement.destination.rows))

def placeKitty : KittyM Unit := do
  KittyM.check (rejectIf (command.imageId = 0) (.invalid "image id is required for placement"))
  let t ← get
  let contentId ← KittyM.check (Kitty.orFail (.notFound "image id does not exist")
    (t.kittyImageIds.get t.active command.imageId))
  placeKittyContent command contentId (some command.imageId)

def transmitKitty (command : Kitty.Command) (bytes : List UInt8) : KittyM Unit := do
  KittyM.check (rejectIf (command.medium ≠ .direct) (.unsupported "unsupported transmission medium"))
  let image ← KittyM.check (Kitty.decodeImage ext command bytes)
  let t ← get
  KittyM.check (t.validateKittyDimensions image.width image.height)
  whenever (command.action ≠ .query) do
    let content : NewImageContent :=
      { width := image.width
        height := image.height
        sourceFormat := image.format
        alphaMode := image.alphaMode
        pixels := image.pixels
        retention := if command.imageId = 0 then .whilePlaced else .explicitDelete }
    let applicationId := if command.imageId = 0 then none else some command.imageId
    let previous := applicationId.bind (t.kittyImageIds.get t.active)
    let contentId ← match previous with
      | some previous => do
        whenever (command.action = .transmitAndDisplay) do
          let placement ← kittyPlacementInput command previous (some command.imageId) image.width
            image.height
          KittyM.check ((t.images.preflightReplacementPlacement t.active previous content
            placement).mapError mapImageError)
        KittyM.plane (ImagePlane.replaceContent ext.sha256 t.active previous content)
      | none => KittyM.plane (ImagePlane.insertContent ext.sha256 t.active content)
    whenever (command.imageId ≠ 0) (modify fun t =>
      { t with kittyImageIds := t.kittyImageIds.insert t.active command.imageId contentId })
    whenever (command.action = .transmitAndDisplay)
      (placeKittyContent command contentId applicationId)

/-! ## Kitty deletion -/

def isUppercase (b : UInt8) : Bool := ascii 'A' ≤ b && b ≤ ascii 'Z'

def toLowercase (b : UInt8) : UInt8 := if isUppercase b then b + 32 else b

/-- The placements a delete command selects. -/
def deletes (selector : UInt8) (ordered visible : List Nat) (p : ImagePlacement) : Bool :=
  (selector = ascii 'a' && placementIntersectsRows p ordered visible)
    || (p.applicationImageId = some command.imageId
      && (command.placementId = 0 || p.applicationPlacementId = some command.placementId))

/-- The contents an upper-case selector frees, with their application ids. -/
def contentsToRemove (command : Kitty.Command) (selector : UInt8) (matching : List ImagePlacement) : List (Nat × Nat) :=
  let entries :=
    if selector = ascii 'a' then
      matching.filterMap fun p =>
        (t.images.content t.active p.contentId).bind fun _ =>
          (t.kittyImageIds.map t.active).entries.find? fun entry => entry.2 = p.contentId
    else
      ((t.kittyImageIds.get t.active command.imageId).map (command.imageId, ·)).toList
  -- consecutive entries with equal content are one
  (entries.mergeSort fun a b => decide (a.2 ≤ b.2)).destutter fun a b => a.2 ≠ b.2

def removeUnplacedContent (entry : Nat × Nat) : KittyM Unit := do
  let t ← get
  whenever ((t.images.placements t.active).all fun p => p.contentId ≠ entry.2) do
    KittyM.plane (ImagePlane.removeContent t.active entry.2)
    modify fun t => { t with kittyImageIds := t.kittyImageIds.remove t.active entry.1 }

def deleteKitty : KittyM Unit := do
  let given := command.deleteSelector.getD (ascii 'a')
  let selector := toLowercase given
  KittyM.check (rejectIf (selector ≠ ascii 'a' ∧ selector ≠ ascii 'i')
    (.unsupported "unsupported delete selector"))
  KittyM.check (rejectIf (selector = ascii 'i' ∧ command.imageId = 0)
    (.invalid "image id is required for selector"))
  let t ← get
  let visible ← KittyM.run (fromResult t.grid.screenRowIds)
  let matching := (t.images.placements t.active).filter
    (deletes command selector t.grid.orderedRetainedRowIds visible)
  matching.forM fun p => KittyM.plane (ImagePlane.removePlacement t.active p.id)
  whenever (isUppercase given = true) do
    let t ← get
    (contentsToRemove t command selector matching).forM removeUnplacedContent

/-! ## Kitty commands -/

def processKitty (command : Kitty.Command) (bytes : List UInt8) : TerminalM Unit := do
  let before ← get
  transact .dcs do
    let result ← attemptCommand (match command.action with
      | .transmit | .transmitAndDisplay | .query => transmitKitty ext command bytes
      | .display => placeKitty command
      | .delete => deleteKitty command)
    whenever (result.isOk = false) (modify fun t =>
      { restoreImages before.images t with kittyImageIds := before.kittyImageIds })
    whenever (command.action ≠ .delete ∨ result.isOk = false) (replyKitty command result)

/-- The next chunk of an upload in progress. -/
def continueUpload (upload : KittyUpload) (command : Kitty.Command) (chunk : KittyChunk)
    (decoded : List UInt8) : TerminalM Unit := do
  let refuse := fun (error : KittyError) => replyKitty upload.command (.error error)
  let encodedBytes := upload.encodedBytes + chunk.encoded.length
  if kittyContinuationControl chunk.control = false then
    refuse (.invalid "interleaved Kitty upload")
  else if upload.command.more = true ∧ chunk.encoded.length % 4 ≠ 0 ∧ command.more = true then
    refuse (.badMessage "non-final chunk is not base64 aligned")
  else if Kitty.maxEncodedUploadBytes < encodedBytes then
    refuse (.tooBig "encoded upload exceeds limit")
  else
    let upload :=
      { upload with
        encodedBytes
        decodedChunks := upload.decodedChunks ++ decoded
        reservations := upload.reservations ++ chunk.reservation.toList
        command := if hasQuietField chunk.control then
          { upload.command with quiet := command.quiet } else upload.command }
    if command.more then modify fun t => { t with kittyUpload := some upload }
    else processKitty ext upload.command upload.decodedChunks

/-- The first chunk of an upload, or a whole command. -/
def startUpload (command : Kitty.Command) (chunk : KittyChunk) (decoded : List UInt8) : TerminalM Unit :=
  if command.more then
    if chunk.encoded.length % 4 ≠ 0 then
      replyKitty command (.error (.badMessage "non-final chunk is not base64 aligned"))
    else if command.action ≠ .transmit ∧ command.action ≠ .transmitAndDisplay
        ∧ command.action ≠ .query then
      replyKitty command (.error (.invalid "continuation requires transmission"))
    else
      modify fun t =>
        { t with
          kittyUpload := some
            { command
              decodedChunks := decoded
              encodedBytes := chunk.encoded.length
              reservations := chunk.reservation.toList } }
  else processKitty ext command decoded

def endKitty : TerminalM Unit := do
  let t ← get
  match t.kittyChunk with
  | none => pure ()
  | some chunk =>
    set { t with kittyChunk := none }
    let reject := rejectKittyChunk chunk.control (kittyCorrelation chunk.control)
    match Kitty.parseControl chunk.control chunk.controlTruncated with
    | .error error => reject error
    | .ok command =>
      if chunk.payloadNoSpace then reject (.noSpace "encoded upload budget exhausted")
      else if chunk.payloadTooBig then reject (.tooBig "encoded chunk exceeds limit")
      else if t.kittyUpload.isSome = true ∧ command.action = .delete then
        modify fun t => { t with kittyUpload := none }
        processKitty ext command []
      else if command.more = true ∧ chunk.encoded.length % 4 ≠ 0 then
        reject (.invalid "non-final chunk is not base64 aligned")
      else
        let decodedLimit := if command.more || t.kittyUpload.isSome then 3072
          else Kitty.maxEncodedUploadBytes
        match Kitty.decodeBase64Payload ext chunk.encoded chunk.encodedLimit decodedLimit with
        | .error error => reject error
        | .ok decoded =>
          match t.kittyUpload with
          | some upload =>
            modify fun t => { t with kittyUpload := none }
            continueUpload ext upload command chunk decoded
          | none => startUpload ext command chunk decoded

def commandKitty (control : List UInt8) (controlTruncated : Bool) : TerminalM Unit := do
  modify (beginKitty control controlTruncated)
  endKitty ext

/-! ## Sixel -/

def beginSixel (params : Params) (t : Terminal) : Terminal :=
  if t.config.sixel.enabled = false then { t with sixelDecoder := none }
  else
    let palette := if t.sixelPaletteMode = .privatePalette then sixelPalette t.config.sixel.palette
      else t.sixelSharedPalette
    { t with
      sixelDecoder := some (SixelDecoder.new ((params.get 0).valueOr 0 true)
        ((params.get 1).valueOr 0 false) t.config.imageLimits t.sixelPaletteSize
        t.sixelMaximumWidth t.sixelMaximumHeight palette) }

/-- A shared palette keeps what a decoder defined. -/
def keepPalette (palette : List Nat) (t : Terminal) : Terminal :=
  if t.sixelPaletteMode = .shared then { t with sixelSharedPalette := palette } else t

def abortSixel : Terminal :=
  match t.sixelDecoder with
  | none => t
  | some decoder => keepPalette decoder.palette { t with sixelDecoder := none }

def putSixel (b : UInt8) : TerminalM Unit := do
  let t ← get
  match t.sixelDecoder with
  | none => pure ()
  | some decoder =>
    match SixelDecoder.put ext b decoder with
    | .ok _ decoder => set { t with sixelDecoder := some decoder }
    | .error (.rejected _) decoder =>
      set (abortSixel { t with sixelDecoder := some decoder })
      emit (.imageRejected "Sixel decode limit")
    | .error (.fault f) _ => throw f

def finishSixelDecoder (decoder : SixelDecoder) : TerminalM (Option SixelImage) := do
  match decoder.finish with
  | .ok image =>
    modify (keepPalette image.palette)
    pure (some image)
  | .error .malformed =>
    emit (.imageRejected "malformed Sixel")
    pure none
  | .error _ =>
    emit (.imageRejected "Sixel decode limit")
    pure none

def sixelPlacement (column : Nat) (image : SixelImage) (destination : CellExtent)
    (cell : CellPixels) : NewImagePlacementOptions :=
  { column
    source := { x := 0, y := 0, width := image.width, height := image.height }
    destination
    sourceCellSize := some cell.size
    xOffset := 0
    yOffset := 0
    zIndex := -1
    applicationImageId := none
    applicationPlacementId := none
    erasePolicy := .textOverwrite }

def sixelContent (image : SixelImage) : NewImageContent :=
  { width := image.width
    height := image.height
    sourceFormat := .sixel
    alphaMode := if image.isOpaque then .opaqueAlpha else .premultiplied
    pixels := image.pixels
    retention := .whilePlaced }

def sixelLineFeeds (image : SixelImage) (cell : CellPixels) : Nat :=
  let cursorRows :=
    if image.cursorPixelRow + (cell.height - 1) < 2 ^ 32 then
      (image.cursorPixelRow + (cell.height - 1)) / cell.height
    else 0
  cursorRows - 1

/-- The cursor ends below the image, at its left or right edge. -/
def advancePastSixel (image : SixelImage) (cell : CellPixels) (startColumn columns : Nat) : TerminalM Unit := do
  (List.range (sixelLineFeeds image cell)).forM fun _ => lineFeed
  let t ← get
  let column := if t.sixelCursorRight then min (startColumn + columns) (t.grid.columns - 1)
    else startColumn
  setCursor (t.grid.cursor.unwrapped.atColumn column)

/-- Admits a decoded image in a transaction; a refused admission commits nothing. -/
def placeSixel (image : SixelImage) (cell : CellPixels) (rowOrder : List Nat)
    (rowId startColumn : Nat) (destination : CellExtent) : TerminalM Unit := do
  let t ← get
  let before := t.actionBaseline .dcs
  set { t with currentChange := some {} }
  let result ← onImages (ImagePlane.insertSixelContentAndPlacement ext.sha256 t.active
    (sixelContent image) rowOrder rowId (sixelPlacement startColumn image destination cell))
  match result with
  | .error _ =>
    modify fun t => { t with currentChange := none }
    emit (.imageRejected "Sixel image admission")
  | .ok _ =>
    whenever (t.sixelScrolling = true)
      (advancePastSixel image cell startColumn destination.columns)
    pruneActiveImageAnchors
    recordActionChanges before .dcs
    modify commitChange

/-- Checks of a finished image before it is admitted. -/
def showSixel (image : SixelImage) : TerminalM Unit := do
  let t ← get
  match t.cellPixels with
  | none => emit (.imageRejected "Sixel geometry unavailable")
  | some cell =>
    if 2 ^ 32 ≤ image.width + (cell.width - 1) ∨ 2 ^ 32 ≤ image.height + (cell.height - 1) then
      emit (.imageRejected "Sixel placement overflow")
    else
      let destination : CellExtent :=
        ⟨divCeil image.width cell.width, divCeil image.height cell.height⟩
      if t.grid.rowCapacity < destination.rows then
        emit (.imageRejected "Sixel image exceeds row capacity")
      else
        let position := t.grid.cursor.position
        let startRow := if t.sixelScrolling then position.row else 0
        let startColumn := if t.sixelScrolling then position.column else 0
        let rowOrder ← fromResult t.grid.screenRowIds
        match rowOrder[startRow]? with
        | none => emit (.imageRejected "Sixel anchor unavailable")
        | some rowId => placeSixel ext image cell rowOrder rowId startColumn destination

def endSixel : TerminalM Unit := do
  let t ← get
  match t.sixelDecoder with
  | none => pure ()
  | some decoder =>
    set { t with sixelDecoder := none }
    match ← finishSixelDecoder decoder with
    | none => pure ()
    | some image => showSixel ext image

end Terminal

end Splinterm.Terminal
