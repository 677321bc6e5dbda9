import Splinterm.Terminal.ImageDecode

/-!
# The sixel decoder

A streaming raster decoder: bytes either paint six-pixel columns or collect the
parameters of a raster, repeat or color command. The raster grows as it is
painted and its pixels are always `width * height` many, which is what keeps the
writes of `addSixels` in range.
-/

namespace Splinterm.Terminal

open Lib.Hoare

def maxSixelColors : Nat := 1024
def maxSixelInputBytes : Nat := 8388608
def maxSixelPixelWrites : Nat := 16777216
def maxSixelExpansionRatio : Nat := 64

inductive SixelError where
  | inputLimit
  | dimensions
  | expansionRatio
  | pixelWrites
  | malformed

structure SixelImage where
  width : Nat
  height : Nat
  pixels : List UInt8
  isOpaque : Bool
  cursorPixelRow : Nat
  palette : List Nat

inductive SixelState where
  | data
  | raster
  | repeating
  | color
deriving DecidableEq

structure SixelDecoder where
  limits : ImageLimits
  paletteSize : Nat
  maximumWidth : Nat
  maximumHeight : Nat
  state : SixelState
  params : List Nat
  parameter : Nat
  parameterIndex : Nat
  repeatCount : Nat
  palette : List Nat
  colorIndex : Nat
  color : Nat
  transparent : Bool
  pan : Nat
  pad : Nat
  column : Nat
  row : Nat
  width : Nat
  height : Nat
  pixels : List Nat
  bottomPixel : UInt8
  bottommostPainted : Option Nat
  inputBytes : Nat
  pixelWrites : Nat
  failed : Option SixelError

/-- The decoder stops with an error it remembers, or with a fault. -/
inductive SixelStop where
  | rejected (error : SixelError)
  | fault (fault : Fault)

abbrev SixelM := EStateM SixelStop SixelDecoder

/-- A palette of the fixed size, zero past the given colors. -/
def sixelPalette (initial : List Nat) : List Nat :=
  initial.take maxSixelColors ++ List.replicate (maxSixelColors - initial.length) 0

@[simp] theorem length_sixelPalette (initial : List Nat) : (sixelPalette initial).length = maxSixelColors := by
  simp only [sixelPalette, List.length_append, List.length_take, List.length_replicate]
  omega

/-- `clamp` on natural numbers. -/
def clampNat (low high n : Nat) : Nat := min (max n low) high

namespace SixelDecoder

def new (p1 p2 : Nat) (limits : ImageLimits) (paletteSize maximumWidth maximumHeight : Nat)
    (initialPalette : List Nat) : SixelDecoder :=
  { limits
    paletteSize := clampNat 2 maxSixelColors paletteSize
    maximumWidth := min maximumWidth limits.maximumDimension
    maximumHeight := min maximumHeight limits.maximumDimension
    state := .data
    params := List.replicate 5 0
    parameter := 0
    parameterIndex := 0
    repeatCount := 1
    palette := sixelPalette initialPalette
    colorIndex := 0
    color := 0xff000000
    transparent := p2 == 1
    pan :=
      if p1 = 2 then 5
      else if p1 = 3 ∨ p1 = 4 then 3
      else if 7 ≤ p1 ∧ p1 ≤ 9 then 1
      else 2
    pad := 1
    column := 0
    row := 0
    width := 0
    height := 0
    pixels := []
    bottomPixel := 0
    bottommostPainted := none
    inputBytes := 0
    pixelWrites := 0
    failed := none }

def checked32 (value : Nat) : SixelM Nat := do
  ensure (value < 2 ^ 32) (.rejected .dimensions)
  pure value

/-- The rows of the old raster in the top left corner of a larger one. -/
def resizedPixels (oldWidth oldHeight width height background : Nat) (pixels : List Nat) : List Nat :=
  (List.range height).flatMap fun y =>
    if y < oldHeight then
      (pixels.drop (y * oldWidth)).take oldWidth ++ List.replicate (width - oldWidth) background
    else List.replicate width background

def grow (requestedWidth requestedHeight : Nat) : SixelM Unit := do
  let d ← get
  let width := max d.width requestedWidth
  let height := max d.height requestedHeight
  whenever (width ≠ 0 ∧ height ≠ 0) do
    ensure (width ≤ d.maximumWidth ∧ height ≤ d.maximumHeight) (.rejected .dimensions)
    ensure (height * width ≤ d.limits.maximumPixels) (.rejected .dimensions)
    ensure (height * width * 4 ≤ d.limits.bytesPerContent) (.rejected .dimensions)
    whenever (¬ (width = d.width ∧ height = d.height)) do
      let background ← if d.transparent then pure 0 else okOr (.fault .panic) d.palette.head?
      -- each old row is copied out of a slice of the old raster
      ensure (d.height * d.width ≤ d.pixels.length) (.fault .panic)
      set { d with
        width
        height
        pixels := resizedPixels d.width d.height width height background d.pixels }

def startParameters (state : SixelState) (d : SixelDecoder) : SixelDecoder :=
  { d with state, params := List.replicate 5 0, parameter := 0, parameterIndex := 0 }

variable (d : SixelDecoder)

def storeParameter : SixelDecoder :=
  if d.parameterIndex < d.params.length then
    { d with
      params := d.params.set d.parameterIndex d.parameter
      parameterIndex := d.parameterIndex + 1
      parameter := 0 }
  else { d with parameter := 0 }

/-- The raster rows one sixel column covers, top to bottom. -/
def paintedRows (sixel : UInt8) : List Nat :=
  ((List.range 6).filter fun bit => sixel.toNat.testBit bit).flatMap fun bit =>
    (List.range d.pan).map fun vertical => d.row + bit * d.pan + vertical

def paint (x y : Nat) : SixelM Unit := do
  let d ← get
  -- the row is added up unchecked
  ensure (y < 2 ^ 32) (.fault .panic)
  ensure (x + y * d.width < d.pixels.length) (.fault .panic)
  set { d with
    pixels := d.pixels.set (x + y * d.width) d.color
    bottommostPainted := some (d.bottommostPainted.elim y (max · y)) }

def addSixels (sixel : UInt8) (count : Nat) : SixelM Unit := do
  let d ← get
  let columns ← checked32 (count * d.pad)
  let endColumn ← checked32 (d.column + columns)
  let endRow ← checked32 (d.row + 6 * d.pan)
  grow endColumn endRow
  ensure (d.pixelWrites + 6 * d.pan * columns ≤ maxSixelPixelWrites) (.rejected .pixelWrites)
  modify fun d => { d with pixelWrites := d.pixelWrites + 6 * d.pan * columns }
  (List.range' d.column columns).forM fun x => (d.paintedRows sixel).forM (paint x)
  modify fun d => { d with column := endColumn, bottomPixel := d.bottomPixel ||| sixel }

def isSixel (b : UInt8) : Bool := ascii '?' ≤ b && b ≤ ascii '~'

def data (b : UInt8) : SixelM Unit := do
  if b = ascii '"' then modify (startParameters .raster)
  else if b = ascii '!' then
    modify fun d => { d.startParameters .repeating with repeatCount := 1 }
  else if b = ascii '#' then modify fun d => { d.startParameters .color with colorIndex := 0 }
  else if b = ascii '$' then modify fun d => { d with column := 0 }
  else if b = ascii '-' then
    let d ← get
    let row ← checked32 (d.row + 6 * d.pan)
    modify fun d => { d with row, column := 0, bottomPixel := 0 }
    let height ← checked32 (row + 6 * d.pan)
    grow d.width height
  else if isSixel b then addSixels (b - ascii '?') 1
  else if b = ascii ' ' ∨ b = 10 ∨ b = 13 then pure ()
  else throw (.rejected .malformed)

def param (index : Nat) : Nat := d.params.getD index 0

def finishRaster : SixelM Unit := do
  modify fun d =>
    if d.width = 0 ∧ d.height = 0 then
      { d with pan := clampNat 1 5 (d.param 0), pad := clampNat 1 5 (d.param 1) }
    else d
  let d ← get
  let width ← checked32 (d.param 2 * d.pad)
  let height ← checked32 (d.param 3 * d.pan)
  whenever (d.width ≤ width ∧ d.height ≤ height) (grow width height)

variable (ext : External)

/-- The color a definition assigns, or what the register holds. -/
def definedColor (held : Nat) : Nat :=
  let c1 := d.param 2
  let c2 := d.param 3
  let c3 := d.param 4
  if d.param 1 = 1 then
    ext.hslToBgra ((min c1 360 + 240) % 360) (min c3 100) (min c2 100)
  else if d.param 1 = 2 then
    0xff000000 + (255 * min c1 100 / 100) * 2 ^ 16 + (255 * min c2 100 / 100) * 2 ^ 8
      + 255 * min c3 100 / 100
  else held

def finishColor : SixelM Unit := do
  modify fun d =>
    if 0 < d.parameterIndex then
      { d with colorIndex := min (d.param 0) (d.paletteSize - 1) }
    else d
  let d ← get
  let held ← okOr (.fault .panic) d.palette[d.colorIndex]?
  if 4 < d.parameterIndex then
    set { d with palette := d.palette.set d.colorIndex (d.definedColor ext held) }
  else set { d with color := held }

def saturate32 (value : Nat) : Nat := min value (2 ^ 32 - 1)

def parameterByte (b : UInt8) (state : SixelState) : SixelM Unit := do
  if ascii '0' ≤ b ∧ b ≤ ascii '9' then
    modify fun d =>
      let parameter := saturate32 (saturate32 (d.parameter * 10) + (b.toNat - 48))
      { d with
        parameter
        repeatCount := if state = .repeating then parameter else d.repeatCount }
  else if b = ascii ';' then modify storeParameter
  else
    modify storeParameter
    match state with
    | .raster =>
      finishRaster
      modify fun d => { d with state := .data }
      data b
    | .repeating =>
      let d ← get
      set { d with state := .data }
      if isSixel b then addSixels (b - ascii '?') (max d.repeatCount 1) else data b
    | .color =>
      finishColor ext
      modify fun d => { d with state := .data }
      data b
    | .data => throw (.fault .panic)

/-- A rejection is remembered by the decoder. -/
def remembering (m : SixelM Unit) : SixelM Unit := fun d =>
  match m d with
  | .ok _ d => .ok () d
  | .error (.rejected error) d => .error (.rejected error) { d with failed := some error }
  | .error (.fault fault) d => .error (.fault fault) d

/-- The byte past the input limit is refused without being remembered. -/
def put (b : UInt8) : SixelM Unit := do
  let d ← get
  match d.failed with
  | some error => throw (.rejected error)
  | none =>
    ensure (d.inputBytes + 1 ≤ maxSixelInputBytes) (.rejected .inputLimit)
    set { d with inputBytes := d.inputBytes + 1 }
    remembering (match d.state with
      | .data => data b
      | state => parameterByte ext b state)

/-- Significant bits of a byte. -/
def bitLength (b : UInt8) : Nat := if b = 0 then 0 else b.toNat.log2 + 1

/-- `u32::to_le_bytes`. -/
def littleEndian (value : Nat) : List UInt8 :=
  [UInt8.ofNat value, UInt8.ofNat (value / 2 ^ 8), UInt8.ofNat (value / 2 ^ 16), UInt8.ofNat (value / 2 ^ 24)]

def orRefuse {α : Type} (error : SixelError) : Option α → Except SixelError α
  | some a => .ok a
  | none => .error error

def finish : Except SixelError SixelImage := do
  match d.failed with
  | some error => .error error
  | none =>
    rejectIf (d.width = 0 ∨ d.height = 0) .malformed
    let height ←
      if d.transparent then orRefuse .malformed (d.bottommostPainted.map (· + 1))
      else .ok d.height
    let cursorPixelRow :=
      if d.column = 0 then d.row else d.row + min (bitLength d.bottomPixel) 6 * d.pan
    rejectIf (2 ^ 32 ≤ cursorPixelRow) .dimensions
    let pixels := d.pixels.take (height * d.width)
    rejectIf (d.inputBytes * maxSixelExpansionRatio < pixels.length * 4) .expansionRatio
    pure
      { width := d.width
        height
        pixels := pixels.flatMap littleEndian
        isOpaque := !d.transparent
        cursorPixelRow
        palette := d.palette }

end SixelDecoder

end Splinterm.Terminal
