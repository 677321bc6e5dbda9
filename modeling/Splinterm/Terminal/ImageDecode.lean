import Splinterm.Terminal.Image
import Splinterm.Terminal.Parser

/-!
# Image commands and payloads

Control data and payload decoding of the Kitty graphics protocol and of iTerm2
inline images. Base64, zlib and PNG come from libraries and are parameters,
gathered in `External` with the other third-party functions the terminal calls.
-/

namespace Splinterm.Terminal

open Lib.Hoare

inductive PngColorType where
  | rgb
  | rgba
  | grayscale
  | grayscaleAlpha
  | indexed
deriving DecidableEq

structure PngFrame where
  width : Nat
  height : Nat
  colorType : PngColorType
  bytes : List UInt8

/-- What the PNG reader says before decoding, and the frame it decodes. -/
structure PngReader where
  width : Nat
  height : Nat
  outputBufferSize : Option Nat
  frame : Option PngFrame

/-- The third-party functions the terminal calls. -/
structure External where
  /-- `UnicodeWidthChar::width`. -/
  charWidth : Char → Option Nat
  /-- No character spans anything near the range of a spacer payload. -/
  charWidth_lt : ∀ character width, charWidth character = some width → width < 2 ^ 16
  sha256 : List UInt8 → List UInt8
  base64Decode : List UInt8 → Option (List UInt8)
  /-- At most the given number of bytes of a zlib stream. -/
  inflate : List UInt8 → Nat → Option (List UInt8)
  png : List UInt8 → Option PngReader
  /-- The double-precision color conversion of the sixel decoder. -/
  hslToBgra : Nat → Nat → Nat → Nat

/-! ## Numbers and texts -/

def isContinuationByte (b : UInt8) : Bool := 0x80 ≤ b && b ≤ 0xbf

/-- `std::str::from_utf8(..).is_ok()`. -/
def validUtf8 : List UInt8 → Bool
  | [] => true
  | b0 :: rest =>
    if b0 < 0x80 then validUtf8 rest
    else if 0xc2 ≤ b0 ∧ b0 ≤ 0xdf then
      match rest with
      | b1 :: rest => isContinuationByte b1 && validUtf8 rest
      | _ => false
    else if 0xe0 ≤ b0 ∧ b0 ≤ 0xef then
      match rest with
      | b1 :: b2 :: rest =>
        isContinuationByte b1 && (b0 != 0xe0 || 0xa0 ≤ b1) && (b0 != 0xed || b1 ≤ 0x9f)
          && isContinuationByte b2 && validUtf8 rest
      | _ => false
    else if 0xf0 ≤ b0 ∧ b0 ≤ 0xf4 then
      match rest with
      | b1 :: b2 :: b3 :: rest =>
        isContinuationByte b1 && (b0 != 0xf0 || 0x90 ≤ b1) && (b0 != 0xf4 || b1 ≤ 0x8f)
          && isContinuationByte b2 && isContinuationByte b3 && validUtf8 rest
      | _ => false
    else false

def digitValue (radix : Nat) (b : UInt8) : Option Nat :=
  let value :=
    if ascii '0' ≤ b ∧ b ≤ ascii '9' then some (b.toNat - 48)
    else if ascii 'a' ≤ b ∧ b ≤ ascii 'z' then some (b.toNat - 87)
    else if ascii 'A' ≤ b ∧ b ≤ ascii 'Z' then some (b.toNat - 55)
    else none
  value.filter (· < radix)

/-- `from_str_radix` for an unsigned type below `bound`: one leading plus sign, at
least one digit, no overflow. -/
def parseUnsigned (radix bound : Nat) (text : List UInt8) : Option Nat :=
  let digits := if text.head? = some (ascii '+') then text.tail else text
  if digits = [] then none
  else
    (digits.foldlM (fun value b => do
      let digit ← digitValue radix b
      if value * radix + digit < bound then some (value * radix + digit) else none) 0)

def parseSigned32 (text : List UInt8) : Option Int :=
  if text.head? = some (ascii '-') then
    -- the most negative value has no positive counterpart
    if text.tail.head? = some (ascii '+') then none
    else (parseUnsigned 10 (2 ^ 31 + 1) text.tail).map fun value => -(value : Int)
  else (parseUnsigned 10 (2 ^ 31) text).map Int.ofNat

def decimal (n : Nat) : List UInt8 := (Nat.toDigits 10 n).map ascii

/-! ## Kitty -/

inductive KittyError where
  | invalid (message : String)
  | unsupported (message : String)
  | noSpace (message : String)
  | tooBig (message : String)
  | badMessage (message : String)
  | notFound (message : String)

namespace KittyError

def code : KittyError → String
  | .invalid _ => "EINVAL"
  | .unsupported _ => "ENOTSUP"
  | .noSpace _ => "ENOSPC"
  | .tooBig _ => "E2BIG"
  | .badMessage _ => "EBADMSG"
  | .notFound _ => "ENOENT"

def message : KittyError → String
  | .invalid m | .unsupported m | .noSpace m | .tooBig m | .badMessage m | .notFound m => m

end KittyError

def mapImageError : ImageError → KittyError
  | .unknownContent | .unknownPlacement => .notFound "image object does not exist"
  | .dimensions | .pixelLength | .invalidAnchor | .invalidCrop | .invalidDestination =>
    .invalid "invalid image geometry"
  | .contentBytes | .terminalBytes | .daemonBytes | .contentCount | .placementCount =>
    .noSpace "image resource limit reached"
  | .identityExhausted => .noSpace "image identity exhausted"

namespace Kitty

def maxControlBytes : Nat := 1024
def maxEncodedChunkBytes : Nat := 4096
def maxEncodedUploadBytes : Nat := 8388608
def maxDecodedBytes : Nat := 16777216
def maxExpansionRatio : Nat := 64

inductive Action where
  | transmit
  | transmitAndDisplay
  | display
  | query
  | delete
deriving DecidableEq

inductive Medium where
  | direct
  | unsupported
deriving DecidableEq

inductive Format where
  | rgb
  | rgba
  | png

structure Command where
  action : Action := .transmit
  medium : Medium := .direct
  format : Format := .rgba
  compressed : Bool := false
  more : Bool := false
  imageId : Nat := 0
  placementId : Nat := 0
  quiet : Nat := 0
  width : Option Nat := none
  height : Option Nat := none
  sourceX : Nat := 0
  sourceY : Nat := 0
  sourceWidth : Option Nat := none
  sourceHeight : Option Nat := none
  columns : Option Nat := none
  rows : Option Nat := none
  xOffset : Nat := 0
  yOffset : Nat := 0
  zIndex : Int := 0
  noCursorMove : Bool := false
  deleteSelector : Option UInt8 := none

structure DecodedImage where
  width : Nat
  height : Nat
  format : ImageSourceFormat
  alphaMode : ImageAlphaMode
  pixels : List UInt8

def orFail {α : Type} (error : KittyError) : Option α → Except KittyError α
  | some a => .ok a
  | none => .error error

def parseU32 (value : List UInt8) : Except KittyError Nat := do
  rejectIf (validUtf8 value = false) (.invalid "control value is not ASCII")
  orFail (.invalid "invalid unsigned control value") (parseUnsigned 10 (2 ^ 32) value)

def parseI32 (value : List UInt8) : Except KittyError Int := do
  rejectIf (validUtf8 value = false) (.invalid "control value is not ASCII")
  orFail (.invalid "invalid signed control value") (parseSigned32 value)

def parseBool (value : List UInt8) : Except KittyError Bool :=
  if value = [ascii '0'] then .ok false
  else if value = [ascii '1'] then .ok true
  else .error (.invalid "expected zero or one")

def parseAction (value : UInt8) : Except KittyError Action :=
  if value = ascii 't' then .ok .transmit
  else if value = ascii 'T' then .ok .transmitAndDisplay
  else if value = ascii 'p' then .ok .display
  else if value = ascii 'q' then .ok .query
  else if value = ascii 'd' then .ok .delete
  else .error (.unsupported "unsupported action")

def applyField (command : Command) (key : UInt8) (value : List UInt8) : Except KittyError Command :=
  if key = ascii 'a' ∧ value.length = 1 then do
    pure { command with action := ← parseAction (value.headD 0) }
  else if key = ascii 't' ∧ value.length = 1 then
    .ok { command with
      medium := if value.headD 0 = ascii 'd' then .direct else .unsupported }
  else if key = ascii 'f' then do
    let format ← parseU32 value
    if format = 24 then pure { command with format := .rgb }
    else if format = 32 then pure { command with format := .rgba }
    else if format = 100 then pure { command with format := .png }
    else .error (.unsupported "unsupported pixel format")
  else if key = ascii 'o' then
    if value = [ascii 'z'] then .ok { command with compressed := true }
    else .error (.unsupported "unsupported compression")
  else if key = ascii 'm' then do pure { command with more := ← parseBool value }
  else if key = ascii 'i' then do pure { command with imageId := ← parseU32 value }
  else if key = ascii 'p' then do pure { command with placementId := ← parseU32 value }
  else if key = ascii 'q' then do
    let quiet ← parseU32 value
    rejectIf (256 ≤ quiet) (.invalid "invalid quiet mode")
    pure { command with quiet }
  else if key = ascii 's' then do pure { command with width := some (← parseU32 value) }
  else if key = ascii 'v' then do pure { command with height := some (← parseU32 value) }
  else if key = ascii 'x' then do pure { command with sourceX := ← parseU32 value }
  else if key = ascii 'y' then do pure { command with sourceY := ← parseU32 value }
  else if key = ascii 'w' then do pure { command with sourceWidth := some (← parseU32 value) }
  else if key = ascii 'h' then do pure { command with sourceHeight := some (← parseU32 value) }
  else if key = ascii 'c' then do pure { command with columns := some (← parseU32 value) }
  else if key = ascii 'r' then do pure { command with rows := some (← parseU32 value) }
  else if key = ascii 'X' then do
    let offset ← parseU32 value
    rejectIf (2 ^ 31 ≤ offset) (.invalid "cell offset is too large")
    pure { command with xOffset := offset }
  else if key = ascii 'Y' then do
    let offset ← parseU32 value
    rejectIf (2 ^ 31 ≤ offset) (.invalid "cell offset is too large")
    pure { command with yOffset := offset }
  else if key = ascii 'z' then do pure { command with zIndex := ← parseI32 value }
  else if key = ascii 'C' then do pure { command with noCursorMove := ← parseBool value }
  else if key = ascii 'd' ∧ value.length = 1 then
    .ok { command with deleteSelector := some (value.headD 0) }
  else if key ∈ [ascii 'U', ascii 'P', ascii 'Q', ascii 'H', ascii 'V'] then
    .error (.unsupported "unsupported placement mode")
  else .error (.unsupported "unsupported control field")

def splitField (field : List UInt8) : Option (List UInt8 × List UInt8) :=
  (field.findIdx? (· = ascii '=')).map fun separator => (field.take separator, field.drop (separator + 1))

def parseFields : List (List UInt8) → List UInt8 → Command → Except KittyError Command
  | [], _, command => .ok command
  | field :: fields, seen, command => do
    let (key, value) ← orFail (.invalid "malformed control field") (splitField field)
    rejectIf (key.length ≠ 1 ∨ value = []) (.invalid "malformed control field")
    let key := key.headD 0
    rejectIf (key ∈ seen) (.invalid "duplicate control field")
    let command ← applyField command key value
    parseFields fields (key :: seen) command

def parseControl (control : List UInt8) (truncated : Bool) : Except KittyError Command := do
  rejectIf (truncated = true ∨ maxControlBytes < control.length)
    (.tooBig "control data exceeds limit")
  if control = [] then pure {}
  else
    let command ← parseFields (control.splitOn (ascii ',')) [] {}
    rejectIf (2 < command.quiet) (.invalid "invalid quiet mode")
    pure command

def premultiply (value alpha : UInt8) : UInt8 :=
  UInt8.ofNat ((value.toNat * alpha.toNat + 127) / 255)

variable (ext : External)

def decodeBase64Payload (encoded : List UInt8) (encodedLimit decodedLimit : Nat) : Except KittyError (List UInt8) := do
  rejectIf (encodedLimit < encoded.length) (.tooBig "encoded payload exceeds limit")
  let decoded ← orFail (.badMessage "invalid base64 payload") (ext.base64Decode encoded)
  rejectIf (decodedLimit < decoded.length) (.tooBig "decoded chunk exceeds limit")
  pure decoded

/-- Premultiplied BGRA bytes of one RGB or RGBA pixel. -/
def bgra (r g b alpha : UInt8) : List UInt8 :=
  [premultiply b alpha, premultiply g alpha, premultiply r alpha, alpha]

def fromRgb : List UInt8 → List UInt8
  | r :: g :: b :: rest => bgra r g b 255 ++ fromRgb rest
  | _ => []

def fromRgba : List UInt8 → List UInt8
  | r :: g :: b :: a :: rest => bgra r g b a ++ fromRgba rest
  | _ => []

def fromGrayscale (bytes : List UInt8) : List UInt8 :=
  bytes.flatMap fun value => [value, value, value, 255]

def fromGrayscaleAlpha : List UInt8 → List UInt8
  | value :: alpha :: rest =>
    let value := premultiply value alpha
    [value, value, value, alpha] ++ fromGrayscaleAlpha rest
  | _ => []

def decodeRaw (command : Command) (bytes : List UInt8) (channels : Nat)
    (format : ImageSourceFormat) : Except KittyError DecodedImage := do
  let width ← orFail (.invalid "raw width is required") (command.width.filter (0 < ·))
  let height ← orFail (.invalid "raw height is required") (command.height.filter (0 < ·))
  rejectIf (4096 < width ∨ 4096 < height) (.tooBig "raw dimensions exceed limit")
  rejectIf (4194304 < width * height) (.tooBig "raw dimensions exceed limit")
  rejectIf (bytes.length ≠ width * height * channels) (.badMessage "raw byte length mismatch")
  rejectIf (maxDecodedBytes < width * height * 4) (.tooBig "decoded image exceeds limit")
  pure
    { width
      height
      format
      alphaMode := if channels = 4 then .premultiplied else .opaqueAlpha
      pixels := if channels = 4 then fromRgba bytes else fromRgb bytes }

def decodePng (bytes : List UInt8) : Except KittyError DecodedImage := do
  let reader ← orFail (.badMessage "invalid PNG") (ext.png bytes)
  rejectIf (reader.width = 0 ∨ reader.height = 0 ∨ 4096 < reader.width ∨ 4096 < reader.height
    ∨ 4194304 < reader.width * reader.height) (.tooBig "PNG dimensions exceed limit")
  let outputSize ← orFail (.tooBig "PNG output size unavailable") reader.outputBufferSize
  rejectIf (maxDecodedBytes < outputSize) (.tooBig "PNG output exceeds limit")
  let frame ← orFail (.badMessage "invalid PNG data") reader.frame
  rejectIf (maxDecodedBytes < frame.width * frame.height * 4) (.tooBig "decoded PNG exceeds limit")
  let pixels ← match frame.colorType with
    | .rgb => .ok (fromRgb frame.bytes)
    | .rgba => .ok (fromRgba frame.bytes)
    | .grayscale => .ok (fromGrayscale frame.bytes)
    | .grayscaleAlpha => .ok (fromGrayscaleAlpha frame.bytes)
    | .indexed => .error (.badMessage "PNG palette was not expanded")
  pure
    { width := frame.width
      height := frame.height
      format := .kittyPng
      alphaMode := if frame.colorType = .rgba ∨ frame.colorType = .grayscaleAlpha
        then .premultiplied else .opaqueAlpha
      pixels }

def decodeImage (command : Command) (bytes : List UInt8) : Except KittyError DecodedImage := do
  rejectIf (command.medium ≠ .direct) (.unsupported "unsupported transmission medium")
  let bytes ←
    if command.compressed then do
      let expansionLimit := min (bytes.length * maxExpansionRatio) maxDecodedBytes
      let decoded ← orFail (.badMessage "invalid zlib payload")
        (ext.inflate bytes (expansionLimit + 1))
      rejectIf (expansionLimit < decoded.length)
        (.tooBig "compressed payload expands beyond limit")
      pure decoded
    else pure bytes
  match command.format with
  | .rgb => decodeRaw command bytes 3 .kittyRgb
  | .rgba => decodeRaw command bytes 4 .kittyRgba
  | .png => decodePng ext bytes

end Kitty

/-! ## iTerm2 -/

namespace Iterm

def maxMetadataBytes : Nat := 1024
def maxEncodedBytes : Nat := 8388608

inductive Extent where
  | auto
  | cells (cells : Nat)
  | pixels (pixels : Nat)
  | percent (percent : Nat)

structure Command where
  width : Extent := .auto
  height : Extent := .auto
  preserveAspectRatio : Bool := true
  doNotMoveCursor : Bool := false
  declaredSize : Option Nat := none

open Kitty (orFail DecodedImage)

def parseBool (value : List UInt8) : Except KittyError Bool :=
  if value = [ascii '0'] then .ok false
  else if value = [ascii '1'] then .ok true
  else .error (.invalid "invalid iTerm2 boolean")

def parseU32 (value : List UInt8) : Except KittyError Nat := do
  rejectIf (validUtf8 value = false) (.invalid "non-ASCII iTerm2 number")
  orFail (.invalid "invalid iTerm2 number") (parseUnsigned 10 (2 ^ 32) value)

/-- A nonzero extent of one kind. -/
def positive (make : Nat → Extent) (value : List UInt8) : Except KittyError Extent := do
  let value ← parseU32 value
  rejectIf (value = 0) (.invalid "iTerm2 extent must be non-zero")
  pure (make value)

def stripSuffix (suffix value : List UInt8) : Option (List UInt8) :=
  if suffix.isSuffixOf value then some (value.take (value.length - suffix.length)) else none

def parseExtent (value : List UInt8) : Except KittyError Extent :=
  if value = asciiText "auto" then .ok .auto
  else
    match stripSuffix (asciiText "px") value with
    | some pixels => positive .pixels pixels
    | none =>
      match stripSuffix (asciiText "%") value with
      | some percent => positive .percent percent
      | none => positive .cells value

variable (ext : External)

/-- The fields seen so far and what they said. -/
structure Metadata where
  command : Command := {}
  inlined : Bool := false
  seen : List (List UInt8) := []

def applyField (metadata : Metadata) (key value : List UInt8) : Except KittyError Metadata :=
  let metadata := { metadata with seen := key :: metadata.seen }
  if key = asciiText "inline" then do pure { metadata with inlined := ← parseBool value }
  else if key = asciiText "width" then do
    pure { metadata with command := { metadata.command with width := ← parseExtent value } }
  else if key = asciiText "height" then do
    pure { metadata with command := { metadata.command with height := ← parseExtent value } }
  else if key = asciiText "preserveAspectRatio" then do
    pure { metadata with
      command := { metadata.command with preserveAspectRatio := ← parseBool value } }
  else if key = asciiText "doNotMoveCursor" then do
    pure { metadata with command := { metadata.command with doNotMoveCursor := ← parseBool value } }
  else if key = asciiText "size" then do
    pure { metadata with
      command := { metadata.command with declaredSize := some (← parseU32 value) } }
  else if key = asciiText "name" then
    -- the name is checked as base64 and then discarded
    match ext.base64Decode value with
    | some _ => .ok metadata
    | none => .error (.badMessage "invalid iTerm2 name")
  else .error (.unsupported "unsupported iTerm2 metadata")

def parseFields : List (List UInt8) → Metadata → Except KittyError Metadata
  | [], metadata => .ok metadata
  | field :: fields, metadata =>
    if field = [] then parseFields fields metadata
    else do
      let (key, value) ← orFail (.invalid "malformed iTerm2 metadata") (Kitty.splitField field)
      rejectIf (key = [] ∨ value = [] ∨ key ∈ metadata.seen) (.invalid "malformed iTerm2 metadata")
      let metadata ← applyField ext metadata key value
      parseFields fields metadata

def parseMetadata (metadata : List UInt8) (truncated : Bool) : Except KittyError Command := do
  rejectIf (truncated = true ∨ maxMetadataBytes < metadata.length)
    (.tooBig "iTerm2 metadata exceeds limit")
  let parsed ← parseFields ext (metadata.splitOn (ascii ';')) {}
  rejectIf (parsed.inlined = false) (.unsupported "iTerm2 download transfer is disabled")
  pure parsed.command

def decodePngPayload (encoded : List UInt8) (declaredSize : Option Nat) : Except KittyError DecodedImage := do
  let decoded ← Kitty.decodeBase64Payload ext encoded maxEncodedBytes Kitty.maxDecodedBytes
  rejectIf (declaredSize.any (· ≠ decoded.length) = true)
    (.badMessage "iTerm2 declared size mismatch")
  let image ← Kitty.decodePng ext decoded
  pure { image with format := .iterm2 }

def checked128 (value : Nat) : Except KittyError Nat := do
  rejectIf (2 ^ 128 ≤ value) (.tooBig "iTerm2 destination extent overflow")
  pure value

/-- Pixels a requested extent stands for. -/
def requested (extent : Extent) (source cell screenCells : Nat) : Except KittyError Nat :=
  match extent with
  | .auto => .ok source
  | .cells cells => checked128 (cells * cell)
  | .pixels pixels => .ok pixels
  | .percent percent => do
    let scaled ← checked128 (screenCells * cell * percent + 99)
    pure (scaled / 100)

def scaleUp (value numerator denominator : Nat) : Except KittyError Nat := do
  let product ← checked128 (value * numerator + (denominator - 1))
  pure (product / denominator)

/-- Pixels to whole cells, at least one and within the machine word. -/
def cellsOf (pixels cell : Nat) : Except KittyError Nat := do
  let padded ← checked128 (pixels + (cell - 1))
  rejectIf (2 ^ 64 ≤ padded / cell ∨ padded / cell = 0)
    (.tooBig "iTerm2 destination extent overflow")
  pure (padded / cell)

def destinationPixels (command : Command) (sourceWidth sourceHeight width height : Nat) :
    Except KittyError (Nat × Nat) :=
  if command.preserveAspectRatio = false then .ok (width, height)
  else
    match command.width, command.height with
    | .auto, .auto => .ok (width, height)
    | .auto, _ => do pure (← scaleUp height sourceWidth sourceHeight, height)
    | _, .auto => do pure (width, ← scaleUp width sourceHeight sourceWidth)
    | _, _ => do
      let byWidth ← checked128 (width * sourceHeight)
      let byHeight ← checked128 (height * sourceWidth)
      if byWidth ≤ byHeight then pure (width, ← scaleUp width sourceHeight sourceWidth)
      else pure (← scaleUp height sourceWidth sourceHeight, height)

def destinationExtent (command : Command) (sourceWidth sourceHeight cellWidth cellHeight
    screenColumns screenRows : Nat) : Except KittyError (Nat × Nat) := do
  let width ← requested command.width sourceWidth cellWidth screenColumns
  let height ← requested command.height sourceHeight cellHeight screenRows
  let (width, height) ← destinationPixels command sourceWidth sourceHeight width height
  let columns ← cellsOf width cellWidth
  let rows ← cellsOf height cellHeight
  pure (columns, rows)

end Iterm

end Splinterm.Terminal
