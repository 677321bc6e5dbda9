import Splinterm.Terminal.Screen

/-!
# Control sequences

Rendition, private modes, device reports, operating-system commands and the
dispatch of escape and control sequences to them and to the screen commands.
-/

namespace Splinterm.Terminal

set_option linter.dupNamespace false

open Lib Hoare

/-- `Color::new`, which asserts the 24-bit bound. -/
def Color.new (source : ColorSource) (value : Nat) : Except Fault Color :=
  if h : value < 2 ^ 24 then .ok ⟨source, value, h⟩ else .error .panic

/-- `0xRRGGBB`. -/
def packRgb (red green blue : Nat) : Nat := red * 2 ^ 16 + green * 2 ^ 8 + blue

/-! ## Rendition -/

/-- A color given by subparameters of one parameter. -/
def subparameterColor (param : Param) : Option (ColorSource × Nat) := do
  let kind ← param.subparam 0
  if kind = 5 then pure (.base256, min (← param.subparam 1) 255)
  else if kind = 2 then
    let red ← param.subparam 2
    let green ← param.subparam 3
    let blue ← param.subparam 4
    pure (.rgb, packRgb (min red 255) (min green 255) (min blue 255))
  else none

/-- The color of an extended rendition code and how many parameters it takes. -/
def extendedColor (params : Params) (index : Nat) : Option ((ColorSource × Nat) × Nat) :=
  let value := fun offset => (params.get (index + offset)).valueOr 0 false
  if 0 < (params.get index).subparamCount then
    (subparameterColor (params.get index)).map (·, 0)
  else if value 1 = 5 ∧ index + 2 < params.count then some ((.base256, min (value 2) 255), 2)
  else if value 1 = 2 ∧ index + 4 < params.count then
    some ((.rgb, packRgb (min (value 2) 255) (min (value 3) 255) (min (value 4) 255)), 4)
  else none

def underlineStyleOf (param : Param) : UnderlineStyle :=
  match (param.subparam 0).getD 1 with
  | 0 => .none
  | 2 => .double
  | 3 => .curly
  | 4 => .dotted
  | 5 => .dashed
  | _ => .single

/-- One rendition code: the attributes after it and the parameters it consumed
besides its own. -/
def sgrCode (params : Params) (index : Nat) (a : Attributes) : Except Fault (Attributes × Nat) := do
  let param := params.get index
  let code := param.valueOr 0 false
  if 30 ≤ code ∧ code ≤ 37 then
    pure ({ a with foreground := ← Color.new .base16 (code - 30) }, 0)
  else if 40 ≤ code ∧ code ≤ 47 then
    pure ({ a with background := ← Color.new .base16 (code - 40) }, 0)
  else if 90 ≤ code ∧ code ≤ 97 then
    pure ({ a with foreground := ← Color.new .base16 (code - 90 + 8) }, 0)
  else if 100 ≤ code ∧ code ≤ 107 then
    pure ({ a with background := ← Color.new .base16 (code - 100 + 8) }, 0)
  else if code = 38 ∨ code = 48 ∨ code = 58 then
    match extendedColor params index with
    | none => pure (a, 0)
    | some ((source, value), consumed) =>
      let color ← Color.new source value
      pure (if code = 38 then { a with foreground := color }
        else if code = 48 then { a with background := color }
        else { a with underlineColor := color }, consumed)
  else
    pure (match code with
      | 0 => {}
      | 1 => { a with bold := true }
      | 2 => { a with dim := true }
      | 3 => { a with italic := true }
      | 4 => { a with underlineStyle := underlineStyleOf param }
      | 5 => { a with blink := true }
      | 7 => { a with reverse := true }
      | 8 => { a with conceal := true }
      | 9 => { a with strikethrough := true }
      | 21 => { a with underlineStyle := .double }
      | 22 => { a with bold := false, dim := false }
      | 23 => { a with italic := false }
      | 24 => { a with underlineStyle := .none }
      | 25 => { a with blink := false }
      | 27 => { a with reverse := false }
      | 28 => { a with conceal := false }
      | 29 => { a with strikethrough := false }
      | 39 => { a with foreground := default }
      | 49 => { a with background := default }
      | 59 => { a with underlineColor := default }
      | _ => a, 0)

/-- The codes from `index` on; every turn moves right, so `fuel` at least the
number of parameters reads them all. -/
def sgrFrom (params : Params) : Nat → Nat → Attributes → Except Fault Attributes
  | 0, _, a => .ok a
  | fuel + 1, index, a =>
    if index < params.count then do
      let (a, consumed) ← sgrCode params index a
      sgrFrom params fuel (index + consumed + 1) a
    else .ok a

/-! ## Texts of replies -/

def escapeByte : UInt8 := 0x1b

/-- Decimal digits of a signed number. -/
def decimalInt (n : Int) : List UInt8 :=
  if n < 0 then ascii '-' :: decimal n.natAbs else decimal n.natAbs

/-- Two lower-case hexadecimal digits, printed twice. -/
def hexTwice (value : Nat) : List UInt8 :=
  let digits := [ascii (Nat.digitChar (value / 16 % 16)), ascii (Nat.digitChar (value % 16))]
  digits ++ digits

def StringTerminator.suffix : StringTerminator → List UInt8
  | .bell => [0x07]
  | .stringTerminator => [escapeByte, ascii '\\']

/-- `]..;rgb:RRRR/GGGG/BBBB` with the terminator of the request. -/
def colorReply (command : List UInt8) (color : Nat) (terminator : StringTerminator) : List UInt8 :=
  escapeByte :: ascii ']' :: command ++ asciiText ";rgb:"
    ++ hexTwice (color / 2 ^ 16 % 256) ++ [ascii '/'] ++ hexTwice (color / 2 ^ 8 % 256)
    ++ [ascii '/'] ++ hexTwice (color % 256) ++ terminator.suffix

/-! ## Color specifications -/

/-- A hexadecimal component of one to four digits scaled to eight bits. -/
def rgbComponent (value : List UInt8) : Option Nat :=
  if value = [] ∨ 4 < value.length then none
  else do
    let raw ← parseUnsigned 16 (2 ^ 32) value
    let limit := 2 ^ (value.length * 4) - 1
    pure ((raw * 255 + limit / 2) / limit)

/-- Twelve bits `0xRGB` with every digit doubled. -/
def widenRgb (value : Nat) : Nat :=
  packRgb (value / 2 ^ 8 % 16 * 17) (value / 2 ^ 4 % 16 * 17) (value % 16 * 17)

def parseRgb (spec : List UInt8) : Option Nat :=
  if spec.head? = some (ascii '#') then
    let hex := spec.tail
    if hex.length = 3 then (parseUnsigned 16 (2 ^ 32) hex).map widenRgb
    else if hex.length = 6 then parseUnsigned 16 (2 ^ 32) hex
    else none
  else if (asciiText "rgb:").isPrefixOf spec then
    match (spec.drop 4).splitOn (ascii '/') with
    | red :: green :: blue :: _ => do
      let red ← rgbComponent red
      let green ← rgbComponent green
      let blue ← rgbComponent blue
      pure (packRgb red green blue)
    | _ => none
  else none

/-- Splits at the first semicolon; without one the rest is empty. -/
def splitCommand (text : List UInt8) : List UInt8 × List UInt8 :=
  (text.takeWhile (· ≠ ascii ';'), (text.dropWhile (· ≠ ascii ';')).tail)

/-- Fields in pairs, an odd last one dropped. -/
def fieldPairs : List (List UInt8) → List (List UInt8 × List UInt8)
  | first :: second :: rest => (first, second) :: fieldPairs rest
  | _ => []

namespace Terminal

def sgr (params : Params) : TerminalM Unit := do
  let t ← get
  if params.count = 0 then set { t with attributes := {} }
  else
    let attributes ← fromResult (sgrFrom params params.count 0 t.attributes)
    set { t with attributes }

/-! ## Reports -/

def reply (bytes : List UInt8) : TerminalM Unit := emit (.ptyWrite bytes)

def csiReply (body : List UInt8) : TerminalM Unit := reply (escapeByte :: ascii '[' :: body)

def deviceStatus («private» : Option UInt8) (code : Nat) : TerminalM Unit := do
  let t ← get
  if «private» = none ∧ code = 5 then csiReply (asciiText "0n")
  else if («private» = none ∨ «private» = some (ascii '?')) ∧ code = 6 then
    let position := t.grid.cursor.position
    -- a restored cursor may stand above the region, and the report is then negative
    let row : Int := if t.modes.origin then (position.row : Int) - t.scrollRegion.start
      else position.row
    csiReply ((if «private» = none then [] else [ascii '?']) ++ decimalInt (row + 1)
      ++ [ascii ';'] ++ decimal (position.column + 1) ++ [ascii 'R'])

def deviceAttributes («private» : Option UInt8) : TerminalM Unit := do
  let t ← get
  if «private» = none then
    csiReply (asciiText (if t.config.sixel.enabled then "?62;4;22c" else "?62;22c"))
  else if «private» = some (ascii '>') then csiReply (asciiText ">0;1;0c")

def reportSixelColors (count : Nat) : TerminalM Unit :=
  csiReply (asciiText "?1;0;" ++ decimal count ++ [ascii 'S'])

def reportSixelGeometry (maximum : Bool) : TerminalM Unit := do
  let t ← get
  let extent := fun (cells pixels bound : Nat) =>
    min (SixelDecoder.saturate32 (SixelDecoder.saturate32 cells * pixels)) bound
  let width := if maximum then t.sixelMaximumWidth
    else extent t.grid.columns ((t.cellPixels.map (·.width)).getD 0) t.sixelMaximumWidth
  let height := if maximum then t.sixelMaximumHeight
    else extent t.grid.screenRows ((t.cellPixels.map (·.height)).getD 0) t.sixelMaximumHeight
  csiReply (asciiText "?2;0;" ++ decimal width ++ [ascii ';'] ++ decimal height ++ [ascii 'S'])

def xtsmgraphics (params : Params) : TerminalM Unit := do
  let t ← get
  let value := fun index => (params.get index).valueOr 0 false
  let dimension := t.config.imageLimits.maximumDimension
  match value 0, value 1 with
  | 1, 1 => reportSixelColors t.sixelPaletteSize
  | 1, 2 =>
    set { t with sixelPaletteSize := maxSixelColors }
    reportSixelColors maxSixelColors
  | 1, 3 =>
    let size := clampNat 2 maxSixelColors (value 2)
    set { t with sixelPaletteSize := size }
    reportSixelColors size
  | 1, 4 => reportSixelColors maxSixelColors
  | 2, 1 => reportSixelGeometry false
  | 2, 2 =>
    set { t with sixelMaximumWidth := dimension, sixelMaximumHeight := dimension }
    reportSixelGeometry false
  | 2, 3 =>
    set { t with
      sixelMaximumWidth := min (value 2) dimension
      sixelMaximumHeight := min (value 3) dimension }
    reportSixelGeometry false
  | 2, 4 => reportSixelGeometry true
  | _, _ => pure ()

/-! ## Tab stops -/

def setTabStop (column : Nat) (stop : Bool) : TerminalM Unit := do
  let t ← get
  ensure (column < t.tabStops.length) .panic
  set { t with tabStops := t.tabStops.set column stop }

def clearTabs (mode : Nat) : TerminalM Unit := do
  let t ← get
  if mode = 0 then setTabStop t.grid.cursor.position.column false
  else if mode = 3 then set { t with tabStops := t.tabStops.map fun _ => false }

/-! ## Operating-system commands -/

def defaultColorSlot (commands : List String) (command : List UInt8) : Option Nat :=
  commands.findIdx? fun candidate => asciiText candidate = command

def setPaletteEntry (index color : Nat) : TerminalM Unit := do
  let t ← get
  ensure (index < t.palette.length) .panic
  set { t with palette := t.palette.set index color }
  emit (.paletteChanged index color)

def setDefaultColor (slot color : Nat) : TerminalM Unit := do
  let t ← get
  ensure (slot < t.defaultColors.length) .panic
  set { t with defaultColors := t.defaultColors.set slot color }
  emit (.paletteChanged (256 + slot) color)

def oscPalette (data : List UInt8) (terminator : StringTerminator) : TerminalM Unit :=
  (fieldPairs (data.splitOn (ascii ';'))).forM fun field => do
    match (parseUnsigned 10 (2 ^ 64) field.1).filter (· < 256) with
    | none => pure ()
    | some index =>
      if field.2 = asciiText "?" then
        let t ← get
        let color ← okOr .panic t.palette[index]?
        reply (colorReply (asciiText "4;" ++ decimal index) color terminator)
      else
        match parseRgb field.2 with
        | some color => setPaletteEntry index color
        | none => pure ()

def resetPalette (data : List UInt8) : TerminalM Unit := do
  let t ← get
  if data = [] then set { t with palette := t.initialPalette }
  else
    (data.splitOn (ascii ';')).forM fun field => do
      match (parseUnsigned 10 (2 ^ 64) field).filter (· < 256) with
      | none => pure ()
      | some index =>
        let color ← okOr .panic t.initialPalette[index]?
        setPaletteEntry index color

def osc (payload : List UInt8) (terminator : StringTerminator) : TerminalM Unit :=
  whenever (validUtf8 payload = true) do
    let command := (splitCommand payload).1
    let data := (splitCommand payload).2
    if command = asciiText "0" ∨ command = asciiText "2" then
      modify fun t => { t with title := data }
      emit (.titleChanged data)
    else if command = asciiText "4" then oscPalette data terminator
    else if command = asciiText "104" then resetPalette data
    else
      match defaultColorSlot ["10", "11", "12"] command with
      | some slot =>
        if data = asciiText "?" then
          let t ← get
          let color ← okOr .panic t.defaultColors[slot]?
          reply (colorReply command color terminator)
        else
          match parseRgb data with
          | some color => setDefaultColor slot color
          | none => pure ()
      | none =>
        match defaultColorSlot ["110", "111", "112"] command with
        | some slot =>
          let t ← get
          let color ← okOr .panic t.initialDefaultColors[slot]?
          setDefaultColor slot color
        | none => pure ()

/-! ## Screens, modes and reset -/

/-- `clamp_position`: the position moved onto the grid's screen. -/
def clampPosition (g : Grid) (position : Coordinate) : Coordinate :=
  ⟨min position.column (g.columns - 1), min position.row (g.screenRows - 1)⟩

def onAlternate {α : Type} (m : GridM α) : TerminalM α :=
  zoom alternate (fun g t => { t with alternate := g }) m

def onNormal {α : Type} (m : GridM α) : TerminalM α :=
  zoom normal (fun g t => { t with normal := g }) m

def enterAlternate (saveRestore : Bool) : TerminalM Unit := do
  whenever (saveRestore = true) saveCursor
  let t ← get
  let position := t.normal.cursor.position
  onAlternate (modify (Grid.resetVisible t.background))
  onPlane (ImagePlane.clearScreen .alternate)
  modify fun t => { t with kittyImageIds := t.kittyImageIds.clear .alternate }
  onAlternate (Grid.setCursor { position := clampPosition t.alternate position })
  modify fun t => { t with active := .alternate }

def leaveAlternate (saveRestore : Bool) : TerminalM Unit := do
  let t ← get
  let position := t.alternate.cursor.position
  set { t with active := .normal }
  onNormal (Grid.setCursor { position := clampPosition t.normal position })
  whenever (saveRestore = true) restoreCursor

def selectAlternate (enabled saveRestore : Bool) : TerminalM Unit := do
  let t ← get
  if enabled = true ∧ t.active = .normal then enterAlternate saveRestore
  else if enabled = false ∧ t.active = .alternate then leaveAlternate saveRestore

/-- An edit of the mode flags alone. -/
def modifyModes (edit : TerminalModes → TerminalModes) : TerminalM Unit :=
  modify fun t => { t with modes := edit t.modes }

/-- Mouse tracking set to `mode`, or switched off when it was `mode`. -/
def trackMouse (mode : MouseTracking) (enabled : Bool) : TerminalM Unit :=
  modifyModes fun m =>
    { m with
      mouseTracking :=
        if enabled then mode else if m.mouseTracking = mode then .none else m.mouseTracking }

def setPrivateMode (mode : Nat) (enabled : Bool) : TerminalM Unit := do
  let t ← get
  match mode with
  | 1 => modifyModes fun m => { m with applicationCursor := enabled }
  | 5 => modifyModes fun m => { m with reverseVideo := enabled }
  | 6 =>
    modifyModes fun m => { m with origin := enabled }
    setCursor { position := ⟨0, if enabled then t.scrollRegion.start else 0⟩ }
  | 7 =>
    modifyModes fun m => { m with autoMargin := enabled }
    setCursor t.grid.cursor.unwrapped
  | 12 => modifyModes fun m => { m with cursorBlink := enabled }
  | 25 => modifyModes fun m => { m with cursorVisible := enabled }
  | 45 => modifyModes fun m => { m with reverseWrap := enabled }
  | 47 | 1047 => selectAlternate enabled false
  | 66 => modifyModes fun m => { m with applicationKeypad := enabled }
  | 80 => set { t with sixelScrolling := !enabled }
  | 1000 => trackMouse .normal enabled
  | 1002 => trackMouse .button enabled
  | 1003 => trackMouse .any enabled
  | 1004 => modifyModes fun m => { m with focusReporting := enabled }
  | 1006 => modifyModes fun m => { m with sgrMouse := enabled }
  | 1048 => if enabled then saveCursor else restoreCursor
  | 1049 => selectAlternate enabled true
  | 1070 => set { t with sixelPaletteMode := if enabled then .privatePalette else .shared }
  | 2004 => modifyModes fun m => { m with bracketedPaste := enabled }
  | 2026 => set { t with synchronizedUpdates := enabled }
  | 8452 => set { t with sixelCursorRight := enabled }
  | _ => pure ()

def setPrivateModes (params : Params) (enabled : Bool) : TerminalM Unit :=
  (List.range (max params.count 1)).forM fun index => setPrivateMode ((params.get index).valueOr 0 false) enabled

/-- `reset`: a new terminal that keeps the identities already handed out, the
cell geometry, the undrained events and the transaction it runs in. -/
def reset : TerminalM Unit := do
  let t ← get
  let fresh ← fromResult (Terminal.new t.grid.columns t.grid.screenRows t.config)
  set { fresh with
    normal := fresh.normal.continueHistoryNamespace t.normal.historyNamespace
    alternate := fresh.alternate.continueHistoryNamespace t.alternate.historyNamespace
    cellPixels := t.cellPixels
    events := t.events
    eventOverflowed := t.eventOverflowed
    revision := t.revision
    outbox := t.outbox
    currentChange := t.currentChange
    -- the budgets are shared with others and go on answering where they were
    images := { fresh.images with admissions := t.images.admissions }
    uploadAdmissions := t.uploadAdmissions }

/-! ## Dispatch -/

def execute (b : UInt8) : TerminalM Unit :=
  if b = 0x07 then emit .bell
  else if b = 0x08 then backspace
  else if b = 0x09 then tab 1 true
  else if 0x0a ≤ b ∧ b ≤ 0x0c then lineFeed
  else if b = 0x0d then carriageReturn
  else pure ()

def esc (intermediates : List UInt8) (finalByte : UInt8) : TerminalM Unit :=
  whenever (intermediates = []) do
    if finalByte = ascii '7' then saveCursor
    else if finalByte = ascii '8' then restoreCursor
    else if finalByte = ascii 'D' then lineFeed
    else if finalByte = ascii 'E' then
      carriageReturn
      lineFeed
    else if finalByte = ascii 'H' then
      let t ← get
      setTabStop t.grid.cursor.position.column true
    else if finalByte = ascii 'M' then reverseIndex
    else if finalByte = ascii 'c' then reset
    else if finalByte = ascii '=' then modifyModes fun m => { m with applicationKeypad := true }
    else if finalByte = ascii '>' then modifyModes fun m => { m with applicationKeypad := false }

/-- The control sequences without a private marker of their own meaning. -/
def csiCommand («private» : Option UInt8) (params : Params) (finalByte : UInt8) : TerminalM Unit := do
  let p := params.get 0
  let value := p.valueOr 0 false
  if finalByte = ascii 'A' then moveCursor 0 (-(p.count : Int))
  else if finalByte = ascii 'B' ∨ finalByte = ascii 'e' then moveCursor 0 p.count
  else if finalByte = ascii 'C' ∨ finalByte = ascii 'a' then moveCursor p.count 0
  else if finalByte = ascii 'D' then moveCursor (-(p.count : Int)) 0
  else if finalByte = ascii 'E' then
    moveCursor 0 p.count
    carriageReturn
  else if finalByte = ascii 'F' then
    moveCursor 0 (-(p.count : Int))
    carriageReturn
  else if finalByte = ascii 'G' ∨ finalByte = 0x60 then setColumn (p.count - 1)
  else if finalByte = ascii 'd' then setRow (p.count - 1)
  else if finalByte = ascii 'H' ∨ finalByte = ascii 'f' then setPosition params
  else if finalByte = ascii 'J' then eraseDisplay value
  else if finalByte = ascii 'K' then eraseLine value
  else if finalByte = ascii '@' then insertCharacters p
  else if finalByte = ascii 'P' then deleteCharacters p
  else if finalByte = ascii 'X' then eraseCharacters p
  else if finalByte = ascii 'L' then insertLines p
  else if finalByte = ascii 'M' then deleteLines p
  else if finalByte = ascii 'S' then scrollLines .forward p
  else if finalByte = ascii 'T' then scrollLines .reverse p
  else if finalByte = ascii 'I' then tab p.count true
  else if finalByte = ascii 'Z' then tab p.count false
  else if finalByte = ascii 'g' then clearTabs value
  else if (finalByte = ascii 'h' ∨ finalByte = ascii 'l') ∧ value = 4 then
    modifyModes fun m => { m with insert := finalByte = ascii 'h' }
  else if finalByte = ascii 'm' then sgr params
  else if finalByte = ascii 'r' then setScrollRegion params
  else if finalByte = ascii 's' then saveCursor
  else if finalByte = ascii 'u' then restoreCursor
  else if finalByte = ascii 'n' then deviceStatus «private» value
  else if finalByte = ascii 'c' then deviceAttributes «private»

def csi («private» : Option UInt8) (intermediates : List UInt8) (params : Params)
    (finalByte : UInt8) : TerminalM Unit := do
  let setOrReset := finalByte = ascii 'h' ∨ finalByte = ascii 'l'
  if intermediates ≠ [] then emit (.unsupportedSequence "CSI intermediate")
  else if «private» = some (ascii '?') ∧ setOrReset then
    setPrivateModes params (finalByte = ascii 'h')
  -- the reversed, non-private frame markers of one known program
  else if «private» = none ∧ setOrReset ∧ params.count = 1
      ∧ (params.get 0).valueOr 0 false = 2026 then
    modify fun t => { t with synchronizedUpdates := finalByte = ascii 'l' }
  else if «private» = some (ascii '?') ∧ finalByte = ascii 'S' then xtsmgraphics params
  else if «private» = none ∨ finalByte = ascii 'c'
      ∨ («private» = some (ascii '?') ∧ finalByte = ascii 'n') then
    csiCommand «private» params finalByte

end Terminal

end Splinterm.Terminal
