import Splinterm.Terminal.Graphics

/-!
# Feeding bytes and resizing

One byte is parsed, possibly twice, and every recognized action runs: streaming
image actions directly, all others in a transaction. A run of the terminal is a
list of the calls its owner can make.
-/

namespace Splinterm.Terminal

set_option linter.dupNamespace false

open Lib Hoare

namespace Terminal

variable (ext : External)

/-- `dispatch_inner`; streaming image actions never get here. -/
def dispatchInner : Action → TerminalM Unit
  | .print character => print ext.charWidth character
  | .execute b => execute b
  | .esc intermediates finalByte => esc intermediates finalByte
  | .csi «private» intermediates params finalByte => csi «private» intermediates params finalByte
  | .osc payload terminator => osc payload terminator
  | .dcs _ => emit (.unsupportedSequence "DCS")
  | .stringTruncated kind => emit (.stringTruncated kind)
  | _ => throw .panic

def dispatch (action : Action) : TerminalM Unit :=
  transact (.fromAction action) (dispatchInner ext action)

def handle : Action → TerminalM Unit
  | .sixelBegin params => modify (beginSixel params)
  | .sixelData b => putSixel ext b
  | .sixelEnd => endSixel ext
  | .sixelAbort => modify abortSixel
  | .kittyBegin control truncated => modify (beginKitty control truncated)
  | .kittyCommand control truncated => commandKitty ext control truncated
  | .kittyData b => modify (putKitty b)
  | .kittyEnd => endKitty ext
  | .kittyAbort => modify abortKitty
  | .itermBegin metadata truncated => beginIterm metadata truncated
  | .itermData b => modify (putIterm b)
  | .itermEnd => endIterm ext
  | .itermAbort => modify abortIterm
  | action => dispatch ext action

/-- One turn of the reprocess loop: whether the byte must be fed again. -/
def feedOnce (b : UInt8) : TerminalM Bool := do
  let t ← get
  let fed ← fromResult (t.parser.feed b)
  set { t with parser := fed.parser }
  match fed.action with
  | some action => handle ext action
  | none => pure ()
  pure fed.again

/-- The reprocess loop; running out of turns means it does not end. -/
def feedLoop (b : UInt8) : Nat → TerminalM Unit
  | 0 => throw .diverge
  | turns + 1 => do
    let again ← feedOnce ext b
    whenever (again = true) (feedLoop b turns)

/-- One byte. No byte is fed more than twice. -/
def advanceByte (b : UInt8) : TerminalM Unit := feedLoop ext b 2

def advance (bytes : List UInt8) : TerminalM Unit := bytes.forM (advanceByte ext)

/-! ## Resizing -/

def resizeImages (screen : ActiveScreen) (g : Grid) (anchors : OrdMap Nat Nat) (columns : Nat) : TerminalM Bool := do
  let t ← get
  if t.images.hasPlacements screen then
    let remapped ← onPlane (ImagePlane.remapAnchors screen anchors)
    onPlane (ImagePlane.retainAnchors screen g.retainedRowIds)
    let cut ← if screen = .alternate then
        onPlane (ImagePlane.removeTextPlacementsOutsideColumns screen columns)
      else pure false
    let resolved ← onPlane (ImagePlane.resolveTextOverlaps screen g.orderedRetainedRowIds)
    pure (remapped || cut || resolved)
  else pure false

def resize (columns rows : Nat) : TerminalM Unit := do
  let t ← get
  whenever (¬ (t.normal.columns = columns ∧ t.normal.screenRows = rows)) do
    set { t with currentChange := some {} }
    let normalCapacity ← fromResult (normalCapacity t.config rows)
    let alternateCapacity ← fromResult (alternateCapacity rows)
    let (normal, normalAnchors) ← fromResult
      (t.normal.resizeWithReflow normalCapacity columns rows t.composed.width)
    modify fun t => { t with normal }
    let (alternate, alternateAnchors) ← fromResult
      (t.alternate.resizeWithoutReflow alternateCapacity columns rows)
    modify fun t => { t with alternate }
    let changedNormal ← resizeImages .normal normal normalAnchors columns
    let changedAlternate ← resizeImages .alternate alternate alternateAnchors columns
    let region ← ScrollRegion.new 0 rows
    modify fun t => resetTabStops columns { t with scrollRegion := region }
    let resized ← get
    let change ← okOr .panic resized.currentChange
    let change := (((change.full.push .dimensions).push .viewport).push .scrollback).pushIf
      (changedNormal = true ∨ changedAlternate = true ∨ resized.images.metrics ≠ t.images.metrics)
      (.images resized.active)
    set { resized with currentChange := some change }
    modify commitChange

/-- Ends a synchronized-update episode. -/
def expireSynchronizedUpdates (t : Terminal) : Terminal :=
  if t.synchronizedUpdates then
    commitChange { t with synchronizedUpdates := false, currentChange := some {} }
  else t

end Terminal

/-! ## Runs -/

/-- The calls the owner of a terminal makes. -/
inductive Call where
  | feed (bytes : List UInt8)
  | resize (columns rows : Nat)
  | setCellPixelSize (width height : Nat)
  | expireSynchronizedUpdates
  | drainEvents

def Call.perform (ext : External) : Call → TerminalM Unit
  | .feed bytes => Terminal.advance ext bytes
  | .resize columns rows => Terminal.resize columns rows
  | .setCellPixelSize width height => modify (Terminal.setCellPixelSize width height)
  | .expireSynchronizedUpdates => modify Terminal.expireSynchronizedUpdates
  | .drainEvents => modify Terminal.drainEvents

end Splinterm.Terminal
