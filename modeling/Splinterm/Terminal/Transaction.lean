import Splinterm.Terminal.Control

/-!
# Change transactions

An action runs inside a transaction: a baseline is taken before it, the damage is
inferred afterwards from the kind of action and from what moved, and the change
is committed under the next revision, or held while synchronized updates are on.
-/

namespace Splinterm.Terminal

set_option linter.dupNamespace false

open Lib Hoare

/-- What the damage inference knows about an action. -/
inductive ActionHint where
  | print
  | execute (byte : UInt8)
  | esc (finalByte : UInt8)
  | csi («private» : Option UInt8) (finalByte : UInt8) (firstParam : Nat)
  | osc
  | dcs
  | truncated
deriving DecidableEq

def ActionHint.fromAction : Action → ActionHint
  | .print _ => .print
  | .execute b => .execute b
  | .esc _ finalByte => .esc finalByte
  | .csi «private» _ params finalByte => .csi «private» finalByte ((params.get 0).valueOr 0 false)
  | .osc _ _ => .osc
  | .stringTruncated _ => .truncated
  | _ => .dcs

namespace ActionHint

/-- Line edits: erase, insert, delete or blank cells of the cursor row. -/
def editsLine : ActionHint → Bool
  | .csi _ b _ => b = ascii 'K' ∨ b = ascii '@' ∨ b = ascii 'P' ∨ b = ascii 'X'
  | _ => false

def erasesHistory : ActionHint → Bool
  | .csi _ b first => b = ascii 'J' ∧ first = 3
  | _ => false

def erasesDisplay : ActionHint → Bool
  | .csi _ b first => b = ascii 'J' ∧ first ≠ 3
  | _ => false

/-- Insert and delete lines. -/
def shiftsLines : ActionHint → Bool
  | .csi _ b _ => b = ascii 'L' ∨ b = ascii 'M'
  | _ => false

/-- Actions that may scroll the whole region by a line or more. -/
def scrollsRegion : ActionHint → Bool
  | .csi _ b _ => b = ascii 'S' ∨ b = ascii 'T'
  | .execute b => 0x0a ≤ b ∧ b ≤ 0x0c
  | .esc b => b = ascii 'D' ∨ b = ascii 'E' ∨ b = ascii 'M'
  | _ => false

/-- The direction an offset change is reported with. -/
def direction : ActionHint → ScrollDirection
  | .esc b => if b = ascii 'M' then .reverse else .forward
  | .csi _ b _ => if b = ascii 'L' ∨ b = ascii 'T' then .reverse else .forward
  | _ => .forward

end ActionHint

/-- What an action is compared with. -/
structure ActionBaseline where
  active : ActiveScreen
  normalGeneration : Nat
  alternateGeneration : Nat
  cursor : Cursor
  offset : Nat
  view : Nat
  modes : TerminalModes
  scrollRegion : ScrollRegion
  title : List UInt8
  palette : List Nat
  defaultColors : List Nat
  imageMetrics : ImageMetrics
  rowBefore : Option (Nat × Row)
  visibleBefore : Option (List Row)
  scrollbackRows : Option Nat

def rowsSemanticallyEqual (left right : Row) : Bool := left.semantic = right.semantic

/-- Pushes damage when its condition holds. -/
def ChangeSet.pushIf (c : Prop) [Decidable c] (damage : TerminalDamage) (change : ChangeSet) : ChangeSet :=
  if c then change.push damage else change

namespace Terminal

variable (before : ActionBaseline) (hint : ActionHint)

variable (t : Terminal)

def actionBaseline : ActionBaseline :=
  let g := t.grid
  { active := t.active
    normalGeneration := t.normal.generation
    alternateGeneration := t.alternate.generation
    cursor := g.cursor
    offset := g.offset
    view := g.view
    modes := t.modes
    scrollRegion := t.scrollRegion
    title := t.title
    palette := t.palette
    defaultColors := t.defaultColors
    imageMetrics := t.images.metrics
    rowBefore :=
      if hint.editsLine then (g.row g.cursor.position.row).map (g.cursor.position.row, ·) else none
    visibleBefore := if hint.erasesDisplay then some g.snapshotViewRows else none
    scrollbackRows :=
      if hint.erasesHistory then some g.scrollbackRowsChronological.length else none }

def gridChanged : Bool :=
  match t.active with
  | .normal => t.normal.generation ≠ before.normalGeneration
  | .alternate => t.alternate.generation ≠ before.alternateGeneration

/-- The edited row reads differently than before. -/
def rowChanged : Bool :=
  before.rowBefore.any fun held => (t.grid.row held.1).any fun after => !rowsSemanticallyEqual after held.2

/-- The visible rows read differently than before. -/
def visibleChanged : Bool :=
  before.visibleBefore.any fun rows =>
    let after := t.grid.snapshotViewRows
    after.length ≠ rows.length
      || (after.zip rows).any fun (left, right) => !rowsSemanticallyEqual left right

/-- Row damage of an action that touched the active grid. -/
def rowDamage (change : ChangeSet) : ChangeSet :=
  let oldRow := before.cursor.position.row
  let newRow := t.grid.cursor.position.row
  if hint = .print then
    change.rows (min oldRow newRow) (min (max oldRow newRow + 1) t.grid.screenRows)
  else if hint.editsLine then if rowChanged before t then change.row oldRow else change
  else if hint.erasesHistory then
    change.pushIf (some t.grid.scrollbackRowsChronological.length ≠ before.scrollbackRows) .scrollback
  else if hint.erasesDisplay then
    if visibleChanged before t then change.rows 0 t.grid.screenRows else change
  else if hint.shiftsLines then change.rows oldRow t.scrollRegion.stop
  else if hint.scrollsRegion then change.rows t.scrollRegion.start t.scrollRegion.stop
  else change

/-- The region an offset change is reported for. -/
def reportedRegion : Except Fault ScrollRegion :=
  if hint.shiftsLines then
    if h : before.cursor.position.row ≤ t.scrollRegion.stop then
      .ok ⟨before.cursor.position.row, t.scrollRegion.stop, h⟩
    else .error .panic
  else .ok t.scrollRegion

/-- How far the offset moved in the reported direction, modulo the capacity. -/
def reportedDistance : Nat :=
  match hint.direction with
  | .forward => t.grid.slots.index ((t.grid.offset : Int) - before.offset)
  | .reverse => t.grid.slots.index ((before.offset : Int) - t.grid.offset)

def scrollDamage (t : Terminal) (change : ChangeSet) : Except Fault ChangeSet :=
  if t.grid.offset = before.offset then .ok change
  else do
    let region ← reportedRegion before hint t
    let rows := min (reportedDistance before hint t) t.grid.screenRows
    pure ((change.push (.scroll hint.direction region rows)).push .scrollback)

/-- Everything that is compared field by field. -/
def fieldDamage (change : ChangeSet) : ChangeSet :=
  change
    |>.pushIf (t.grid.view ≠ before.view) .viewport
    |>.pushIf (t.grid.cursor ≠ before.cursor) (.cursor before.cursor t.grid.cursor)
    |>.pushIf (t.modes ≠ before.modes ∨ t.scrollRegion ≠ before.scrollRegion) .modes
    |>.pushIf (t.title ≠ before.title) .title
    |>.pushIf (t.palette ≠ before.palette) (.palette none)
    |>.pushIf (t.defaultColors ≠ before.defaultColors) (.palette none)
    |>.pushIf (t.images.metrics ≠ before.imageMetrics) (.images t.active)

def recordActionChanges : TerminalM Unit := do
  let t ← get
  let change ← okOr .panic t.currentChange
  let change :=
    if t.active ≠ before.active ∨ hint = .esc (ascii 'c') then change.full
    else if gridChanged before t then rowDamage before hint t change
    else change
  let change ← fromResult (scrollDamage before hint t change)
  set { t with currentChange := some (fieldDamage before t change) }

/-- Commits a change, or holds it while synchronized updates are on. -/
def commitChange : Terminal :=
  match t.currentChange with
  | none => t
  | some change =>
    let t := { t with currentChange := none }
    if t.synchronizedUpdates then
      { t with synchronizedChange := t.synchronizedChange.merge change t.config.eventLimit }
    else
      let merged :=
        if t.synchronizedChange.isEmpty then change
        else t.synchronizedChange.merge change t.config.eventLimit
      let t := { t with synchronizedChange := {} }
      if merged.isEmpty then t
      else
        { t with
          revision := t.revision + 1
          outbox := t.outbox ++
            [{ revision := t.revision + 1, damage := merged.damage, events := merged.events }] }

def transact (action : TerminalM Unit) : TerminalM Unit := do
  let t ← get
  let before := t.actionBaseline hint
  set { t with currentChange := some {} }
  action
  pruneActiveImageAnchors
  recordActionChanges before hint
  modify commitChange

end Terminal

end Splinterm.Terminal
