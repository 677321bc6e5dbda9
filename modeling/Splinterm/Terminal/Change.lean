import Splinterm.Terminal.Grid

/-!
# Damage and change sets

The semantic damage of one terminal transition, the one-shot events it emitted,
and the change set in which both accumulate until the transition is committed
under the next revision.
-/

namespace Splinterm.Terminal

/-- A terminal effect in parser order; texts are their UTF-8 bytes. -/
inductive TerminalEvent where
  | bell
  | ptyWrite (bytes : List UInt8)
  | titleChanged (title : List UInt8)
  | paletteChanged (index color : Nat)
  | unsupportedSequence (family : String)
  | imageRejected (command : String)
  | stringTruncated (kind : String)
  | eventQueueOverflow

inductive ActiveScreen where
  | normal
  | alternate
deriving DecidableEq

/-- Renderer-independent damage associated with one revision. -/
inductive TerminalDamage where
  | fullSnapshot
  | rows (start stop : Nat)
  | scroll (direction : ScrollDirection) (region : ScrollRegion) (rows : Nat)
  | cursor (old new : Cursor)
  | modes
  | viewport
  | dimensions
  | scrollback
  | title
  | palette (index : Option Nat)
  | images (screen : ActiveScreen)
deriving DecidableEq

/-- One committed transition. -/
structure TerminalUpdate where
  revision : Nat
  damage : List TerminalDamage
  events : List TerminalEvent

/-- Ordered damage retained across merges before one full snapshot replaces it. -/
def mergedDamageLimit : Nat := 262144

structure ChangeSet where
  damage : List TerminalDamage := []
  events : List TerminalEvent := []

namespace ChangeSet

def isFull (change : ChangeSet) : Bool := change.damage = [.fullSnapshot]

def full (change : ChangeSet) : ChangeSet := { change with damage := [.fullSnapshot] }

/-- Grows the first recorded row range when the new one meets it, and appends a
range of its own otherwise. -/
def mergeRows (start stop : Nat) : List TerminalDamage → Option (List TerminalDamage)
  | [] => none
  | .rows existingStart existingStop :: rest =>
    if start ≤ existingStop ∧ existingStart ≤ stop then
      some (.rows (min existingStart start) (max existingStop stop) :: rest)
    else none
  | item :: rest => (mergeRows start stop rest).map (item :: ·)

def rows (start stop : Nat) (change : ChangeSet) : ChangeSet :=
  if stop ≤ start ∨ change.isFull = true then change
  else
    match mergeRows start stop change.damage with
    | some damage => { change with damage }
    | none => { change with damage := change.damage ++ [.rows start stop] }

def row (row : Nat) (change : ChangeSet) : ChangeSet := change.rows row (row + 1)

def push (damage : TerminalDamage) (change : ChangeSet) : ChangeSet :=
  if damage = .fullSnapshot then change.full
  else if change.isFull = true ∨ damage ∈ change.damage then change
  else { change with damage := change.damage ++ [damage] }

/-- Appends a later change; a full snapshot on either side, or too much damage,
replaces the list by one full snapshot. -/
def merge (change other : ChangeSet) (eventLimit : Nat) : ChangeSet :=
  let damage :=
    if other.isFull = true then [.fullSnapshot]
    else if change.isFull = true then change.damage
    else
      let damage := change.damage ++ other.damage
      if mergedDamageLimit < damage.length then [.fullSnapshot] else damage
  { damage
    events := change.events ++ other.events.take (eventLimit - change.events.length) }

def isEmpty (change : ChangeSet) : Bool := change.damage.isEmpty && change.events.isEmpty

end ChangeSet

end Splinterm.Terminal
