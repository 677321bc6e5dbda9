import Mathlib.Logic.Basic
import Mathlib.Algebra.Group.Nat.Defs

/-!
# Cells

Colors, rendition attributes and the content of one terminal cell. The source
packs a cell into machine words; here a color carries the proof that its value
fits the 24-bit field and the content is the decoded `CellContent`.
-/

namespace Splinterm.Terminal

/-- How a step can fail to return: an assertion, index or `expect` stops it, or
a loop never ends. -/
inductive Fault where
  | panic
  | diverge
deriving DecidableEq

/-- How a cell color value is interpreted. -/
inductive ColorSource where
  | default
  | base16
  | base256
  | rgb
deriving DecidableEq

/-- A 24-bit value paired with its interpretation source. -/
structure Color where
  source : ColorSource
  value : Nat
  fits : value < 2 ^ 24
deriving DecidableEq

instance : Inhabited Color := ⟨⟨.default, 0, by decide⟩⟩

inductive UnderlineStyle where
  | none
  | single
  | double
  | curly
  | dotted
  | dashed
deriving DecidableEq

/-- Rendition flags and colors, with the renderer's clean bit. -/
structure Attributes where
  bold : Bool := false
  dim : Bool := false
  italic : Bool := false
  strikethrough : Bool := false
  blink : Bool := false
  conceal : Bool := false
  reverse : Bool := false
  clean : Bool := false
  foreground : Color := default
  background : Color := default
  underlineStyle : UnderlineStyle := .none
  underlineColor : Color := default
deriving DecidableEq

instance : Inhabited Attributes := ⟨{}⟩

/-- `spacer 0` pads a line whose wide character wrapped; a positive payload
counts the columns left in the wide character it continues. -/
inductive CellContent where
  | empty
  | scalar (character : Char)
  | composed (key : Nat)
  | spacer (remaining : Nat)
deriving DecidableEq

def composedKeyMax : Nat := 0x3fffffff

/-- The first content word that encodes a spacer. -/
def spacerBase : Nat := 0x00200000 + composedKeyMax + 1

namespace CellContent

/-- The content fits the compact content word; writing anything else panics. -/
def Fits : CellContent → Prop
  | .empty => True
  | .scalar character => character ≠ '\x00'
  | .composed key => key ≤ composedKeyMax
  | .spacer remaining => spacerBase + remaining < 2 ^ 32

instance : DecidablePred Fits := fun content => by
  cases content <;> unfold Fits <;> infer_instance

/-- A continuation of a wide character. -/
@[simp] def isContinuation : CellContent → Bool
  | .spacer (_ + 1) => true
  | _ => false

@[simp] theorem isContinuation_spacer_succ (n : Nat) : isContinuation (.spacer (n + 1)) = true := rfl

end CellContent

structure Cell where
  content : CellContent := .empty
  attributes : Attributes := {}
deriving DecidableEq

instance : Inhabited Cell := ⟨{}⟩

/-- An erased cell: only the background survives. -/
def Cell.erased (background : Color) : Cell := { attributes := { background } }

/-- What a reader of the cell sees: everything but the clean bit. -/
def Cell.semantic (cell : Cell) : Cell :=
  { cell with attributes := { cell.attributes with clean := false } }

end Splinterm.Terminal
