import Mathlib.Algebra.Group.Nat.Defs
import Splinterm.Lib.Hoare

/-!
# Window geometry

A requested grid determines a logical window size, and a window size the grid that fits into it. The
first keeps the padding as it was asked for, the second cuts each side to half of what two cells
leave free, so a padding that is much wider on one side makes room for more cells than were requested.
-/

namespace Splinterm.Window

open Lib Hoare Nat Except

def scaleDenominator : Nat := 120

def u32 (value : Nat) (message : String) : Except String Nat := do
  rejectIf (2 ^ 32 ≤ value) message
  return value

def divCeil (value divisor : Nat) : Nat := (value + (divisor - 1)) / divisor

def validateScale (scale120 : Nat) : Except String Unit :=
  rejectIf (¬ (120 ≤ scale120 ∧ scale120 ≤ 960)) "surface scale must be between 120 and 960"

def logicalExtentToBuffer (logical scale120 : Nat) : Except String Nat := do
  validateScale scale120
  u32 (divCeil (logical * scale120) scaleDenominator) "scaled extent overflow"

def logicalPaddingToBuffer (logical scale120 : Nat) : Except String Nat := do
  validateScale scale120
  u32 (logical * scale120 / scaleDenominator) "scaled padding overflow"

def bufferToLogicalCeil (buffer scale120 : Nat) : Except String Nat := do
  validateScale scale120
  u32 (divCeil (buffer * scaleDenominator) scale120) "logical extent overflow"

def checkedMul (left right : Nat) (message : String) : Except String Nat := u32 (left * right) message

def checkedSum3 (first second third : Nat) (message : String) : Except String Nat := do
  let value ← u32 (first + second) message
  u32 (value + third) message

structure Size where
  width : Nat
  height : Nat

structure SurfaceGeometry where
  logicalSize : Size
  bufferSize : Size
  scale : Nat

def SurfaceGeometry.new (logicalWidth logicalHeight scale120 : Nat) : Except String SurfaceGeometry := do
  validateScale scale120
  let width ← logicalExtentToBuffer logicalWidth scale120
  let height ← logicalExtentToBuffer logicalHeight scale120
  return ⟨⟨logicalWidth, logicalHeight⟩, ⟨width, height⟩, scale120⟩

/-- The size of a cell; `from_metrics` refuses a cell without one. -/
structure CellGeometry where
  width : Nat
  height : Nat
  positive : 0 < width ∧ 0 < height

/-- `TerminalPadding` and `BufferPadding`. -/
structure Padding where
  left : Nat
  right : Nat
  top : Nat
  bottom : Nat

def Padding.toBufferFloor (padding : Padding) (scale120 : Nat) : Except String Padding := do
  let left ← logicalPaddingToBuffer padding.left scale120
  let right ← logicalPaddingToBuffer padding.right scale120
  let top ← logicalPaddingToBuffer padding.top scale120
  let bottom ← logicalPaddingToBuffer padding.bottom scale120
  return ⟨left, right, top, bottom⟩

structure Rect where
  x : Nat
  y : Nat
  width : Nat
  height : Nat

structure WindowGeometry where
  surface : SurfaceGeometry
  cell : CellGeometry
  requestedPadding : Padding
  effectiveBasePadding : Padding
  actualPadding : Padding
  columns : Nat
  rows : Nat
  gridRect : Rect
  visibleGridRect : Rect
  residualRight : Nat
  residualBottom : Nat
  columnCapped : Bool
  rowCapped : Bool

def WindowGeometry.fromParts (logicalWidth logicalHeight : Nat) (cell : CellGeometry) (requestedPadding : Padding)
    (surfaceScale120 columns rows : Nat) (base : Padding) (columnCapped rowCapped : Bool) :
    Except String WindowGeometry := do
  let surface ← SurfaceGeometry.new logicalWidth logicalHeight surfaceScale120
  let gridWidth ← checkedMul columns cell.width "grid width overflow"
  let gridHeight ← checkedMul rows cell.height "grid height overflow"
  let gridRight ← u32 (base.left + gridWidth) "grid right overflow"
  let gridBottom ← u32 (base.top + gridHeight) "grid bottom overflow"
  rejectIf (surface.bufferSize.width < gridRight ∨ surface.bufferSize.height < gridBottom)
    "grid lies outside surface buffer"
  let right := surface.bufferSize.width - gridRight
  let bottom := surface.bufferSize.height - gridBottom
  rejectIf (right < base.right) "right padding exceeds available surface"
  rejectIf (bottom < base.bottom) "bottom padding exceeds available surface"
  let gridRect : Rect := ⟨base.left, base.top, gridWidth, gridHeight⟩
  return {
    surface, cell, requestedPadding, columns, rows, gridRect, columnCapped, rowCapped
    effectiveBasePadding := base
    actualPadding := ⟨base.left, right, base.top, bottom⟩
    visibleGridRect := gridRect
    residualRight := right - base.right
    residualBottom := bottom - base.bottom }

def WindowGeometry.forGrid (columns rows : Nat) (cell : CellGeometry) (padding : Padding) (surfaceScale120 : Nat) :
    Except String WindowGeometry := do
  rejectIf (columns = 0 ∨ rows = 0) "grid dimensions must be positive"
  validateScale surfaceScale120
  let base ← padding.toBufferFloor surfaceScale120
  let gridWidth ← checkedMul columns cell.width "grid width overflow"
  let desiredWidth ← checkedSum3 base.left gridWidth base.right "initial buffer width overflow"
  let gridHeight ← checkedMul rows cell.height "grid height overflow"
  let desiredHeight ← checkedSum3 base.top gridHeight base.bottom "initial buffer height overflow"
  let logicalWidth ← bufferToLogicalCeil desiredWidth surfaceScale120
  let logicalHeight ← bufferToLogicalCeil desiredHeight surfaceScale120
  let surface ← SurfaceGeometry.new logicalWidth logicalHeight surfaceScale120
  let extraWidth := surface.bufferSize.width - desiredWidth
  let extraHeight := surface.bufferSize.height - desiredHeight
  rejectIf (cell.width ≤ extraWidth ∨ cell.height ≤ extraHeight)
    ("UnrepresentableGrid: integer logical extent at scale " ++ toString surfaceScale120 ++ " adds a complete cell")
  fromParts logicalWidth logicalHeight cell padding surfaceScale120 columns rows base false false

def WindowGeometry.fitWindow (logicalWidth logicalHeight : Nat) (cell : CellGeometry) (padding : Padding)
    (surfaceScale120 minColumns maxColumns minRows maxRows : Nat) : Except String WindowGeometry := do
  validateScale surfaceScale120
  rejectIf (minColumns ≠ 2 ∨ minRows ≠ 2 ∨ maxColumns < minColumns ∨ maxRows < minRows)
    "grid bounds must reserve the protocol minimum of 2x2 cells"
  let surface ← SurfaceGeometry.new logicalWidth logicalHeight surfaceScale120
  let bufferWidth := surface.bufferSize.width
  let bufferHeight := surface.bufferSize.height
  let minimumWidth ← checkedMul 2 cell.width "minimum grid width overflow"
  let minimumHeight ← checkedMul 2 cell.height "minimum grid height overflow"
  rejectIf (bufferWidth < minimumWidth ∨ bufferHeight < minimumHeight)
    "SurfaceTooSmall: surface cannot contain the protocol minimum 2x2 grid"
  let requested ← padding.toBufferFloor surfaceScale120
  let maxHorizontalEdge := (bufferWidth - minimumWidth) / 2
  let maxVerticalEdge := (bufferHeight - minimumHeight) / 2
  let base : Padding := ⟨min requested.left maxHorizontalEdge, min requested.right maxHorizontalEdge,
    min requested.top maxVerticalEdge, min requested.bottom maxVerticalEdge⟩
  let naturalColumns := (bufferWidth - base.left - base.right) / cell.width
  let naturalRows := (bufferHeight - base.top - base.bottom) / cell.height
  fromParts logicalWidth logicalHeight cell padding surfaceScale120 (min naturalColumns maxColumns)
    (min naturalRows maxRows) base (maxColumns < naturalColumns) (maxRows < naturalRows)

def WindowGeometry.logicalWidth (g : WindowGeometry) : Nat := g.surface.logicalSize.width

def WindowGeometry.logicalHeight (g : WindowGeometry) : Nat := g.surface.logicalSize.height

open WindowGeometry

/-! ## Conversions -/

theorem u32_eq_ok {value n : Nat} {message : String} : u32 value message = .ok n ↔ value < 2 ^ 32 ∧ value = n := by
  rw [u32, checked_eq_ok, Nat.not_le]

theorem le_divCeil_mul (value : Nat) {divisor : Nat} (h : 0 < divisor) : value ≤ divisor * divCeil value divisor := by
  have hsplit := div_add_mod (value + (divisor - 1)) divisor
  have hmod := mod_lt (value + (divisor - 1)) h
  rw [divCeil]
  omega

theorem toBufferFloor_eq_ok {padding base : Padding} {scale120 : Nat} (h : padding.toBufferFloor scale120 = .ok base) :
    base = ⟨padding.left * scale120 / scaleDenominator, padding.right * scale120 / scaleDenominator,
      padding.top * scale120 / scaleDenominator, padding.bottom * scale120 / scaleDenominator⟩ := by
  simp only [Padding.toBufferFloor, logicalPaddingToBuffer, bind_eq_ok, u32_eq_ok] at h
  obtain ⟨_, ⟨_, -, -, rfl⟩, _, ⟨_, -, -, rfl⟩, _, ⟨_, -, -, rfl⟩, _, ⟨_, -, -, rfl⟩, h⟩ := h
  exact (ok.inj h).symm

theorem surface_eq_ok {logicalWidth logicalHeight scale120 : Nat} {surface : SurfaceGeometry}
    (h : SurfaceGeometry.new logicalWidth logicalHeight scale120 = .ok surface) :
    surface.bufferSize.width < 2 ^ 32 ∧ surface.bufferSize.height < 2 ^ 32 ∧
      surface = ⟨⟨logicalWidth, logicalHeight⟩, ⟨divCeil (logicalWidth * scale120) scaleDenominator,
        divCeil (logicalHeight * scale120) scaleDenominator⟩, scale120⟩ := by
  simp only [SurfaceGeometry.new, logicalExtentToBuffer, bind_eq_ok, u32_eq_ok] at h
  obtain ⟨_, -, _, ⟨_, -, hwidth, rfl⟩, _, ⟨_, -, hheight, rfl⟩, h⟩ := h
  obtain rfl := ok.inj h
  exact ⟨hwidth, hheight, rfl⟩

/-! ## Fitting -/

/-- Along one axis, the cells that fit into the buffer behind paddings that leave room for two. -/
def fitted (buffer size first last most : Nat) : Nat :=
  let edge := (buffer - 2 * size) / 2
  min ((buffer - min first edge - min last edge) / size) most

/-- The cells lie between the paddings. -/
theorem fitted_mul_le (buffer size first last most : Nat) :
    let edge := (buffer - 2 * size) / 2
    min first edge + fitted buffer size first last most * size + min last edge ≤ buffer := by
  dsimp only [fitted]
  generalize hedge : (buffer - 2 * size) / 2 = edge
  have hcells := mul_le_mul_right size (Nat.min_le_left ((buffer - min first edge - min last edge) / size) most)
  have hnatural := div_mul_le_self (buffer - min first edge - min last edge) size
  omega

variable {padding : Padding}

theorem fitWindow_of_surface (cell : CellGeometry) {logicalWidth logicalHeight scale120 maxColumns maxRows : Nat}
    {surface : SurfaceGeometry} {base : Padding}
    (hsurface : SurfaceGeometry.new logicalWidth logicalHeight scale120 = .ok surface)
    (hbase : padding.toBufferFloor scale120 = .ok base) (hcolumns : 2 ≤ maxColumns) (hrows : 2 ≤ maxRows)
    (hwidth : 2 * cell.width ≤ surface.bufferSize.width) (hheight : 2 * cell.height ≤ surface.bufferSize.height) :
    ∃ g, fitWindow logicalWidth logicalHeight cell padding scale120 2 maxColumns 2 maxRows = .ok g ∧
      g.columns = fitted surface.bufferSize.width cell.width base.left base.right maxColumns ∧
      g.rows = fitted surface.bufferSize.height cell.height base.top base.bottom maxRows := by
  have hscale : validateScale scale120 = .ok () := (bind_eq_ok.mp hsurface).choose_spec.1
  obtain ⟨hw, hh, -⟩ := surface_eq_ok hsurface
  have hx := fitted_mul_le surface.bufferSize.width cell.width base.left base.right maxColumns
  have hy := fitted_mul_le surface.bufferSize.height cell.height base.top base.bottom maxRows
  simp only [fitWindow, fromParts, checkedMul, bind_eq_ok, u32_eq_ok, rejectIf_eq_ok,
    hscale, hsurface, hbase, ok.injEq, exists_eq_left', fitted] at hx hy ⊢
  exact ⟨_, ⟨(), trivial, (), by omega, _, ⟨by omega, rfl⟩, _, ⟨by omega, rfl⟩, (), by omega, _, ⟨by omega, rfl⟩, _,
    ⟨by omega, rfl⟩, _, ⟨by omega, rfl⟩, _, ⟨by omega, rfl⟩, (), by omega, (), by omega, (), by omega, rfl⟩, rfl, rfl⟩

/-- The pixels that a whole number of logical pixels has beyond an extent of the buffer. -/
def surplus (scale120 extent : Nat) : Nat :=
  divCeil (divCeil (extent * scaleDenominator) scale120 * scale120) scaleDenominator - extent

theorem add_surplus (extent : Nat) {scale120 : Nat} (h : 0 < scale120) : extent + surplus scale120 extent =
    divCeil (divCeil (extent * scaleDenominator) scale120 * scale120) scaleDenominator := by
  have hlogical := le_divCeil_mul (extent * scaleDenominator) h
  rw [mul_comm scale120] at hlogical
  have hbuffer := le_divCeil_mul (divCeil (extent * scaleDenominator) scale120 * scale120) (show 0 < 120 by decide)
  exact add_sub_of_le (Nat.le_of_mul_le_mul_left (by rw [scaleDenominator] at *; omega) (show 0 < 120 by decide))

/-- Along one axis the grid is found again: no more cells are allowed, or no side of the padding is so
much wider than the other that it is cut by a cell. -/
def Refits (scale120 count size most before after : Nat) : Prop :=
  let first := before * scale120 / scaleDenominator
  let last := after * scale120 / scaleDenominator
  let spare := surplus scale120 (first + count * size + last)
  count = most ∨ first + spare + 2 ≤ last + count * size ∧ last + spare + 2 ≤ first + count * size

theorem fitted_eq_iff {count size first last spare most : Nat} (htwo : 2 ≤ count) (hmost : count ≤ most)
    (hspare : spare < size) : fitted (first + count * size + last + spare) size first last most = count ↔
      count = most ∨ first + spare + 2 ≤ last + count * size ∧ last + spare + 2 ≤ first + count * size := by
  have hpos : 0 < size := by omega
  have hgrid : 2 * size ≤ count * size := mul_le_mul_right size htwo
  dsimp only [fitted]
  generalize hedge : (_ - 2 * size) / 2 = edge
  generalize husable : _ - min first edge - min last edge = usable
  have hle : count ≤ usable / size := (le_div_iff_mul_le hpos).mpr (by omega)
  have hlt : usable / size < count + 1 ↔ usable < count * size + size := by rw [div_lt_iff_lt_mul hpos, succ_mul]
  omega

theorem surface_of_forGrid {columns rows scale120 : Nat} {cell : CellGeometry} {g : WindowGeometry}
    (h : forGrid columns rows cell padding scale120 = .ok g) : ∃ base, padding.toBufferFloor scale120 = .ok base ∧
      SurfaceGeometry.new g.logicalWidth g.logicalHeight scale120 = .ok g.surface ∧
      let width := base.left + columns * cell.width + base.right
      let height := base.top + rows * cell.height + base.bottom
      g.surface.bufferSize = ⟨width + surplus scale120 width, height + surplus scale120 height⟩ ∧
      surplus scale120 width < cell.width ∧ surplus scale120 height < cell.height := by
  simp only [forGrid, fromParts, bufferToLogicalCeil, validateScale, checkedMul,
    checkedSum3, bind_eq_ok, u32_eq_ok, rejectIf_eq_ok, not_or, not_not, Nat.not_le] at h
  obtain ⟨_, -, _, hscale, base, hbase, _, ⟨-, rfl⟩, _, ⟨_, ⟨-, rfl⟩, -, rfl⟩, _, ⟨-, rfl⟩, _, ⟨_, ⟨-, rfl⟩, -, rfl⟩,
    _, ⟨_, -, -, rfl⟩, _, ⟨_, -, -, rfl⟩, surface, hsurface, _, hextra, surface', hsame, h⟩ := h
  obtain rfl := ok.inj (hsurface.symm.trans hsame)
  obtain ⟨_, -, _, -, _, -, _, -, _, -, _, -, _, -, h⟩ := h
  obtain rfl := ok.inj h
  obtain ⟨-, -, rfl⟩ := surface_eq_ok hsurface
  have hpos : 0 < scale120 := by omega
  refine ⟨base, hbase, hsurface, ?_, hextra⟩
  rw [add_surplus _ hpos, add_surplus _ hpos]

/-- A requested grid is the one that fits into its window exactly when neither axis has a padding so
uneven that fitting cuts it. -/
theorem fitWindow_forGrid_iff (columns rows maxColumns maxRows scale120 : Nat) (cell : CellGeometry)
    (padding : Padding) (g : WindowGeometry) (hcolumns : 2 ≤ columns ∧ columns ≤ maxColumns)
    (hrows : 2 ≤ rows ∧ rows ≤ maxRows) (h : forGrid columns rows cell padding scale120 = .ok g) :
    (∃ fit, fitWindow g.logicalWidth g.logicalHeight cell padding scale120
      2 maxColumns 2 maxRows = .ok fit ∧ fit.columns = columns ∧ fit.rows = rows) ↔
    Refits scale120 columns cell.width maxColumns padding.left padding.right ∧
      Refits scale120 rows cell.height maxRows padding.top padding.bottom := by
  obtain ⟨base, hbase, hsurface, hbuffer, hx, hy⟩ := surface_of_forGrid h
  have hwidth : 2 * cell.width ≤ columns * cell.width := mul_le_mul_right _ hcolumns.1
  have hheight : 2 * cell.height ≤ rows * cell.height := mul_le_mul_right _ hrows.1
  obtain ⟨fit, hfit, hfitColumns, hfitRows⟩ := fitWindow_of_surface cell hsurface hbase
    (Nat.le_trans hcolumns.1 hcolumns.2) (Nat.le_trans hrows.1 hrows.2) (by rw [hbuffer]; dsimp only; omega)
    (by rw [hbuffer]; dsimp only; omega)
  rw [hbuffer] at hfitColumns hfitRows
  simp only [hfit, ok.injEq, exists_eq_left', hfitColumns, hfitRows]
  rw [fitted_eq_iff hcolumns.1 hcolumns.2 hx, fitted_eq_iff hrows.1 hrows.2 hy, toBufferFloor_eq_ok hbase]
  exact Iff.rfl

/-- A cell of 9 by 17 pixels. -/
def plainCell : CellGeometry := ⟨9, 17, by decide⟩

theorem even_padding_refits : ∃ g fit, forGrid 80 24 plainCell ⟨12, 12, 12, 12⟩ 150 = .ok g ∧
    fitWindow g.logicalWidth g.logicalHeight plainCell ⟨12, 12, 12, 12⟩ 150
      2 480 2 128 = .ok fit ∧ fit.columns = 80 ∧ fit.rows = 24 := by
  obtain ⟨fit, hfit⟩ := (fitWindow_forGrid_iff 80 24 480 128 150 plainCell ⟨12, 12, 12, 12⟩ _ (by decide) (by decide)
    rfl).mpr ⟨.inr (by decide), .inr (by decide)⟩
  exact ⟨_, fit, rfl, hfit⟩

/-- A left padding of 1000 pixels: two columns were requested, and 57 fit. -/
theorem uneven_padding_refits_more : ∃ g fit, forGrid 2 2 plainCell ⟨1000, 0, 0, 0⟩ 120 = .ok g ∧
    fitWindow g.logicalWidth g.logicalHeight plainCell ⟨1000, 0, 0, 0⟩ 120 2 480 2 128 = .ok fit ∧ fit.columns = 57 :=
  ⟨_, _, rfl, rfl, rfl⟩

end Splinterm.Window
