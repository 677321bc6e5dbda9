import Splinterm.Terminal.GridScroll

/-!
# Scrolling as the screen shows it

The specification of a scroll on the visible rows, for every grid whose ring holds at
least the screen: whatever the origin of the ring, the view and the history are, and also
when the ring has no slot to spare and positions above the screen are those below it.
Identities play no part here, so nothing is assumed about them.
-/

namespace Splinterm.Terminal

open Lib Hoare Option

def Row.blank (columns : Nat) (background : Color) : Row where
  cells := List.replicate columns (Cell.erased background)
  dirty := true
  linebreak := true

/-- Erasing leaves nothing of a row but its width. -/
theorem Row.eraseAll_eq_blank (row : Row) (background : Color) :
    row.eraseAll background = Row.blank row.cells.length background := by
  simp [eraseAll, eraseRange, eraseCells, blank]

def Slot.Wide (columns : Nat) (slot : Slot) : Prop :=
  ∀ row, slot.row = some row → row.cells.length = columns

namespace Grid

def Wide (g : Grid) : Prop := ∀ k, (g.slots.get k).Wide g.columns

/-- What every operation on a grid keeps: the screen fits the ring, origin and view are slots
of it, and the rows are as wide as the grid. -/
structure Fits (g : Grid) : Prop where
  screenRows_pos : 1 ≤ g.screenRows
  screenRows_le : g.screenRows ≤ g.rowCapacity
  offset : g.offset < g.rowCapacity
  view : g.view < g.rowCapacity
  wide : g.Wide

variable {g g' : Grid} {start stop rows : Nat} {background : Color}

/-- Erasing leaves one row, whatever was there. -/
theorem Wide.erased (h : g.Wide) {row : Row} (hrow : g.Erased background row) :
    row = Row.blank g.columns background := by
  obtain ⟨old, hold, rfl⟩ := hrow
  rw [Row.eraseAll_eq_blank]
  rcases hold with rfl | ⟨p, hp⟩
  · simp [Row.new]
  · rw [h _ old hp]

/-! ## The rows of the screen -/

/-- A scrolled screen: what is outside the region stays, `source` says where a row that
stays inside it comes from, and the other rows of the region are blank. -/
structure Shows (start stop : Nat) (background : Color) (source : Nat → Option Nat) (g g' : Grid) : Prop where
  outside : ∀ r, r < g.screenRows → r < start ∨ stop ≤ r → g'.row r = g.row r
  moved : ∀ r from_, start ≤ r → r < stop → source r = some from_ → g'.row r = g.row from_
  exposed : ∀ r : Nat, start ≤ r → r < stop → source r = none → g'.row r = some (Row.blank g.columns background)

namespace Scrolled

variable {source : Nat → Option Nat} (hs : Scrolled background start stop source g g')

include hs

theorem wide (h : g.Wide) : g'.Wide := by
  intro k row hrow
  rw [get_eq_slot] at hrow
  rw [hs.frame.columns]
  rcases hs.kept _ row hrow with ⟨p, hp⟩ | herased
  · exact h _ row hp
  · rw [h.erased herased]
    exact List.length_replicate

theorem fits (h : g.Fits) : g'.Fits := by
  have hcap : g'.rowCapacity = g.rowCapacity := hs.frame.size
  exact ⟨hs.frame.screenRows ▸ h.screenRows_pos, by rw [hs.frame.screenRows, hcap]; exact h.screenRows_le,
    hcap ▸ hs.offset, hcap ▸ hs.view_lt h.view, hs.wide h.wide⟩

theorem shows (h : g.Wide) : Shows start stop background source g g' := by
  refine ⟨fun r hr hside => congrArg Slot.row (hs.outside r hr hside),
    fun r from_ hlow hhigh hfrom => congrArg Slot.row (hs.moved r from_ hlow hhigh hfrom), ?_⟩
  intro r hlow hhigh hnone
  obtain ⟨row, herased, hrow⟩ := hs.exposed r hlow hhigh hnone
  rw [hrow, h.erased herased]

end Scrolled

/-! ## Every grid -/

/-- Where the rows that stay in the region come from. -/
def scrollSource (direction : ScrollDirection) (region : ScrollRegion) (rows : Nat) : Nat → Option Nat :=
  match direction with
  | .forward => forwardSource region.stop rows
  | .reverse => reverseSource region.start rows

/-- A scroll by nothing. -/
theorem Shows.refl {region : ScrollRegion} (direction : ScrollDirection) (g : Grid) :
    Shows region.start region.stop background (scrollSource direction region 0) g g := by
  have hsource (r : Nat) (hlow : region.start ≤ r) (hhigh : r < region.stop) :
      scrollSource direction region 0 r = some r := by
    cases direction with
    | forward => exact if_pos hhigh
    | reverse => exact if_pos hlow
  refine ⟨fun _ _ _ => rfl, ?_, ?_⟩
  · intro r from_ hlow hhigh hfrom
    rw [hsource r hlow hhigh] at hfrom
    rw [some.inj hfrom]
  · intro r hlow hhigh hnone
    rw [hsource r hlow hhigh] at hnone
    cases hnone

/-- `Grid::scroll` returns, and the screen shows the scrolled region: rows outside it are the
same, a row inside comes from `rows` further down or up, and the exposed rows are blank. -/
theorem scroll_meets_specification {g : Grid} (h : g.Fits) (direction : ScrollDirection)
    (region : ScrollRegion) (rows : Nat) (background : Color)
    (hregion : region.start < region.stop ∧ region.stop ≤ g.screenRows) (hrows : rows ≤ region.stop - region.start) :
    ∃ g', scroll direction region rows background g = .ok () g' ∧ g'.Fits ∧ g.SameFrame g' ∧
      Shows region.start region.stop background (scrollSource direction region rows) g g' := by
  refine ⟨_, scroll_eq hregion hrows h.screenRows_pos h.screenRows_le h.view direction background, ?_⟩
  by_cases hpos : 0 < rows
  · rw [if_pos hpos]
    have hfit : region.start + rows ≤ region.stop := by omega
    cases direction with
    | forward =>
      have hs := (scrolledForward hfit hregion.2 h.screenRows_le background).toScrolled
      exact ⟨hs.fits h, hs.frame, hs.shows h.wide⟩
    | reverse =>
      have hs := (scrolledReverse hfit hregion.2 h.screenRows_le background).toScrolled
      exact ⟨hs.fits h, hs.frame, hs.shows h.wide⟩
  · obtain rfl : rows = 0 := by omega
    exact ⟨h, {}, .refl direction g⟩

/-- A ring of four rows that are all on the screen, its view one row off. -/
def fullRing : Grid where
  slots := ⟨['a', 'b', 'c', 'd'].map fun letter =>
    { row := some ⟨[⟨.scalar letter, {}⟩, default], true, true⟩, id := letter.toNat }, by decide⟩
  columns := 2
  offset := 3
  view := 2
  screenRows := 4
  cursor := {}
  savedCursor := {}
  generation := 0
  nextRowId := 101
  historyGeneration := 1

theorem fullRing_fits : fullRing.Fits := by
  refine ⟨by decide, by decide, by decide, by decide, RingBuffer.forall_mem_iff.mp fun slot hslot row hrow => ?_⟩
  obtain ⟨letter, -, rfl⟩ := List.mem_map.mp hslot
  cases hrow
  rfl

theorem scroll_without_spare_slots :
    ∃ g', scroll .reverse ⟨1, 3, by decide⟩ 1 default fullRing = .ok () g' ∧ g'.Fits ∧ fullRing.SameFrame g' ∧
      Shows 1 3 default (scrollSource .reverse ⟨1, 3, by decide⟩ 1) fullRing g' :=
  scroll_meets_specification fullRing_fits .reverse ⟨1, 3, by decide⟩ 1 default (by decide) (by decide)

end Grid

end Splinterm.Terminal
