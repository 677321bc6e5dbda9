import Splinterm.Lib.Paging
import Splinterm.Terminal.ReflowShape

/-!
# Paging through the history

The owner of a grid scrolls, clears, resets and resizes it in any order. Whatever it did, the
identities of the history increase from the oldest row to the newest and lie below the next
identity; that is the invariant the scroll and resize proofs carry. Pages compare identities
and not positions, so this is what makes a reader that asks for the page before the oldest
identity it has see every row once.
-/

namespace Splinterm.Terminal.Grid

open Lib Hoare List Option Grid

variable {policy : Policy} {g g' : Grid} {maximumRows beforeRowId rowCapacity columns screenRows : Nat}

/-! ## One page -/

theorem foldl_pageSlot (slots : List Slot) (queue : List (Nat × Row) × Bool) :
    slots.foldl (pageSlot beforeRowId maximumRows) queue =
      (Paging.below (·.1) beforeRowId (slots.filterMap Slot.identified)).foldl (Paging.push maximumRows) queue := by
  induction slots generalizing queue with
  | nil => rfl
  | cons slot slots ih =>
    rw [foldl_cons, ih, pageSlot]
    cases hslot : Slot.identified slot with
    | none => rw [filterMap_cons_none hslot]
    | some entry =>
      rw [filterMap_cons_some hslot]
      by_cases hle : beforeRowId ≤ entry.1
      · rw [Paging.below, Paging.below, filter_cons_of_neg (by simpa using hle)]
        simp only [if_pos hle]
      · rw [Paging.below, Paging.below, filter_cons_of_pos (by simpa using hle)]
        simp only [if_neg hle]
        rfl

theorem snapshotScrollbackPage_eq (h : 0 < maximumRows) : g.snapshotScrollbackPage beforeRowId maximumRows =
      Paging.page (·.1) g.scrollbackRowsChronological maximumRows beforeRowId := by
  rw [snapshotScrollbackPage, if_neg h.ne', foldl_pageSlot, Paging.foldl_push h]
  rfl

/-! ## The identities of the history -/

theorem Inv.history_increasing (h : g.Inv policy) :
    g.scrollbackRowsChronological.Pairwise fun row row' => row.1 < row'.1 := by
  have hslot (k : Nat) : g.slots.get (g.offset + g.screenRows + k) =
      g.slot ((g.screenRows : Int) + k - g.rowCapacity) := by
    rw [← slot_add_capacity]
    congr 1
    omega
  rw [scrollbackRowsChronological, RingBuffer.window, filterMap_map, pairwise_filterMap]
  refine pairwise_lt_range.imp_of_mem ?_
  intro k k' hk hk' hlt row hrow row' hrow'
  rw [mem_range] at hk hk'
  simp only [Function.comp_apply, Slot.identified, hslot, map_eq_some_iff] at hrow hrow'
  obtain ⟨_, hsome, rfl⟩ := hrow
  obtain ⟨_, hsome', rfl⟩ := hrow'
  exact h.history _ _ (by omega) (by omega) (by omega) (isSome_of_eq_some hsome)
    (isSome_of_eq_some hsome')

theorem Inv.history_ids (h : g.Inv policy) {row : Nat × Row}
    (hrow : row ∈ g.scrollbackRowsChronological) : 0 < row.1 ∧ row.1 < g.nextRowId := by
  obtain ⟨slot, hslot, hident⟩ := mem_filterMap.mp hrow
  obtain ⟨k, -, rfl⟩ := RingBuffer.mem_window.mp hslot
  obtain ⟨_, hsome, rfl⟩ := map_eq_some_iff.mp hident
  have hok := h.stored.ok (g.offset + g.screenRows + k)
  exact ⟨hok.id_pos (isSome_of_eq_some hsome), hok.id_lt (isSome_of_eq_some hsome)⟩

/-! ## What an owner can do -/

/-- The operations of a grid. `restart` is the reset of the terminal, which puts a new grid in
place of the old one; `writeRow` stands for every edit of a visible row. -/
inductive Operation where
  | scroll (direction : ScrollDirection) (region : ScrollRegion) (rows : Nat) (background : Color)
  | clearScrollback
  | resetVisible (background : Color)
  | restart (rowCapacity columns screenRows : Nat)
  | resizeWithoutReflow (rowCapacity columns screenRows : Nat)
  | resizeWithReflow (rowCapacity columns screenRows : Nat) (composedWidth : Nat → Nat)
  | setCursor (cursor : Cursor)
  | setSavedCursor (cursor : Cursor)
  | writeRow (row : Nat) (written : Row)

def Operation.perform : Operation → GridM Unit
  | .scroll direction region rows background => Grid.scroll direction region rows background
  | .clearScrollback => modify Grid.clearScrollback
  | .resetVisible background => modify (Grid.resetVisible background)
  | .restart rowCapacity columns screenRows => do
    let fresh ← fromResult (withScreenSize rowCapacity columns screenRows)
    modify fun g => fresh.continueHistoryNamespace g.historyNamespace
  | .resizeWithoutReflow rowCapacity columns screenRows => do
    let g ← get
    let (resized, _) ← fromResult (g.resizeWithoutReflow rowCapacity columns screenRows)
    set resized
  | .resizeWithReflow rowCapacity columns screenRows composedWidth => do
    let g ← get
    let (resized, _) ← fromResult
      (g.resizeWithReflow rowCapacity columns screenRows composedWidth)
    set resized
  | .setCursor cursor => Grid.setCursor cursor
  | .setSavedCursor cursor => Grid.setSavedCursor cursor
  | .writeRow row written => do
    let g ← get
    ensure (row < g.screenRows ∧ written.cells.length = g.columns) .panic
    onRow row (set written)

def operate (operations : List Operation) : GridM Unit := operations.forM Operation.perform

/-- Rows of the right width, whatever they hold. -/
def anyRow : Policy := ⟨False, fun _ => True, trivial, fun _ => trivial⟩

theorem shaped_anyRow {columns : Nat} {row : Row} (h : row.cells.length = columns) : row.Shaped anyRow columns :=
  ⟨h, False.elim, fun _ _ => trivial⟩

theorem sized_of_resizeWithReflow {composedWidth : Nat → Nat} {resized : Grid × OrdMap Nat Nat}
    (h : g.resizeWithReflow rowCapacity columns screenRows composedWidth = .ok resized) :
    Sized rowCapacity columns screenRows := by
  obtain ⟨dimensions, hnew, h⟩ := bind_eq_ok.mp h
  obtain ⟨_, hcheck, -⟩ := bind_eq_ok.mp h
  exact sized_of_ok hnew hcheck

/-- Every operation that returns keeps the invariant. -/
theorem Inv.perform (h : g.Inv anyRow) (operation : Operation) :
    wp operation.perform (fun _ g' => g'.Inv anyRow) (fun _ _ => True) g := by
  cases operation with
  | scroll direction region rows background =>
    simp only [Operation.perform, scroll, wp_bind, wp_get, wp_ensure, wp_whenever, wp_modify, implies_true, and_true]
    intro hregion hrows
    refine ⟨fun _ _ => ?_, fun _ => h⟩
    have hfit : region.start + rows ≤ region.stop := by omega
    cases direction with
    | forward => exact (scrolledForward hfit hregion.2 h.screenRows_le background).inv h hregion.2
    | reverse => exact (scrolledReverse hfit hregion.2 h.screenRows_le background).inv h hregion.2
  | clearScrollback => exact (cleared h).inv h
  | resetVisible background => exact h.resetVisible background
  | restart rowCapacity columns screenRows =>
    simp only [Operation.perform, wp_bind, wp_fromResult, wp_modify, implies_true, and_true]
    intro fresh hfresh
    exact (inv_of_withScreenSize hfresh).continueHistoryNamespace h.nextRowId_pos
  | resizeWithoutReflow rowCapacity columns screenRows =>
    simp only [Operation.perform, wp_bind, wp_get, wp_fromResult, wp_set, implies_true, and_true]
    intro resized hresized
    exact h.resizeWithoutReflow hresized
  | resizeWithReflow rowCapacity columns screenRows composedWidth =>
    simp only [Operation.perform, wp_bind, wp_get, wp_fromResult, wp_set, implies_true, and_true]
    intro resized hresized
    obtain ⟨g', anchors, hok, hpost⟩ := resizeWithReflow_ok h (sized_of_resizeWithReflow hresized)
    rw [hresized] at hok
    cases hok
    exact hpost
  | setCursor cursor =>
    simp only [Operation.perform, setCursor, wp_bind, wp_get, wp_ensure, wp_whenever, wp_set, implies_true, and_true]
    exact fun hon => ⟨fun _ => { h with cursor := hon }, fun _ => h⟩
  | setSavedCursor cursor =>
    simp only [Operation.perform, setSavedCursor, wp_bind, wp_get, wp_ensure, wp_whenever, wp_set, implies_true,
      and_true]
    exact fun hon => ⟨fun _ => { h with savedCursor := hon }, fun _ => h⟩
  | writeRow row written =>
    simp only [Operation.perform, wp_bind, wp_get, wp_ensure, implies_true, and_true]
    rintro ⟨hrow, hlength⟩
    obtain ⟨old, hold, -⟩ := h.row hrow
    exact wp_onRow hold (h.withRow hrow (shaped_anyRow hlength))

theorem Inv.operate (h : g.Inv anyRow) {operations : List Operation}
    (hrun : Grid.operate operations g = .ok () g') : g'.Inv anyRow := by
  have hwp : wp (Grid.operate operations) (fun _ g' => g'.Inv anyRow) (fun _ _ => True) g :=
    wp_forM (fun operation _ g hg => Inv.perform hg operation) h
  have hpost := wp_of_ok hwp hrun
  exact hpost

/-- After any operations the history has increasing identities below the next one, so its pages
are exact: each says whether an older row remains, and a reader that starts above the newest row
and asks for the page before the oldest identity it has receives the whole history in order. -/
theorem history_pages_are_exact {rowCapacity columns screenRows : Nat} {g₀ g : Grid}
    (hnew : withScreenSize rowCapacity columns screenRows = .ok g₀) (operations : List Operation)
    (hrun : operate operations g₀ = .ok () g) :
    (g.scrollbackRowsChronological.Pairwise fun row row' => row.1 < row'.1) ∧
    (∀ row ∈ g.scrollbackRowsChronological, 0 < row.1 ∧ row.1 < g.nextRowId) ∧ ∀ maximumRows, 1 ≤ maximumRows →
      (∀ beforeRowId, (g.snapshotScrollbackPage beforeRowId maximumRows).2 = true ↔
        ∃ row ∈ g.scrollbackRowsChronological, row.1 < beforeRowId ∧
          ∀ received ∈ (g.snapshotScrollbackPage beforeRowId maximumRows).1, row.1 < received.1) ∧
      ∀ beforeRowId, (∀ row ∈ g.scrollbackRowsChronological, row.1 < beforeRowId) →
        ∀ requests, g.scrollbackRowsChronological.length < requests →
          ∃ pages, Paging.readBack (fun before => g.snapshotScrollbackPage before maximumRows)
              (·.1) requests beforeRowId = some pages ∧ pages.flatten = g.scrollbackRowsChronological := by
  have hinv : g.Inv anyRow := Inv.operate (inv_of_withScreenSize hnew) hrun
  have hsorted := hinv.history_increasing
  refine ⟨hsorted, fun row hrow => hinv.history_ids hrow, fun maximumRows hpos => ⟨?_, ?_⟩⟩
  · intro beforeRowId
    rw [snapshotScrollbackPage_eq hpos]
    exact Paging.page_more_iff hsorted hpos
  · intro beforeRowId habove requests hrequests
    have hall : Paging.below (·.1) beforeRowId g.scrollbackRowsChronological =
        g.scrollbackRowsChronological := Paging.below_eq_self habove
    have hpage : (fun before => g.snapshotScrollbackPage before maximumRows) =
        Paging.page (·.1) g.scrollbackRowsChronological maximumRows :=
      funext fun _ => snapshotScrollbackPage_eq hpos
    rw [hpage]
    have hfewer : (Paging.below (·.1) beforeRowId g.scrollbackRowsChronological).length < requests := by rwa [hall]
    obtain ⟨pages, hread, hflat⟩ := Paging.readBack_page hsorted hpos hfewer
    exact ⟨pages, hread, hflat.trans hall⟩

/-- A screen of two rows with room for two more, as it is made. -/
def freshScreen : Grid where
  slots := ⟨[{ row := some (Row.new 1), id := 1 }, { row := some (Row.new 1), id := 2 }, {}, {}], by decide⟩
  columns := 1
  offset := 0
  view := 0
  screenRows := 2
  cursor := {}
  savedCursor := {}
  generation := 2
  nextRowId := 3
  historyGeneration := 1

/-- Scrolls of different regions and directions. -/
def someScrolls : List Operation :=
  [.scroll .forward ⟨0, 2, by decide⟩ 2 default, .scroll .reverse ⟨0, 2, by decide⟩ 1 default,
    .scroll .forward ⟨1, 2, by decide⟩ 1 default]

/-- What they leave. -/
def scrolledScreen : Grid where
  slots :=
    ⟨[{ row := some (Row.new 1), id := 5 },
      { row := some ((Row.new 1).eraseAll default), id := 8 },
      { row := some ((Row.new 1).eraseAll default), id := 6 },
      { row := some ((Row.new 1).eraseAll default), id := 7 }], by decide⟩
  columns := 1
  offset := 2
  view := 2
  screenRows := 2
  cursor := {}
  savedCursor := {}
  generation := 7
  nextRowId := 9
  historyGeneration := 1

theorem scrolled_history_pages :
    withScreenSize 4 1 2 = .ok freshScreen ∧ operate someScrolls freshScreen = .ok () scrolledScreen ∧
      ∀ requests, 2 < requests →
        ∃ pages, Paging.readBack (fun before => scrolledScreen.snapshotScrollbackPage before 1)
            (·.1) requests 9 = some pages ∧ pages.flatten = scrolledScreen.scrollbackRowsChronological := by
  have hnew : withScreenSize 4 1 2 = .ok freshScreen := by rfl
  have hrun : operate someScrolls freshScreen = .ok () scrolledScreen := by rfl
  exact ⟨hnew, hrun, ((history_pages_are_exact hnew someScrolls hrun).2.2 1 le_rfl).2 9 (by decide)⟩

end Splinterm.Terminal.Grid
