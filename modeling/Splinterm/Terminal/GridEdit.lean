import Splinterm.Terminal.GridScroll

/-!
# Edits of a grid

Beside scrolls a grid is changed by edits of its visible rows and by dropping the history. Both
keep the invariant.
-/

namespace Splinterm.Terminal.Grid

open Lib Hoare Option RingBuffer

variable {policy : Policy} {g g' : Grid}

/-! ## Rows -/

/-- The grid after the row at `p` was edited into `row`. -/
def withRow (p : Int) (row : Row) (g : Grid) : Grid :=
  g.write p { g.slot p with row := some row } (g.generation + 1) g.nextRowId

theorem wp_onRow {α : Type} {edit : RowM α} {post : α → Grid → Prop} {fail : Fault → Grid → Prop} {p : Int}
    {row : Row} (hrow : g.row p = some row) (hedit : wp edit (fun a row' => post a (g.withRow p row'))
      (fun e row' => fail e (g.withRow p row')) row) : wp (onRow p edit) post fail g := by
  simp only [onRow, wp_bind, wp_get, hrow, wp_okOr, wp_set, wp_zoom]
  constructor
  · intro found hfound
    rw [some.inj hfound] at hedit
    exact hedit
  · intro hnone
    exact absurd hnone (some_ne_none row)

theorem Inv.row (h : g.Inv policy) {r : Nat} (hr : r < g.screenRows) :
    ∃ row, g.row r = some row ∧ row.Shaped policy g.columns := by
  obtain ⟨row, hrow⟩ := isSome_iff_exists.mp (h.visible r hr)
  exact ⟨row, hrow, (h.stored.ok _).shaped hrow⟩

/-- Writing a shaped row over an allocated one keeps the invariant. -/
theorem Inv.withRow (h : g.Inv policy) {r : Nat} (hr : r < g.screenRows) {row : Row}
    (hrow : row.Shaped policy g.columns) : (g.withRow r row).Inv policy := by
  have hle := h.screenRows_le
  have hother : ∀ p : Int, (g.screenRows : Int) - g.rowCapacity ≤ p → p < g.screenRows → p ≠ r →
      (g.withRow r row).slot p = g.slot p := fun p hlow hhigh hne =>
    slot_write_of_ne (w := (g.screenRows : Int) - g.rowCapacity) (by omega) (by omega) hne.symm _ _ _
  have hframe : g.SameFrame (g.withRow r row) := { size := size_set }
  apply inv_of_frame h.sized h.cursor h.savedCursor hframe h.offset h.view h.nextRowId_pos
    (h.stored.set_row (h.visible r hr) hrow)
  · intro q hq
    by_cases heq : q = r
    · rw [heq, Grid.withRow, slot_write_self]
      rfl
    · rw [hother q (by omega) (by omega) (by omega)]
      exact h.visible q hq
  · intro p q hlow hpq hhigh hp hq
    rw [hother p hlow (by omega) (by omega)] at hp ⊢
    rw [hother q (by omega) (by omega) (by omega)] at hq ⊢
    exact h.history p q hlow hpq hhigh hp hq

/-! ## Dropping the history -/

/-- The history is gone and the screen is as it was. -/
structure Cleared (g g' : Grid) : Prop where
  frame : ({ g with historyGeneration := g'.historyGeneration } : Grid).SameFrame g'
  offset : g'.offset = g.offset
  view : g'.view = g.view
  nextRowId : g'.nextRowId = g.nextRowId
  slot : ∀ p : Int, g'.slot p = g.slot p ∨ g'.slot p = {}
  visible : ∀ r : Nat, r < g.screenRows → g'.slot r = g.slot r
  history : ∀ p : Int, (g.screenRows : Int) - g.rowCapacity ≤ p → p < 0 → g'.slot p = {}

/-- The slots a reader of the screen sees. -/
def visibleIndices (g : Grid) : List Nat :=
  (List.range g.screenRows).map fun row : Nat => g.absoluteIndex row

theorem absoluteIndex_mem_visibleIndices {r : Nat} (hr : r < g.screenRows) : g.absoluteIndex r ∈ g.visibleIndices :=
  List.mem_map.mpr ⟨r, List.mem_range.mpr hr, rfl⟩

theorem absoluteIndex_not_mem_visibleIndices {p : Int}
    (hlow : (g.screenRows : Int) - g.rowCapacity ≤ p) (hhigh : p < 0) : g.absoluteIndex p ∉ g.visibleIndices := by
  intro hmem
  obtain ⟨r, hr, heq⟩ := List.mem_map.mp hmem
  rw [List.mem_range] at hr
  exact absoluteIndex_ne (w := (g.screenRows : Int) - g.rowCapacity) (by omega) (by omega)
    (by omega) heq

theorem cleared (h : g.Inv policy) : g.Cleared g.clearScrollback := by
  rw [clearScrollback]
  split
  · have hget : ∀ p : Int, (g.slots.mapIdx fun index slot =>
        if (!g.visibleIndices.contains index) = true then {} else slot).get (g.offset + p) =
        if g.absoluteIndex p ∈ g.visibleIndices then g.slot p else {} := by
      intro p
      rw [get_mapIdx]
      by_cases hmem : g.absoluteIndex p ∈ g.visibleIndices
      · rw [if_pos hmem, if_neg]
        · rfl
        · simpa [absoluteIndex] using hmem
      · rw [if_neg hmem, if_pos]
        simpa [absoluteIndex] using hmem
    refine ⟨{ size := size_mapIdx }, rfl, h.view.symm, rfl, ?_, ?_, ?_⟩
    · intro p
      rcases ite_eq_or_eq (g.absoluteIndex p ∈ g.visibleIndices) (g.slot p) {} with heq | heq
      · exact .inl ((hget p).trans heq)
      · exact .inr ((hget p).trans heq)
    · intro r hr
      exact (hget r).trans (if_pos (absoluteIndex_mem_visibleIndices hr))
    · intro p hlow hhigh
      exact (hget p).trans (if_neg (absoluteIndex_not_mem_visibleIndices hlow hhigh))
  · rename_i hnone
    refine ⟨{}, rfl, rfl, rfl, fun _ => .inl rfl, fun _ _ => rfl, ?_⟩
    intro p hlow hhigh
    apply h.stored.eq_empty
    -- an allocated slot outside the screen would have been found
    by_contra hrow
    apply hnone
    rw [List.any_eq_true]
    refine ⟨(g.slot p, g.absoluteIndex p), ?_, ?_⟩
    · rw [List.mem_zipIdx_iff_getElem?]
      simp [slot, RingBuffer.get, absoluteIndex]
    · have hmem := absoluteIndex_not_mem_visibleIndices hlow hhigh
      have hsome : (g.slot p).row.isSome = true := isSome_iff_ne_none.mpr hrow
      simp only [hsome, Bool.true_and]
      simpa [visibleIndices] using hmem

theorem Cleared.inv (h : g.Inv policy) (hc : g.Cleared g') : g'.Inv policy := by
  refine inv_of_frame (g := { g with historyGeneration := g'.historyGeneration }) h.sized h.cursor
    h.savedCursor hc.frame (hc.offset.trans_lt h.offset) (by rw [hc.view, hc.offset, h.view])
    (hc.nextRowId.symm ▸ h.nextRowId_pos) ?_ ?_ ?_
  · rw [hc.nextRowId]
    refine h.stored.thinned hc.frame.size fun i => ?_
    rw [get_eq_slot g', get_eq_slot g, hc.offset]
    exact hc.slot _
  · intro r hr
    rw [hc.visible r hr]
    exact h.visible r hr
  · intro p q hlow hpq hhigh hp _
    rw [hc.history p hlow (by omega)] at hp
    cases hp

end Splinterm.Terminal.Grid
