import Splinterm.Terminal.GridFresh
import Splinterm.Terminal.ReflowBuilder

/-!
# Where reflowed rows are stored

The rebuilt rows fill the ring from slot zero, blank rows complete the screen above them
when there are too few, and nothing else is allocated. Read oldest first, the new grid is
those blank rows followed by the rebuilt ones.
-/

namespace Splinterm.Terminal.Grid

open Lib Hoare RingBuffer List Nat Grid

open Reflow

variable {rowCapacity columns screenRows : Nat} {g g' : Grid}

/-! ## Placing -/

theorem place_rows (columns screenRows : Nat) (hpos : 0 < rowCapacity) {rows : List Row} (hlength : rows.length ≤ rowCapacity) :
    ∃ slots : RingBuffer Slot, rows.zipIdx.foldl (fun g (row, index) => g.setSlot (index : Nat) { row := some row })
          { blank rowCapacity columns hpos with screenRows } =
        { blank rowCapacity columns hpos with screenRows, slots } ∧ slots.size = rowCapacity ∧
      ∀ j : Nat, j < rowCapacity → slots.get j = { row := rows[j]? } := by
  induction rows using reverseRecOn with
  | nil =>
    refine ⟨_, rfl, rowCapacity_blank columns hpos, fun j _ => ?_⟩
    rw [get_blank]
    rfl
  | append_singleton rows row ih =>
    rw [length_append, length_singleton] at hlength
    obtain ⟨slots, hfold, hsize, hget⟩ := ih (by omega)
    rw [zipIdx_append, foldl_append, hfold]
    refine ⟨slots.set (rows.length : Nat) { row := some row }, ?_, by rw [size_set, hsize], fun j hj => ?_⟩
    · simp [setSlot, blank]
    · rw [get_set, index_of_lt (by omega), index_of_lt (by omega)]
      rcases lt_trichotomy rows.length j with hlt | rfl | hlt
      · rw [if_neg (by omega), hget j hj, getElem?_eq_none (by omega), getElem?_eq_none (by simp; omega)]
      · rw [if_pos rfl, getElem?_concat_length]
      · rw [if_neg (by omega), hget j hj, getElem?_append_left hlt]

theorem place_missing (g : Grid) (count : Nat) : ∃ slots : RingBuffer Slot, (range count).foldl
          (fun g (row : Nat) =>
            if (g.slot row).row.isNone then g.setSlot row { row := some (Row.new g.columns) } else g)
          g = { g with slots } ∧ slots.size = g.slots.size ∧ (∀ q : Int, (g.slots.get q).row.isSome = true ∨
        (∀ r : Nat, r < count → g.absoluteIndex r ≠ g.slots.index q) → slots.get q = g.slots.get q) ∧
      ∀ r : Nat, r < count → (g.slot r).row = none →
        slots.get (g.offset + r) = { row := some (Row.new g.columns) } := by
  induction count with
  | zero => exact ⟨g.slots, rfl, rfl, fun _ _ => rfl, fun r hr => absurd hr (not_lt_zero r)⟩
  | succ count ih =>
    obtain ⟨slots, hfold, hsize, hsame, hnew⟩ := ih
    rw [range_succ, foldl_append, hfold]
    have hindex : ∀ q : Int, slots.index q = g.slots.index q := index_congr hsize
    simp only [foldl_cons, foldl_nil]
    by_cases hnone : (({ g with slots } : Grid).slot count).row.isNone = true
    · rw [if_pos hnone]
      refine ⟨slots.set (g.offset + count) { row := some (Row.new g.columns) }, rfl,
        size_set.trans hsize, fun q hq => ?_, fun r hr hrow => ?_⟩
      · rw [get_set, hindex, hindex]
        by_cases hat : g.slots.index (g.offset + count) = g.slots.index q
        · -- the slot was already allocated, or is not one of the screen
          rcases hq with hsome | hout
          · rw [← hsame q (.inl hsome), ← get_congr ((hindex _).trans (hat.trans (hindex q).symm))]
              at hsome
            exact absurd hsome (by simpa [slot] using hnone)
          · exact absurd hat (hout count (lt_succ_self count))
        · rw [if_neg hat]
          exact hsame q (hq.imp_right fun hout r hr => hout r (by omega))
      · rw [get_set, hindex, hindex]
        by_cases hat : g.slots.index (g.offset + count) = g.slots.index (g.offset + r)
        · rw [if_pos hat]
        · rw [if_neg hat]
          have hne : r ≠ count := fun heq => hat (by rw [heq])
          exact hnew r (by omega) hrow
    · rw [if_neg hnone]
      refine ⟨slots, rfl, hsize, fun q hq => hsame q (hq.imp_right fun hout r hr => hout r (by omega)),
        fun r hr hrow => ?_⟩
      rcases Nat.lt_succ_iff_lt_or_eq.mp hr with hlt | rfl
      · exact hnew r hlt hrow
      · by_cases hold : ∀ r' : Nat, r' < r → g.absoluteIndex r' ≠ g.slots.index (g.offset + r)
        · have heq := hsame (g.offset + r) (.inr hold)
          rw [slot, heq] at hnone
          exact absurd hrow (by simpa [slot] using hnone)
        · simp only [not_forall, not_not] at hold
          obtain ⟨r', hr', heq⟩ := hold
          have hslot : g.slot r' = g.slot r := slot_congr heq
          rw [← hnew r' hr' (hslot ▸ hrow)]
          exact get_congr (by rw [hindex, hindex]; exact heq.symm)

/-- What slot `j` holds once `rows` are placed. -/
def placedRow (rowCapacity columns screenRows : Nat) (rows : List Row) (j : Nat) : Option Row :=
  if rowCapacity - (screenRows - rows.length) ≤ j then some (Row.new columns) else rows[j]?

def placedOffset (rowCapacity screenRows count : Nat) : Nat :=
  if screenRows ≤ count then count - screenRows else rowCapacity - (screenRows - count)

/-- Counted from the new offset, the ring starts a screen before the end of the rebuilt rows. -/
theorem index_placedOffset {slots : RingBuffer Slot} (hsize : slots.size = rowCapacity)
    (hle : screenRows ≤ rowCapacity) (count : Nat) (p : Int) :
    slots.index (placedOffset rowCapacity screenRows count + p) = slots.index (count - screenRows + p) := by
  rw [index_add_congr, placedOffset]
  split
  · congr 1
    omega
  · rw [← index_add_size (i := (count : Int) - screenRows)]
    congr 1
    omega

theorem index_screenRow {slots : RingBuffer Slot} (hsize : slots.size = rowCapacity) (hle : screenRows ≤ rowCapacity)
    {count r : Nat} (hcount : count ≤ rowCapacity) (hr : r < screenRows) :
    slots.index (placedOffset rowCapacity screenRows count + (r : Nat)) =
      if r < screenRows - count then rowCapacity - (screenRows - count) + r else count + r - screenRows := by
  rw [index_placedOffset hsize hle]
  split
  · rw [← index_add_size, ← index_of_lt (r := slots) (n := _ + _) (by omega)]
    congr 1
    omega
  · rw [← index_of_lt (r := slots) (n := _ - _) (by omega)]
    congr 1
    omega

theorem placeRows_eq (hs : Sized rowCapacity columns screenRows) {rows : List Row}
    (hlength : rows.length ≤ rowCapacity) : ∃ slots : RingBuffer Slot,
      placeRows rows screenRows (blank rowCapacity columns (isPowerOfTwo_pos hs.capacity)) =
        { blank rowCapacity columns (isPowerOfTwo_pos hs.capacity) with
          screenRows, slots, offset := placedOffset rowCapacity screenRows rows.length } ∧
      slots.size = rowCapacity ∧ ∀ j : Nat, j < rowCapacity →
        slots.get j = { row := placedRow rowCapacity columns screenRows rows j } := by
  have hpos := isPowerOfTwo_pos hs.capacity
  have hle := hs.screenRows_le
  obtain ⟨filled, hfold, hsize, hget⟩ := place_rows columns screenRows hpos hlength
  rw [placeRows, hfold]
  have hcap : ({ blank rowCapacity columns hpos with screenRows, slots := filled } : Grid).rowCapacity =
      rowCapacity := hsize
  rw [hcap]
  obtain ⟨slots, hall, hsize', hsame, hnew⟩ := place_missing
    { blank rowCapacity columns hpos with
      screenRows, slots := filled, offset := placedOffset rowCapacity screenRows rows.length } screenRows
  refine ⟨slots, hall, hsize'.trans hsize, fun j hj => ?_⟩
  have hindex : filled.index (j : Nat) = j := index_of_lt (hsize.symm ▸ hj)
  rw [placedRow]
  split
  · -- one of the blank rows above the rebuilt ones
    have hoffset : placedOffset rowCapacity screenRows rows.length = rowCapacity - (screenRows - rows.length) := by
      rw [placedOffset, if_neg (by omega)]
    have hslot : ((placedOffset rowCapacity screenRows rows.length : Nat) : Int) +
        ((j - (rowCapacity - (screenRows - rows.length)) : Nat) : Int) = (j : Nat) := by
      omega
    have hrow := hnew (j - (rowCapacity - (screenRows - rows.length))) (by omega) (by
      show (filled.get _).row = none
      rw [hslot, hget j hj]
      exact getElem?_eq_none (by omega))
    rw [show slots.get (j : Nat) = _ from (congrArg slots.get hslot).symm.trans hrow]
    rfl
  · rw [hsame j]
    · exact hget j hj
    by_cases hlt : j < rows.length
    · left
      rw [hget j hj, getElem?_eq_getElem hlt]
      rfl
    · -- slots past the rebuilt rows that are not on the screen
      right
      intro r hr
      show filled.index _ ≠ filled.index _
      rw [index_screenRow hsize hle hlength hr]
      split <;> omega

/-! ## Maps from lists of pairs -/

/-- Values rewritten, and the keys of those without a new value dropped. -/
theorem get?_mapOf_filterMap (m : OrdMap Nat Nat) {f : Nat → Option Nat} {rewrite : Nat × Nat → Option (Nat × Nat)}
    (h : ∀ k v, rewrite (k, v) = (f v).map fun w => (k, w)) (k : Nat) :
    (mapOf (m.entries.filterMap rewrite)).get? k = (m.get? k).bind f := by
  have hkeys : ((m.entries.filterMap rewrite).map (·.1)).Nodup := by
    refine List.Nodup.sublist ?_ m.keys_nodup
    generalize m.entries = entries
    induction entries with
    | nil => exact List.Sublist.refl _
    | cons entry entries ih =>
      obtain ⟨k, v⟩ := entry
      rw [filterMap_cons, h]
      cases f v with
      | none => exact ih.cons _
      | some w => exact ih.cons_cons _
  ext w
  rw [mapOf, OrdMap.get?_foldl_insert hkeys, Option.bind_eq_some_iff]
  constructor
  · rintro ⟨pair, hpair, rfl, rfl⟩
    obtain ⟨⟨k', v⟩, hmem, hrewrite⟩ := mem_filterMap.mp hpair
    rw [h, Option.map_eq_some_iff] at hrewrite
    obtain ⟨w', hw, heq⟩ := hrewrite
    obtain ⟨rfl, rfl⟩ := Prod.mk.inj heq
    exact ⟨v, OrdMap.get?_eq_some.mpr hmem, hw⟩
  · rintro ⟨v, hmem, hw⟩
    refine ⟨(k, w), mem_filterMap.mpr ⟨(k, v), OrdMap.get?_eq_some.mp hmem, ?_⟩, rfl, rfl⟩
    rw [h, hw]
    rfl

/-! ## The resized grid -/

/-- The positions a reflow keeps track of. -/
def origins (g : Grid) : Origins :=
  { cursor := (g.absoluteIndex g.cursor.position.row, g.cursor.position.column)
    savedCursor := (g.absoluteIndex g.savedCursor.position.row, g.savedCursor.position.column)
    view := (g.view, 0) }

/-- The slot an old row is mapped to when `count` rows were rebuilt and its line starts at
rebuilt row `row`. -/
def mappedSlot (g : Grid) (screenRows count row : Nat) : Option Nat :=
  if row < count then some row
  else if 0 < screenRows - count then some (g.absoluteIndex (screenRows - count - 1 : Nat))
  else none

/-- A resized grid in terms of the rows `b` that were rebuilt for it. -/
structure Reflowed (rowCapacity columns screenRows : Nat) (g : Grid) (b : Builder) (g' : Grid)
    (ids : OrdMap Nat Nat) : Prop where
  capacity : g'.rowCapacity = rowCapacity
  width : g'.columns = columns
  height : g'.screenRows = screenRows
  offset : g'.offset = placedOffset rowCapacity screenRows b.rows.length
  row : ∀ j : Nat, j < rowCapacity → (g'.slots.get j).row = placedRow rowCapacity columns screenRows b.rows j
  distinct : Distinct g'.slots
  cursor : g'.cursor = remapCursor g.cursor b.mappings.cursor g'
  savedCursor : g'.savedCursor = remapCursor g.savedCursor b.mappings.savedCursor g'
  ids : ∀ id, ids.get? id = (b.rowMappings.get? id).bind fun row =>
    (g'.mappedSlot screenRows b.rows.length row).bind fun index =>
      (g'.slots.get index).row.map fun _ => (g'.slots.get index).id

/-- Identities alone are not restricted. -/
def anyPolicy : Policy where
  whole := False
  admits := fun _ => True
  empty := trivial
  spacer := fun _ => trivial

/-- The rebuilt rows `b` in the ring of the new grid, before they are identified. -/
structure Placed (rowCapacity columns screenRows : Nat) (g : Grid) (b : Builder) (final : Grid) : Prop where
  capacity : final.rowCapacity = rowCapacity
  width : final.columns = columns
  height : final.screenRows = screenRows
  offset : final.offset = placedOffset rowCapacity screenRows b.rows.length
  slot : ∀ j : Nat, j < rowCapacity → final.slots.get j = { row := placedRow rowCapacity columns screenRows b.rows j }
  view : final.view = final.reflowedView (g.view == g.offset) b.mappings.view
  cursor : final.cursor = remapCursor g.cursor b.mappings.cursor final
  savedCursor : final.savedCursor = remapCursor g.savedCursor b.mappings.savedCursor final
  nextRowId : final.nextRowId = g.nextRowId

/-- The last step: new identities for the placed rows. -/
theorem Placed.reflowed {b : Builder} {final g' : Grid} (h : Placed rowCapacity columns screenRows g b final)
    (hg' : final.reidentifyAllocatedRowsChronologically = g') : Reflowed rowCapacity columns screenRows g b g'
      (mapOf (b.rowMappings.entries.filterMap fun (id, row) =>
        (g'.mappedSlot screenRows b.rows.length row).bind fun index =>
          ((g'.slots.get index).row).map fun _ => (id, (g'.slots.get index).id))) := by
  have hre := reidentified (g := final) (final.screenRows : Int) (le_refl final.rowCapacity)
  rw [← reidentifyAllocatedRowsChronologically_eq, hg'] at hre
  have hremap (cursor mapping) : remapCursor cursor mapping final = remapCursor cursor mapping g' := by
    rw [remapCursor, remapCursor, hre.same.offset, hre.same.screenRows, hre.same.columns]
    dsimp only
    rw [index_congr hre.same.size]
  exact
    { capacity := (show g'.rowCapacity = final.rowCapacity from hre.same.size).trans h.capacity
      width := hre.same.columns.trans h.width
      height := hre.same.screenRows.trans h.height
      offset := hre.same.offset.trans h.offset
      row := by
        intro j hj
        have hslot := hre.row ((j : Nat) - final.offset)
        rw [Grid.slot, Grid.slot, hre.same.offset, add_sub_cancel] at hslot
        rw [hslot, h.slot j hj]
      distinct := hre.distinct fun p hp =>
        (absurd hp (final.not_beyond _ p) : Stored anyPolicy final.columns final.nextRowId final.slots)
      cursor := by rw [hre.same.cursor, h.cursor, hremap]
      savedCursor := by rw [hre.same.savedCursor, h.savedCursor, hremap]
      ids := by
        apply get?_mapOf_filterMap
        intro k v
        dsimp only
        cases g'.mappedSlot screenRows b.rows.length v with
        | none => rfl
        | some index => simp [Function.comp_def] }

theorem length_trim (capacity : Nat) (b : Builder) : (trim capacity b).rows.length ≤ capacity := by
  simp only [trim, length_drop]
  omega

theorem placed_resizeWithReflow (hs : Sized rowCapacity columns screenRows) (composedWidth : Nat → Nat) (g : Grid) :
    ∃ final ids, g.resizeWithReflow rowCapacity columns screenRows composedWidth =
        .ok (final.reidentifyAllocatedRowsChronologically, ids) ∧ Placed rowCapacity columns screenRows g
        (trim rowCapacity (build composedWidth columns g.origins g)) final ∧
      Reflowed rowCapacity columns screenRows g (trim rowCapacity (build composedWidth columns g.origins g))
        final.reidentifyAllocatedRowsChronologically ids := by
  obtain ⟨slots, hplaced, hsize, hslot⟩ :=
    placeRows_eq hs (length_trim rowCapacity (build composedWidth columns g.origins g))
  rw [resizeWithReflow, new_of_sized hs]
  simp only [bind, Except.bind, hs.checked]
  rw [show (trim rowCapacity (build composedWidth columns
      { cursor := (g.absoluteIndex g.cursor.position.row, g.cursor.position.column)
        savedCursor := (g.absoluteIndex g.savedCursor.position.row, g.savedCursor.position.column)
        view := (g.view, 0) } g)) = trim rowCapacity (build composedWidth columns g.origins g) from rfl]
  rw [hplaced]
  refine ⟨_, _, rfl, ?placed, Placed.reflowed ?placed rfl⟩
  exact ⟨hsize, rfl, rfl, rfl, hslot, rfl, rfl, rfl, rfl⟩

theorem reflowed_resizeWithReflow (hs : Sized rowCapacity columns screenRows) (composedWidth : Nat → Nat) (g : Grid) :
    ∃ g' ids, g.resizeWithReflow rowCapacity columns screenRows composedWidth = .ok (g', ids) ∧
      Reflowed rowCapacity columns screenRows g
        (trim rowCapacity (build composedWidth columns g.origins g)) g' ids := by
  obtain ⟨final, ids, hrun, -, h⟩ := placed_resizeWithReflow hs composedWidth g
  exact ⟨_, ids, hrun, h⟩

/-! ## Reading the new grid -/

def oldRowAt (g : Grid) (j : Nat) : Option OldRow :=
  (g.slots.get j).row.map fun row => { physicalRow := j, id := (g.slots.get j).id, row }

namespace Reflowed

variable {b : Builder} {ids : OrdMap Nat Nat}

theorem oldRowAt_eq (h : Reflowed rowCapacity columns screenRows g b g' ids) {j : Nat}
    (hj : j < rowCapacity) : g'.oldRowAt j = (placedRow rowCapacity columns screenRows b.rows j).map fun row =>
        { physicalRow := j, id := (g'.slots.get j).id, row } := by
  rw [oldRowAt, h.row j hj]

variable (h : Reflowed rowCapacity columns screenRows g b g' ids) (hle : screenRows ≤ rowCapacity)
  (hlength : b.rows.length ≤ rowCapacity)

include h hle hlength

/-- Oldest first, the ring is read from the slot after the rebuilt rows. -/
theorem oldRows_eq_filterMap :
    g'.oldRows = (range' b.rows.length (rowCapacity - b.rows.length)).filterMap g'.oldRowAt ++
      (range b.rows.length).filterMap g'.oldRowAt := by
  have hsize : g'.slots.size = rowCapacity := h.capacity
  -- position `d` after the screen is slot `b.rows.length + d` of the ring
  have hindex : ∀ d : Nat, g'.absoluteIndex (g'.screenRows + d : Nat) = g'.slots.index (b.rows.length + d : Nat) := by
    intro d
    rw [absoluteIndex, h.offset, h.height, index_placedOffset hsize hle]
    congr 1
    omega
  have hread : ∀ d j : Nat, g'.slots.index (b.rows.length + d : Nat) = j → j < rowCapacity →
      ((g'.slot (g'.screenRows + d : Nat)).row.map fun row =>
        ({ physicalRow := g'.absoluteIndex (g'.screenRows + d : Nat)
           id := (g'.slot (g'.screenRows + d : Nat)).id
           row } : OldRow)) = g'.oldRowAt j := by
    intro d j hd hj
    have hat : g'.slot (g'.screenRows + d : Nat) = g'.slots.get (j : Nat) := by
      apply get_congr
      exact ((hindex d).trans hd).trans (index_of_lt (hsize.symm ▸ hj)).symm
    rw [hat, hindex, hd]
    rfl
  rw [oldRows, h.capacity, show rowCapacity = (rowCapacity - b.rows.length) + b.rows.length by omega,
    range_add, filterMap_append, filterMap_map, Nat.add_sub_cancel, range'_eq_map_range, filterMap_map]
  congr 1
  · apply filterMap_congr
    intro d hd
    rw [mem_range] at hd
    have hlt : b.rows.length + d < rowCapacity := by omega
    exact hread d _ (index_of_lt (hsize.symm ▸ hlt)) hlt
  · apply filterMap_congr
    intro j hj
    rw [mem_range] at hj
    refine hread _ j ?_ (by omega)
    rw [show ((b.rows.length + (rowCapacity - b.rows.length + j) : Nat) : Int) =
      (j : Nat) + g'.slots.size by omega, index_add_size,
      index_of_lt (by omega)]

/-- Blank rows that complete the screen, then the rebuilt rows. -/
theorem oldRows_eq : g'.oldRows =
      (range' (rowCapacity - (screenRows - b.rows.length)) (screenRows - b.rows.length)).map
          (fun j => { physicalRow := j, id := (g'.slots.get j).id, row := Row.new columns }) ++
        (range b.rows.length).map fun j =>
          { physicalRow := j, id := (g'.slots.get j).id, row := b.rows.getD j (Row.new columns) } := by
  rw [h.oldRows_eq_filterMap hle hlength]
  congr 1
  · -- the slots between the rebuilt rows and the blank ones are free
    obtain ⟨free, hfree⟩ : ∃ free, rowCapacity = b.rows.length + free + (screenRows - b.rows.length) :=
      ⟨rowCapacity - (screenRows - b.rows.length) - b.rows.length, by omega⟩
    rw [show rowCapacity - b.rows.length = free + (screenRows - b.rows.length) by omega,
      show rowCapacity - (screenRows - b.rows.length) = b.rows.length + free by omega,
      ← range'_append_1, filterMap_append]
    have hnone : (range' b.rows.length free).filterMap g'.oldRowAt = [] := by
      rw [filterMap_eq_nil_iff]
      intro j hj
      rw [mem_range'_1] at hj
      rw [h.oldRowAt_eq (by omega), placedRow, if_neg (by omega), getElem?_eq_none hj.1]
      rfl
    rw [hnone, ← filterMap_eq_map']
    apply filterMap_congr
    intro j hj
    rw [mem_range'_1] at hj
    rw [h.oldRowAt_eq (by omega), placedRow, if_pos (by omega)]
    rfl
  · rw [← filterMap_eq_map']
    apply filterMap_congr
    intro j hj
    rw [mem_range] at hj
    rw [h.oldRowAt_eq (by omega), placedRow, if_neg (by omega), getElem?_eq_getElem hj, getD_eq_getElem _ _ hj]
    rfl

theorem map_row_oldRows : g'.oldRows.map OldRow.row =
      replicate (screenRows - b.rows.length) (Row.new columns) ++ b.rows := by
  rw [h.oldRows_eq hle hlength, map_append, map_map]
  congr 1
  · rw [eq_replicate_iff]
    refine ⟨by simp, fun row hrow => ?_⟩
    obtain ⟨j, -, rfl⟩ := mem_map.mp hrow
    rfl
  · apply ext_getElem
    · simp
    · intro j hj hj'
      simp [getElem?_eq_getElem hj']

theorem length_oldRows : g'.oldRows.length = screenRows - b.rows.length + b.rows.length := by
  rw [h.oldRows_eq hle hlength]
  simp

theorem getElem?_oldRows {j : Nat} (hj : j < b.rows.length) : g'.oldRows[screenRows - b.rows.length + j]? = some
      { physicalRow := j, id := (g'.slots.get j).id, row := b.rows.getD j (Row.new columns) } := by
  rw [h.oldRows_eq hle hlength]
  simp [hj]

theorem row_screen {j : Nat} (hj : j < b.rows.length) (hscreen : b.rows.length ≤ j + screenRows) :
    g'.row (j + screenRows - b.rows.length : Nat) = b.rows[j]? ∧
      g'.slots.index ((j : Int) - g'.offset) = j + screenRows - b.rows.length := by
  have hsize : g'.slots.size = rowCapacity := h.capacity
  have hat : g'.slots.index (g'.offset + (j + screenRows - b.rows.length : Nat)) = g'.slots.index (j : Nat) := by
    rw [h.offset, index_placedOffset hsize hle]
    congr 1
    omega
  constructor
  · rw [Grid.row, show g'.slot _ = _ from get_congr hat, h.row j (by omega), placedRow, if_neg (by omega)]
  · rw [sub_eq_add_neg, ← (index_add_congr _).mpr hat, add_neg_cancel_comm, index_of_lt (by omega)]

end Reflowed

end Splinterm.Terminal.Grid
