import Splinterm.Terminal.ReflowPlaced

/-!
# Reflowed grids

Rewrapping produces rows of the new width, keeps wide characters whole, and lands
every cursor on the screen.
-/

namespace Splinterm.Terminal

open Lib Hoare List Nat Row RingBuffer

namespace Reflow

variable {policy : Policy} {cells : List Cell}

/-! ## The builder -/

/-- Finished rows have the new width, and the row being filled fits it. -/
structure Builder.Shaped (policy : Policy) (width : Nat) (b : Builder) : Prop where
  columns : b.columns = width
  rows : ∀ row ∈ b.rows, row.Shaped policy width
  length : b.current.length ≤ width
  tiled : policy.whole → Tiled b.current
  contents : Admitted policy b.current

namespace Builder.Shaped

variable {columns : Nat} {b : Builder}

variable (h : b.Shaped policy columns)

include h

theorem finishWith {cell : Cell} (hcell : ¬ cell.Continues)
    (hadmits : policy.admits cell.content) (linebreak : Bool) : ((b.pad cell).pushCurrent linebreak).Shaped policy columns where
  columns := h.columns
  rows := by
    have hlen := h.length
    refine forall_mem_append.mpr ⟨h.rows, forall_mem_singleton.mpr
      ⟨?_, fun hn => (h.tiled hn).append (Tiled.replicate _ hcell), h.contents.append (Admitted.replicate _ hadmits)⟩⟩
    simp only [Builder.pad, length_append, length_replicate, h.columns]
    omega
  length := zero_le _
  tiled := fun _ => Tiled.nil
  contents := fun _ hcell => nomatch hcell

theorem finish (linebreak : Bool) : (b.finish linebreak).Shaped policy columns :=
  h.finishWith Cell.not_continues_default policy.empty linebreak

theorem finishWrapped : b.finishWrapped.Shaped policy columns :=
  h.finishWith (by simp [Cell.Continues]) (policy.spacer 0) false

theorem finishHardLine : b.finishHardLine.Shaped policy columns :=
  h.finish true

theorem flushPending (pending : Nat) : (flushPending pending b).Shaped policy columns := by
  induction pending generalizing b with
  | zero => exact h
  | succ pending ih => exact ih h.finishHardLine

theorem appendUnit (hpos : 0 < columns) (physicalRow sourceColumn sourceWidth : Nat) {output : List Cell}
    (htiled : policy.whole → Tiled output) (hcontents : Admitted policy output) :
    (b.appendUnit physicalRow sourceColumn sourceWidth output).Shaped policy columns := by
  -- a unit wider than the row is stored as one empty cell
  obtain ⟨hcellsTiled, hcellsContents⟩ :
      (policy.whole → Tiled (fitted columns output)) ∧ Admitted policy (fitted columns output) := by
    rw [fitted]
    split
    · exact ⟨fun _ => .single Cell.not_continues_default .nil, Admitted.replicate 1 policy.empty⟩
    · exact ⟨htiled, hcontents⟩
  obtain ⟨hroom, hfits⟩ : (b.makeRoom (fitted columns output).length).Shaped policy columns ∧
      (b.makeRoom (fitted columns output).length).current.length + (fitted columns output).length ≤ columns := by
    have hle := length_fitted_le hpos output
    rw [Builder.makeRoom, h.columns]
    split
    · exact ⟨h.finishWrapped, (Nat.zero_add _).trans_le hle⟩
    · next hfit =>
      refine ⟨h, ?_⟩
      by_cases hnil : b.current = []
      · rw [hnil, length_nil]
        omega
      · exact Nat.le_of_not_lt fun hlt => hfit ⟨hnil, hlt⟩
  rw [Builder.appendUnit_eq, h.columns]
  exact {
    columns := hroom.columns
    rows := hroom.rows
    length := length_append.trans_le hfits
    tiled := fun hn => (hroom.tiled hn).append (hcellsTiled hn)
    contents := hroom.contents.append hcellsContents }

end Builder.Shaped

/-! ## Units and rows -/

theorem countsDown_cellsForComposedWidth (n : Nat) : Row.countsDown n
    ((List.range n).map fun offset => ({ content := .spacer (n - offset) } : Cell)) = true := by
  induction n with
  | zero => rfl
  | succ n ih =>
    rw [List.range_succ_eq_map, List.map_cons, List.map_map, Row.countsDown, Bool.and_eq_true]
    refine ⟨by simp, ?_⟩
    simpa only [Function.comp_def, Nat.succ_eq_add_one, Nat.add_sub_add_right] using ih

/-- The cells of a unit are whole characters when those of the row are. -/
theorem tiled_reflowUnit {composedWidth : Nat → Nat} (h : Tiled cells)
    (column count maximumWidth : Nat) : Tiled (reflowUnit composedWidth cells column count maximumWidth).2 := by
  by_cases hcolumn : column < cells.length
  · have hdrop : cells.drop column = cells.getD column default :: cells.drop (column + 1) := by
      rw [drop_eq_getElem_cons hcolumn, getD_eq_getElem _ _ hcolumn]
    rw [reflowUnit]
    dsimp only
    rw [hdrop]
    generalize hleader : cells.getD column default = leader
    rw [hleader] at hdrop
    split
    · exact .single Cell.not_continues_default .nil
    · next key hcontent =>
      have hleads : ¬ leader.Continues := by simp [Cell.Continues, hcontent]
      have hrun {n : Nat} {run : List Cell} (hcounts : countsDown n run = true)
          (hlength : run.length ≤ n) : Tiled (leader :: run) := by
        apply tiled_of_run hleads (by simp [hcontent]) hcounts
        rw [drop_of_length_le hlength]
        exact .nil
      split
      · exact .nil
      · split
        · next hcounts =>
          obtain ⟨n, hn⟩ : ∃ n, max (composedWidth key) 1 = n + 1 := ⟨max (composedWidth key) 1 - 1, by omega⟩
          rw [hn] at hcounts
          rw [hn]
          exact hrun (countsDown_take hcounts.2) (length_take_le ..)
        · exact hrun (countsDown_cellsForComposedWidth _) (by simp)
    · next hcontinues hcomposed =>
      have hleads : ¬ leader.Continues := Cell.not_continues_of hcontinues
      have hfrom : Tiled (leader :: cells.drop (column + 1)) := by
        rw [← hdrop]
        exact (h.split (firstPayload_drop_eq_zero_iff.mpr (hleader.symm ▸ hleads))).2
      split
      · split
        · exact .nil
        · exact (hfrom.split hfrom.first_run.2).1
      · exact .single hleads .nil
  · -- behind the end of the row stands an empty cell
    have hblank : cells.getD column default = default := getD_eq_default _ _ (by omega)
    have hnone : cells.drop (column + 1) = [] := drop_of_length_le (by omega)
    rw [reflowUnit, hblank, hnone]
    simpa [firstPayload] using Tiled.single Cell.not_continues_default .nil

/-- A unit brings nothing in but padding. -/
theorem admitted_reflowUnit {composedWidth : Nat → Nat} (h : Admitted policy cells) (column count maximumWidth : Nat) :
    Admitted policy (reflowUnit composedWidth cells column count maximumWidth).2 := by
  have hnone : Admitted policy [] := fun _ hcell => nomatch hcell
  have hwhole : ∀ width, Admitted policy ((cells.drop column).take width) := fun width => (h.drop column).take width
  have hsingle : Admitted policy [cells.getD column default] := fun cell hcell =>
    mem_singleton.mp hcell ▸ h.getD column
  rw [reflowUnit]
  dsimp only
  split
  · exact Admitted.replicate 1 policy.empty
  · split
    · exact hnone
    · split
      · exact hwhole _
      · apply hsingle.append
        intro cell hcell
        obtain ⟨offset, -, rfl⟩ := mem_map.mp hcell
        exact policy.spacer _
  · split
    · split
      · exact hnone
      · exact hwhole _
    · exact hsingle

variable {columns oldColumns : Nat} (composedWidth : Nat → Nat)

theorem shaped_appendUnits {b : Builder} (h : b.Shaped policy columns) (hpos : 0 < columns) (physicalRow : Nat)
    (hcells : policy.whole → Tiled cells) (hcontents : Admitted policy cells) (count fuel column : Nat) :
    (appendUnits composedWidth physicalRow cells count fuel column b).Shaped policy columns := by
  induction fuel generalizing column b with
  | zero => exact h
  | succ fuel ih =>
    rw [appendUnits]
    split
    · exact ih (h.appendUnit hpos _ _ _ (fun hwhole => tiled_reflowUnit (hcells hwhole) ..)
        (admitted_reflowUnit hcontents _ _ _)) _
    · exact h

theorem shaped_reflowRow {st : State} (h : st.builder.Shaped policy columns) (hpos : 0 < columns)
    (physicalRow : Nat) {slot : Slot} (hslot : ∀ row, slot.row = some row → row.Shaped policy oldColumns) :
    (reflowRow composedWidth st physicalRow slot).builder.Shaped policy columns := by
  rw [reflowRow]
  cases hrow : slot.row with
  | none => exact h
  | some row =>
    dsimp only
    have hmapped : ({ st.builder with
        rowMappings := st.builder.rowMappings.insert slot.id st.builder.rows.length } :
        Builder).Shaped policy columns := ⟨h.columns, h.rows, h.length, h.tiled, h.contents⟩
    have hunits := shaped_appendUnits composedWidth
      (b := if 0 < contentCount row (trackerColumn st.builder.origins physicalRow) then
        flushPending st.pendingEmptyLinebreaks { st.builder with
          rowMappings := st.builder.rowMappings.insert slot.id st.builder.rows.length }
        else { st.builder with
          rowMappings := st.builder.rowMappings.insert slot.id st.builder.rows.length })
      (by
        split
        · exact hmapped.flushPending _
        · exact hmapped) hpos physicalRow (hslot row hrow).tiled
      (hslot row hrow).contents
      (contentCount row (trackerColumn st.builder.origins physicalRow))
      (contentCount row (trackerColumn st.builder.origins physicalRow)) 0
    split
    · exact hunits.finishHardLine
    · exact hunits

theorem shaped_build {g : Grid}
    (h : ∀ (p : Int) row, g.row p = some row → row.Shaped policy oldColumns) (hpos : 0 < columns)
    (origins : Origins) : ∀ row ∈ (build composedWidth columns origins g).rows, row.Shaped policy columns := by
  have hfold : ∀ n : Nat, ((List.range n).foldl
      (fun st (distance : Nat) =>
        reflowRow composedWidth st (g.absoluteIndex (g.screenRows + distance : Nat))
          (g.slot (g.screenRows + distance : Nat)))
      ({ builder := { columns, origins } } : State)).builder.Shaped policy columns := by
    intro n
    apply foldl_range (P := fun _ (st : State) => st.builder.Shaped policy columns)
    · exact ⟨rfl, fun row hrow => (nomatch hrow), zero_le _, fun _ => Tiled.nil, fun _ hcell => nomatch hcell⟩
    · intro j st _ hst
      exact shaped_reflowRow composedWidth hst hpos _ (h _)
  rw [build]
  split
  · exact ((hfold _).finish _).rows
  · split
    · exact (hfold _).finishHardLine.rows
    · exact (hfold _).rows

end Reflow

namespace Grid

open Reflow

variable {policy : Policy} {g g' : Grid}

/-! ## The view and the cursors -/

/-- The live screen is never past itself. -/
theorem absoluteToScrollback_offset_le (g : Grid) (hle : g.screenRows ≤ g.rowCapacity) :
    g.absoluteToScrollback g.offset ≤ g.rowCapacity - g.screenRows := by
  have hindex : g.slots.index ((g.offset : Int) - g.scrollbackStart) =
      g.slots.index ((g.rowCapacity - g.screenRows : Nat) : Int) := by
    rw [index_eq_iff, scrollbackStart, absoluteIndex, index_cast]
    have hsplit : (g.offset : Int) - (g.offset + g.screenRows) % (g.slots.size : Int) -
        ((g.rowCapacity - g.screenRows : Nat) : Int) =
        ((g.offset : Int) + g.screenRows - (g.offset + g.screenRows) % (g.slots.size : Int)) -
          g.slots.size := by
      have : g.rowCapacity = g.slots.size := rfl
      omega
    rw [hsplit, Int.sub_emod_right]
    exact Int.emod_eq_zero_of_dvd Int.dvd_self_sub_emod
  rw [absoluteToScrollback, hindex]
  exact mod_le ..

theorem reflowedView_following (g : Grid) (hle : g.screenRows ≤ g.rowCapacity)
    (mapping : Option (Nat × Nat)) : g.reflowedView true mapping = g.offset := by
  rw [reflowedView]
  simp only [if_true]
  rw [if_neg]
  have := absoluteToScrollback_offset_le g hle
  omega

theorem onScreen_remapCursor (cursor : Cursor) (mapping : Option (Nat × Nat)) (g : Grid)
    (hcolumns : 0 < g.columns) (hrows : 0 < g.screenRows) : g.OnScreen (remapCursor cursor mapping g) := by
  rw [remapCursor]
  dsimp only
  split
  · rename_i h
    exact ⟨h.2, by show min _ _ < _; omega⟩
  · exact ⟨by show min _ _ < _; omega, by show min _ _ < _; omega⟩

/-! ## The resized grid -/

variable {rowCapacity columns screenRows : Nat} {b : Builder} {final : Grid}

theorem Placed.slot_eq (h : Placed rowCapacity columns screenRows g b final) (p : Int) :
    final.slot p = { row := placedRow rowCapacity columns screenRows b.rows (final.absoluteIndex p) } := by
  have hlt : final.absoluteIndex p < rowCapacity := h.capacity ▸ final.slots.index_lt _
  rw [← h.slot _ hlt]
  exact get_congr (index_of_lt (final.slots.index_lt _)).symm

theorem Placed.visible (h : Placed rowCapacity columns screenRows g b final)
    (hle : screenRows ≤ rowCapacity) (hlength : b.rows.length ≤ rowCapacity) {r : Nat}
    (hr : r < screenRows) : (final.slot r).row.isSome = true := by
  have hsize : final.slots.size = rowCapacity := h.capacity
  rw [h.slot_eq, absoluteIndex, h.offset, index_screenRow hsize hle hlength hr, placedRow]
  split
  · rw [if_pos (by omega)]
    rfl
  · rw [if_neg (by omega), getElem?_eq_getElem (by omega)]
    rfl

theorem Placed.laid {composedWidth : Nat → Nat} (h : g.Inv policy) (hs : Sized rowCapacity columns screenRows)
    (hp : Placed rowCapacity columns screenRows g
      (trim rowCapacity (build composedWidth columns g.origins g)) final) : final.Laid policy := by
  have hlength := length_trim rowCapacity (build composedWidth columns g.origins g)
  have hbuilt := shaped_build composedWidth (fun _ _ hrow => (h.stored.ok _).shaped hrow)
    hs.columns_pos g.origins
  have hcolumns : 0 < final.columns := hp.width.symm ▸ hs.columns_pos
  have hrows : 0 < final.screenRows := hp.height.symm ▸ hs.screenRows_pos
  have hle := hs.screenRows_le
  exact
    { sized := by
        rw [hp.capacity, hp.width, hp.height]
        exact hs
      offset := by
        have := hs.screenRows_pos
        rw [hp.offset, hp.capacity, placedOffset]
        split <;> omega
      view := by
        rw [hp.view, h.view, beq_self_eq_true]
        exact reflowedView_following final (by rw [hp.height, hp.capacity]; exact hle) _
      cursor := hp.cursor.symm ▸ onScreen_remapCursor _ _ final hcolumns hrows
      savedCursor := hp.savedCursor.symm ▸ onScreen_remapCursor _ _ final hcolumns hrows
      nextRowId_pos := hp.nextRowId.symm ▸ h.nextRowId_pos
      row := by
        intro p row hrow
        rw [Grid.row, hp.slot_eq, placedRow] at hrow
        rw [hp.width]
        split at hrow
        · cases hrow
          exact shaped_new columns
        · exact hbuilt row (mem_of_mem_drop (mem_of_getElem? hrow))
      unallocated := fun p _ => by rw [hp.slot_eq]
      visible := fun r hr => hp.visible hle hlength (hp.height ▸ hr) }

theorem resizeWithReflow_ok (h : g.Inv policy) (hs : Sized rowCapacity columns screenRows)
    {composedWidth : Nat → Nat} : ∃ g' anchors,
      g.resizeWithReflow rowCapacity columns screenRows composedWidth = .ok (g', anchors) ∧ g'.Inv policy := by
  obtain ⟨final, ids, hrun, hp, -⟩ := placed_resizeWithReflow hs composedWidth g
  exact ⟨_, ids, hrun, (hp.laid h hs).reidentified⟩

end Grid

end Splinterm.Terminal
