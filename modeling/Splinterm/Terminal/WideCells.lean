import Splinterm.Terminal.GlyphEdit
import Splinterm.Terminal.HistoryPage
import Splinterm.Terminal.RunSteps

/-!
# Wide characters stay whole

Every edit of a row leaves it a sequence of whole characters, with one exception: the padding of a
line whose last character wraps is written without clearing the wide character it may start in. A
run that never pads from inside a wide character, except directly behind its leader, keeps every row
of both screens valid.
-/

namespace Splinterm.Terminal

set_option linter.dupNamespace false

open Lib Hoare Relation List Nat Row Glyph

/-- Wide characters are whole, and any content is admitted. -/
def wholeRow : Policy := ⟨True, fun _ => True, trivial, fun _ => trivial⟩

namespace Row

variable {row row' : Row} {columns column : Nat}

/-- The row has `columns` cells and is a sequence of whole characters. -/
abbrev Whole (columns : Nat) (row : Row) : Prop := row.Shaped wholeRow columns

theorem whole_of_tiled (hlength : row.cells.length = columns) (h : Tiled row.cells) : row.Whole columns :=
  ⟨hlength, fun _ => h, fun _ _ => trivial⟩

theorem Shaped.whole (h : row.Whole columns) : Tiled row.cells := h.tiled trivial

/-- Padding from `column` on cuts no wide character but behind its leader. -/
def PadsClean (row : Row) (column : Nat) : Prop :=
  (row.cells.getD column default).Continues → ¬ (row.cells.getD (column - 1) default).Continues

instance (row : Row) (column : Nat) : Decidable (row.PadsClean column) :=
  inferInstanceAs (Decidable (_ → ¬ _))

/-! ## Padding -/

/-- Padding keeps what is before it and continues nothing. -/
theorem padded_spec (row : Row) (start count : Nat) :
    (row.padded start (start + count)).cells.length = row.cells.length ∧
      (row.padded start (start + count)).cells.take start = row.cells.take start ∧
      ∀ k, start ≤ k → k < start + count → ¬ ((row.padded start (start + count)).cells.getD k default).Continues := by
  rw [padded, Nat.add_sub_cancel_left]
  induction count with
  | zero => exact ⟨rfl, rfl, fun k _ _ => by omega⟩
  | succ count ih =>
    rw [range'_concat, foldl_append, foldl_cons, foldl_nil, one_mul]
    set before := (range' start count).foldl
      (fun row pad => row.edited pad fun cell => { cell with content := .spacer 0 }) row
    obtain ⟨hlength, htake, hpads⟩ := ih
    refine ⟨by rw [length_edited, hlength], ?_, fun k hlow hhigh => ?_⟩
    · rw [edited, take_set_of_le (by omega), htake]
    · rw [edited]
      by_cases hk : start + count = k
      · subst hk
        by_cases hin : start + count < before.cells.length
        · rw [getD_set_self hin]
          simp [Cell.Continues]
        · rw [getD_eq_default _ _ (by rw [length_set]; omega)]
          exact Cell.not_continues_default
      · rw [getD_set_of_ne hk]
        exact hpads k hlow (by omega)

theorem tiled_take_of_padsClean (h : Tiled row.cells) (hclean : row.PadsClean column) :
    Tiled (row.cells.take column) := by
  by_cases hcut : (row.cells.getD column default).Continues
  · -- the leader stands directly before the column and is kept as a character of one cell
    have hleads := hclean hcut
    have hpos : 0 < column := by
      rcases Nat.eq_zero_or_pos column with rfl | hpos
      · exact absurd hcut hleads
      · exact hpos
    have hlt : column < row.cells.length := by
      by_contra hout
      rw [getD_eq_default _ _ (by omega)] at hcut
      exact Cell.not_continues_default hcut
    have hfront := (h.split (firstPayload_drop_eq_zero_iff.mpr hleads)).1
    rw [getD_eq_getElem _ _ (by omega)] at hleads
    rw [← Nat.sub_add_cancel hpos, take_succ_eq_append_getElem (by omega)]
    exact hfront.append (.single hleads .nil)
  · exact (h.split (firstPayload_drop_eq_zero_iff.mpr hcut)).1

theorem whole_padded (h : row.Whole columns) (hclean : row.PadsClean column) :
    (row.padded column columns).Whole columns := by
  by_cases hle : column ≤ columns
  · obtain ⟨count, rfl⟩ := Nat.exists_eq_add_of_le hle
    obtain ⟨hlength, htake, hpads⟩ := padded_spec row column count
    refine whole_of_tiled (hlength.trans h.length) ?_
    rw [← take_append_drop column (row.padded column (column + count)).cells, htake]
    refine (tiled_take_of_padsClean h.whole hclean).append (.of_forall fun cell hcell => ?_)
    obtain ⟨i, hi, rfl⟩ := getElem_of_mem hcell
    rw [getElem_drop, ← getD_eq_getElem _ default]
    rw [length_drop, hlength, h.length] at hi
    exact hpads _ (by omega) (by omega)
  · rw [padded, Nat.sub_eq_zero_of_le (by omega)]
    exact h

/-- From a spacer to the end of its character it is as many cells as it counts. -/
theorem edge_of_cut {cells : List Cell} {k : Nat} (h : Tiled cells) (hcut : (cells.getD k default).Continues) :
    firstPayload (cells.drop (k + firstPayload (cells.drop k))) = 0 := by
  obtain ⟨_, g, ⟨before, after, rfl, rfl, hafter⟩, hlow, hhigh, -⟩ := h.occurs_of_cut hcut
  obtain ⟨j, rfl⟩ : ∃ j, k = before.length + (j + 1) := ⟨k - before.length - 1, by omega⟩
  rw [width] at hhigh
  have hall : countsDown g.spacers.length (g.spacers ++ after) = true := g.countsDown_spacers
  have hcounts := countsDown_drop hall (k := j) (by omega)
  obtain ⟨n, hn⟩ : ∃ n, g.spacers.length - j = n + 1 := ⟨g.spacers.length - j - 1, by omega⟩
  rw [hn] at hcounts
  rw [drop_length_add_append, cells_append, drop_succ_cons, firstPayload_of_countsDown hcounts,
    add_assoc, drop_length_add_append, add_right_comm, drop_succ_cons,
    show j + (n + 1) = g.spacers.length by omega, drop_left]
  exact hafter

theorem tiled_padded_iff (h : row.Whole columns) : Tiled (row.padded column columns).cells ↔ row.PadsClean column := by
  refine ⟨fun hpadded hcut hbefore => ?_, fun hclean => (whole_padded h hclean).whole⟩
  have hlt : column < columns := by
    by_contra hout
    rw [getD_eq_default _ _ (by rw [h.length]; omega)] at hcut
    exact Cell.not_continues_default hcut
  have hpos : column ≠ 0 := by
    rintro rfl
    have hedge : firstPayload (row.cells.drop 0) = 0 := h.whole.firstPayload
    exact firstPayload_drop_eq_zero_iff.mp hedge hcut
  obtain ⟨k, rfl⟩ := exists_eq_succ_of_ne_zero hpos
  obtain ⟨count, rfl⟩ := Nat.exists_eq_add_of_le hlt.le
  obtain ⟨hlength, htake, hpads⟩ := padded_spec row (k + 1) count
  set after := row.padded (k + 1) (k + 1 + count)
  have hsame : after.cells.getD k default = row.cells.getD k default := by
    simpa [getD_eq_getElem?_getD, getElem?_take] using congrArg (getD · k default) htake
  have hend := hpads (k + 1) (le_refl _) hlt
  obtain ⟨-, -, -, -, -, hcounts⟩ := hpadded.occurs_of_cut (hsame ▸ hbefore)
  have hcons {cells : List Cell} (hk : k < cells.length) :
      cells.drop k = cells.getD k default :: cells.drop (k + 1) := by
    rw [getD_eq_getElem _ _ hk, ← drop_eq_getElem_cons]
  have hk : k < row.cells.length := by rw [h.length]; omega
  have hfirst : firstPayload (after.cells.drop k) = firstPayload (row.cells.drop k) := by
    rw [hcons (hlength ▸ hk), hcons hk, hsame]
    rfl
  -- the spacer before the padding counts one cell, so the character would have ended there
  have hone : firstPayload (row.cells.drop k) = 1 := by
    have hpayload : firstPayload (row.cells.drop k) ≠ 0 := fun hzero => firstPayload_drop_eq_zero_iff.mp hzero hbefore
    obtain ⟨n, hn⟩ := exists_eq_succ_of_ne_zero hpayload
    rw [hfirst, hn, hcons (hlength ▸ hk), countsDown, Bool.and_eq_true] at hcounts
    cases n with
    | zero => exact hn
    | succ n =>
      have hmore := firstPayload_of_countsDown hcounts.2
      rw [firstPayload_drop_eq_zero_iff.mpr hend] at hmore
      cases hmore
  have hedge := edge_of_cut h.whole hbefore
  rw [succ_sub_one, hone] at hedge
  exact firstPayload_drop_eq_zero_iff.mp hedge hcut

/-! ## Writing a character -/

theorem wp_writeCell (column : Nat) (content : CellContent) (attributes : Attributes) :
    wp (do setContent column content; editCell column fun cell => { cell with attributes })
      (fun _ row' => column < row.cells.length ∧ row' = row.store column ⟨content, attributes⟩)
      (fun _ _ => True) row := by
  simp only [setContent, editCell, wp_bind, wp_get, wp_ensure, wp_set]
  refine ⟨fun _ => ⟨fun h => ⟨fun _ => ⟨h, ?_⟩, fun _ => trivial⟩, fun _ => trivial⟩, fun _ => trivial⟩
  exact edited_edited h content attributes

/-- The spacers of a character, from its second column on. -/
def spacersFrom (width start count : Nat) : List Cell :=
  (range' start count).map fun offset => ⟨.spacer (width - offset), {}⟩

theorem countsDown_spacersFrom (start count : Nat) :
    countsDown count (spacersFrom (start + count) start count) = true := by
  induction count generalizing start with
  | zero => rfl
  | succ count ih =>
    rw [spacersFrom, range'_succ, map_cons, countsDown, Bool.and_eq_true]
    refine ⟨by simp, ?_⟩
    have hrest := ih (start + 1)
    rwa [add_right_comm start 1 count] at hrest

theorem wp_writeSpacers (column width start count : Nat) :
    wp ((range' start count).forM fun offset => writeSpacer (column + offset) (width - offset))
      (fun _ row' => (count = 0 ∨ column + start + count ≤ row.cells.length) ∧
        row'.cells = row.cells.take (column + start) ++
          (spacersFrom width start count ++ row.cells.drop (column + start + count))) (fun _ _ => True) row := by
  induction count generalizing start row with
  | zero => exact ⟨.inl rfl, (take_append_drop ..).symm⟩
  | succ count ih =>
    rw [range'_succ, wp_forM_cons]
    refine wp_imp (wp_writeCell (column + start) _ _) ?_
    rintro _ _ ⟨hin, rfl⟩
    refine wp_imp (ih (start + 1)) ?_
    rintro _ row' ⟨hfits, hcells⟩
    rw [length_store] at hfits
    refine ⟨.inr (by omega), ?_⟩
    rw [hcells, store, spacersFrom, spacersFrom, range'_succ, map_cons, ← add_assoc column,
      take_succ_eq_append_getElem (by rw [length_set]; exact hin), take_set_of_le le_rfl,
      getElem_set_self, drop_set_of_lt (by omega), append_assoc, cons_append,
      nil_append, cons_append]
    congr 4
    omega

def written (character : Char) (attributes : Attributes) (count : Nat) : Glyph where
  leader := ⟨.scalar character, attributes⟩
  spacers := spacersFrom (1 + count) 1 count
  leads := by simp [Cell.Continues]
  solid := fun _ => by simp
  counts := by
    rw [show (spacersFrom (1 + count) 1 count).length = count by simp [spacersFrom]]
    exact countsDown_spacersFrom 1 count

theorem whole_writeCharacter {width : Nat} {character : Char} {attributes : Attributes} (hwidth : 0 < width)
    (h : row.Whole columns) (hrun : writeCharacter column width character attributes row = .ok () row') :
    row'.Whole columns := by
  obtain ⟨count, rfl⟩ := Nat.exists_eq_add_of_le hwidth
  have hc := h.clearWideIntersections column (column + (1 + count))
  have hwrite : wp (writeCharacter column (1 + count) character attributes)
      (fun _ row' => row'.Whole columns) (fun _ _ => True) row := by
    simp only [writeCharacter, wp_bind, wp_modify, Nat.add_sub_cancel_left]
    refine wp_imp (wp_writeCell column _ _) ?_
    rintro _ _ ⟨hin, rfl⟩
    rw [wp_bind]
    refine wp_imp (wp_writeSpacers column (1 + count) 1 count) ?_
    rintro _ final ⟨hfits, hcells⟩
    apply Shaped.setLinebreak
    -- the character stands between two edges the scan has opened
    have hleft := (hc.whole.split (h.whole.edge_cleared (by omega) (by omega : 0 + column ≤ column + (1 + count)))).1
    have hright := (hc.whole.split (h.whole.edge_cleared (by omega : column ≤ 0 + (column + (1 + count))) (by omega))).2
    have hcells' : final.cells = (row.clearWideIntersections column (column + (1 + count))).cells.take column ++
        ((written character { attributes with clean := false } count).cells ++
          (row.clearWideIntersections column (column + (1 + count))).cells.drop (column + (1 + count))) := by
      rw [hcells, store, take_succ_eq_append_getElem (by rw [length_set]; exact hin),
        take_set_of_le le_rfl, getElem_set_self, drop_set_of_lt (by omega), append_assoc,
        add_assoc]
      rfl
    rw [length_store, hc.length] at hfits
    rw [hc.length] at hin
    refine whole_of_tiled ?_ (hcells' ▸ hleft.append (.glyph _ hright))
    rw [hcells', length_append, length_append, length_take, length_drop, hc.length,
      length_cells, show (written character { attributes with clean := false } count).width = count + 1 by
        simp [width, written, spacersFrom]]
    omega
  have hwhole := wp_of_ok hwrite hrun
  exact hwhole

/-! ## Edits -/

/-- An edit that checks its column first has run on a column of the row. -/
theorem column_lt_of_ok {edit : Row → RowM Unit} (hrun : (get >>= fun row : Row =>
      ensure (column < row.cells.length) .panic >>= fun _ => edit row : RowM Unit) row = .ok () row') :
    column < row.cells.length := by
  refine @wp_of_ok _ _ _ (fun _ _ => column < row.cells.length) (fun _ _ => True) _ _ _ _ ?_ hrun
  simp only [wp_bind, wp_get, wp_ensure]
  exact ⟨fun hin => wp_of_runs fun _ _ _ => hin, fun _ => trivial⟩

theorem whole_insertCells {count : Nat} {background : Color} (h : row.Whole columns)
    (hrun : insertCells column count background row = .ok () row') : row'.Whole columns := by
  have hcolumn : column < row.cells.length := column_lt_of_ok hrun
  rw [insertCells_eq h.whole hcolumn] at hrun
  cases hrun
  split
  · exact h
  · refine whole_of_tiled ?_ (tiled_insertedCells h.whole)
    rw [← h.length]
    simp only [insertedCells, length_append, length_take, length_replicate, length_drop, length_openedForInsert]
    omega

theorem whole_deleteCells {count : Nat} {background : Color} (h : row.Whole columns)
    (hrun : deleteCells column count background row = .ok () row') : row'.Whole columns := by
  have hcolumn : column < row.cells.length := column_lt_of_ok hrun
  rw [deleteCells_eq h.whole hcolumn] at hrun
  cases hrun
  split
  · exact h
  · have hcount : column + min count (row.cells.length - column) ≤ row.cells.length := by omega
    refine whole_of_tiled ?_ (tiled_deletedCells hcount h.whole)
    rw [← h.length, deletedCells, length_append, length_spared hcount, length_replicate]
    omega

theorem whole_fill {start stop : Nat} {content : CellContent} {attributes : Attributes} (h : row.Whole columns)
    (hcontent : ¬ Cell.Continues ⟨content, attributes⟩)
    (hrun : fill start stop content attributes row = .ok () row') : row'.Whole columns := by
  refine @wp_of_ok _ _ _ (fun _ row' => row'.Whole columns) (fun _ _ => True) _ _ _ _ ?_ hrun
  simp only [fill, assertRange, wp_bind, wp_get, wp_ensure, wp_whenever, wp_modify, implies_true, and_true]
  intro hrange
  have hclean : ¬ Cell.Continues ⟨content, { attributes with clean := false }⟩ := hcontent
  have hcleared : (row.clearWideIntersections start stop).cells.length = row.cells.length := length_cleared
  refine ⟨fun _ _ => ?_, fun _ => ?_⟩
  all_goals
    refine whole_of_tiled ?_ (h.whole.overwritten hrange.1 hclean)
    simp only [length_append, length_take, length_replicate, length_drop, hcleared, ← h.length]
    omega

/-- The leader of a character may hold anything but padding. -/
theorem tiled_set {cells : List Cell} {k : Nat} {cell : Cell} (h : Tiled cells)
    (hleads : ¬ (cells.getD k default).Continues) (hcell : ¬ cell.Continues) (hsolid : cell.content ≠ .spacer 0) :
    Tiled (cells.set k cell) := by
  induction h generalizing k with
  | nil => exact .nil
  | @glyph g rest hrest ih =>
    by_cases hk : k < g.width
    · rcases Nat.eq_zero_or_pos k with rfl | hpos
      · exact .glyph ⟨cell, g.spacers, hcell, fun _ => hsolid, g.counts⟩ hrest
      · rw [getD_append _ _ _ _ (by simpa using hk)] at hleads
        exact absurd (continues hpos hk) hleads
    · rw [getD_append_right _ _ _ _ (by simpa using hk)] at hleads
      rw [set_append_right _ _ (by simpa using hk)]
      exact .glyph g (ih hleads)

theorem whole_compose {key : Nat} {sequence : List Char} {table : ComposedTable} (h : row.Whole columns)
    (hbase : table.sequenceAt (row.cells.getD column default).content = some sequence)
    (hrun : setContent column (.composed key) row = .ok () row') : row'.Whole columns := by
  have hleads : ¬ (row.cells.getD column default).Continues := by
    rw [Cell.Continues]
    cases hcontent : (row.cells.getD column default).content with
    | spacer remaining =>
      rw [hcontent] at hbase
      cases hbase
    | _ => simp
  obtain rfl := wp_of_ok (Terminal.wp_setContent_edited column (.composed key)) hrun
  refine whole_of_tiled (by rw [length_edited, h.length]) (tiled_set h.whole hleads ?_ ?_)
  · simp [Cell.Continues]
  · simp

/-- Every edit keeps characters whole, padding where it starts clean. -/
theorem Step.whole (hstep : Step PadsClean columns row row') (h : row.Whole columns) : row'.Whole columns := by
  cases hstep with
  | linebreak _ => exact h.setLinebreak _
  | eraseAll background => exact h.eraseAll background
  | @erase _ start stop background hrun =>
    have herase : wp (Row.erase start stop background) (fun _ row' => row'.Whole columns) (fun _ _ => True) row := by
      simp only [Row.erase, assertRange, wp_bind, wp_get, wp_ensure, wp_modify]
      exact ⟨fun hrange => h.eraseRange hrange.1 (h.length ▸ hrange.2) background, fun _ => trivial⟩
    have hwhole := wp_of_ok herase hrun
    exact hwhole
  | fill hcontent hrun => exact whole_fill h hcontent hrun
  | insert hrun => exact whole_insertCells h hrun
  | delete hrun => exact whole_deleteCells h hrun
  | write hwidth hrun => exact whole_writeCharacter hwidth h hrun
  | compose hbase hrun => exact whole_compose h hbase hrun
  | pad hclean => exact whole_padded h hclean

theorem whole_of_steps (hsteps : ReflTransGen (Step PadsClean columns) row row') (h : row.Whole columns) :
    row'.Whole columns := by
  induction hsteps with
  | refl => exact h
  | tail _ hlast ih => exact hlast.whole ih

end Row

namespace Grid

variable {g g' : Grid} {rowCapacity columns screenRows : Nat}

/-! ## Grids -/

/-- Every row the grid holds has its width and consists of whole characters. -/
def Whole (g : Grid) : Prop := ∀ row, g.Holds row → row.Whole g.columns

theorem Reworks.whole (h : g.Reworks Row.PadsClean g') (hg : g.Whole) : g'.Whole := by
  intro row' hrow'
  rw [h.columns]
  obtain ⟨row, hrow | rfl, hsteps⟩ := h.rows row' hrow'
  · exact whole_of_steps hsteps (hg row hrow)
  · exact whole_of_steps hsteps (shaped_new g.columns)

theorem whole_setSlot {row : Row} (p : Int) (hg : g.Whole) (hrow : row.Whole g.columns) :
    (g.setSlot p { row := some row }).Whole := by
  rintro row' ⟨q, hq⟩
  rw [Grid.row, slot_setSlot] at hq
  split at hq
  · cases hq
    exact hrow
  · exact hg row' ⟨q, hq⟩

/-- The rows of the new screen are cut or extended rows of the old one. -/
theorem whole_resizeWithoutReflow {anchors : OrdMap Nat Nat} (hg : g.Whole)
    (h : g.resizeWithoutReflow rowCapacity columns screenRows = .ok (g', anchors)) : g'.Whole := by
  obtain ⟨dimensions, hnew, h⟩ := bind_eq_ok.mp h
  obtain ⟨_, -, h⟩ := bind_eq_ok.mp h
  obtain ⟨hpos, -, -, -, -, rfl⟩ := new_eq_ok.mp hnew
  cases h
  refine (reworks_reidentifyAllocatedRowsChronologically _).whole ?_
  set copied := (range screenRows).foldl _ { blank rowCapacity columns hpos with screenRows } with hcopied
  have hwhole : copied.Whole ∧ copied.columns = columns := by
    apply foldl_range (P := fun _ (g' : Grid) => g'.Whole ∧ g'.columns = columns)
    · refine ⟨?_, rfl⟩
      rintro row ⟨p, hp⟩
      rw [Grid.row, slot, show _ = _ from get_blank columns hpos _] at hp
      cases hp
    · rintro row g' _ ⟨hg', rfl⟩
      refine ⟨whole_setSlot _ hg' ?_, rfl⟩
      split
      · cases hrow : g.row row with
        | some old => exact ((hg old ⟨row, hrow⟩).resizeWithoutReflow _).setLinebreak true
        | none => exact (Row.Shaped.resizeWithoutReflow (shaped_newDirty g.columns) _).setLinebreak true
      · exact shaped_newDirty _
  exact hwhole.1

theorem whole_resizeWithReflow {composedWidth : Nat → Nat} {anchors : OrdMap Nat Nat} (hg : g.Whole)
    (h : g.resizeWithReflow rowCapacity columns screenRows composedWidth = .ok (g', anchors)) : g'.Whole := by
  have hs := sized_of_resizeWithReflow h
  obtain ⟨g₁, ids, hrun, hreflowed⟩ := reflowed_resizeWithReflow hs composedWidth g
  rw [h] at hrun
  cases hrun
  intro row hrow
  obtain ⟨i, hi⟩ := holds_iff.mp hrow
  have hlt : g'.slots.index i < rowCapacity := hreflowed.capacity ▸ g'.slots.index_lt i
  rw [RingBuffer.get_congr (RingBuffer.index_of_lt (g'.slots.index_lt i)).symm, hreflowed.row _ hlt, placedRow] at hi
  rw [hreflowed.width]
  split at hi
  · cases hi
    exact shaped_new columns
  · have hbuilt := Reflow.shaped_build composedWidth (fun p row hrow => hg row ⟨p, hrow⟩) hs.columns_pos g.origins
    exact hbuilt row (mem_of_mem_drop (mem_of_getElem? hi))

theorem Step.whole (hstep : Step Row.PadsClean g g') (hg : g.Whole) : g'.Whole := by
  cases hstep with
  | reworks h => exact h.whole hg
  | cursors hcolumns hslots =>
    intro row hrow
    rw [hcolumns]
    exact hg row ((holds_congr hslots).mp hrow)
  | fresh h => exact fun row hrow => whole_of_steps (h row hrow) (shaped_new _)
  | cut h => exact whole_resizeWithoutReflow hg h
  | reflow h => exact whole_resizeWithReflow hg h

theorem whole_of_withScreenSize (h : withScreenSize rowCapacity columns screenRows = .ok g) : g.Whole :=
  fun _ hrow => whole_of_steps (rows_of_withScreenSize h (.refl g) hrow) (shaped_new _)

end Grid

namespace Terminal

variable {t t' : Terminal}

/-! ## Runs -/

instance (ext : External) (d : Action × Terminal) : Decidable (PadsOnly ext Row.PadsClean d) :=
  match d with
  | (.print character, t) => inferInstanceAs (Decidable (t.WrapsWide ext.charWidth character →
      ∀ row ∈ t.grid.row t.grid.cursor.position.row, row.PadsClean t.grid.cursor.position.column))
  | (.execute _, _) | (.esc .., _) | (.csi .., _) | (.osc .., _) | (.dcs _, _) | (.stringTruncated _, _)
  | (.sixelBegin _, _) | (.sixelData _, _) | (.sixelEnd, _) | (.sixelAbort, _) | (.kittyBegin .., _)
  | (.kittyCommand .., _) | (.kittyData _, _) | (.kittyEnd, _) | (.kittyAbort, _) | (.itermBegin .., _)
  | (.itermData _, _) | (.itermEnd, _) | (.itermAbort, _) => isTrue trivial

/-- Every row of both screens has the width of its screen and consists of whole characters. -/
def Whole (t : Terminal) : Prop := ∀ screen, (t.screen screen).Whole

theorem Step.whole (hstep : Step Row.PadsClean t t') (h : t.Whole) : t'.Whole := by
  intro screen
  cases hstep with
  | beside hbeside =>
    cases screen with
    | normal => exact (congrArg Grid.Whole hbeside.normal).mpr (h .normal)
    | alternate => exact (congrArg Grid.Whole hbeside.alternate).mpr (h .alternate)
  | screen edited hgrid =>
    have hnew := hgrid.whole (h edited)
    cases edited <;> cases screen
    · exact hnew
    · exact h .alternate
    · exact h .normal
    · exact hnew

/-- A commit leaves the screens alone. -/
theorem screen_commitChange (t : Terminal) (screen : ActiveScreen) :
    t.commitChange.screen screen = t.screen screen := by
  rw [commitChange]
  split
  · rfl
  · next change _ =>
    dsimp only
    split
    · rfl
    · generalize (if t.synchronizedChange.isEmpty = true then change
        else t.synchronizedChange.merge change t.config.eventLimit) = merged
      split <;> rfl

theorem whole_of_acts (hacts : Acts Row.PadsClean t t') (h : t.Whole) : t'.Whole := by
  obtain ⟨u, hsteps, hend⟩ := hacts
  have hu : u.Whole := by
    clear hend
    induction hsteps with
    | refl => exact h
    | tail _ hlast ih => exact hlast.whole ih
  obtain rfl | rfl := hend
  · exact hu
  · exact fun screen => (screen_commitChange u screen).symm ▸ hu screen

theorem whole_new {columns rows : Nat} {config : TerminalConfig}
    (h : Terminal.new columns rows config = .ok t) : t.Whole := by
  obtain ⟨⟨_, hnormal⟩, ⟨_, halternate⟩, -⟩ := screens_of_new h
  rintro (_ | _)
  · exact Grid.whole_of_withScreenSize hnormal
  · exact Grid.whole_of_withScreenSize halternate

/-- From a new terminal, or one whose rows are valid, every run whose wraps pad clean of wide characters
leaves valid rows only; a wrap that does not pad clean leaves a row that is not valid. -/
theorem rows_have_valid_wide_cells {ext : External} {calls : List OwnerCall} {t₀ t : Terminal}
    (hstart : (∃ columns rows config, Terminal.new columns rows config = .ok t₀) ∨
      ∀ screen row, (t₀.screen screen).Holds row →
        row.cells.length = (t₀.screen screen).columns ∧ row.hasValidWideCells = true)
    (hrun : performOwned ext calls t₀ = .ok () t)
    (hclean : ∀ d ∈ dispatched ext calls t₀, PadsOnly ext Row.PadsClean d) :
    ∀ screen row, (t.screen screen).Holds row →
      (row.cells.length = (t.screen screen).columns ∧ row.hasValidWideCells = true) ∧
      ∀ column, (row.padded column (t.screen screen).columns).hasValidWideCells = true ↔ row.PadsClean column := by
  have hwhole₀ : t₀.Whole := by
    rcases hstart with ⟨_, _, _, hnew⟩ | hvalid
    · exact whole_new hnew
    · exact fun screen row hrow =>
        whole_of_tiled (hvalid screen row hrow).1 (hasValidWideCells_iff.mp (hvalid screen row hrow).2)
  have hruns := wp_of_ok (runs_performOwned hclean) hrun
  have hwhole : t.Whole := by
    clear hrun hclean hstart
    induction hruns with
    | refl => exact hwhole₀
    | tail _ hlast ih => exact whole_of_acts hlast ih
  intro screen row hrow
  have hshaped := hwhole screen row hrow
  refine ⟨⟨hshaped.length, hasValidWideCells_iff.mpr hshaped.whole⟩, fun column => ?_⟩
  rw [hasValidWideCells_iff]
  exact tiled_padded_iff hshaped

/-- A character printed at a column of the first row, and then one of two columns at the fifth. -/
def wrapAfter (column : UInt8) (character : List UInt8) : List OwnerCall :=
  [.call (.feed ([0x1b, 0x5b, 0x31, 0x3b, column, 0x48] ++ character ++
    [0x1b, 0x5b, 0x31, 0x3b, 0x35, 0x48, 0xe5, 0xae, 0xbd]))]

/-- A wide character that wraps from directly behind the leader of another one. -/
theorem wrapped_rows_have_valid_wide_cells : ∃ t₀ t, Terminal.new 5 2 {} = .ok t₀ ∧
    performOwned plainLibrary (wrapAfter 0x34 [0xe5, 0xae, 0xbd]) t₀ = .ok () t ∧
    ∀ screen row, (t.screen screen).Holds row → row.hasValidWideCells = true := by
  have hchecked : checkRun plainLibrary 5 2 {} (wrapAfter 0x34 [0xe5, 0xae, 0xbd])
      (fun t₀ _ => (dispatched plainLibrary (wrapAfter 0x34 [0xe5, 0xae, 0xbd]) t₀).all
        fun d => decide (PadsOnly plainLibrary Row.PadsClean d)) = true := by decide +kernel
  obtain ⟨t₀, t, hnew, hrun, hcheck⟩ := exists_run_of_check hchecked
  refine ⟨t₀, t, hnew, hrun, fun screen row hrow => ?_⟩
  have hclean : ∀ d ∈ dispatched plainLibrary _ t₀, PadsOnly plainLibrary Row.PadsClean d := fun d hd =>
    of_decide_eq_true (all_eq_true.mp hcheck d hd)
  exact (rows_have_valid_wide_cells (.inl ⟨5, 2, {}, hnew⟩) hrun hclean screen row hrow).1.2

/-- The last cell of a character of three columns is padded over: the spacers before it end nowhere. -/
theorem padding_cuts_wide_character : ∃ t₀ t row, Terminal.new 5 2 {} = .ok t₀ ∧
    performOwned plainLibrary (wrapAfter 0x33 [0xe1, 0x9f, 0x98]) t₀ = .ok () t ∧
    (t.screen .normal).Holds row ∧ row.hasValidWideCells = false := by
  have hchecked : checkRun plainLibrary 5 2 {} (wrapAfter 0x33 [0xe1, 0x9f, 0x98])
      (fun _ t => (t.normal.row 0).any fun row => !row.hasValidWideCells) = true := by decide +kernel
  obtain ⟨t₀, t, hnew, hrun, hcheck⟩ := exists_run_of_check hchecked
  cases hrow : t.normal.row 0 with
  | none => simp [hrow] at hcheck
  | some row =>
    rw [hrow] at hcheck
    exact ⟨t₀, t, row, hnew, hrun, ⟨0, hrow⟩, by simpa using hcheck⟩

end Terminal

end Splinterm.Terminal
