import Splinterm.Terminal.ReflowShape

/-!
# Cursors and lines through a reflow

Every old cell that takes part has one place in the layout, the builder finds the places of
the tracked cells, and the rows of the layout are the last rows of the new grid. So a cursor
follows its cell onto the new screen. The map of row identities is another matter: it is
recorded before the pending blank lines are written.
-/

namespace Splinterm.Terminal

open Lib Hoare List Option Nat

namespace Reflow

variable {composedWidth : Nat → Nat} {columns : Nat} {origins : Origins} {old : List OldRow}

/-! ## Places are unique -/

/-- No old cell belongs to both pieces. -/
def Piece.Apart (p q : Piece) : Prop := ∀ source, p.Covers source → ¬ q.Covers source

theorem pairwise_layout (hold : old.Pairwise fun a b => a.physicalRow ≠ b.physicalRow) :
    (layout composedWidth columns origins old).flatten.Pairwise Piece.Apart := by
  rw [flatten_layout, pairwise_flatMap]
  constructor
  · intro row _
    refine (pairwise_pieces _ _).imp fun hle source hp hq => ?_
    have := hp.2.2
    have := hq.2.1
    omega
  · refine hold.imp fun hne p hp q hq source hcovers hcovers' => hne ?_
    rw [← (mem_pieces hp).1, ← (mem_pieces hq).1, hcovers.1, hcovers'.1]

/-- What the builder recorded is the place of the cell. -/
theorem Tracks.eq_some {rows : List (List Piece)} {source : Nat × Nat} {mapping : Option (Nat × Nat)}
    (h : Tracks rows source mapping) (hrows : rows.flatten.Pairwise Piece.Apart) {r c : Nat}
    (hstands : StandsAt rows source r c) : mapping = some (r, c) := by
  obtain ⟨before, p, after, hrow, hcovers, hcolumn⟩ := hstands
  cases mapping with
  | none => exact absurd hcovers (h p (mem_flatten.mpr ⟨_, mem_of_getElem? hrow, by simp⟩))
  | some position =>
    obtain ⟨before', p', after', hrow', hcovers', hcolumn'⟩ := h
    obtain ⟨hr, rfl, rfl⟩ := place_unique hrows hrow hrow'
      (fun hapart => hapart source hcovers hcovers') (fun hapart => hapart source hcovers' hcovers)
    rw [hcolumn, hr, ← hcolumn']

theorem exists_standsAt {row : OldRow} (hrow : row ∈ old) {column : Nat} (hcolumn : column < row.count origins) :
    ∃ r c, StandsAt (layout composedWidth columns origins old) (row.physicalRow, column) r c := by
  obtain ⟨p, hp, hcovers⟩ : ∃ p ∈ row.pieces composedWidth columns origins, p.Covers (row.physicalRow, column) :=
    exists_piece (le_add_left _ 0) (zero_le column) hcolumn
  have hmem : p ∈ (layout composedWidth columns origins old).flatten := by
    rw [flatten_layout]
    exact mem_flatMap.mpr ⟨row, hrow, hp⟩
  obtain ⟨pieces, hpieces, hp⟩ := mem_flatten.mp hmem
  obtain ⟨r, hr⟩ := mem_iff_getElem?.mp hpieces
  obtain ⟨before, after, rfl⟩ := append_of_mem hp
  exact ⟨r, _, before, p, after, hr, hcovers, rfl⟩

theorem StandsAt.column_lt (hpos : 0 < columns) {source : Nat × Nat} {r c : Nat}
    (h : StandsAt (layout composedWidth columns origins old) source r c) : c < columns := by
  obtain ⟨before, p, after, hrow, -, rfl⟩ := h
  have hmem : before ++ p :: after ∈ layout composedWidth columns origins old := mem_of_getElem? hrow
  have hwidth := width_layout hpos hmem
  have hp : p ∈ (layout composedWidth columns origins old).flatten := mem_flatten.mpr ⟨_, hmem, by simp⟩
  rw [flatten_layout] at hp
  obtain ⟨row, -, hp⟩ := mem_flatMap.mp hp
  have htarget := target_lt_of_mem_pieces hp source.2
  rw [flatMap_append, flatMap_cons, length_append, length_append] at hwidth
  omega

/-! ## The rows of the layout -/

/-- The row shows these pieces, padded to the width. -/
def Rendered (columns : Nat) (row : Row) (pieces : List Piece) : Prop :=
  ∃ padding linebreak, row = renderRow columns padding linebreak pieces

theorem rendered_renderLine (columns : Nat) (linebreak : Bool) (line : List Piece) :
    List.Forall₂ (Rendered columns) (renderLine columns linebreak line) (lineRows columns line) := by
  apply rel_append
  · rw [forall₂_map_left_iff, forall₂_same]
    exact fun row _ => ⟨_, _, rfl⟩
  · exact .cons ⟨_, _, rfl⟩ .nil

theorem rendered_renderLines (columns : Nat) (linebreak : Bool) (lines : List (List Piece)) :
    List.Forall₂ (Rendered columns) (lines.flatMap (renderLine columns linebreak))
      (lines.flatMap (lineRows columns)) := by
  induction lines with
  | nil => exact .nil
  | cons line lines ih => exact rel_append (rendered_renderLine columns linebreak line) ih

/-- The rebuilt rows show the layout. -/
theorem Finished.rendered {b : Builder} {written : Document} {linebreak : Bool}
    (h : Finished composedWidth columns origins old b written linebreak) :
    List.Forall₂ (Rendered columns) b.rows (layout composedWidth columns origins old) := by
  obtain ⟨n, hdocument⟩ := h.document
  rw [h.rows, layout, hdocument, Document.lines_hardBreak_iterate, h.lines]
  split
  · exact .cons ⟨_, _, rfl⟩ .nil
  · by_cases hnil : written.line = []
    · rw [if_pos hnil, if_pos hnil, append_nil]
      exact rendered_renderLines columns true _
    · rw [if_neg hnil, if_neg hnil, flatMap_append, flatMap_singleton]
      exact rel_append (rendered_renderLines columns true _) (rendered_renderLine _ _ _)

/-! ## What stands at the place of a cell -/

/-- How wide the character says it is that starts at `column`. -/
def claimedWidth (composedWidth : Nat → Nat) (cells : List Cell) (column : Nat) : Nat :=
  match (cells.getD column default).content with
  | .composed key => max (composedWidth key) 1
  | _ => Row.firstPayload (cells.drop (column + 1)) + 1

/-- The cell continues a character, or lies in one that is too wide for the new rows. -/
def MayBlank (composedWidth : Nat → Nat) (columns : Nat) (cells : List Cell) (source : Nat) : Prop :=
  (cells.getD source default).Continues ∨
    ∃ column, column ≤ source ∧ source < column + claimedWidth composedWidth cells column ∧
      columns < claimedWidth composedWidth cells column

/-- The new cell is the old one, or blank for a reason. -/
def Carried (composedWidth : Nat → Nat) (columns : Nat) (cells : List Cell) (source : Nat) (cell : Cell) : Prop :=
  cell = cells.getD source default ∨ (cell = default ∧ MayBlank composedWidth columns cells source)

/-- The cell of a unit that stands for its old column `offset`. -/
def unitCell (columns offset : Nat) (output : List Cell) : Cell :=
  (fitted columns output).getD (min offset ((fitted columns output).length - 1)) default

section

variable {cells output : List Cell} {column count offset width : Nat}

theorem fitted_eq_self (hne : output ≠ []) (hle : output.length ≤ columns) : fitted columns output = output := by
  rw [fitted, if_neg]
  rintro (hlt | hnil)
  · omega
  · exact hne hnil

theorem unitCell_copy (hlength : column + offset < cells.length) (hoffset : offset < width) (hwidth : width ≤ columns) :
    unitCell columns offset ((cells.drop column).take width) = cells.getD (column + offset) default := by
  have hlen : ((cells.drop column).take width).length = min width (cells.length - column) := by
    rw [length_take, length_drop]
  have hne : (cells.drop column).take width ≠ [] := by
    rw [← length_pos_iff]
    omega
  rw [unitCell, fitted_eq_self hne (by omega), hlen, min_eq_left (by omega),
    getD_eq_getElem?_getD, getElem?_take_of_lt hoffset, getElem?_drop, getD_eq_getElem?_getD]

theorem unitCell_zero {leader : Cell} (hle : (leader :: output).length ≤ columns) :
    unitCell columns 0 (leader :: output) = leader := by
  rw [unitCell, fitted_eq_self (cons_ne_nil _ _) hle]
  rfl

theorem unitCell_nil (columns offset : Nat) : unitCell columns offset [] = default := by
  rw [unitCell, fitted, if_pos (.inr rfl), length_singleton, Nat.min_zero]
  rfl

end

/-- A unit carries each of its cells, or leaves it blank for a reason. -/
theorem carried_reflowUnit (hpos : 0 < columns) {cells : List Cell} {column count offset : Nat}
    (hlength : column + offset < cells.length)
    (hoffset : offset < (reflowUnit composedWidth cells column count columns).1) :
    Carried composedWidth columns cells (column + offset)
      (unitCell columns offset (reflowUnit composedWidth cells column count columns).2) := by
  have hsingle : ∀ cell : Cell, [cell].length ≤ columns := fun _ => hpos
  -- a unit that is too wide, claimed so by its leader
  have hwide : columns < claimedWidth composedWidth cells column → offset < claimedWidth composedWidth cells column →
      Carried composedWidth columns cells (column + offset) (unitCell columns offset []) :=
    fun hclaim hlt => .inr ⟨unitCell_nil _ _, .inr ⟨column, by omega, by omega, hclaim⟩⟩
  rw [reflowUnit] at hoffset ⊢
  split at hoffset
  · rename_i payload hcontent
    obtain rfl : offset = 0 := lt_one_iff.mp hoffset
    exact .inr ⟨unitCell_zero (hsingle _), .inl (Cell.continues_of_spacer hcontent)⟩
  · rename_i key hcontent
    have hclaim : claimedWidth composedWidth cells column = max (composedWidth key) 1 := by
      rw [claimedWidth, hcontent]
    by_cases hlt : columns < max (composedWidth key) 1
    · rw [if_pos hlt] at hoffset ⊢
      exact hwide (hclaim ▸ hlt) (hclaim ▸ (lt_min_iff.mp hoffset).1)
    · rw [if_neg hlt] at hoffset ⊢
      by_cases hcopy : max (composedWidth key) 1 ≤ count - column ∧
          Row.countsDown (max (composedWidth key) 1 - 1) (cells.drop (column + 1)) = true
      · rw [if_pos hcopy] at hoffset ⊢
        exact .inl (unitCell_copy hlength hoffset (Nat.le_of_not_lt hlt))
      · rw [if_neg hcopy] at hoffset ⊢
        obtain rfl : offset = 0 := lt_one_iff.mp hoffset
        refine .inl (unitCell_zero ?_)
        rw [length_cons, length_map, length_range]
        omega
  · rename_i hspacer hcomposed
    have hclaim : claimedWidth composedWidth cells column = Row.firstPayload (cells.drop (column + 1)) + 1 := by
      rw [claimedWidth]
      split
      · rename_i key hcontent
        exact absurd hcontent (hcomposed key)
      · rfl
    set width := Row.firstPayload (cells.drop (column + 1)) + 1
    by_cases hcopy : column + 1 < count ∧ 1 < width ∧ width ≤ count - column ∧
        Row.countsDown (width - 1) (cells.drop (column + 1)) = true
    · rw [if_pos hcopy] at hoffset ⊢
      by_cases hlt : columns < width
      · rw [if_pos hlt] at hoffset ⊢
        exact hwide (hclaim ▸ hlt) (hclaim ▸ hoffset)
      · rw [if_neg hlt] at hoffset ⊢
        exact .inl (unitCell_copy hlength hoffset (Nat.le_of_not_lt hlt))
    · rw [if_neg hcopy] at hoffset ⊢
      obtain rfl : offset = 0 := lt_one_iff.mp hoffset
      exact .inl (unitCell_zero (hsingle _))

theorem carried_piece (hpos : 0 < columns) {row : OldRow} {p : Piece}
    (hp : p ∈ row.pieces composedWidth columns origins) {source : Nat}
    (hcovers : p.Covers (row.physicalRow, source)) (hsource : source < row.row.cells.length) :
    Carried composedWidth columns row.row.cells source (p.cells.getD (p.target source) default) := by
  obtain ⟨-, -, hwidth, hcells⟩ := mem_pieces hp
  have hlow : p.column ≤ source := hcovers.2.1
  have hhigh : source < p.column + p.width := hcovers.2.2
  have hsplit : p.column + (source - p.column) = source := by omega
  have hcarried : Carried composedWidth columns row.row.cells (p.column + (source - p.column))
      (unitCell columns (source - p.column)
        (reflowUnit composedWidth row.row.cells p.column (row.count origins) columns).2) :=
    carried_reflowUnit hpos (hsplit.symm ▸ hsource) (hwidth ▸ (by omega))
  rw [hsplit] at hcarried
  rw [Piece.target, hcells]
  exact hcarried

/-- What the row shows at the place of an old cell. -/
theorem StandsAt.carried (hpos : 0 < columns)
    (hold : old.Pairwise fun a b => a.physicalRow ≠ b.physicalRow) {row : OldRow} (hrow : row ∈ old)
    {source r c : Nat} (hsource : source < row.row.cells.length)
    (h : StandsAt (layout composedWidth columns origins old) (row.physicalRow, source) r c)
    {pieces : List Piece} (hpieces : (layout composedWidth columns origins old)[r]? = some pieces)
    {shown : Row} (hshown : Rendered columns shown pieces) :
    Carried composedWidth columns row.row.cells source (shown.cells.getD c default) := by
  obtain ⟨before, p, after, hat, hcovers, rfl⟩ := h
  obtain ⟨padding, linebreak, rfl⟩ := hshown
  rw [hpieces] at hat
  obtain rfl := some.inj hat
  have hmem : p ∈ (layout composedWidth columns origins old).flatten :=
    mem_flatten.mpr ⟨_, mem_of_getElem? hpieces, by simp⟩
  rw [flatten_layout] at hmem
  obtain ⟨row', hrow', hp⟩ := mem_flatMap.mp hmem
  have hsame : row' = row := inj_on_of_nodup_map (pairwise_map.mpr hold) hrow' hrow
    ((mem_pieces hp).1.symm.trans hcovers.1)
  subst hsame
  have htarget := target_lt_of_mem_pieces hp source
  have hcell : (renderRow columns padding linebreak (before ++ p :: after)).cells.getD
      ((before.flatMap Piece.cells).length + p.target source) default = p.cells.getD (p.target source) default := by
    rw [renderRow, flatMap_append, flatMap_cons, append_assoc, append_assoc,
      getD_append_right _ _ _ _ (le_add_right _ _), Nat.add_sub_cancel_left, getD_append _ _ _ _ htarget]
  rw [hcell]
  exact carried_piece hpos hp hcovers hsource

end Reflow

/-- The cursor on another cell. A pending wrap is given up when the row goes on to the right of
the cell: the cursor then stands where the wrap would have been undone. -/
def Cursor.movedTo (columns : Nat) (cursor : Cursor) (position : Coordinate) : Cursor :=
  if cursor.deferredWrap = true ∧ position.column + 1 < columns then
    { position := ⟨position.column + 1, position.row⟩, deferredWrap := false }
  else { cursor with position }

namespace Grid

open Reflow

variable {rowCapacity columns screenRows : Nat} {g g' : Grid} {composedWidth : Nat → Nat}

/-! ## Slots of the old grid -/

/-- A relation between the slots of two chronological positions holds between the rows read
there. -/
theorem pairwise_oldRows {R : OldRow → OldRow → Prop} (h : ∀ i j : Nat, i < j → j < g.rowCapacity → ∀ a b : Row,
      (g.slot (g.screenRows + i : Nat)).row = some a → (g.slot (g.screenRows + j : Nat)).row = some b →
      R ⟨g.absoluteIndex (g.screenRows + i : Nat), (g.slot (g.screenRows + i : Nat)).id, a⟩
        ⟨g.absoluteIndex (g.screenRows + j : Nat), (g.slot (g.screenRows + j : Nat)).id, b⟩) :
    g.oldRows.Pairwise R := by
  rw [oldRows, pairwise_filterMap]
  rw [pairwise_iff_getElem]
  intro i j hi hj hij old hold old' hold'
  rw [length_range] at hi hj
  rw [getElem_range, map_eq_some_iff] at hold hold'
  obtain ⟨a, ha, rfl⟩ := hold
  obtain ⟨b, hb, rfl⟩ := hold'
  exact h i j hij hj a b ha hb

theorem absoluteIndex_chronological_ne {i j : Nat} (hij : i < j) (hj : j < g.rowCapacity) :
    g.absoluteIndex (g.screenRows + i : Nat) ≠ g.absoluteIndex (g.screenRows + j : Nat) :=
  absoluteIndex_ne (w := g.screenRows) (by omega) (by omega) (by omega)

theorem pairwise_physicalRow (g : Grid) : g.oldRows.Pairwise fun a b => a.physicalRow ≠ b.physicalRow :=
  pairwise_oldRows fun _ _ hij hj _ _ _ _ => absoluteIndex_chronological_ne hij hj

theorem pairwise_id (hdistinct : Distinct g.slots) : g.oldRows.Pairwise fun a b => a.id ≠ b.id :=
  pairwise_oldRows fun _ _ hij hj _ _ ha hb hid =>
    absoluteIndex_chronological_ne hij hj
      (hdistinct _ _ (isSome_iff_exists.mpr ⟨_, ha⟩) (isSome_iff_exists.mpr ⟨_, hb⟩) hid)

theorem mem_oldRows {p : Int} {row : Row} (h : g.row p = some row) :
    (⟨g.absoluteIndex p, (g.slot p).id, row⟩ : OldRow) ∈ g.oldRows := by
  obtain ⟨i, hi, hindex⟩ := g.exists_in_window g.screenRows p
  have hslot : g.slot p = g.slot (g.screenRows + i : Nat) := by
    rw [slot_congr hindex]
    rfl
  rw [oldRows, mem_filterMap]
  refine ⟨i, mem_range.mpr hi, ?_⟩
  rw [Grid.row, hslot] at h
  rw [h, hslot, hindex]
  rfl

/-! ## The cursors -/

theorem Reflowed.remapCursor_eq {b : Builder} {ids : OrdMap Nat Nat}
    (h : Reflowed rowCapacity columns screenRows g b g' ids) (hle : screenRows ≤ rowCapacity)
    (hlength : b.rows.length ≤ rowCapacity) (cursor : Cursor) {j c : Nat} (hj : j < b.rows.length)
    (hscreen : b.rows.length ≤ j + screenRows) (hc : c < columns) : remapCursor cursor (some (j, c)) g' =
      cursor.movedTo columns ⟨c, j + screenRows - b.rows.length⟩ := by
  have hrow : min (g'.slots.index ((j : Int) - g'.offset)) (g'.screenRows - 1) = j + screenRows - b.rows.length := by
    rw [(h.row_screen hle hlength hj hscreen).2, h.height]
    omega
  have hcolumn : min c (g'.columns - 1) = c := by
    rw [h.width]
    omega
  rw [remapCursor]
  dsimp only [getD_some]
  rw [hrow, hcolumn, h.width]
  rfl

theorem length_trim_rows (rowCapacity columns : Nat) (composedWidth : Nat → Nat) (g : Grid) :
    (trim rowCapacity (build composedWidth columns g.origins g)).rows.length =
      min (layout composedWidth columns g.origins g.oldRows).length rowCapacity := by
  obtain ⟨written, linebreak, hfinished⟩ := finished_build composedWidth columns g.origins g
  rw [← hfinished.rendered.length_eq]
  simp only [trim, length_drop]
  omega

/-- What the resized grid shows of the layout: its last rows are the screen. -/
theorem Reflowed.shows {b : Builder} {ids : OrdMap Nat Nat} {rows : List (List Piece)}
    (h : Reflowed rowCapacity columns screenRows g (trim rowCapacity b) g' ids)
    (hrendered : List.Forall₂ (Rendered columns) b.rows rows) (hle : screenRows ≤ rowCapacity) {r : Nat}
    {pieces : List Piece} (hr : rows[r]? = some pieces) (hscreen : rows.length ≤ r + screenRows) :
    ∃ shown, g'.row (r + screenRows - rows.length : Nat) = some shown ∧ Rendered columns shown pieces := by
  obtain ⟨hlength, hget⟩ := forall₂_iff_get.mp hrendered
  obtain ⟨hlt, rfl⟩ := List.getElem?_eq_some_iff.mp hr
  have hlt' : r < b.rows.length := hlength ▸ hlt
  have hkept : (trim rowCapacity b).rows.length = b.rows.length - (b.rows.length - rowCapacity) := length_drop
  -- row `r`, once the oldest rows are dropped
  have hrow := (h.row_screen hle (j := r - (b.rows.length - rowCapacity)) (by omega) (by omega) (by omega)).1
  have hat : (trim rowCapacity b).rows[r - (b.rows.length - rowCapacity)]? = some (b.rows.get ⟨r, hlt'⟩) := by
    rw [show (trim rowCapacity b).rows = b.rows.drop (b.rows.length - rowCapacity) from rfl,
      getElem?_drop, Nat.add_sub_cancel' (by omega), get_eq_getElem, getElem?_eq_getElem hlt']
  refine ⟨_, ?_, hget r hlt' hlt⟩
  rw [← hat, ← hrow]
  congr 2
  omega

/-- A cursor on a cell of the grid is on a cell that takes part. -/
theorem exists_standsAt_cursor {cursor : Cursor} (h : cursor = g.cursor ∨ cursor = g.savedCursor)
    {row : Row} (hrow : g.row cursor.position.row = some row) (hcolumn : cursor.position.column < row.cells.length) :
    ∃ r c, StandsAt (layout composedWidth columns g.origins g.oldRows)
      (g.absoluteIndex cursor.position.row, cursor.position.column) r c := by
  apply exists_standsAt (mem_oldRows hrow)
  rw [OldRow.count, contentCount]
  have htracker : cursor.position.column < trackerColumn g.origins (g.absoluteIndex cursor.position.row) := by
    rw [trackerColumn, Grid.origins]
    rcases h with rfl | rfl <;> simp only [if_true] <;> omega
  dsimp only
  omega

/-- A cursor goes where its cell goes. It is on the screen. If it was on a cell of the old grid,
that cell has a place in the layout; and if the place is in one of the last `screenRows` rows,
which are the rows of the new screen, then the cursor is moved there, and the new grid shows
the old cell there, unless the character does not fit the new width. -/
def CursorFollows (columns : Nat) (composedWidth : Nat → Nat) (g g' : Grid) (old new : Cursor) : Prop :=
  g'.OnScreen new ∧ ∀ row, g.row old.position.row = some row → old.position.column < row.cells.length →
      let rows := layout composedWidth columns g.origins g.oldRows
      let source := (g.absoluteIndex old.position.row, old.position.column)
      (∃ r c, StandsAt rows source r c) ∧ ∀ r c, StandsAt rows source r c → rows.length ≤ r + g'.screenRows →
          new = old.movedTo columns ⟨c, r + g'.screenRows - rows.length⟩ ∧ ∃ pieces shown, rows[r]? = some pieces ∧
            g'.row (r + g'.screenRows - rows.length : Nat) = some shown ∧ Rendered columns shown pieces ∧
            Carried composedWidth columns row.cells old.position.column
              (shown.cells.getD c default)

/-- A reflow keeps both cursors on the screen and on their cells. -/
theorem cursors_follow_their_cells (hs : Sized rowCapacity columns screenRows) (composedWidth : Nat → Nat) (g : Grid) :
    ∃ g' ids, g.resizeWithReflow rowCapacity columns screenRows composedWidth = .ok (g', ids) ∧
      g'.screenRows = screenRows ∧ CursorFollows columns composedWidth g g' g.cursor g'.cursor ∧
      CursorFollows columns composedWidth g g' g.savedCursor g'.savedCursor := by
  obtain ⟨g', ids, hresize, h⟩ := reflowed_resizeWithReflow hs composedWidth g
  obtain ⟨written, linebreak, hfinished⟩ := finished_build composedWidth columns g.origins g
  -- both cursors are handled alike
  have hfollows : ∀ (old : Cursor) (mapping : Option (Nat × Nat)), (old = g.cursor ∨ old = g.savedCursor) →
      Tracks (layout composedWidth columns g.origins g.oldRows)
        (g.absoluteIndex old.position.row, old.position.column) mapping →
      CursorFollows columns composedWidth g g' old (remapCursor old (adjustMapping
        ((build composedWidth columns g.origins g).rows.length - rowCapacity) mapping) g') := by
    intro old mapping hcursor htracks
    refine ⟨onScreen_remapCursor old _ g' (h.width.symm ▸ hs.columns_pos)
      (h.height.symm ▸ hs.screenRows_pos), fun row hrow hcolumn => ?_⟩
    rw [h.height]
    refine ⟨exists_standsAt_cursor hcursor hrow hcolumn, fun r c hstands hscreen => ?_⟩
    obtain ⟨before, p, after, hat, -⟩ := id hstands
    have hle := hs.screenRows_le
    have hlength := length_trim_rows rowCapacity columns composedWidth g
    obtain ⟨hlt, -⟩ := List.getElem?_eq_some_iff.mp hat
    constructor
    · -- the place recorded for the cell, once the oldest rows are dropped
      rw [htracks.eq_some (pairwise_layout g.pairwise_physicalRow) hstands, hfinished.rendered.length_eq, adjustMapping,
        bind_some]
      dsimp only
      rw [if_pos (by omega),
        h.remapCursor_eq hle (by omega) old (by omega) (by omega) (hstands.column_lt hs.columns_pos)]
      congr 2
      omega
    · obtain ⟨shown, hshown, hrendered⟩ := h.shows hfinished.rendered hle hat hscreen
      exact ⟨_, shown, hat, hshown, hrendered, hstands.carried hs.columns_pos g.pairwise_physicalRow
        (mem_oldRows hrow) hcolumn hat hrendered⟩
  refine ⟨g', ids, hresize, h.height, ?_, ?_⟩
  · rw [h.cursor]
    exact hfollows g.cursor _ (.inl rfl) hfinished.cursor
  · rw [h.savedCursor]
    exact hfollows g.savedCursor _ (.inr rfl) hfinished.savedCursor

/-- A line, a blank line and another line on a screen of three rows; the cursor is about to
wrap at the end of the last one. -/
def twoLines : Grid :=
  { slots := ⟨[{ row := some ⟨[⟨.scalar 'a', {}⟩, default], true, true⟩, id := 1 },
      { row := some ⟨[default, default], true, true⟩, id := 2 },
      { row := some ⟨[⟨.scalar 'b', {}⟩, ⟨.scalar 'c', {}⟩], true, true⟩, id := 3 }, {}], by decide⟩
    columns := 2, offset := 0, view := 0, screenRows := 3,
    cursor := { position := ⟨1, 2⟩, deferredWrap := true }, savedCursor := {},
    generation := 0, nextRowId := 4, historyGeneration := 1 }

theorem twoLines_cursors_follow :
    ∃ g' ids, twoLines.resizeWithReflow 4 3 2 (fun _ => 1) = .ok (g', ids) ∧ g'.screenRows = 2 ∧
      CursorFollows 3 (fun _ => 1) twoLines g' twoLines.cursor g'.cursor ∧
      CursorFollows 3 (fun _ => 1) twoLines g' twoLines.savedCursor g'.savedCursor :=
  cursors_follow_their_cells
    ⟨by decide, by decide, by decide, by decide, by decide, by decide⟩ (fun _ => 1) twoLines

end Grid

end Splinterm.Terminal
