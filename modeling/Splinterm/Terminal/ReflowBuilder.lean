import Splinterm.Terminal.ReflowLayout

/-!
# The builder computes the layout

The builder fills rows while it reads the old ones and holds the breaks of blank lines back
until text follows. At every point it has written some document, and the text read so far is
that document followed by the pending breaks.
-/

namespace Splinterm.Terminal.Reflow

open Lib Hoare List Nat Piece Fill

/-! ## Rendering -/

def renderRow (columns : Nat) (padding : Cell) (linebreak : Bool) (row : List Piece) : Row where
  cells := row.flatMap cells ++ replicate (columns - (row.flatMap cells).length) padding
  dirty := true
  linebreak

/-- A row that wraps into the next. -/
def softRow (columns : Nat) (row : List Piece) : Row :=
  renderRow columns { content := .spacer 0 } false row

def lastRow (columns : Nat) (linebreak : Bool) (row : List Piece) : Row :=
  renderRow columns default linebreak row

def renderLine (columns : Nat) (linebreak : Bool) (line : List Piece) : List Row :=
  (ofList cells columns line).full.map (softRow columns) ++
    [lastRow columns linebreak (ofList cells columns line).current]

/-! ## The builder computes the layout -/

/-- A builder in the middle of the last line of a document. -/
structure Represents (columns : Nat) (origins : Origins) (b : Builder) (d : Document) : Prop where
  width : b.columns = columns
  tracked : b.origins = origins
  rows : b.rows = d.closed.flatMap (renderLine columns true) ++
    (ofList cells columns d.line).full.map (softRow columns)
  current : b.current = (ofList cells columns d.line).current.flatMap cells
  nonempty : ∀ p ∈ d.line, 0 < p.cells.length
  cursor : Tracks (d.rows columns) origins.cursor b.mappings.cursor
  savedCursor : Tracks (d.rows columns) origins.savedCursor b.mappings.savedCursor

/-- The position recorded for `source` once the columns of a unit have been recorded. -/
def recorded (row physicalRow column width : Nat) (output : Nat → Nat) (source : Nat × Nat)
    (mapping : Option (Nat × Nat)) : Option (Nat × Nat) :=
  if physicalRow = source.1 ∧ column ≤ source.2 ∧ source.2 < column + width then
    some (row, output (source.2 - column))
  else mapping

theorem recorded_succ (row physicalRow column width : Nat) (output : Nat → Nat)
    (source : Nat × Nat) (mapping : Option (Nat × Nat)) :
    recorded row physicalRow column (width + 1) output source mapping =
      if (physicalRow, column + width) = source then some (row, output width)
      else recorded row physicalRow column width output source mapping := by
  by_cases hlast : (physicalRow, column + width) = source
  · subst hlast
    rw [recorded, if_pos ⟨rfl, le_add_right _ _, lt_succ_self _⟩, if_pos rfl, Nat.add_sub_cancel_left]
  · rw [if_neg hlast, recorded]
    congr 1
    -- the column just past the unit is the only one that differs
    have hne : ¬ (physicalRow = source.1 ∧ column + width = source.2) := fun h => hlast (Prod.ext h.1 h.2)
    rw [eq_iff_iff]
    omega

theorem foldl_mapOrigin (b : Builder) (physicalRow column width : Nat) (output : Nat → Nat) :
    (range width).foldl
        (fun b offset => b.mapOrigin physicalRow (column + offset) (output offset)) b =
      { b with
        mappings :=
          { cursor := recorded b.rows.length physicalRow column width output b.origins.cursor
              b.mappings.cursor
            savedCursor := recorded b.rows.length physicalRow column width output
              b.origins.savedCursor b.mappings.savedCursor
            view := recorded b.rows.length physicalRow column width output b.origins.view
              b.mappings.view } } := by
  induction width with
  | zero =>
    have hnone : ∀ source mapping, recorded b.rows.length physicalRow column 0 output source mapping = mapping := by
      intro source mapping
      rw [recorded, if_neg (by omega)]
    simp only [range_zero, foldl_nil, hnone]
  | succ width ih =>
    rw [range_succ, foldl_append, ih]
    simp only [foldl_cons, foldl_nil, Builder.mapOrigin, recorded_succ]

theorem length_renderLine (columns : Nat) (linebreak : Bool) (line : List Piece) :
    (renderLine columns linebreak line).length = (lineRows columns line).length := by
  simp [renderLine, lineRows]

theorem length_flatMap_renderLine (columns : Nat) (linebreak : Bool) (lines : List (List Piece)) :
    (lines.flatMap (renderLine columns linebreak)).length = (lines.flatMap (lineRows columns)).length := by
  simp only [length_flatMap, length_renderLine]

/-! ### Steps of the builder -/

/-- The row a unit goes to: the open one, or a new one when it has no room. -/
def Builder.makeRoom (b : Builder) (width : Nat) : Builder :=
  if b.current ≠ [] ∧ b.columns < b.current.length + width then b.finishWrapped else b

theorem Builder.appendUnit_eq (b : Builder) (physicalRow column width : Nat) (output : List Cell) :
    b.appendUnit physicalRow column width output =
      let cells := fitted b.columns output
      let room := b.makeRoom cells.length
      let recorded := recorded room.rows.length physicalRow column width fun offset =>
        room.current.length + min offset (cells.length - 1)
      { room with
        current := room.current ++ cells
        mappings :=
          { cursor := recorded room.origins.cursor room.mappings.cursor
            savedCursor := recorded room.origins.savedCursor room.mappings.savedCursor
            view := recorded room.origins.view room.mappings.view } } := by
  have hcells : (if (if b.columns < output.length then [] else output) = [] then [default]
      else (if b.columns < output.length then [] else output)) = fitted b.columns output := by
    rw [fitted]
    by_cases hwide : b.columns < output.length
    · simp [hwide]
    · simp [hwide]
  have hlength : max (if b.columns < output.length then [] else output).length 1 =
      (fitted b.columns output).length := by
    rw [← hcells]
    generalize (if b.columns < output.length then [] else output) = unit
    cases unit with
    | nil => rfl
    | cons cell rest => exact max_eq_left (succ_pos _)
  rw [Builder.appendUnit]
  rw [hcells, hlength, foldl_mapOrigin]
  rfl

namespace Represents

variable {columns : Nat} {origins : Origins} {b : Builder} {d : Document}

variable (h : Represents columns origins b d)

include h

theorem current_ne_nil : b.current ≠ [] ↔ 0 < (ofList cells columns d.line).current.length := by
  have hmem : ∀ p ∈ (ofList cells columns d.line).current, 0 < p.cells.length := by
    intro p hp
    apply h.nonempty
    rw [← flatten_lineRows columns d.line]
    exact mem_flatten.mpr ⟨_, mem_append_right _ (mem_singleton_self _), hp⟩
  rw [h.current, ← length_pos_iff]
  cases hcurrent : (ofList cells columns d.line).current with
  | nil => simp
  | cons p row =>
    have := hmem p (hcurrent ▸ mem_cons_self)
    simp only [flatMap_cons, length_append, length_cons]
    omega

theorem length_rows : b.rows.length = (d.closed.flatMap (lineRows columns)).length +
      (ofList cells columns d.line).full.length := by
  rw [h.rows, length_append, length_flatMap_renderLine, length_map]

theorem finishHardLine : Represents columns origins b.finishHardLine d.hardBreak where
  width := h.width
  tracked := h.tracked
  rows := by
    simp [Builder.finishHardLine, Builder.finish, Builder.pad, Builder.pushCurrent,
      Document.hardBreak, renderLine, lastRow, renderRow, h.rows, h.current, h.width]
  current := rfl
  nonempty := fun _ hp => absurd hp not_mem_nil
  cursor := h.cursor.grow (Document.rows_hardBreak ▸ Grows.append _ _)
    (by rw [Document.rows_hardBreak]; simp) (fun _ hp => absurd hp not_mem_nil)
  savedCursor := h.savedCursor.grow (Document.rows_hardBreak ▸ Grows.append _ _)
    (by rw [Document.rows_hardBreak]; simp) (fun _ hp => absurd hp not_mem_nil)

theorem flushPending (pending : Nat) :
    Represents columns origins (flushPending pending b) (Document.hardBreak^[pending] d) := by
  induction pending generalizing b d with
  | zero => exact h
  | succ pending ih => exact ih h.finishHardLine

/-- The builder makes room exactly when the filling of the line does. -/
theorem makeRoom (p : Piece) :
    ∃ before, ((ofList cells columns d.line).push cells columns p).current = before ++ [p] ∧
      (b.makeRoom p.cells.length).current = before.flatMap cells ∧
      (b.makeRoom p.cells.length).rows = d.closed.flatMap (renderLine columns true) ++
        ((ofList cells columns d.line).push cells columns p).full.map (softRow columns) := by
  have hcond : (b.current ≠ [] ∧ b.columns < b.current.length + p.cells.length) ↔
      (0 < (ofList cells columns d.line).current.length ∧
        columns < ((ofList cells columns d.line).current.flatMap cells).length +
          p.cells.length) := by
    rw [h.current_ne_nil, h.width, h.current]
  by_cases hfull : b.current ≠ [] ∧ b.columns < b.current.length + p.cells.length
  · rw [Builder.makeRoom, if_pos hfull, push, if_pos (hcond.mp hfull)]
    simp [Builder.finishWrapped, Builder.pad, Builder.pushCurrent, softRow, renderRow, h.rows, h.current, h.width]
  · rw [Builder.makeRoom, if_neg hfull, push, if_neg fun hc => hfull (hcond.mpr hc)]
    exact ⟨_, rfl, h.current, h.rows⟩

/-- A tracked position after a unit: on the unit, or where it was. -/
theorem tracks_recorded {p : Piece} {source : Nat × Nat}
    {mapping : Option (Nat × Nat)} (htracks : Tracks (d.rows columns) source mapping) :
    Tracks ((d.append [p]).rows columns) source
      (recorded (b.makeRoom p.cells.length).rows.length p.physicalRow p.column p.width
        (fun offset => (b.makeRoom p.cells.length).current.length + min offset (p.cells.length - 1))
        source mapping) := by
  obtain ⟨before, hcurrent, hroom, hrows⟩ := h.makeRoom p
  by_cases hcovers : p.Covers source
  · rw [recorded, if_pos (show _ ∧ _ ∧ _ from hcovers)]
    refine ⟨before, p, [], ?_, hcovers, ?_⟩
    · rw [Document.rows_append_singleton, hrows, Fill.rows, hcurrent, length_append,
        length_flatMap_renderLine, length_map]
      simp
    · rw [hroom, target]
  · rw [recorded, if_neg (show ¬ (_ ∧ _ ∧ _) from hcovers)]
    exact htracks.grow (Document.grows_append_singleton p) (Document.flatten_append_singleton p)
      (fun q hq => mem_singleton.mp hq ▸ hcovers)

omit h in
theorem makeRoom_fields (b : Builder) (width : Nat) :
    (b.makeRoom width).columns = b.columns ∧ (b.makeRoom width).origins = b.origins ∧
      (b.makeRoom width).mappings = b.mappings := by
  rw [Builder.makeRoom]
  split <;> exact ⟨rfl, rfl, rfl⟩

theorem appendUnit (physicalRow column width : Nat) (output : List Cell) :
    Represents columns origins (b.appendUnit physicalRow column width output)
      (d.append [{ physicalRow, column, width, cells := fitted columns output }]) := by
  obtain ⟨hcolumns, horigins, hmappings⟩ := makeRoom_fields b (fitted columns output).length
  obtain ⟨before, hcurrent, hroom, hrows⟩ := h.makeRoom
    { physicalRow, column, width, cells := fitted columns output }
  rw [Builder.appendUnit_eq, h.width]
  dsimp only
  rw [horigins, hmappings, h.tracked]
  exact
    { width := hcolumns.trans h.width
      tracked := rfl
      rows := by
        rw [Document.append, ofList_concat]
        exact hrows
      current := by
        rw [Document.append, ofList_concat, hcurrent]
        simp [hroom]
      nonempty := forall_mem_append.mpr ⟨h.nonempty, forall_mem_singleton.mpr (length_fitted_pos _ _)⟩
      cursor := h.tracks_recorded h.cursor
      savedCursor := h.tracks_recorded h.savedCursor }

theorem appendUnits (composedWidth : Nat → Nat) (physicalRow : Nat) (cells : List Cell) (count fuel column : Nat) :
    Represents columns origins (appendUnits composedWidth physicalRow cells count fuel column b)
      (d.append (pieces composedWidth columns physicalRow cells count fuel column)) := by
  induction fuel generalizing b d column with
  | zero => simpa [Reflow.appendUnits, pieces] using h
  | succ fuel ih =>
    rw [Reflow.appendUnits, pieces]
    split
    · have hnext := ih (h.appendUnit physicalRow column
        (reflowUnit composedWidth cells column count columns).1
        (reflowUnit composedWidth cells column count columns).2)
        (column + (reflowUnit composedWidth cells column count columns).1)
      rw [Document.append_append] at hnext
      rw [h.width]
      exact hnext
    · simpa using h

end Represents

/-! ### Whole rows -/

/-- The builder stands in a document whose last breaks are still pending. Those it has
written ended a line with text. -/
structure Holds (columns : Nat) (origins : Origins) (st : State) (written d : Document) : Prop where
  builder : Represents columns origins st.builder written
  pending : d = Document.hardBreak^[st.pendingEmptyLinebreaks] written
  solid : written.line = [] → written.closed.getLast? ≠ some []

/-- One old row, through the slot it is stored in. -/
def reflowOldRow (composedWidth : Nat → Nat) (st : State) (old : OldRow) : State :=
  reflowRow composedWidth st old.physicalRow { row := some old.row, id := old.id }

section Steps

variable {composedWidth : Nat → Nat} {columns : Nat} {origins : Origins} {st : State}
  {written d : Document}

theorem Holds.reflowOldRow (h : Holds columns origins st written d) (old : OldRow) :
    ∃ written', Holds columns origins (reflowOldRow composedWidth st old) written'
      (d.addRow (old.pieces composedWidth columns origins) old.row.linebreak) := by
  have hcount : contentCount old.row (trackerColumn st.builder.origins old.physicalRow) =
      old.count origins := by rw [h.builder.tracked, OldRow.count]
  rw [Reflow.reflowOldRow, reflowRow]
  dsimp only
  rw [hcount]
  have hstart : Represents columns origins { st.builder with
      rowMappings := st.builder.rowMappings.insert old.id st.builder.rows.length } written :=
    { h.builder with }
  by_cases hblank : old.count origins = 0
  · -- a blank row writes nothing; its break is held back
    have hpieces : old.pieces composedWidth columns origins = [] := OldRow.pieces_eq_nil_iff.mpr hblank
    refine ⟨written, ?_, ?_, h.solid⟩
    · simpa [hblank, appendUnits] using hstart
    · rw [hpieces]
      cases hbreak : old.row.linebreak with
      | true =>
        simp only [hblank, lt_irrefl, if_false, and_self, if_true, Document.addRow, Document.append_nil]
        rw [Document.hardBreak_iterate_succ, h.pending]
      | false => simpa [Document.addRow, hblank] using h.pending
  · have hpos : 0 < old.count origins := pos_of_ne_zero hblank
    have hne : old.pieces composedWidth columns origins ≠ [] := fun hnil => hblank (OldRow.pieces_eq_nil_iff.mp hnil)
    have hunits := (hstart.flushPending st.pendingEmptyLinebreaks).appendUnits composedWidth
      old.physicalRow old.row.cells (old.count origins) (old.count origins) 0
    rw [← h.pending] at hunits
    change Represents columns origins _ (d.append (old.pieces composedWidth columns origins)) at hunits
    simp only [hpos, if_true, and_true, hblank, and_false, if_false, Document.addRow]
    cases hbreak : old.row.linebreak with
    | true =>
      refine ⟨_, hunits.finishHardLine, rfl, fun _ => ?_⟩
      simp [Document.hardBreak, Document.append, hne]
    | false =>
      refine ⟨_, hunits, rfl, fun hnil => ?_⟩
      simp [Document.append, hne] at hnil

theorem holds_foldl (h : Holds columns origins st written d) (old : List OldRow) :
    ∃ written', Holds columns origins (old.foldl (Reflow.reflowOldRow composedWidth) st) written'
      (old.foldl (fun d row => d.addRow (row.pieces composedWidth columns origins) row.row.linebreak) d) := by
  induction old generalizing st written d with
  | nil => exact ⟨written, h⟩
  | cons row old ih =>
    obtain ⟨written', h'⟩ := h.reflowOldRow row
    exact ih h'

theorem holds_init (columns : Nat) (origins : Origins) :
    Holds columns origins { builder := { columns, origins } } {} {} where
  builder :=
    { width := rfl
      tracked := rfl
      rows := rfl
      current := rfl
      nonempty := fun _ hp => absurd hp not_mem_nil
      cursor := by simp [Tracks, Document.rows, lineRows_nil]
      savedCursor := by simp [Tracks, Document.rows, lineRows_nil] }
  pending := rfl
  solid := fun _ => by simp

end Steps

def consume (composedWidth : Nat → Nat) (columns : Nat) (origins : Origins) (old : List OldRow) : State :=
  old.foldl (reflowOldRow composedWidth) { builder := { columns, origins } }

variable {composedWidth : Nat → Nat} {columns : Nat} {origins : Origins}

theorem exists_holds_consume (composedWidth : Nat → Nat) (columns : Nat) (origins : Origins)
    (old : List OldRow) : ∃ written, Holds columns origins (consume composedWidth columns origins old) written
      (document composedWidth columns origins old) :=
  holds_foldl (holds_init columns origins) old

theorem sawRow_consume (composedWidth : Nat → Nat) (columns : Nat) (origins : Origins) (old : List OldRow) :
    (consume composedWidth columns origins old).sawRow = !old.isEmpty := by
  rcases old.eq_nil_or_concat with rfl | ⟨old, row, rfl⟩
  · rfl
  · simp [consume, reflowOldRow, reflowRow]

theorem build_eq (g : Grid) :
    build composedWidth columns origins g =
      let st := consume composedWidth columns origins g.oldRows
      if st.builder.current ≠ [] then st.builder.finish st.lastLinebreak
      else if st.sawRow = false then st.builder.finishHardLine
      else st.builder := by
  have hfold : (range g.rowCapacity).foldl
      (fun st (distance : Nat) =>
        reflowRow composedWidth st (g.absoluteIndex (g.screenRows + distance : Nat))
          (g.slot (g.screenRows + distance : Nat)))
      ({ builder := { columns, origins } } : State) = consume composedWidth columns origins g.oldRows := by
    rw [consume, Grid.oldRows, foldl_filterMap]
    congr 1
    funext st distance
    cases hslot : g.slot (g.screenRows + distance : Nat) with
    | mk row id =>
      cases row with
      | none => rfl
      | some row => rfl
  rw [build]
  rw [hfold]

/-! ### The finished builder -/

/-- The builder at the end: every line up to the last one with text is written out, the last
one with the break of the last row that had any. -/
structure Finished (composedWidth : Nat → Nat) (columns : Nat) (origins : Origins)
    (old : List OldRow) (b : Builder) (written : Document) (linebreak : Bool) : Prop where
  document : ∃ n, document composedWidth columns origins old = Document.hardBreak^[n] written
  lines : written.lines = if written.line = [] then written.closed
    else written.closed ++ [written.line]
  rows : b.rows =
    if old.isEmpty then [lastRow columns true []]
    else written.closed.flatMap (renderLine columns true) ++
      if written.line = [] then [] else renderLine columns linebreak written.line
  cursor : Tracks (layout composedWidth columns origins old) origins.cursor b.mappings.cursor
  savedCursor : Tracks (layout composedWidth columns origins old) origins.savedCursor
    b.mappings.savedCursor
  rowMappings : b.rowMappings = (consume composedWidth columns origins old).builder.rowMappings

theorem Represents.current_eq_nil_iff {b : Builder} {d : Document}
    (h : Represents columns origins b d) : b.current = [] ↔ d.line = [] := by
  rw [← not_iff_not, ← ne_eq, h.current_ne_nil]
  rcases d.line.eq_nil_or_concat with hline | ⟨line, p, hline⟩
  · rw [hline]
    simp
  · rw [hline, concat_eq_append, ofList_concat]
    obtain ⟨before, hcurrent, -⟩ := current_push cells columns
      (ofList cells columns line) p
    rw [hcurrent]
    simp

theorem finished_build (composedWidth : Nat → Nat) (columns : Nat) (origins : Origins) (g : Grid) :
    ∃ written linebreak, Finished composedWidth columns origins g.oldRows
      (build composedWidth columns origins g) written linebreak := by
  rw [build_eq]
  cases hold : g.oldRows with
  | nil =>
    have h := holds_init columns origins
    refine ⟨{}, true, ⟨0, rfl⟩, rfl, rfl, ?_, ?_, rfl⟩
    · exact h.builder.cursor
    · exact h.builder.savedCursor
  | cons first old =>
    rw [← hold]
    have hempty : g.oldRows.isEmpty = false := by rw [hold]; rfl
    obtain ⟨written, h⟩ := exists_holds_consume composedWidth columns origins g.oldRows
    have hsaw := sawRow_consume composedWidth columns origins g.oldRows
    set st := consume composedWidth columns origins g.oldRows with hst
    have hlines := Document.lines_of_solid h.solid
    have hlayout : layout composedWidth columns origins g.oldRows =
        (if written.line = [] then written.closed else written.closed ++ [written.line]).flatMap
          (lineRows columns) := by
      rw [layout, hempty, if_neg Bool.false_ne_true, h.pending, Document.lines_hardBreak_iterate, hlines]
    -- where a cell is in the document it is in the layout: only a blank last row can be missing there
    have hlaid {source : Nat × Nat} {mapping : Option (Nat × Nat)}
        (hmapped : Tracks (written.rows columns) source mapping) :
        Tracks (layout composedWidth columns origins g.oldRows) source mapping := by
      rw [Document.rows] at hmapped
      rw [hlayout]
      split
      · rename_i hnil
        rw [hnil] at hmapped
        exact hmapped.dropBlank
      · rwa [flatMap_append, flatMap_singleton]
    refine ⟨written, st.lastLinebreak, ?_⟩
    by_cases hnil : st.builder.current = []
    · have hline := h.builder.current_eq_nil_iff.mp hnil
      rw [if_neg (not_not.mpr hnil), if_neg (by rw [hsaw, hempty]; decide)]
      refine ⟨⟨_, h.pending⟩, hlines, ?_, hlaid h.builder.cursor, hlaid h.builder.savedCursor, rfl⟩
      rw [hempty, h.builder.rows, hline]
      simp
    · have hline : written.line ≠ [] := fun hl => hnil (h.builder.current_eq_nil_iff.mpr hl)
      rw [if_pos hnil]
      refine ⟨⟨_, h.pending⟩, hlines, ?_, hlaid h.builder.cursor, hlaid h.builder.savedCursor, rfl⟩
      rw [hempty, if_neg hline]
      simp [Builder.finish, Builder.pad, Builder.pushCurrent, renderLine, lastRow, renderRow, h.builder.rows,
        h.builder.current, h.builder.width]

end Splinterm.Terminal.Reflow
