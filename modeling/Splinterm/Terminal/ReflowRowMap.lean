import Splinterm.Terminal.ReflowTracking

/-!
# The row map of a reflow

The map from old to new row identities is what keeps an image on its line. An old row is
recorded at the number of rows written so far, and the breaks of blank lines are written only
when text follows. So a line is mapped to its own first row exactly when no blank line is
pending before it, and to the first of the pending blank lines otherwise.
-/

namespace Splinterm.Terminal

open Lib Hoare List Option RingBuffer

namespace Reflow

/-! ## What is recorded -/

theorem rowMappings_flushPending (pending : Nat) (b : Builder) :
    (flushPending pending b).rowMappings = b.rowMappings := by
  induction pending generalizing b with
  | zero => rfl
  | succ pending ih => exact ih _

theorem rowMappings_makeRoom (b : Builder) (width : Nat) : (b.makeRoom width).rowMappings = b.rowMappings := by
  rw [Builder.makeRoom]
  split <;> rfl

theorem rowMappings_appendUnits (composedWidth : Nat → Nat) (physicalRow : Nat) (cells : List Cell)
    (count fuel column : Nat) (b : Builder) :
    (appendUnits composedWidth physicalRow cells count fuel column b).rowMappings = b.rowMappings := by
  induction fuel generalizing column b with
  | zero => rfl
  | succ fuel ih =>
    rw [appendUnits]
    split
    · rw [ih, Builder.appendUnit_eq]
      exact rowMappings_makeRoom b _
    · rfl

theorem rowMappings_reflowOldRow (composedWidth : Nat → Nat) (st : State) (old : OldRow) :
    (reflowOldRow composedWidth st old).builder.rowMappings =
      st.builder.rowMappings.insert old.id st.builder.rows.length := by
  rw [reflowOldRow, reflowRow]
  dsimp only
  split
  · show (appendUnits _ _ _ _ _ _ _).rowMappings = _
    rw [rowMappings_appendUnits]
    split
    · rw [rowMappings_flushPending]
    · rfl
  · rw [rowMappings_appendUnits]
    split
    · rw [rowMappings_flushPending]
    · rfl

variable {composedWidth : Nat → Nat} {columns : Nat} {origins : Origins} {old : List OldRow}

theorem consume_concat (old : List OldRow) (row : OldRow) : consume composedWidth columns origins (old ++ [row]) =
      reflowOldRow composedWidth (consume composedWidth columns origins old) row := by
  simp [consume]

/-- Every old row is recorded at the number of rows written before it. -/
theorem get?_rowMappings (hold : old.Pairwise fun a b => a.id ≠ b.id) {i : Nat} {row : OldRow}
    (hrow : old[i]? = some row) : (consume composedWidth columns origins old).builder.rowMappings.get? row.id =
      some (consume composedWidth columns origins (old.take i)).builder.rows.length := by
  induction old using reverseRecOn with
  | nil => cases hrow
  | append_singleton old last ih =>
    rw [pairwise_append] at hold
    rw [consume_concat, rowMappings_reflowOldRow, OrdMap.get?_insert]
    rcases Nat.lt_or_ge i old.length with hlt | hge
    · rw [getElem?_append_left hlt] at hrow
      have hne : row.id ≠ last.id := hold.2.2 row (mem_of_getElem? hrow) last (by simp)
      rw [if_neg hne, ih hold.1 hrow, take_append_of_le_length (by omega)]
    · obtain ⟨hlt, heq⟩ := List.getElem?_eq_some_iff.mp hrow
      have hi : i = old.length := by
        simp only [length_append, length_singleton] at hlt
        omega
      subst hi
      rw [getElem?_concat_length] at hrow
      obtain rfl := some.inj hrow
      rw [if_pos rfl, take_left']
      rfl

/-! ## Where lines start -/

/-- Old row `i` starts a logical line: it is the oldest one, or the row before it ends in a
hard break. -/
def StartsLine (old : List OldRow) (i : Nat) : Prop :=
  i = 0 ∨ ∃ before, old[i - 1]? = some before ∧ before.row.linebreak = true

/-- The row of the layout at which that line starts: the lines before it come first. -/
def lineStart (composedWidth : Nat → Nat) (columns : Nat) (origins : Origins) (old : List OldRow) (i : Nat) : Nat :=
  ((document composedWidth columns origins (old.take i)).closed.flatMap (lineRows columns)).length

/-- The row before row `i` has text or a tracked position. -/
def FollowsText (origins : Origins) (old : List OldRow) (i : Nat) : Prop :=
  i = 0 ∨ ∃ before, old[i - 1]? = some before ∧ 0 < before.count origins

theorem take_eq_concat {i : Nat} {before : OldRow} (hpos : 0 < i) (h : old[i - 1]? = some before) :
    old.take i = old.take (i - 1) ++ [before] := by
  obtain ⟨hlt, rfl⟩ := List.getElem?_eq_some_iff.mp h
  rw [take_append_getElem hlt, Nat.sub_add_cancel hpos]

theorem line_eq_nil_of_startsLine {i : Nat} (h : StartsLine old i) :
    (document composedWidth columns origins (old.take i)).line = [] := by
  rcases Nat.eq_zero_or_pos i with rfl | hpos
  · rfl
  · obtain hzero | ⟨before, hbefore, hbreak⟩ := h
    · omega
    · rw [take_eq_concat hpos hbefore, document, foldl_append, foldl_cons, hbreak]
      rfl

/-- The rows written for a document, and the breaks still pending, are the rows of its lines. -/
theorem Holds.length_closed {st : State} {written d : Document}
    (h : Holds columns origins st written d) (hline : d.line = []) :
    (d.closed.flatMap (lineRows columns)).length = st.builder.rows.length + st.pendingEmptyLinebreaks := by
  have hrows : ∀ n, ((Document.hardBreak^[n] written).rows columns).length = (written.rows columns).length + n := by
    intro n
    induction n with
    | zero => rfl
    | succ n ih =>
      rw [Document.hardBreak_iterate_succ, Document.rows_hardBreak, length_append, ih]
      rfl
  have hd : (d.rows columns).length = (d.closed.flatMap (lineRows columns)).length + 1 := by
    rw [Document.rows, hline, length_append]
    rfl
  have hwritten : (written.rows columns).length = st.builder.rows.length + 1 := by
    rw [Document.rows, length_append, h.builder.length_rows, lineRows, Fill.length_rows, Nat.add_assoc]
  have := hrows st.pendingEmptyLinebreaks
  rw [← h.pending] at this
  omega

theorem pendingEmptyLinebreaks_reflowOldRow (st : State) (row : OldRow)
    (horigins : st.builder.origins = origins) (hbreak : row.row.linebreak = true) :
    (reflowOldRow composedWidth st row).pendingEmptyLinebreaks = 0 ↔ 0 < row.count origins := by
  rw [reflowOldRow, reflowRow]
  dsimp only
  rw [hbreak, horigins, ← OldRow.count]
  by_cases hpos : 0 < row.count origins
  · simp [hpos, hpos.ne']
  · have hzero : row.count origins = 0 := by omega
    simp [hzero]

/-- No blank line is pending exactly at the lines that follow text. -/
theorem pendingEmptyLinebreaks_eq_zero_iff (composedWidth : Nat → Nat) (columns : Nat)
    (origins : Origins) {i : Nat} (h : StartsLine old i) :
    (consume composedWidth columns origins (old.take i)).pendingEmptyLinebreaks = 0 ↔ FollowsText origins old i := by
  rcases Nat.eq_zero_or_pos i with rfl | hpos
  · exact iff_of_true rfl (.inl rfl)
  · obtain hzero | ⟨before, hbefore, hbreak⟩ := h
    · omega
    · obtain ⟨written, hholds⟩ := exists_holds_consume composedWidth columns origins (old.take (i - 1))
      rw [take_eq_concat hpos hbefore, consume_concat,
        pendingEmptyLinebreaks_reflowOldRow _ _ hholds.builder.tracked hbreak, FollowsText]
      constructor
      · intro hcount
        exact .inr ⟨before, hbefore, hcount⟩
      · rintro (hzero | ⟨before', hbefore', hcount⟩)
        · omega
        · rw [hbefore] at hbefore'
          obtain rfl := some.inj hbefore'
          exact hcount

end Reflow

namespace Grid

open Reflow

variable {rowCapacity columns screenRows : Nat} {g g' : Grid} {composedWidth : Nat → Nat}
  {ids : OrdMap Nat Nat}

/-- The first row of the line of old row `i` is laid out and not dropped. -/
def LineSurvives (rowCapacity columns : Nat) (composedWidth : Nat → Nat) (g : Grid) (i : Nat) : Prop :=
  lineStart composedWidth columns g.origins g.oldRows i < (layout composedWidth columns g.origins g.oldRows).length ∧
    (layout composedWidth columns g.origins g.oldRows).length ≤
      lineStart composedWidth columns g.origins g.oldRows i + rowCapacity

/-- The row of the new grid that shows row `r` of the layout; both end with the newest row. -/
def newRow (columns : Nat) (composedWidth : Nat → Nat) (g g' : Grid) (r : Nat) : Option OldRow :=
  g'.oldRows[g'.oldRows.length + r - (layout composedWidth columns g.origins g.oldRows).length]?

theorem get?_rowMappings_trim (capacity : Nat) (b : Builder) (id : Nat) :
    (trim capacity b).rowMappings.get? id = (b.rowMappings.get? id).bind fun row =>
      if b.rows.length - capacity ≤ row then some (row - (b.rows.length - capacity)) else none := by
  apply get?_mapOf_filterMap
  intro k v
  dsimp only
  split <;> rfl

/-- What the map gives an old row, in terms of the rows written before it. -/
theorem Reflowed.get?_ids (h : Reflowed rowCapacity columns screenRows g
      (trim rowCapacity (build composedWidth columns g.origins g)) g' ids)
    (hdistinct : Distinct g.slots) {i : Nat} {row : OldRow} (hrow : g.oldRows[i]? = some row) :
    let start := (consume composedWidth columns g.origins (g.oldRows.take i)).builder.rows.length
    let total := (layout composedWidth columns g.origins g.oldRows).length
    start < total → ids.get? row.id = if total - rowCapacity ≤ start then
      some (g'.slots.get (start - (total - rowCapacity) : Nat)).id else none := by
  intro start total hlt
  obtain ⟨written, linebreak, hfinished⟩ := finished_build composedWidth columns g.origins g
  have hlength : _ = min total rowCapacity := length_trim_rows rowCapacity columns composedWidth g
  rw [h.ids, get?_rowMappings_trim, hfinished.rowMappings, get?_rowMappings (pairwise_id hdistinct) hrow,
    hfinished.rendered.length_eq, bind_some]
  show (if total - rowCapacity ≤ start then _ else none).bind _ = _
  split
  · have hslot := lt_of_lt_of_eq (show start - (total - rowCapacity) < min total rowCapacity by omega) hlength.symm
    rw [bind_some, mappedSlot, if_pos hslot, bind_some, h.row _ (by omega), placedRow, getElem?_eq_getElem hslot]
    split <;> rfl
  · rfl

/-- A line is mapped to its own first row exactly when it follows text. -/
theorem Reflowed.mapped_iff (hs : Sized rowCapacity columns screenRows) (h : Reflowed rowCapacity columns screenRows g
      (trim rowCapacity (build composedWidth columns g.origins g)) g' ids)
    (hdistinct : Distinct g.slots) {i : Nat} {row : OldRow} (hrow : g.oldRows[i]? = some row)
    (hstarts : StartsLine g.oldRows i) (hsurvives : g.LineSurvives rowCapacity columns composedWidth i) :
    (∃ new, g.newRow columns composedWidth g' (lineStart composedWidth columns g.origins g.oldRows i) =
        some new ∧ ids.get? row.id = some new.id) ↔ FollowsText g.origins g.oldRows i := by
  obtain ⟨hlaid, hkept⟩ := hsurvives
  obtain ⟨written, hholds⟩ := exists_holds_consume composedWidth columns g.origins (g.oldRows.take i)
  have hle := hs.screenRows_le
  have hlength := length_trim_rows rowCapacity columns composedWidth g
  rw [← pendingEmptyLinebreaks_eq_zero_iff composedWidth columns g.origins hstarts]
  -- the line starts as many rows further as there are pending breaks
  have hstart : lineStart composedWidth columns g.origins g.oldRows i = _ + _ :=
    hholds.length_closed (line_eq_nil_of_startsLine hstarts)
  have hids := h.get?_ids hdistinct hrow (by omega)
  set total := (layout composedWidth columns g.origins g.oldRows).length
  set start := lineStart composedWidth columns g.origins g.oldRows i
  set b := trim rowCapacity (build composedWidth columns g.origins g)
  have hslot : start - (total - rowCapacity) < b.rows.length := by omega
  have hnew : g.newRow columns composedWidth g' start = some
      { physicalRow := start - (total - rowCapacity)
        id := (g'.slots.get (start - (total - rowCapacity) : Nat)).id
        row := b.rows.getD (start - (total - rowCapacity)) (Row.new columns) } := by
    rw [newRow, ← h.getElem?_oldRows hle (by omega) hslot, h.length_oldRows hle (by omega)]
    congr 1
    omega
  constructor
  · rintro ⟨new, heq, hmapped⟩
    rw [hnew] at heq
    obtain rfl := some.inj heq
    rw [hids] at hmapped
    split at hmapped
    · have hsome : ∀ j : Nat, j < b.rows.length → (g'.slots.get j).row.isSome = true := by
        intro j hj
        rw [h.row j (by omega), placedRow, getElem?_eq_getElem hj]
        split <;> rfl
      have hindex := h.distinct _ _ (hsome _ (by omega)) (hsome _ hslot) (some.inj hmapped)
      have hsize : g'.slots.size = rowCapacity := h.capacity
      rw [index_of_lt (by omega), index_of_lt (by omega)] at hindex
      omega
    · cases hmapped
  · intro hpending
    refine ⟨_, hnew, ?_⟩
    rw [hids, if_pos (by omega)]
    congr 4
    omega

/-- The row map is right about every line exactly when every line that survives follows text
or a tracked position: the row before it, if there is one, is not blank. -/
theorem row_map_is_right_iff (hs : Sized rowCapacity columns screenRows) (hdistinct : Distinct g.slots)
    (hresize : g.resizeWithReflow rowCapacity columns screenRows composedWidth = .ok (g', ids)) :
    (∀ i row, g.oldRows[i]? = some row → StartsLine g.oldRows i →
        g.LineSurvives rowCapacity columns composedWidth i → ∃ new, g.newRow columns composedWidth g'
            (lineStart composedWidth columns g.origins g.oldRows i) = some new ∧
          ids.get? row.id = some new.id) ↔ ∀ i row, g.oldRows[i]? = some row → StartsLine g.oldRows i →
        g.LineSurvives rowCapacity columns composedWidth i → FollowsText g.origins g.oldRows i := by
  obtain ⟨g₁, ids₁, hresize₁, h⟩ := reflowed_resizeWithReflow hs composedWidth g
  rw [hresize] at hresize₁
  obtain ⟨rfl, rfl⟩ := Prod.mk.inj (Except.ok.inj hresize₁)
  constructor
  · intro hright i row hrow hstarts hsurvives
    exact (h.mapped_iff hs hdistinct hrow hstarts hsurvives).mp (hright i row hrow hstarts hsurvives)
  · intro htext i row hrow hstarts hsurvives
    exact (h.mapped_iff hs hdistinct hrow hstarts hsurvives).mpr (htext i row hrow hstarts hsurvives)

theorem distinct_of_lt {slots : RingBuffer Slot}
    (h : ∀ i < slots.size, ∀ j < slots.size, (slots.get (i : Nat)).row.isSome = true →
      (slots.get (j : Nat)).row.isSome = true → (slots.get (i : Nat)).id = (slots.get (j : Nat)).id →
      i = j) : Distinct slots := by
  intro p q hp hq hid
  have hget : ∀ p : Int, slots.get p = slots.get (slots.index p : Nat) := fun p =>
    get_congr (index_of_lt (slots.index_lt p)).symm
  rw [hget] at hp hq hid
  rw [hget q] at hid
  exact h _ (slots.index_lt p) _ (slots.index_lt q) hp hq hid

/-- With a saved cursor on the blank line, every line follows text or a tracked position. -/
def trackedLines : Grid := { twoLines with savedCursor := { position := ⟨0, 1⟩ } }

theorem trackedLines_row_map :
    ∃ g' ids, trackedLines.resizeWithReflow 4 2 3 (fun _ => 1) = .ok (g', ids) ∧
      ∀ i row, trackedLines.oldRows[i]? = some row → StartsLine trackedLines.oldRows i →
        trackedLines.LineSurvives 4 2 (fun _ => 1) i → ∃ new, trackedLines.newRow 2 (fun _ => 1) g'
            (lineStart (fun _ => 1) 2 trackedLines.origins trackedLines.oldRows i) = some new ∧
          ids.get? row.id = some new.id := by
  have hs : Sized 4 2 3 := ⟨by decide, by decide, by decide, by decide, by decide, by decide⟩
  obtain ⟨g', ids, hresize, -⟩ := reflowed_resizeWithReflow hs (fun _ => 1) trackedLines
  have hdistinct : Distinct trackedLines.slots := distinct_of_lt (by decide +kernel)
  refine ⟨g', ids, hresize, (row_map_is_right_iff hs hdistinct hresize).mpr fun i row hrow _ _ => ?_⟩
  have hcounts : ∀ before ∈ trackedLines.oldRows, 0 < before.count trackedLines.origins := by decide +kernel
  obtain ⟨hlt, -⟩ := List.getElem?_eq_some_iff.mp hrow
  by_cases hzero : i = 0
  · exact .inl hzero
  · exact .inr ⟨_, getElem?_eq_getElem (by omega), hcounts _ (getElem_mem _)⟩

/-- The line after a blank one is mapped to the blank one. -/
theorem blank_line_takes_the_next_lines_place : ∃ g' ids,
    twoLines.resizeWithReflow 4 2 3 (fun _ => 1) = .ok (g', ids) ∧
    ∃ row new, twoLines.oldRows[2]? = some row ∧ StartsLine twoLines.oldRows 2 ∧
      twoLines.LineSurvives 4 2 (fun _ => 1) 2 ∧ twoLines.newRow 2 (fun _ => 1) g'
        (lineStart (fun _ => 1) 2 twoLines.origins twoLines.oldRows 2) = some new ∧
      ids.get? row.id ≠ some new.id := by
  have hmap : (twoLines.resizeWithReflow 4 2 3 fun _ => 1).toOption.map (fun resized =>
      (resized.2.get? 3, (twoLines.newRow 2 (fun _ => 1) resized.1
        (lineStart (fun _ => 1) 2 twoLines.origins twoLines.oldRows 2)).map OldRow.id)) =
      some (some 5, some 6) := by decide +kernel
  cases hresize : twoLines.resizeWithReflow 4 2 3 fun _ => 1 with
  | error fault => rw [hresize] at hmap; cases hmap
  | ok resized =>
    obtain ⟨g', ids⟩ := resized
    rw [hresize] at hmap
    obtain ⟨hids, hnew⟩ := Prod.mk.inj (some.inj hmap)
    obtain ⟨new, hrow, hid⟩ := map_eq_some_iff.mp hnew
    refine ⟨g', ids, rfl,
      { physicalRow := 2, id := 3, row := ⟨[⟨.scalar 'b', {}⟩, ⟨.scalar 'c', {}⟩], true, true⟩ }, new,
      by decide +kernel, ?_, ⟨by decide +kernel, by decide +kernel⟩, hrow, ?_⟩
    · exact .inr ⟨{ physicalRow := 1, id := 2, row := ⟨[default, default], true, true⟩ }, by decide +kernel, rfl⟩
    · show ids.get? 3 ≠ some new.id
      rw [show ids.get? 3 = some 5 from hids, show new.id = 6 from hid]
      decide

end Grid

end Splinterm.Terminal
