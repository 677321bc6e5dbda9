import Splinterm.Terminal.Glyphs

/-!
# The shape of a row

Every edit keeps the number of cells. As long as no wide character is cut a row also stays a
sequence of whole characters. Padding a line can cut one, and the repair scan of the row that is left
may then run forever, which is why the characters are a separate, conditional part of the
invariant.
-/

namespace Splinterm.Terminal

open Lib.Hoare List

namespace Row

theorem leaderOf_le (cells : List Cell) (column : Nat) : leaderOf cells column ≤ column := by
  fun_induction leaderOf with
  | case2 _ _ ih => exact ih.trans (Nat.le_succ _)
  | _ => exact le_rfl

end Row

/-- What the cells of a terminal may hold: whether wide characters are whole, and which contents
may occur. -/
structure Policy where
  whole : Prop
  admits : CellContent → Prop
  empty : admits .empty
  spacer : ∀ remaining, admits (.spacer remaining)

def Admitted (policy : Policy) (cells : List Cell) : Prop := ∀ cell ∈ cells, policy.admits cell.content

namespace Admitted

variable {policy : Policy} {cells cells' : List Cell}

theorem replicate (n : Nat) {cell : Cell} (hcell : policy.admits cell.content) :
    Admitted policy (List.replicate n cell) := fun _ hmem => (eq_of_mem_replicate hmem).symm ▸ hcell

variable (h : Admitted policy cells)

include h

theorem append (h' : Admitted policy cells') : Admitted policy (cells ++ cells') := fun cell hcell =>
  (mem_append.mp hcell).elim (h cell) (h' cell)

theorem take (n : Nat) : Admitted policy (cells.take n) := fun cell hcell =>
  h cell (mem_of_mem_take hcell)

theorem drop (n : Nat) : Admitted policy (cells.drop n) := fun cell hcell =>
  h cell (mem_of_mem_drop hcell)

theorem getD (i : Nat) : policy.admits (cells.getD i default).content := by
  by_cases hi : i < cells.length
  · rw [getD_eq_getElem _ _ hi]
    exact h _ (getElem_mem hi)
  · rw [getD_eq_default _ _ (by omega)]
    exact policy.empty

theorem clearFrom (start stop fuel column : Nat) : Admitted policy (Row.clearFrom start stop fuel column cells) := by
  induction fuel generalizing column cells with
  | zero => exact h
  | succ fuel ih =>
    cases cells with
    | nil => exact h
    | cons leader rest =>
      have hrest : Admitted policy rest := fun cell hcell => h cell (mem_cons_of_mem leader hcell)
      have hleader : Admitted policy [leader] := fun cell hcell => h cell (mem_singleton.mp hcell ▸ mem_cons_self)
      rw [Row.clearFrom]
      split
      · refine append ?_ (ih (hrest.drop _) _)
        split
        · exact replicate _ policy.empty
        · exact hleader.append (hrest.take _)
      · exact hleader.append (ih hrest _)

theorem eraseCells (start stop : Nat) (background : Color) :
    Admitted policy (Row.eraseCells start stop background cells) :=
  ((h.take start).append (replicate _ policy.empty)).append (h.drop stop)

end Admitted

namespace Row

/-! ## The row invariant -/

/-- The row has `columns` cells with admitted contents, and consists of whole characters where the
policy asks for it. -/
structure Shaped (policy : Policy) (columns : Nat) (row : Row) : Prop where
  length : row.cells.length = columns
  tiled : policy.whole → Tiled row.cells
  contents : Admitted policy row.cells

variable {policy : Policy} {columns : Nat} {row : Row}

theorem Shaped.clearWideIntersections (h : row.Shaped policy columns) (start stop : Nat) :
    (row.clearWideIntersections start stop).Shaped policy columns :=
  ⟨by rw [length_clearWideIntersections, h.length],
    fun hwhole => (h.tiled hwhole).cleared, h.contents.clearFrom _ _ _ _⟩

theorem Shaped.eraseRange (h : row.Shaped policy columns) {start stop : Nat} (hle : start ≤ stop)
    (hstop : stop ≤ columns) (background : Color) : (row.eraseRange start stop background).Shaped policy columns := by
  have hc := h.clearWideIntersections start stop
  refine ⟨?_, ?_, hc.contents.eraseCells start stop background⟩
  · show (eraseCells ..).length = columns
    rw [length_eraseCells background hle (by rw [hc.length]; exact hstop), hc.length]
  · intro hwhole
    exact (h.tiled hwhole).overwritten hle (Cell.not_continues_erased background)

theorem Shaped.eraseAll (h : row.Shaped policy columns) (background : Color) :
    (row.eraseAll background).Shaped policy columns := by
  have hr := h.eraseRange (Nat.zero_le _) h.length.le background
  exact ⟨hr.length, hr.tiled, hr.contents⟩

theorem Shaped.setLinebreak (h : row.Shaped policy columns) (linebreak : Bool) :
    (row.setLinebreak linebreak).Shaped policy columns := ⟨h.length, h.tiled, h.contents⟩

theorem shaped_new (columns : Nat) : (Row.new columns).Shaped policy columns :=
  ⟨length_replicate, fun _ => Tiled.replicate _ (by simp [Cell.Continues]), Admitted.replicate _ policy.empty⟩

theorem shaped_newDirty (columns : Nat) : (Row.newDirty columns).Shaped policy columns :=
  ⟨length_replicate, fun _ => Tiled.replicate _ (by simp [Cell.Continues]), Admitted.replicate _ policy.empty⟩

/-! ## Edits -/

def edited (column : Nat) (edit : Cell → Cell) (row : Row) : Row :=
  let cell := row.cells.getD column default
  { row with
    cells := row.cells.set column
      (edit { cell with attributes := { cell.attributes with clean := false } })
    dirty := true }

@[simp] theorem length_edited (column : Nat) (edit : Cell → Cell) :
    (row.edited column edit).cells.length = row.cells.length := by simp [edited]

theorem getD_set_of_ne {l : List Cell} {i j : Nat} (h : i ≠ j) (cell : Cell) :
    (l.set i cell).getD j default = l.getD j default := by
  rw [getD_eq_getElem?_getD, getElem?_set_ne h, ← getD_eq_getElem?_getD]

theorem getD_set_self {l : List Cell} {i : Nat} (h : i < l.length) (cell : Cell) :
    (l.set i cell).getD i default = cell := by
  rw [getD_eq_getElem?_getD, getElem?_set_self h, Option.getD_some]

def store (column : Nat) (cell : Cell) (row : Row) : Row :=
  { row with cells := row.cells.set column cell, dirty := true }

@[simp] theorem length_store (column : Nat) (cell : Cell) :
    (row.store column cell).cells.length = row.cells.length := length_set

/-- Both halves of a cell written one after the other. -/
theorem edited_edited {column : Nat} (h : column < row.cells.length) (content : CellContent)
    (attributes : Attributes) : (row.edited column fun cell => { cell with content }).edited column
      (fun cell => { cell with attributes }) = row.store column ⟨content, attributes⟩ := by
  simp only [edited, store, getD_set_self h, set_set]

/-- Without reflow a wide character cut by the new edge loses its content. -/
theorem Shaped.resizeWithoutReflow {oldColumns : Nat} (h : row.Shaped policy oldColumns)
    (columns : Nat) : (row.resizeWithoutReflow columns).Shaped policy columns := by
  rw [Row.resizeWithoutReflow]
  by_cases hgrow : row.cells.length < columns
  · rw [if_pos hgrow]
    refine ⟨?_, ?_, h.contents.append (Admitted.replicate _ policy.empty)⟩
    · simp only [length_append, length_replicate]
      omega
    · intro hn
      exact (h.tiled hn).append (Tiled.replicate _ Cell.not_continues_default)
  · rw [if_neg hgrow]
    by_cases hshrink : columns < row.cells.length
    · rw [if_pos hshrink]
      by_cases hcut : 0 < columns ∧ (row.cells.getD columns default).content.isContinuation = true
      · have hleader : leaderOf row.cells columns ≤ columns := leaderOf_le ..
        rw [if_pos hcut]
        refine ⟨?_, ?_, (h.contents.take _).append ?_⟩
        · simp only [length_append, length_map, length_drop, length_take]
          omega
        · intro hwhole
          apply ((h.tiled hwhole).split ((h.tiled hwhole).edge_leaderOf columns)).1.append
          apply Tiled.of_forall
          intro cell hcell
          obtain ⟨old, -, rfl⟩ := mem_map.mp hcell
          simp [Cell.Continues]
        · intro cell hcell
          obtain ⟨old, -, rfl⟩ := mem_map.mp hcell
          exact policy.empty
      · rw [if_neg hcut]
        refine ⟨by simp only [length_take]; omega, fun hwhole => ?_, h.contents.take columns⟩
        rcases Nat.eq_zero_or_pos columns with rfl | hpos
        · exact .nil
        · exact ((h.tiled hwhole).split (firstPayload_drop_eq_zero_iff.mpr fun hcont => hcut ⟨hpos, hcont⟩)).1
    · rw [if_neg hshrink]
      exact ⟨by omega, h.tiled, h.contents⟩

end Row

end Splinterm.Terminal
