import Mathlib.Data.List.DropRight
import Splinterm.Lib.Wrap
import Splinterm.Terminal.Reflow

/-!
# The layout of a reflow

What rewrapping is for: the old rows are the text of logical lines, a hard break ends a
line, and each line is filled into rows of the new width on its own. Every piece of a line
remembers the old cells it stands for, so the layout also says where an old cell goes.
-/

namespace Splinterm.Terminal

open Lib Hoare List Nat

namespace Reflow

/-! ## Pieces and lines -/

/-- A unit of an old row: the old columns it takes and the cells it becomes. -/
structure Piece where
  physicalRow : Nat
  column : Nat
  width : Nat
  cells : List Cell

namespace Piece

/-- The old cell is one of those the piece stands for. -/
def Covers (p : Piece) (source : Nat × Nat) : Prop :=
  p.physicalRow = source.1 ∧ p.column ≤ source.2 ∧ source.2 < p.column + p.width

instance (p : Piece) (source : Nat × Nat) : Decidable (p.Covers source) :=
  inferInstanceAs (Decidable (_ ∧ _ ∧ _))

/-- Which of the piece's cells stands for an old column. -/
def target (p : Piece) (column : Nat) : Nat := min (column - p.column) (p.cells.length - 1)

end Piece

/-- A unit that does not fit a row becomes one empty cell. -/
def fitted (columns : Nat) (output : List Cell) : List Cell :=
  if columns < output.length ∨ output = [] then [default] else output

def pieces (composedWidth : Nat → Nat) (columns physicalRow : Nat) (cells : List Cell)
    (count : Nat) : Nat → Nat → List Piece
  | 0, _ => []
  | fuel + 1, column =>
    if column < count then
      let unit := reflowUnit composedWidth cells column count columns
      { physicalRow, column, width := unit.1, cells := fitted columns unit.2 } ::
        pieces composedWidth columns physicalRow cells count fuel (column + unit.1)
    else []

/-- A retained row with its slot and identity. -/
structure OldRow where
  physicalRow : Nat
  id : Nat
  row : Row
deriving DecidableEq

namespace OldRow

def count (origins : Origins) (old : OldRow) : Nat :=
  contentCount old.row (trackerColumn origins old.physicalRow)

def pieces (composedWidth : Nat → Nat) (columns : Nat) (origins : Origins) (old : OldRow) : List Piece :=
  Reflow.pieces composedWidth columns old.physicalRow old.row.cells (old.count origins)
    (old.count origins) 0

end OldRow

/-- Logical lines: the ones a hard break ended and the one still open. -/
structure Document where
  closed : List (List Piece) := []
  line : List Piece := []

namespace Document

def hardBreak (d : Document) : Document := { closed := d.closed ++ [d.line] }

def append (d : Document) (more : List Piece) : Document := { d with line := d.line ++ more }

def addRow (d : Document) (more : List Piece) (linebreak : Bool) : Document :=
  if linebreak then (d.append more).hardBreak else d.append more

/-- The lines that are laid out: blank ones at the end are not. -/
def lines (d : Document) : List (List Piece) := (d.closed ++ [d.line]).rdropWhile isEmpty

end Document

def lineRows (columns : Nat) (line : List Piece) : List (List Piece) :=
  (Fill.ofList Piece.cells columns line).rows

def Document.rows (columns : Nat) (d : Document) : List (List Piece) :=
  d.closed.flatMap (lineRows columns) ++ lineRows columns d.line

def document (composedWidth : Nat → Nat) (columns : Nat) (origins : Origins) (old : List OldRow) : Document :=
  old.foldl (fun d row => d.addRow (row.pieces composedWidth columns origins) row.row.linebreak) {}

/-- Every row of the result, before the oldest ones are dropped. A grid without rows gets a
blank one. -/
def layout (composedWidth : Nat → Nat) (columns : Nat) (origins : Origins) (old : List OldRow) : List (List Piece) :=
  if old.isEmpty then [[]]
  else (document composedWidth columns origins old).lines.flatMap (lineRows columns)

/-! ## Pieces of a row -/

theorem length_fitted_pos (columns : Nat) (output : List Cell) : 0 < (fitted columns output).length := by
  rw [fitted]
  split
  · exact one_pos
  · rename_i h
    exact length_pos_iff.mpr fun hnil => h (.inr hnil)

theorem length_fitted_le {columns : Nat} (hpos : 0 < columns) (output : List Cell) :
    (fitted columns output).length ≤ columns := by
  rw [fitted]
  split
  · exact hpos
  · rename_i h
    exact Nat.le_of_not_lt fun hlt => h (.inl hlt)

theorem reflowUnit_width_pos (composedWidth : Nat → Nat) (cells : List Cell) {column count : Nat}
    (h : column < count) (maximumWidth : Nat) : 0 < (reflowUnit composedWidth cells column count maximumWidth).1 := by
  rw [reflowUnit]
  dsimp only
  split
  · exact one_pos
  · split
    · omega
    · split
      · omega
      · exact one_pos
  · split
    · split <;> exact succ_pos _
    · exact one_pos

section Row

variable {composedWidth : Nat → Nat} {columns physicalRow count : Nat} {cells : List Cell} {fuel column : Nat}

/-- A row gives no piece exactly when none of its cells takes part. -/
theorem pieces_eq_nil_iff (h : count ≤ column + fuel) :
    pieces composedWidth columns physicalRow cells count fuel column = [] ↔ count ≤ column := by
  fun_cases pieces with
  | case1 => simpa using h
  | case2 _ _ h | case3 _ _ h => simpa using h

theorem mem_pieces {p : Piece} (h : p ∈ pieces composedWidth columns physicalRow cells count fuel column) :
    p.physicalRow = physicalRow ∧ column ≤ p.column ∧
      p.width = (reflowUnit composedWidth cells p.column count columns).1 ∧
      p.cells = fitted columns (reflowUnit composedWidth cells p.column count columns).2 := by
  fun_induction pieces with
  | case1 | case3 => exact absurd h not_mem_nil
  | case2 _ _ _ _ ih =>
    rcases mem_cons.mp h with rfl | h
    · exact ⟨rfl, le_refl _, rfl, rfl⟩
    · obtain ⟨hrow, hcolumn, hunit⟩ := ih h
      exact ⟨hrow, (le_add_right _ _).trans hcolumn, hunit⟩

theorem target_lt_of_mem_pieces {p : Piece}
    (h : p ∈ pieces composedWidth columns physicalRow cells count fuel column) (source : Nat) :
    p.target source < p.cells.length := by
  rw [Piece.target, (mem_pieces h).2.2.2]
  have := length_fitted_pos columns (reflowUnit composedWidth cells p.column count columns).2
  omega

theorem pairwise_pieces (fuel column : Nat) :
    (pieces composedWidth columns physicalRow cells count fuel column).Pairwise fun p q =>
      p.column + p.width ≤ q.column := by
  fun_induction pieces with
  | case1 | case3 => exact .nil
  | case2 _ _ _ _ ih => exact .cons (fun q hq => (mem_pieces hq).2.1) ih

theorem exists_piece {fuel column source : Nat} (hfuel : count ≤ column + fuel)
    (hlow : column ≤ source) (hhigh : source < count) :
    ∃ p ∈ pieces composedWidth columns physicalRow cells count fuel column, p.Covers (physicalRow, source) := by
  fun_induction pieces with
  | case1 | case3 => omega
  | case2 fuel column hlt unit ih =>
    have hpos : 0 < unit.1 := reflowUnit_width_pos composedWidth cells hlt columns
    by_cases hsource : source < column + unit.1
    · exact ⟨_, mem_cons_self, rfl, hlow, hsource⟩
    · obtain ⟨p, hp, hcovers⟩ := ih (by omega) (Nat.le_of_not_lt hsource)
      exact ⟨p, mem_cons_of_mem _ hp, hcovers⟩

end Row

/-! ## Where an old cell goes -/

/-- The old cell is part of a piece of row `r`, and the cell of the piece that stands for it
is the one at column `c`. -/
def StandsAt (rows : List (List Piece)) (source : Nat × Nat) (r c : Nat) : Prop :=
  ∃ before p after, rows[r]? = some (before ++ p :: after) ∧ p.Covers source ∧
    c = (before.flatMap Piece.cells).length + p.target source.2

/-- The mapping says where the old cell stands in the rows, or that it is in none. -/
def Tracks (rows : List (List Piece)) (source : Nat × Nat) : Option (Nat × Nat) → Prop
  | none => ∀ p ∈ rows.flatten, ¬ p.Covers source
  | some (r, c) => StandsAt rows source r c

namespace Tracks

variable {rows rows' : List (List Piece)} {source : Nat × Nat} {mapping : Option (Nat × Nat)}

/-- Pieces that are not about the cell change nothing. -/
theorem grow (h : Tracks rows source mapping) (hgrows : Grows rows rows') {added : List Piece}
    (hflatten : rows'.flatten = rows.flatten ++ added) (hadded : ∀ p ∈ added, ¬ p.Covers source) :
    Tracks rows' source mapping := by
  cases mapping with
  | none =>
    unfold Tracks
    rw [hflatten]
    exact forall_mem_append.mpr ⟨h, hadded⟩
  | some position =>
    obtain ⟨before, p, after, hrow, hcovers, hcolumn⟩ := h
    obtain ⟨more, hmore⟩ := hgrows _ _ hrow
    exact ⟨before, p, after ++ more, by rw [hmore, append_assoc, cons_append], hcovers, hcolumn⟩

theorem dropBlank (h : Tracks (rows ++ [[]]) source mapping) : Tracks rows source mapping := by
  cases mapping with
  | none => simpa [Tracks] using h
  | some position =>
    obtain ⟨before, p, after, hrow, hcovers, hcolumn⟩ := h
    refine ⟨before, p, after, ?_, hcovers, hcolumn⟩
    rcases lt_or_ge position.1 rows.length with hlt | hge
    · rwa [getElem?_append_left hlt] at hrow
    · rw [getElem?_append_right hge] at hrow
      obtain ⟨hlt, heq⟩ := List.getElem?_eq_some_iff.mp hrow
      have hzero : position.1 - rows.length = 0 := by simpa using hlt
      simp [hzero] at heq

end Tracks

/-! ## Growing documents -/

theorem lineRows_nil (columns : Nat) : lineRows columns [] = [[]] := rfl

theorem flatten_lineRows (columns : Nat) (line : List Piece) :
    (lineRows columns line).flatten = line := Fill.flatten_rows_ofList line

namespace Document

variable {columns : Nat} {d : Document}

theorem rows_hardBreak : d.hardBreak.rows columns = d.rows columns ++ [[]] := by
  simp [rows, hardBreak, lineRows_nil]

theorem rows_append_singleton (p : Piece) : (d.append [p]).rows columns = d.closed.flatMap (lineRows columns) ++
      ((Fill.ofList Piece.cells columns d.line).push Piece.cells columns p).rows := by
  rw [rows, append, lineRows, Fill.ofList_concat]

theorem grows_append_singleton (p : Piece) : Grows (d.rows columns) ((d.append [p]).rows columns) := by
  rw [rows_append_singleton]
  exact Grows.append_left _ (Grows.push _ _ _ _)

theorem flatten_append_singleton (p : Piece) :
    ((d.append [p]).rows columns).flatten = (d.rows columns).flatten ++ [p] := by
  rw [rows_append_singleton, rows, flatten_append, flatten_append, Fill.flatten_rows_push, append_assoc]
  rfl

theorem append_append (more more' : List Piece) : (d.append more).append more' = d.append (more ++ more') := by
  simp [append]

@[simp] theorem append_nil : d.append [] = d := by simp [append]

theorem hardBreak_iterate_succ (n : Nat) (d : Document) :
    Document.hardBreak^[n + 1] d = (Document.hardBreak^[n] d).hardBreak :=
  Function.iterate_succ_apply' ..

end Document

theorem OldRow.pieces_eq_nil_iff {composedWidth : Nat → Nat} {columns : Nat} {origins : Origins}
    {old : OldRow} : old.pieces composedWidth columns origins = [] ↔ old.count origins = 0 := by
  rw [OldRow.pieces, Reflow.pieces_eq_nil_iff (le_add_left _ _), le_zero]

/-! ## Every piece once -/

variable {composedWidth : Nat → Nat} {columns : Nat} {origins : Origins}

theorem Document.lines_hardBreak (d : Document) : d.hardBreak.lines = d.lines := by
  rw [lines, hardBreak, lines, rdropWhile_concat_pos _ _ _ rfl]

theorem Document.lines_hardBreak_iterate (n : Nat) (d : Document) : (Document.hardBreak^[n] d).lines = d.lines := by
  induction n with
  | zero => rfl
  | succ n ih => rw [hardBreak_iterate_succ, lines_hardBreak, ih]

/-- A document whose last break ended a line with text keeps all its lines. -/
theorem Document.lines_of_solid {d : Document} (h : d.line = [] → d.closed.getLast? ≠ some []) :
    d.lines = if d.line = [] then d.closed else d.closed ++ [d.line] := by
  rw [lines]
  split
  · rename_i hnil
    rw [hnil, rdropWhile_concat_pos _ _ _ rfl, rdropWhile_eq_self_iff]
    intro hne hempty
    apply h hnil
    rw [getLast?_eq_getLast_of_ne_nil hne, isEmpty_iff.mp hempty]
  · rename_i hne
    exact rdropWhile_concat_neg _ _ _ (by simpa using hne)

theorem flatten_flatMap_lineRows (columns : Nat) (lines : List (List Piece)) :
    (lines.flatMap (lineRows columns)).flatten = lines.flatten := by
  induction lines with
  | nil => rfl
  | cons line lines ih => rw [flatMap_cons, flatten_append, flatten_lineRows, ih, flatten_cons]

theorem Document.flatten_lines (d : Document) : d.lines.flatten = d.closed.flatten ++ d.line := by
  have hdropped : ∀ lines : List (List Piece), (lines.rdropWhile isEmpty).flatten = lines.flatten := by
    intro lines
    induction lines using reverseRecOn with
    | nil => rfl
    | append_singleton lines line ih =>
      cases line with
      | nil => rw [rdropWhile_concat_pos _ _ _ rfl, ih]; simp
      | cons p line => rw [rdropWhile_concat_neg _ _ _ (by simp)]
  rw [lines, hdropped]
  simp

theorem flatten_document (old : List OldRow) : (document composedWidth columns origins old).closed.flatten ++
        (document composedWidth columns origins old).line =
      old.flatMap (OldRow.pieces composedWidth columns origins) := by
  induction old using reverseRecOn with
  | nil => rfl
  | append_singleton old row ih =>
    rw [flatMap_append, ← ih]
    simp only [document, foldl_append, foldl_cons, foldl_nil]
    rw [Document.addRow]
    split
    · simp [Document.hardBreak, Document.append]
    · simp [Document.append]

theorem flatten_layout (old : List OldRow) : (layout composedWidth columns origins old).flatten =
      old.flatMap (OldRow.pieces composedWidth columns origins) := by
  rw [layout]
  split
  · rename_i hempty
    rw [isEmpty_iff.mp hempty]
    rfl
  · rw [flatten_flatMap_lineRows, Document.flatten_lines, flatten_document]

theorem width_layout (hpos : 0 < columns) {old : List OldRow} {row : List Piece}
    (hrow : row ∈ layout composedWidth columns origins old) : (row.flatMap Piece.cells).length ≤ columns := by
  have hpieces : ∀ line ∈ (document composedWidth columns origins old).lines, ∀ p ∈ line, p.cells.length ≤ columns := by
    intro line hline p hp
    have hmem := mem_flatten.mpr ⟨line, hline, hp⟩
    rw [Document.flatten_lines, flatten_document] at hmem
    obtain ⟨row, -, hp⟩ := mem_flatMap.mp hmem
    rw [(mem_pieces hp).2.2.2]
    exact length_fitted_le hpos _
  rw [layout] at hrow
  split at hrow
  · rw [mem_singleton.mp hrow]
    exact zero_le _
  · obtain ⟨line, hline, hrow⟩ := mem_flatMap.mp hrow
    exact Fill.width_ofList (hpieces line hline) row hrow

end Reflow

namespace Grid

open Reflow

/-- The retained rows, oldest first. -/
def oldRows (g : Grid) : List OldRow :=
  (range g.rowCapacity).filterMap fun distance : Nat =>
    (g.slot (g.screenRows + distance : Nat)).row.map fun row =>
      { physicalRow := g.absoluteIndex (g.screenRows + distance : Nat)
        id := (g.slot (g.screenRows + distance : Nat)).id
        row }

end Grid

end Splinterm.Terminal
