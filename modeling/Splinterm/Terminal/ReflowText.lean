import Splinterm.Terminal.ReflowShape

/-!
# Reflow conserves text

The text of a grid is the sequence of its characters, each with its width, and of the hard
breaks between them. A reflow keeps that sequence up to the characters that are too wide for
the new rows and the breaks after the last character; what does not fit the ring is lost from
its old end by whole rows.

There is one exception. A composed character that is too wide takes as many cells out of the old
row as it is wide, whatever they hold, and a character among them that would fit is lost.
-/

namespace Splinterm.Terminal

open Lib Hoare List Nat Row

namespace Reflow

/-! ## Text -/

/-- A character. -/
def isText : CellContent → Bool
  | .scalar _ => true
  | .composed _ => true
  | _ => false

/-- A character with its rendition and width, or the end of a line. -/
inductive Token where
  | unit (leader : Cell) (width : Nat)
  | hardBreak
deriving DecidableEq

def Token.isBreak : Token → Bool
  | .hardBreak => true
  | .unit _ _ => false

/-- The text of one character. -/
def unitText (leader : Cell) (width : Nat) : List Token :=
  if isText leader.content then [.unit leader width] else []

/-- The width a row gives a character: the first continuation cell tells it. -/
def storedWidth (_ : Cell) (rest : List Cell) : Nat := firstPayload rest + 1

/-- The width a reflow gives a character: a composed one has its own. -/
def reflowWidth (composedWidth : Nat → Nat) (leader : Cell) (rest : List Cell) : Nat :=
  match leader.content with
  | .composed key => max (composedWidth key) 1
  | _ => storedWidth leader rest

def textOf (width : Cell → List Cell → Nat) : List Cell → List Token
  | [] => []
  | cell :: rest => unitText cell (width cell rest) ++ textOf width rest

def breakOf (linebreak : Bool) : List Token := if linebreak then [.hardBreak] else []

def tokens (width : Cell → List Cell → Nat) (rows : List Row) : List Token :=
  rows.flatMap fun row => textOf width row.cells ++ breakOf row.linebreak

/-- What fits rows of the given width. -/
def fit (columns : Nat) (text : List Token) : List Token :=
  text.filter fun
    | .unit _ width => decide (width ≤ columns)
    | .hardBreak => true

/-- The cells behind a composed character that is too wide, which a reflow takes with it. -/
def taken (composedWidth : Nat → Nat) (columns : Nat) (leader : Cell) : Nat :=
  match leader.content with
  | .composed key => if columns < max (composedWidth key) 1 then max (composedWidth key) 1 - 1 else 0
  | _ => 0

/-- No character that fits is among the cells taken, the first `covered` ones included. -/
def spares (composedWidth : Nat → Nat) (columns : Nat) : Nat → List Cell → Bool
  | _, [] => true
  | covered + 1, cell :: rest => (fit columns (unitText cell (reflowWidth composedWidth cell rest))).isEmpty &&
      spares composedWidth columns covered rest
  | 0, cell :: rest => spares composedWidth columns (taken composedWidth columns cell) rest

/-- The text that a reflow keeps of cells the first `covered` of which are taken. -/
def kept (composedWidth : Nat → Nat) (columns : Nat) : Nat → List Cell → List Token
  | _, [] => []
  | covered + 1, _ :: rest => kept composedWidth columns covered rest
  | 0, cell :: rest => fit columns (unitText cell (reflowWidth composedWidth cell rest)) ++
      kept composedWidth columns (taken composedWidth columns cell) rest

section

variable {composedWidth : Nat → Nat} {columns physicalRow count column n : Nat} {cells rest : List Cell}
  {leader : Cell}

theorem fit_append (columns : Nat) (text more : List Token) :
    fit columns (text ++ more) = fit columns text ++ fit columns more := filter_append ..

theorem fit_unitText (columns : Nat) (leader : Cell) (width : Nat) :
    fit columns (unitText leader width) = if width ≤ columns then unitText leader width else [] := by
  rw [unitText]
  split
  · by_cases h : width ≤ columns <;> simp [fit, h]
  · simp [fit]

/-! ## What is kept -/

theorem kept_sublist (composedWidth : Nat → Nat) (columns covered : Nat) (cells : List Cell) :
    kept composedWidth columns covered cells <+ fit columns (textOf (reflowWidth composedWidth) cells) := by
  fun_induction kept with
  | case1 => exact nil_sublist _
  | case2 covered cell rest ih =>
    rw [textOf, fit_append]
    exact ih.trans (sublist_append_right ..)
  | case3 cell rest ih =>
    rw [textOf, fit_append]
    exact ih.append_left _

/-- All that fits is kept exactly if no character that fits is taken. -/
theorem kept_eq_iff (covered : Nat) (cells : List Cell) :
    kept composedWidth columns covered cells = fit columns (textOf (reflowWidth composedWidth) cells) ↔
      spares composedWidth columns covered cells = true := by
  fun_induction kept with
  | case1 => exact ⟨fun _ => rfl, fun _ => rfl⟩
  | case2 covered cell rest ih =>
    rw [textOf, fit_append, spares, Bool.and_eq_true, ← ih, List.isEmpty_iff]
    refine ⟨fun heq => ?_, fun h => by rw [h.1, h.2, nil_append]⟩
    have hlength := congrArg length heq
    have hle := (kept_sublist composedWidth columns covered rest).length_le
    rw [length_append] at hlength
    have hnone := length_eq_zero_iff.mp (show (fit columns (unitText cell (reflowWidth composedWidth cell rest))).length = 0 by omega)
    exact ⟨hnone, by rw [heq, hnone, nil_append]⟩
  | case3 cell rest ih => rw [textOf, fit_append, append_cancel_left_eq, ih, spares]

theorem kept_drop (covered : Nat) (cells : List Cell) :
    kept composedWidth columns covered cells = kept composedWidth columns 0 (cells.drop covered) := by
  fun_induction kept with
  | case1 => rw [drop_nil, kept]
  | case2 _ _ _ ih => exact ih
  | case3 => rfl

theorem kept_cons_of_not_text (h : isText leader.content = false) :
    kept composedWidth columns 0 (leader :: rest) = kept composedWidth columns 0 rest := by
  have htaken : taken composedWidth columns leader = 0 := by
    rw [taken]
    split
    next hcontent => simp [hcontent, isText] at h
    · rfl
  rw [kept, htaken, unitText, if_neg (by simp [h])]
  rfl

theorem kept_of_countsDown (h : countsDown n cells = true) :
    kept composedWidth columns 0 cells = kept composedWidth columns 0 (cells.drop n) := by
  fun_induction countsDown with
  | case1 => rfl
  | case2 => cases h
  | case3 n cell rest ih =>
    rw [Bool.and_eq_true, decide_eq_true_eq] at h
    rw [kept_cons_of_not_text (by simp [h.1, isText]), ih h.2, drop_succ_cons]

/-! ## Text of rows of whole characters -/

theorem textOf_append (cells : List Cell) {more : List Cell} (h : firstPayload more = 0) :
    textOf storedWidth (cells ++ more) = textOf storedWidth cells ++ textOf storedWidth more := by
  induction cells with
  | nil => rfl
  | cons cell rest ih => rw [cons_append, textOf, textOf, storedWidth, storedWidth, firstPayload_append_of_edge h, ih,
      append_assoc]

theorem textOf_of_not_text {width : Cell → List Cell → Nat} (h : ∀ cell ∈ cells, isText cell.content = false) :
    textOf width cells = [] := by
  induction cells with
  | nil => rfl
  | cons cell rest ih =>
    rw [textOf, ih fun c hc => h c (mem_cons_of_mem _ hc), unitText, if_neg (by simp [h cell mem_cons_self]), append_nil]

theorem textOf_unit (hcount : countsDown n rest = true) (hlength : rest.length = n) :
    textOf storedWidth (leader :: rest) = unitText leader (n + 1) := by
  have hspacers : ∀ {n : Nat} {run : List Cell}, countsDown n run = true → run.length = n →
      ∀ cell ∈ run, isText cell.content = false := by
    intro n run hcount hlength
    fun_induction countsDown n run with
    | case1 => simp [length_eq_zero_iff.mp hlength]
    | case2 => cases hcount
    | case3 n cell rest ih =>
      rw [Bool.and_eq_true, decide_eq_true_eq] at hcount
      exact forall_mem_cons.mpr ⟨by simp [hcount.1, isText], ih hcount.2 (succ.inj hlength)⟩
  have hpayload : firstPayload rest = n := by
    cases n with
    | zero => rw [length_eq_zero_iff.mp hlength, firstPayload]
    | succ n => exact firstPayload_of_countsDown hcount
  rw [textOf, storedWidth, hpayload, textOf_of_not_text (hspacers hcount hlength), append_nil]

/-- Neither a character nor part of one. -/
def Blank (cell : Cell) : Prop := cell.content = .empty ∨ cell.content = .spacer 0

theorem Blank.not_text {cell : Cell} (h : Blank cell) : isText cell.content = false := by
  rcases h with h | h <;> simp [h, isText]

theorem tiled_of_blank (h : ∀ cell ∈ cells, Blank cell) : Tiled cells :=
  .of_forall fun cell hcell => by rcases h cell hcell with h | h <;> simp [Cell.Continues, h]

/-! ## Pieces -/

/-- The cells past `count` hold nothing. -/
def BlankFrom (count : Nat) (cells : List Cell) : Prop := ∀ cell ∈ cells.drop count, Blank cell

theorem BlankFrom.mono {count' : Nat} (h : BlankFrom count cells) (hle : count ≤ count') : BlankFrom count' cells :=
  fun cell hcell => h cell (drop_subset_drop_left cells hle hcell)

theorem BlankFrom.kept (h : BlankFrom count cells) (hle : count ≤ column) :
    kept composedWidth columns 0 (cells.drop column) = [] := by
  have hnone := h.mono hle
  rw [BlankFrom] at hnone
  generalize cells.drop column = rest at hnone
  induction rest with
  | nil => rw [Reflow.kept]
  | cons cell rest ih =>
    rw [kept_cons_of_not_text (hnone cell mem_cons_self).not_text, ih fun c hc => hnone c (mem_cons_of_mem _ hc)]

/-- A run of continuation cells ends before the blank cells do. -/
theorem BlankFrom.run_le (h : BlankFrom count cells) (hcolumn : column ≤ count)
    (hcount : countsDown n (cells.drop column) = true) : column + n ≤ count := by
  rw [← take_append_drop (count - column) (cells.drop column), drop_drop, Nat.add_sub_cancel' hcolumn] at hcount
  have hle := le_length_of_countsDown_append (tiled_of_blank h).firstPayload hcount
  rw [length_take] at hle
  omega

/-- A unit becomes what is kept of the cells it takes. -/
theorem textOf_reflowUnit (hpos : 0 < columns) (hlength : count ≤ cells.length) (htiled : Tiled cells)
    (hblank : BlankFrom count cells) (hcolumn : column < count) :
    textOf storedWidth (fitted columns (reflowUnit composedWidth cells column count columns).2) ++
      kept composedWidth columns 0
        (cells.drop (column + (reflowUnit composedWidth cells column count columns).1)) =
      kept composedWidth columns 0 (cells.drop column) := by
  have hdrop : cells.drop column = cells.getD column default :: cells.drop (column + 1) := by
    rw [drop_eq_getElem_cons (by omega), getD_eq_getElem _ _ (by omega)]
  have hskip (n : Nat) : cells.drop (column + (n + 1)) = (cells.drop (column + 1)).drop n := by
    rw [drop_drop, add_assoc, add_comm 1]
  have hrun {n : Nat} : countsDown n (cells.drop (column + 1)) = true → column + 1 + n ≤ count := hblank.run_le hcolumn
  have hnone : textOf storedWidth (fitted columns []) = [] := by rw [fitted, if_pos (.inr rfl)]; rfl
  have hunit {leader : Cell} {run : List Cell} {n : Nat} (hfits : n + 1 ≤ columns) (hcount : countsDown n run = true)
      (hlength : run.length = n) :
      textOf storedWidth (fitted columns (leader :: run)) = fit columns (unitText leader (n + 1)) := by
    rw [fitted, if_neg (by simp [hlength]; omega), textOf_unit hcount hlength, fit_unitText, if_pos hfits]
  rw [reflowUnit]
  rw [hdrop]
  generalize hleader : cells.getD column default = leader
  rw [hleader] at hdrop
  set rest := cells.drop (column + 1) with hrest
  have htake {n : Nat} (hcount : countsDown n rest = true) : countsDown n (rest.take n) = true ∧ (rest.take n).length = n :=
    ⟨countsDown_take hcount, length_take_of_le (length_le_of_countsDown hcount)⟩
  split
  next remaining hcontent =>
    have hempty : textOf storedWidth (fitted columns [default]) = [] := by
      rw [fitted]
      split <;> rfl
    rw [kept_cons_of_not_text (by simp [hcontent, isText]), hempty]
    rfl
  next key hcontent =>
    obtain ⟨n, hn⟩ : ∃ n, max (composedWidth key) 1 = n + 1 := ⟨max (composedWidth key) 1 - 1, by omega⟩
    rw [kept, reflowWidth, taken, hcontent]
    dsimp only
    rw [hn, Nat.add_sub_cancel]
    by_cases hwide : columns < n + 1
    · -- what the character takes may reach past the cells that hold something
      rw [if_pos hwide, if_pos hwide, hnone, fit_unitText, if_neg (by omega), kept_drop n, ← hskip]
      by_cases hfar : n + 1 ≤ count - column
      · rw [min_eq_left hfar]
      · rw [hblank.kept (by omega), hblank.kept (by omega)]
    · rw [if_neg hwide, if_neg hwide]
      split
      next hstored =>
        rw [take_succ_cons, hunit (by omega) (htake hstored.2).1 (htake hstored.2).2, hskip, ← kept_of_countsDown hstored.2]
      · exact congrArg (· ++ _) (hunit (by omega) (countsDown_cellsForComposedWidth n) (by simp))
  next hcontinues hcomposed =>
    have hleads : ¬ leader.Continues := Cell.not_continues_of hcontinues
    have hcount : countsDown (firstPayload rest) rest = true := by
      have hfrom : Tiled (leader :: rest) := by
        rw [← hdrop]
        exact (htiled.split (firstPayload_drop_eq_zero_iff.mpr (hleader.symm ▸ hleads))).2
      exact hfrom.first_run.1
    have hle := hrun hcount
    have htaken : taken composedWidth columns leader = 0 := by
      rw [taken]
      split
      next hcontent => exact absurd hcontent (hcomposed _)
      · rfl
    have hwidth : reflowWidth composedWidth leader rest = firstPayload rest + 1 := by
      rw [reflowWidth]
      split
      next hcontent => exact absurd hcontent (hcomposed _)
      · rfl
    rw [kept, htaken, hwidth]
    by_cases hzero : firstPayload rest = 0
    · rw [hzero, if_neg (by omega), ← hrest]
      exact congrArg (· ++ _) (hunit hpos rfl rfl)
    · rw [if_pos ⟨by omega, by omega, by omega, hcount⟩, kept_of_countsDown hcount, ← hskip]
      by_cases hwide : columns < firstPayload rest + 1
      · rw [if_pos hwide, hnone, fit_unitText, if_neg (by omega)]
      · rw [if_neg hwide, take_succ_cons, hunit (by omega) (htake hcount).1 (htake hcount).2]

/-- The pieces of a row hold what is kept of it. -/
theorem textOf_pieces (hpos : 0 < columns) (hlength : count ≤ cells.length) (htiled : Tiled cells)
    (hblank : BlankFrom count cells) {fuel : Nat} (hfuel : count ≤ column + fuel) :
    (pieces composedWidth columns physicalRow cells count fuel column).flatMap (fun p => textOf storedWidth p.cells) =
      kept composedWidth columns 0 (cells.drop column) := by
  fun_induction pieces with
  | case1 column => exact (hblank.kept hfuel).symm
  | case2 fuel column hcolumn unit ih =>
    have hmoves : 0 < unit.1 := reflowUnit_width_pos composedWidth cells hcolumn columns
    rw [flatMap_cons, ih (by omega)]
    exact textOf_reflowUnit hpos hlength htiled hblank hcolumn
  | case3 _ column hcolumn => exact (hblank.kept (Nat.le_of_not_lt hcolumn)).symm

theorem tiled_of_mem_pieces {p : Piece} {fuel : Nat} (htiled : Tiled cells)
    (hp : p ∈ pieces composedWidth columns physicalRow cells count fuel column) : Tiled p.cells := by
  rw [(mem_pieces hp).2.2.2, fitted]
  split
  · exact .single Cell.not_continues_default .nil
  · exact tiled_reflowUnit htiled ..

end

/-! ## Rows and lines -/

theorem blankFrom_meaningful (cells : List Cell) : BlankFrom (meaningful cells) cells := by
  intro cell hcell
  set blank := fun cell : Cell => cell.content = .empty || cell.content = .spacer 0 with hblank
  have hsplit : (cells.reverse.dropWhile blank).reverse ++ (cells.reverse.takeWhile blank).reverse = cells := by
    rw [← reverse_append, takeWhile_append_dropWhile, reverse_reverse]
  have htail : ((cells.reverse.dropWhile blank).reverse ++
      (cells.reverse.takeWhile blank).reverse).drop (meaningful cells) = (cells.reverse.takeWhile blank).reverse :=
    drop_left' (by rw [length_reverse, meaningful])
  rw [hsplit] at htail
  rw [htail, mem_reverse] at hcell
  simpa [blank, Blank] using mem_takeWhile_imp hcell

theorem contentCount_spec (row : Row) (trackerColumn : Nat) : contentCount row trackerColumn ≤ row.cells.length ∧
      BlankFrom (contentCount row trackerColumn) row.cells := by
  have hle : meaningful row.cells ≤ row.cells.length := by
    have hreverse : row.cells.reverse.length = row.cells.length := length_reverse
    rw [← hreverse]
    exact (dropWhile_suffix _).length_le
  refine ⟨min_le_right _ _, (blankFrom_meaningful row.cells).mono ?_⟩
  rw [contentCount]
  split <;> omega

variable {composedWidth : Nat → Nat} {columns : Nat} {origins : Origins}

def lineText (line : List Piece) : List Token := line.flatMap fun p => textOf storedWidth p.cells

theorem lineText_oldRow (origins : Origins) (hpos : 0 < columns) {old : OldRow} (h : Tiled old.row.cells) :
    lineText (old.pieces composedWidth columns origins) = kept composedWidth columns 0 old.row.cells := by
  obtain ⟨hlength, hblank⟩ := contentCount_spec old.row (trackerColumn origins old.physicalRow)
  exact textOf_pieces hpos hlength h hblank (le_add_left _ _)

theorem tiled_flatMap {row : List Piece} (h : ∀ p ∈ row, Tiled p.cells) : Tiled (row.flatMap Piece.cells) := by
  induction row with
  | nil => exact .nil
  | cons p row ih => exact (h p mem_cons_self).append (ih fun q hq => h q (mem_cons_of_mem _ hq))

theorem textOf_flatMap {row : List Piece} (h : ∀ p ∈ row, Tiled p.cells) :
    textOf storedWidth (row.flatMap Piece.cells) = lineText row := by
  induction row with
  | nil => rfl
  | cons p row ih =>
    have hrow : ∀ q ∈ row, Tiled q.cells := fun q hq => h q (mem_cons_of_mem _ hq)
    rw [flatMap_cons, textOf_append _ (tiled_flatMap hrow).firstPayload, ih hrow, lineText, lineText, flatMap_cons]

theorem lineText_append (line more : List Piece) :
    lineText (line ++ more) = lineText line ++ lineText more := flatMap_append ..

/-- Rows of whole characters that hold the text. -/
structure Reads (rows : List Row) (text : List Token) : Prop where
  whole : ∀ row ∈ rows, Tiled row.cells
  text : tokens storedWidth rows = text

theorem Reads.nil : Reads [] [] := ⟨fun _ hrow => absurd hrow not_mem_nil, rfl⟩

theorem Reads.append {rows more : List Row} {text text' : List Token} (h : Reads rows text)
    (h' : Reads more text') : Reads (rows ++ more) (text ++ text') :=
  ⟨fun row hrow => (mem_append.mp hrow).elim (h.whole row) (h'.whole row),
    by rw [tokens, flatMap_append, ← h.text, ← h'.text]; rfl⟩

theorem Reads.flatMap {α : Type} {f : α → List Row} {text : α → List Token} {l : List α}
    (h : ∀ a ∈ l, Reads (f a) (text a)) : Reads (l.flatMap f) (l.flatMap text) := by
  induction l with
  | nil => exact .nil
  | cons a l ih =>
    exact (h a mem_cons_self).append (ih fun b hb => h b (mem_cons_of_mem _ hb))

theorem reads_renderRow (columns : Nat) {row : List Piece} (h : ∀ p ∈ row, Tiled p.cells)
    (padding : Cell) (hpadding : Blank padding) (linebreak : Bool) :
    Reads [renderRow columns padding linebreak row] (lineText row ++ breakOf linebreak) := by
  have hblank : ∀ cell ∈ replicate (columns - (row.flatMap Piece.cells).length) padding, Blank cell :=
    fun cell hcell => (eq_of_mem_replicate hcell).symm ▸ hpadding
  have hpad := tiled_of_blank hblank
  refine ⟨fun _ hmem => mem_singleton.mp hmem ▸ (tiled_flatMap h).append hpad, ?_⟩
  rw [tokens, flatMap_singleton, renderRow, textOf_append _ hpad.firstPayload,
    textOf_of_not_text fun cell hcell => (hblank cell hcell).not_text, textOf_flatMap h, append_nil]

/-- Rows that wrap into the next add no break. -/
theorem reads_renderLine (columns : Nat) {line : List Piece} (h : ∀ p ∈ line, Tiled p.cells)
    (linebreak : Bool) : Reads (renderLine columns linebreak line) (lineText line ++ breakOf linebreak) := by
  have hmem : ∀ row ∈ lineRows columns line, ∀ p ∈ row, Tiled p.cells := by
    intro row hrow p hp
    apply h
    rw [← flatten_lineRows columns line]
    exact mem_flatten.mpr ⟨row, hrow, hp⟩
  have hsoft := Reads.flatMap fun row hrow => reads_renderRow columns
    (hmem row (mem_append_left _ hrow)) { content := .spacer 0 } (.inr rfl) false
  have hlast := reads_renderRow columns (hmem _ (mem_append_right _ (mem_singleton_self _)))
    default (.inl rfl) linebreak
  have hall := hsoft.append hlast
  have hline : lineText line = (Fill.ofList Piece.cells columns line).full.flatMap
      (fun row => lineText row ++ breakOf false) ++ lineText (Fill.ofList Piece.cells columns line).current := by
    rw [← congrArg lineText (flatten_lineRows columns line), lineRows, Fill.rows, flatten_append,
      lineText_append, lineText, flatten_eq_flatMap, flatMap_assoc]
    simp [breakOf, lineText]
  rw [hline, renderLine, map_eq_flatMap, append_assoc]
  exact hall

/-! ## Documents -/

def Document.tokens (d : Document) : List Token :=
  d.closed.flatMap (fun line => lineText line ++ [.hardBreak]) ++ lineText d.line

theorem Document.tokens_hardBreak (d : Document) : d.hardBreak.tokens = d.tokens ++ [.hardBreak] := by
  simp [Document.tokens, hardBreak, lineText]

theorem Document.tokens_hardBreak_iterate (n : Nat) (d : Document) :
    (Document.hardBreak^[n] d).tokens = d.tokens ++ replicate n .hardBreak := by
  induction n with
  | zero => exact (List.append_nil _).symm
  | succ n ih => rw [hardBreak_iterate_succ, tokens_hardBreak, ih, append_assoc, ← replicate_succ']

theorem Document.tokens_addRow (d : Document) (more : List Piece) (linebreak : Bool) :
    (d.addRow more linebreak).tokens = d.tokens ++ (lineText more ++ breakOf linebreak) := by
  have happend : (d.append more).tokens = d.tokens ++ lineText more := by
    simp [Document.tokens, append, lineText_append]
  cases linebreak with
  | true => rw [addRow, if_pos rfl, tokens_hardBreak, happend, append_assoc]; rfl
  | false => rw [addRow, if_neg Bool.false_ne_true, happend, breakOf]; simp

/-- The text that a reflow keeps of rows. -/
def survivors (composedWidth : Nat → Nat) (columns : Nat) (rows : List Row) : List Token :=
  rows.flatMap fun row => kept composedWidth columns 0 row.cells ++ breakOf row.linebreak

theorem tokens_document (origins : Origins) (hpos : 0 < columns) {old : List OldRow}
    (h : ∀ row ∈ old, Tiled row.row.cells) :
    (document composedWidth columns origins old).tokens = survivors composedWidth columns (old.map OldRow.row) := by
  induction old using reverseRecOn with
  | nil => rfl
  | append_singleton old row ih =>
    rw [document, foldl_append]
    show (Document.addRow (document composedWidth columns origins old) _ _).tokens = _
    rw [Document.tokens_addRow, ih fun r hr => h r (mem_append_left _ hr),
      lineText_oldRow origins hpos (h row (by simp)), map_append, survivors, survivors, flatMap_append]
    simp

theorem Document.hardBreak_iterate_flatten (n : Nat) (d : Document) :
    (Document.hardBreak^[n] d).closed.flatten ++ (Document.hardBreak^[n] d).line = d.closed.flatten ++ d.line := by
  induction n with
  | zero => rfl
  | succ n ih =>
    rw [hardBreak_iterate_succ, ← ih]
    simp [hardBreak]

theorem rdropWhile_breaks (text : List Token) {breaks : List Token} (h : ∀ token ∈ breaks, token = .hardBreak) :
    (text ++ breaks).rdropWhile Token.isBreak = text.rdropWhile Token.isBreak := by
  induction breaks using reverseRecOn with
  | nil => rw [append_nil]
  | append_singleton breaks token ih =>
    rw [h token (by simp), ← append_assoc, rdropWhile_concat_pos _ _ _ rfl, ih fun t ht => h t (mem_append_left _ ht)]

/-- The rebuilt rows are whole and hold the text that is kept, up to the breaks at its end. -/
theorem Finished.tokens_rows (hpos : 0 < columns) {old : List OldRow} {b : Builder}
    {written : Document} {linebreak : Bool} (h : Finished composedWidth columns origins old b written linebreak)
    (htiled : ∀ row ∈ old, Tiled row.row.cells) :
    (∀ row ∈ b.rows, Tiled row.cells) ∧ (tokens storedWidth b.rows).rdropWhile Token.isBreak =
      (survivors composedWidth columns (old.map OldRow.row)).rdropWhile Token.isBreak := by
  cases hold : old.isEmpty with
  | true =>
    -- the blank row of a grid without rows
    rw [h.rows, hold, if_pos rfl, isEmpty_iff.mp hold]
    have hnone : ∀ p ∈ ([] : List Piece), Tiled p.cells := fun p hp => absurd hp not_mem_nil
    obtain ⟨hblank, htext⟩ := reads_renderRow columns hnone default (.inl rfl) true
    exact ⟨hblank, by rw [lastRow, htext]; rfl⟩
  | false =>
    obtain ⟨n, hdocument⟩ := h.document
    have hpieces : ∀ p ∈ written.closed.flatten ++ written.line, Tiled p.cells := by
      intro p hp
      rw [← Document.hardBreak_iterate_flatten n, ← hdocument, flatten_document] at hp
      obtain ⟨row, hrow, hp⟩ := mem_flatMap.mp hp
      exact tiled_of_mem_pieces (htiled row hrow) hp
    have hlines : ∀ line ∈ written.closed, ∀ p ∈ line, Tiled p.cells := fun line hline p hp =>
        hpieces p (mem_append_left _ (mem_flatten.mpr ⟨line, hline, hp⟩))
    have hclosed := Reads.flatMap fun line hline => reads_renderLine columns (hlines line hline) true
    have hline := reads_renderLine columns (fun p hp => hpieces p (mem_append_right _ hp)) linebreak
    rw [← tokens_document origins hpos htiled, hdocument, Document.tokens_hardBreak_iterate,
      rdropWhile_breaks _ fun _ => eq_of_mem_replicate, h.rows, hold, if_neg Bool.false_ne_true]
    by_cases hnil : written.line = []
    · obtain ⟨hrows, htext⟩ := hclosed.append .nil
      rw [Document.tokens, hnil]
      exact ⟨hrows, congrArg _ htext⟩
    · obtain ⟨hrows, htext⟩ := hclosed.append hline
      rw [if_neg hnil]
      refine ⟨hrows, ?_⟩
      rw [htext, ← append_assoc, rdropWhile_breaks]
      · rfl
      · intro token htoken
        rw [breakOf] at htoken
        split at htoken
        · exact mem_singleton.mp htoken
        · exact absurd htoken not_mem_nil

/-! ## Lost text -/

def characters (text : List Token) : Nat := text.countP (!·.isBreak)

theorem characters_rdropWhile (text : List Token) : characters (text.rdropWhile Token.isBreak) = characters text := by
  induction text using reverseRecOn with
  | nil => rfl
  | append_singleton text token ih =>
    cases hbreak : token.isBreak with
    | true => rw [rdropWhile_concat_pos _ _ _ hbreak, ih]; simp [characters, hbreak]
    | false => rw [rdropWhile_concat_neg _ _ _ (by simp [hbreak])]

theorem characters_textOf (columns : Nat) (width : Cell → List Cell → Nat) (cells : List Cell) :
    characters (fit columns (textOf width cells)) = (fit columns (textOf width cells)).length := by
  refine countP_eq_length.mpr fun token htoken => ?_
  have hmem : token ∈ textOf width cells := mem_of_mem_filter htoken
  clear htoken
  induction cells with
  | nil => cases hmem
  | cons cell rest ih =>
    rcases mem_append.mp hmem with hmem | hmem
    · rw [unitText] at hmem
      split at hmem
      · rw [mem_singleton.mp hmem]; rfl
      · cases hmem
    · exact ih hmem

theorem fit_tokens_cons (row : Row) (rows : List Row) :
    fit columns (tokens (reflowWidth composedWidth) (row :: rows)) =
      fit columns (textOf (reflowWidth composedWidth) row.cells) ++ breakOf row.linebreak ++
        fit columns (tokens (reflowWidth composedWidth) rows) := by
  have hbreak : fit columns (breakOf row.linebreak) = breakOf row.linebreak := by cases row.linebreak <;> rfl
  rw [tokens, flatMap_cons, fit_append, fit_append, hbreak, tokens]

/-- No row keeps more than fits, so where as many characters are kept, each row keeps all that fit. -/
theorem characters_survivors (rows : List Row) : characters (survivors composedWidth columns rows) ≤
      characters (fit columns (tokens (reflowWidth composedWidth) rows)) ∧
    (characters (survivors composedWidth columns rows) =
        characters (fit columns (tokens (reflowWidth composedWidth) rows)) →
      ∀ row ∈ rows, spares composedWidth columns 0 row.cells = true) := by
  induction rows with
  | nil => simp [survivors, tokens, fit]
  | cons row rows ih =>
    have hkept := kept_sublist composedWidth columns 0 row.cells
    have hfirst : characters (kept composedWidth columns 0 row.cells) ≤ _ := hkept.countP_le
    rw [fit_tokens_cons, survivors, flatMap_cons]
    simp only [characters, countP_append] at *
    refine ⟨by rw [survivors] at ih; omega, fun heq => forall_mem_cons.mpr ⟨?_, ih.2 (by rw [survivors] at *; omega)⟩⟩
    rw [← kept_eq_iff]
    refine hkept.eq_of_length_le ?_
    have hall := characters_textOf columns (reflowWidth composedWidth) row.cells
    have hsome := countP_le_length (p := (!·.isBreak)) (l := kept composedWidth columns 0 row.cells)
    simp only [characters, survivors] at *
    omega

/-- The text that is kept is all that fits exactly if every row spares it. -/
theorem survivors_eq_iff (rows : List Row) : (survivors composedWidth columns rows).rdropWhile Token.isBreak =
      (fit columns (tokens (reflowWidth composedWidth) rows)).rdropWhile Token.isBreak ↔
    ∀ row ∈ rows, spares composedWidth columns 0 row.cells = true := by
  constructor
  · intro heq
    have hcount := congrArg characters heq
    rw [characters_rdropWhile, characters_rdropWhile] at hcount
    exact (characters_survivors rows).2 hcount
  · intro h
    congr 1
    induction rows with
    | nil => rfl
    | cons row rows ih =>
      rw [fit_tokens_cons, survivors, flatMap_cons, (kept_eq_iff ..).mpr (h row mem_cons_self),
        ← ih fun r hr => h r (mem_cons_of_mem _ hr), survivors]

end Reflow

namespace Grid

open Reflow

variable {rowCapacity columns screenRows : Nat} {g : Grid} {composedWidth : Nat → Nat}

/-- A reflow of rows with valid wide cells lays out rows of whole characters. The new grid holds the
newest of them that the ring has room for, after blank rows that complete the screen. The rows laid
out read as the old ones, with the same breaks between the same characters, once the characters
wider than a new row are left out, exactly if no composed character that is too wide takes one that
fits with it; only breaks after the last character may differ. -/
theorem reflow_conserves_text_iff (hs : Sized rowCapacity columns screenRows)
    (hvalid : ∀ old ∈ g.oldRows, old.row.hasValidWideCells = true) :
    let laid := (build composedWidth columns g.origins g).rows
    ∃ g' ids, g.resizeWithReflow rowCapacity columns screenRows composedWidth = .ok (g', ids) ∧
      g'.oldRows.map OldRow.row = replicate (screenRows - laid.length) (Row.new columns) ++
        laid.drop (laid.length - rowCapacity) ∧
      ((tokens storedWidth laid).rdropWhile Token.isBreak =
          (fit columns (tokens (reflowWidth composedWidth) (g.oldRows.map OldRow.row))).rdropWhile Token.isBreak ↔
        ∀ old ∈ g.oldRows, spares composedWidth columns 0 old.row.cells = true) ∧
      ∀ new ∈ g'.oldRows, new.row.hasValidWideCells = true := by
  intro laid
  obtain ⟨g', ids, hresize, h⟩ := reflowed_resizeWithReflow hs composedWidth g
  obtain ⟨written, linebreak, hfinished⟩ := finished_build composedWidth columns g.origins g
  obtain ⟨hrows, htext⟩ := hfinished.tokens_rows hs.columns_pos fun old hold => hasValidWideCells_iff.mp (hvalid old hold)
  have htrim : (trim rowCapacity (build composedWidth columns g.origins g)).rows =
      laid.drop (laid.length - rowCapacity) := rfl
  have hlength : (laid.drop (laid.length - rowCapacity)).length ≤ rowCapacity := by
    rw [length_drop]
    omega
  have hnew := h.map_row_oldRows hs.screenRows_le (htrim ▸ hlength)
  have hblank : screenRows - (laid.drop (laid.length - rowCapacity)).length = screenRows - laid.length := by
    have hle := hs.screenRows_le
    rw [length_drop]
    omega
  rw [htrim, hblank] at hnew
  refine ⟨g', ids, hresize, hnew, ?_, ?_⟩
  · rw [htext, survivors_eq_iff, forall_mem_map]
  · intro new hmem
    have hrow := mem_map_of_mem (f := OldRow.row) hmem
    rw [hnew] at hrow
    rw [hasValidWideCells_iff]
    rcases mem_append.mp hrow with hblank | hrebuilt
    · rw [eq_of_mem_replicate hblank]
      exact .replicate _ (by simp [Cell.Continues])
    · exact hrows _ (mem_of_mem_drop hrebuilt)

/-- A wide and a composed character in a row that wraps, and a short second row. -/
def wrappedText : Grid :=
  { slots := ⟨[{ row := some ⟨[⟨.scalar '界', {}⟩, ⟨.spacer 1, {}⟩, ⟨.composed 7, {}⟩], true, false⟩, id := 1 },
      { row := some ⟨[⟨.scalar 'a', {}⟩, default, default], true, true⟩, id := 2 }], by decide⟩
    columns := 3, offset := 0, view := 0, screenRows := 2, cursor := {}, savedCursor := {},
    generation := 0, nextRowId := 3, historyGeneration := 1 }

theorem wrappedText_reflows : ∃ g' ids, wrappedText.resizeWithReflow 4 2 2 (fun _ => 2) = .ok (g', ids) ∧
    (tokens storedWidth (build (fun _ => 2) 2 wrappedText.origins wrappedText).rows).rdropWhile Token.isBreak =
      [.unit ⟨.scalar '界', {}⟩ 2, .unit ⟨.composed 7, {}⟩ 2, .unit ⟨.scalar 'a', {}⟩ 1] := by
  have hs : Sized 4 2 2 := ⟨by decide, by decide, by decide, by decide, by decide, by decide⟩
  obtain ⟨g', ids, hresize, -, htext, -⟩ := @reflow_conserves_text_iff 4 2 2 wrappedText (fun _ => 2) hs (by decide +kernel)
  exact ⟨g', ids, hresize, (htext.mpr (by decide +kernel)).trans (by decide +kernel)⟩

/-- A composed character of two columns that is stored in one, and a character behind it. -/
def composedText : Grid :=
  { slots := ⟨[{ row := some ⟨[⟨.composed 7, {}⟩, ⟨.scalar 'a', {}⟩], true, true⟩, id := 1 }, {}], by decide⟩
    columns := 2, offset := 0, view := 0, screenRows := 1, cursor := {}, savedCursor := {},
    generation := 0, nextRowId := 2, historyGeneration := 1 }

/-- On a width of one column the composed character takes the other with it and a blank row is left. -/
theorem composed_character_takes_next : (∀ old ∈ composedText.oldRows, old.row.hasValidWideCells = true) ∧
    fit 1 (tokens (reflowWidth fun _ => 2) (composedText.oldRows.map OldRow.row)) =
      [.unit ⟨.scalar 'a', {}⟩ 1, .hardBreak] ∧
    ∃ g' ids, composedText.resizeWithReflow 2 1 1 (fun _ => 2) = .ok (g', ids) ∧
      tokens storedWidth (g'.oldRows.map OldRow.row) = [.hardBreak] := by
  refine ⟨by decide +kernel, by decide +kernel, ?_⟩
  exact ⟨_, _, rfl, by decide +kernel⟩

end Grid

end Splinterm.Terminal
