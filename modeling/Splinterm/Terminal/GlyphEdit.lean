import Splinterm.Terminal.Glyphs

/-!
# Characters moved by insertion and deletion

Inserting and deleting cells moves what stands right of the cursor. Both clear the wide character
that starts exactly where the move starts, although nothing of it is cut, and a deletion looks at
the cells it has just moved next to the old end of the row: the last character of the row and
what is left of a wide character behind it are taken for one wide character.
-/

namespace Splinterm.Terminal

open Lib.Hoare List Nat Row Glyph

namespace Row

/-! ## Occurrences -/

/-- The character stands at `start`, and the cell behind it does not continue it. -/
def Occurs (cells : List Cell) (start : Nat) (g : Glyph) : Prop :=
  ∃ before after, cells = before ++ (g.cells ++ after) ∧ before.length = start ∧ firstPayload after = 0

namespace Occurs

variable {a b cells : List Cell} {s start stop : Nat} {g : Glyph}

theorem length_le (h : Occurs cells s g) : s + g.width ≤ cells.length := by
  obtain ⟨before, after, rfl, rfl, -⟩ := h
  simp only [length_append, length_cells]
  omega

theorem getD (h : Occurs cells s g) {i : Nat} (hi : i < g.width) :
    cells.getD (s + i) default = g.cells.getD i default := by
  obtain ⟨before, after, rfl, rfl, -⟩ := h
  rw [getD_append_right _ _ _ _ (by omega), Nat.add_sub_cancel_left, getD_append _ _ _ _ (by simpa using hi)]

theorem append_right (h : Occurs b s g) (a : List Cell) : Occurs (a ++ b) (a.length + s) g := by
  obtain ⟨before, after, rfl, rfl, hedge⟩ := h
  exact ⟨a ++ before, after, by rw [append_assoc], length_append, hedge⟩

theorem append_left (h : Occurs a s g) (hb : firstPayload b = 0) : Occurs (a ++ b) s g := by
  obtain ⟨before, after, rfl, hlen, hedge⟩ := h
  exact ⟨before, after ++ b, by simp only [append_assoc], hlen, (firstPayload_append_of_edge hb).trans hedge⟩

/-- A character does not cross an edge. -/
theorem of_append (h : Occurs (a ++ b) s g) (hb : firstPayload b = 0) :
    Occurs a s g ∨ a.length ≤ s ∧ Occurs b (s - a.length) g := by
  obtain ⟨before, after, heq, hlen, hedge⟩ := h
  rcases append_eq_append_iff.mp heq with ⟨m, rfl, rfl⟩ | ⟨m, rfl, hm⟩
  · refine .inr ⟨by rw [← hlen, length_append]; omega, m, after, rfl, ?_, hedge⟩
    rw [← hlen, length_append, Nat.add_sub_cancel_left]
  · by_cases hnil : m = []
    · subst hnil
      exact .inr ⟨by simp [hlen], [], after, hm.symm, by simp [hlen], hedge⟩
    · left
      rcases append_eq_append_iff.mp hm with ⟨k, rfl, rfl⟩ | ⟨k, hk, rfl⟩
      · refine ⟨before, k, rfl, hlen, ?_⟩
        by_cases hk : k = []
        · rw [hk]
          rfl
        · rwa [firstPayload_append hk] at hedge
      · refine ⟨before, [], ?_, hlen, rfl⟩
        by_cases hk' : k = []
        · rw [hk, hk', append_nil, append_nil]
        · -- the edge would lie inside the character
          have hcont := g.continues (length_pos_of_ne_nil hnil) (k := m.length) (by
            rw [← length_cells, hk, length_append]
            have := length_pos_of_ne_nil hk'
            omega)
          rw [hk, getD_append_right _ _ _ _ le_rfl, Nat.sub_self] at hcont
          rw [firstPayload_append hk'] at hb
          exact absurd hcont (firstPayload_drop_eq_zero_iff (k := 0).mp hb)

theorem of_take (h : Occurs cells s g) {k : Nat} (hedge : firstPayload (cells.drop k) = 0)
    (hs : s + g.width ≤ k) : Occurs (cells.take k) s g := by
  have hle := h.length_le
  have hpos := g.width_pos
  rw [← take_append_drop k cells] at h
  rcases h.of_append hedge with hfront | ⟨hback, -⟩
  · exact hfront
  · rw [length_take] at hback
    omega

theorem of_drop (h : Occurs cells s g) {k : Nat} (hedge : firstPayload (cells.drop k) = 0) (hs : k ≤ s) :
    Occurs (cells.drop k) (s - k) g := by
  have hle := h.length_le
  have hpos := g.width_pos
  rw [← take_append_drop k cells] at h
  rcases h.of_append hedge with hfront | ⟨-, hback⟩
  · have hshort := hfront.length_le
    rw [length_take] at hshort
    omega
  · rwa [length_take_of_le (by omega)] at hback

theorem cleared (h : Occurs cells s g) (hmiss : ¬ (g.Wide ∧ s < stop ∧ start < s + g.width)) :
    Occurs (Row.cleared start stop 0 cells) s g := by
  obtain ⟨before, after, rfl, rfl, hedge⟩ := h
  refine ⟨cleared start stop 0 before, cleared start stop (0 + before.length + g.width) after, ?_, length_cleared, ?_⟩
  · rw [cleared_append firstPayload_cells, cleared_cells hedge, clearedCells, if_neg (by rwa [zero_add])]
  · exact firstPayload_drop_cleared (k := 0) hedge

theorem not_continues_cleared (h : Occurs cells s g) (hmeets : s < stop ∧ start < s + g.width)
    {i : Nat} (hi : i < g.width) : ¬ ((Row.cleared start stop 0 cells).getD (s + i) default).Continues := by
  obtain ⟨before, after, rfl, rfl, hedge⟩ := h
  rw [cleared_append firstPayload_cells, cleared_cells hedge,
    getD_append_right _ _ _ _ (by simp), length_cleared, Nat.add_sub_cancel_left,
    getD_append _ _ _ _ (by simpa using hi), clearedCells]
  split
  · rw [getD_replicate _ hi]
    exact Cell.not_continues_default
  · rename_i hnarrow
    have hone : i = 0 := by
      by_contra hne
      exact hnarrow ⟨by rw [Glyph.Wide]; omega, by omega, by omega⟩
    rw [hone]
    exact g.leads

end Occurs

/-! ## Erasing -/

section

variable {row : Row} {start stop column k : Nat} {b x cells : List Cell} {background : Color}

theorem firstPayload_take (h : firstPayload cells = 0) (k : Nat) : firstPayload (cells.take k) = 0 := by
  cases cells with
  | nil => simpa using h
  | cons cell rest =>
    cases k with
    | zero => rfl
    | succ k => exact h

/-- The erase at the end of both operations leaves a valid row, and the repair finds nothing. -/
theorem wp_erase_repair {post : Unit → Row → Prop} {fail : Fault → Row → Prop}
    (h : start ≤ stop ∧ stop ≤ row.cells.length)
    (hcells : eraseCells start stop background (cleared start stop 0 row.cells) = cells) (htiled : Tiled cells) :
    wp (erase start stop background) (fun _ => wp repairWideCells post fail) fail row ↔
      post () { row with cells, dirty := true } := by
  subst hcells
  have hrepair : wp repairWideCells post fail (row.eraseRange start stop background) ↔ _ :=
    wp_repairWideCells_iff htiled
  simp only [erase, assertRange, wp_bind, wp_get, wp_ensure, wp_modify]
  exact ⟨fun hpost => hrepair.mp (hpost.1 h), fun hpost => ⟨fun _ => hrepair.mpr hpost, fun hbad => absurd h hbad⟩⟩

/-- Erasing between two edges leaves both sides as they were. -/
theorem eraseCells_between (hx : firstPayload (x ++ b) = 0) (hb : firstPayload b = 0)
    (background : Color) (a : List Cell) : eraseCells a.length (a.length + x.length) background
        (cleared a.length (a.length + x.length) 0 (a ++ (x ++ b))) =
      a ++ (replicate x.length (Cell.erased background) ++ b) := by
  have hleft : cleared a.length (a.length + x.length) 0 a = a := cleared_outside (.inr (by omega))
  have hright : cleared a.length (a.length + x.length) (0 + a.length + x.length) b = b :=
    cleared_outside (.inl (by omega))
  rw [cleared_append hx, cleared_append hb, hleft, hright, eraseCells, take_left,
    Nat.add_sub_cancel_left, drop_length_add_append, drop_left' length_cleared, append_assoc]

end

end Row

/-! ## What clearing leaves -/

namespace Tiled

variable {l : List Cell} {start stop column k s : Nat} {g : Glyph}

theorem occurs_of_cleared (h : Tiled l) (hwide : g.Wide) (hg : Row.Occurs (Row.cleared start stop column l) s g) :
    Row.Occurs l s g ∧ ¬ (column + s < stop ∧ start < column + s + g.width) := by
  induction h generalizing column s with
  | nil =>
    have hle := hg.length_le
    have hpos := g.width_pos
    simp only [cleared_nil, length_nil] at hle
    omega
  | @glyph first rest hrest ih =>
    rw [cleared_cells hrest.firstPayload] at hg
    rcases hg.of_append hrest.cleared.firstPayload with hfirst | ⟨hle, hlater⟩
    · have hlen := hfirst.length_le
      have hspacer : 1 < g.width := hwide
      rw [length_clearedCells] at hlen
      rw [Glyph.clearedCells] at hfirst
      split at hfirst
      · -- a cleared character has no spacer left
        have hcont := continues one_pos hwide
        rw [← hfirst.getD hwide, getD_replicate _ (by omega)] at hcont
        exact absurd hcont Cell.not_continues_default
      · rename_i hmiss
        refine ⟨hfirst.append_left hrest.firstPayload, fun hmeets => hmiss ⟨?_, by omega, by omega⟩⟩
        rw [Glyph.Wide] at hwide ⊢
        omega
    · rw [length_clearedCells] at hle hlater
      obtain ⟨hold, hmiss⟩ := ih hlater
      have hmoved := hold.append_right first.cells
      rw [length_cells, Nat.add_sub_cancel' hle] at hmoved
      exact ⟨hmoved, by omega⟩

theorem occurs_of_cut (h : Tiled l) (hcut : (l.getD k default).Continues) :
    ∃ s g, Row.Occurs l s g ∧ s < k ∧ k < s + g.width ∧
      countsDown (Row.firstPayload (l.drop k)) (l.drop k) = true := by
  induction h generalizing k with
  | nil => exact absurd hcut Cell.not_continues_default
  | @glyph g rest hrest ih =>
    by_cases hk : k < g.width
    · have hpos : 0 < k := by
        by_contra hzero
        rw [le_zero.mp (Nat.le_of_not_lt hzero)] at hcut
        exact g.leads hcut
      refine ⟨0, g, ⟨[], rest, rfl, rfl, hrest.firstPayload⟩, hpos, by omega, ?_⟩
      obtain ⟨k, rfl⟩ : ∃ j, k = j + 1 := ⟨k - 1, by omega⟩
      have hall : countsDown g.spacers.length (g.spacers ++ rest) = true := g.countsDown_spacers
      have hcounts := countsDown_drop hall (k := k) (by rw [width] at hk; omega)
      obtain ⟨n, hn⟩ : ∃ n, g.spacers.length - k = n + 1 := ⟨g.spacers.length - k - 1, by rw [width] at hk; omega⟩
      rw [hn] at hcounts
      rw [cells_append, drop_succ_cons, firstPayload_of_countsDown hcounts]
      exact hcounts
    · rw [getD_append_right _ _ _ _ (by simpa using hk)] at hcut
      obtain ⟨s, found, hfound, hlow, hhigh, hcounts⟩ := ih hcut
      rw [length_cells] at hlow hhigh hcounts
      have hmoved := hfound.append_right g.cells
      refine ⟨g.width + s, found, hmoved, by omega, by omega, ?_⟩
      rwa [drop_append, drop_of_length_le (by simpa using hk)]

theorem exists_last (h : Tiled l) (hne : l ≠ []) : ∃ front g, l = front ++ Glyph.cells g ∧ Tiled front := by
  induction h with
  | nil => exact absurd rfl hne
  | @glyph g rest _ ih =>
    by_cases hrest : rest = []
    · exact ⟨[], g, by rw [hrest, append_nil, nil_append], nil⟩
    · obtain ⟨front, last, hlast, hfront⟩ := ih hrest
      exact ⟨g.cells ++ front, last, by rw [hlast, append_assoc], glyph g hfront⟩

end Tiled

namespace Row

/-! ## Insertion -/

section

variable {row : Row} {cells : List Cell} {column count s : Nat} {background : Color} {g : Glyph}

/-- The cells with nothing wide across the two edges of an insertion. -/
def openedForInsert (column count : Nat) (cells : List Cell) : List Cell :=
  cleared (cells.length - count) (cells.length - count + 1) 0 (cleared column (column + 1) 0 cells)

@[simp] theorem length_openedForInsert : (openedForInsert column count cells).length = cells.length := by
  simp [openedForInsert]

/-- What an insertion leaves of a valid row. -/
def insertedCells (column count : Nat) (background : Color) (cells : List Cell) : List Cell :=
  (openedForInsert column count cells).take column ++ (replicate count (Cell.erased background) ++
      ((openedForInsert column count cells).take (cells.length - count)).drop column)

theorem edge_openedForInsert (h : Tiled cells) : firstPayload ((openedForInsert column count cells).drop column) = 0 :=
  firstPayload_drop_cleared (h.edge_cleared (by omega) (by omega))

theorem tiled_openedForInsert (h : Tiled cells) : Tiled ((openedForInsert column count cells).take column) ∧
      Tiled (((openedForInsert column count cells).take (cells.length - count)).drop column) := by
  have hopened : Tiled (openedForInsert column count cells) := h.cleared.cleared
  have hright : firstPayload ((openedForInsert column count cells).drop (cells.length - count)) = 0 :=
    h.cleared.edge_cleared (by omega) (by omega)
  refine ⟨(hopened.split (edge_openedForInsert h)).1, ((hopened.split hright).1.split ?_).2⟩
  rw [drop_take]
  exact firstPayload_take (edge_openedForInsert h) _

theorem tiled_insertedCells (h : Tiled cells) : Tiled (insertedCells column count background cells) :=
  (tiled_openedForInsert h).1.append
    ((Tiled.replicate _ (Cell.not_continues_erased background)).append (tiled_openedForInsert h).2)

/-- The erase that follows the move meets the edges the insertion has opened. -/
theorem eraseCells_inserted (h : Tiled cells) (hcount : column + count ≤ cells.length) (background : Color) :
    eraseCells column (column + count) background (cleared column (column + count) 0
        ((openedForInsert column count cells).take (column + count) ++
          ((openedForInsert column count cells).take (cells.length - count)).drop column)) =
      insertedCells column count background cells := by
  set opened := openedForInsert column count cells with hopened
  have hedge : firstPayload (opened.drop column) = 0 := edge_openedForInsert h
  have hmoved : firstPayload ((opened.take (cells.length - count)).drop column) = 0 :=
    (tiled_openedForInsert h).2.firstPayload
  have hlen : opened.length = cells.length := length_openedForInsert
  have hleft : (opened.take column).length = column := length_take_of_le (by omega)
  have hover : ((opened.drop column).take count).length = count := length_take_of_le (by rw [length_drop]; omega)
  have hbetween := eraseCells_between ((firstPayload_append_of_edge hmoved).trans (firstPayload_take hedge count))
    hmoved background (opened.take column)
  rw [hleft, hover] at hbetween
  rw [take_add, append_assoc, hbetween]
  rfl

theorem insertCells_eq (h : Tiled row.cells) (hcolumn : column < row.cells.length) :
    insertCells column count background row = .ok () (if count = 0 then row else { row with
        cells := insertedCells column (min count (row.cells.length - column)) background row.cells
        dirty := true }) := by
  refine eq_ok_of_wp_iff fun post fail => ?_
  by_cases hzero : count = 0
  · simp [insertCells, hzero, hcolumn]
  · have hn : min count (row.cells.length - column) ≠ 0 := by omega
    have hle : column + min count (row.cells.length - column) ≤ row.cells.length := by omega
    have herase := eraseCells_inserted h hle background
    rw [if_neg hzero]
    generalize hcount : min count (row.cells.length - column) = n at *
    have hlen : column + n ≤ ((openedForInsert column n row.cells).take (column + n) ++
        ((openedForInsert column n row.cells).take (row.cells.length - n)).drop column).length := by
      simp only [length_append, length_take, length_openedForInsert]
      omega
    simp only [insertCells, wp_bind, wp_get, wp_ensure, wp_whenever, wp_modify, hcolumn, hcount, hn,
      ne_eq, not_false_eq_true, not_true, true_implies, false_implies, and_true]
    exact wp_erase_repair ⟨le_add_right _ _, hlen⟩ herase (tiled_insertedCells h)

/-- Every character left of `column` stays, and every character from `column` on that still fits
the row moves right. -/
def KeptByInsert (cells cells' : List Cell) (column count : Nat) : Prop :=
  ∀ s g, Occurs cells s g → (s + g.width ≤ column → Occurs cells' s g) ∧
    (column ≤ s → s + g.width + count ≤ cells.length → Occurs cells' (s + count) g)

variable (h : Tiled cells) (hcount : column + count ≤ cells.length)

include h hcount

theorem keptByInsert_left (hg : Occurs cells s g) (hleft : s + g.width ≤ column) :
    Occurs (insertedCells column count background cells) s g := by
  have hopened : Occurs (openedForInsert column count cells) s g := (hg.cleared (by omega)).cleared (by omega)
  exact (hopened.of_take (edge_openedForInsert h) hleft).append_left
    ((firstPayload_append_of_edge (tiled_openedForInsert h).2.firstPayload).trans
      (Tiled.replicate _ (Cell.not_continues_erased background)).firstPayload)

theorem keptByInsert_right (hg : Occurs cells s g) (hright : column ≤ s) (hfits : s + g.width + count ≤ cells.length)
    (hmiss : ¬ (g.Wide ∧ s = column)) : Occurs (insertedCells column count background cells) (s + count) g := by
  have honce : ¬ (g.Wide ∧ s < column + 1 ∧ column < s + g.width) := fun hmeets => hmiss ⟨hmeets.1, by omega⟩
  have hopened : Occurs (openedForInsert column count cells) s g := (hg.cleared honce).cleared (by omega)
  have hlen : (openedForInsert column count cells).length = cells.length := length_openedForInsert
  have hedge : firstPayload ((openedForInsert column count cells).drop (cells.length - count)) = 0 :=
    h.cleared.edge_cleared (by omega) (by omega)
  have hmoved := (hopened.of_take hedge (by omega)).of_drop (tiled_openedForInsert h).2.firstPayload hright
  have hplaced := hmoved.append_right ((openedForInsert column count cells).take column ++
    replicate count (Cell.erased background))
  rw [append_assoc, length_append, length_replicate,
    length_take_of_le (by omega), show column + count + (s - column) = s + count by omega] at hplaced
  exact hplaced

omit h in
/-- The second column of a wide character that starts at the insertion is lost. -/
theorem lost_by_insert (hwide : g.Wide) (hg : Occurs cells column g) (hfits : column + g.width + count ≤ cells.length) :
    ¬ Occurs (insertedCells column count background cells) (column + count) g := by
  intro hkept
  have hspacer : 1 < g.width := hwide
  have hlen : (openedForInsert column count cells).length = cells.length := length_openedForInsert
  have hcont := continues one_pos hwide
  rw [← hkept.getD hwide, insertedCells, ← append_assoc, getD_append_right _ _ _ _ (by
    rw [length_append, length_replicate, length_take_of_le (by omega)]; omega)] at hcont
  rw [length_append, length_replicate, length_take_of_le (by omega),
    Nat.add_sub_cancel_left, getD_eq_getElem?_getD, getElem?_drop,
    getElem?_take_of_lt (by omega), ← getD_eq_getElem?_getD] at hcont
  exact hg.not_continues_cleared ⟨lt_succ_self column, by omega⟩ hwide (continues_of_cleared hcont)

/-- An insertion keeps every character but a wide one at the cursor that would still fit. -/
theorem keptByInsert_iff : KeptByInsert cells (insertedCells column count background cells) column count ↔
      ∀ g : Glyph, g.Wide → Occurs cells column g → cells.length < column + g.width + count := by
  constructor
  · intro hkept g hwide hg
    by_contra hfits
    exact lost_by_insert hcount hwide hg (by omega) ((hkept column g hg).2 le_rfl (by omega))
  · intro hnone s g hg
    refine ⟨keptByInsert_left h hcount hg, fun hright hfits => ?_⟩
    apply keptByInsert_right h hcount hg hright hfits
    rintro ⟨hwide, rfl⟩
    exact absurd (hnone g hwide hg) (by omega)

end

/-! ## Deletion -/

section

variable {row : Row} {cells front tail : List Cell} {column count s : Nat} {background : Color}
  {g last : Glyph}

/-- The cells with nothing wide across the two edges of a deletion. -/
def openedForDelete (column count : Nat) (cells : List Cell) : List Cell :=
  cleared (column + count) (column + count + 1) 0 (cleared column (column + count) 0 cells)

@[simp] theorem length_openedForDelete : (openedForDelete column count cells).length = cells.length := by
  simp [openedForDelete]

/-- The cells a deletion keeps. -/
def keptCells (column count : Nat) (cells : List Cell) : List Cell :=
  (openedForDelete column count cells).take column ++ (openedForDelete column count cells).drop (column + count)

/-- What the move leaves behind the kept cells until it is erased. -/
def staleCells (column count : Nat) (cells : List Cell) : List Cell :=
  (openedForDelete column count cells).drop (cells.length - count)

theorem tiled_openedForDelete (h : Tiled cells) : Tiled (openedForDelete column count cells) :=
  h.cleared.cleared

theorem edge_openedForDelete (h : Tiled cells) : firstPayload ((openedForDelete column count cells).drop column) = 0 ∧
      firstPayload ((openedForDelete column count cells).drop (column + count)) = 0 :=
  ⟨firstPayload_drop_cleared (h.edge_cleared (by omega) (by omega)), h.cleared.edge_cleared (by omega) (by omega)⟩

theorem tiled_keptCells (h : Tiled cells) : Tiled (keptCells column count cells) :=
  ((tiled_openedForDelete h).split (edge_openedForDelete h).1).1.append
    ((tiled_openedForDelete h).split (edge_openedForDelete h).2).2

theorem length_staleCells (hcount : count ≤ cells.length) : (staleCells column count cells).length = count := by
  rw [staleCells, length_drop, length_openedForDelete]
  omega

/-- The kept cells once the scan of the final erase has seen them beside the stale ones. -/
def keptBeside (kept stale : List Cell) : List Cell :=
  (cleared kept.length (kept.length + stale.length) 0 (kept ++ stale)).take kept.length

theorem keptBeside_of_edge (hedge : firstPayload tail = 0) : keptBeside front tail = front := by
  rw [keptBeside, cleared_append hedge, take_left' length_cleared]
  exact cleared_outside (.inr (by omega))

theorem keptBeside_of_wide (hwide : last.Wide) : keptBeside (front ++ last.cells) tail = front ++ last.cells := by
  have hfront : cleared (front ++ last.cells).length ((front ++ last.cells).length + tail.length) 0 front =
      front := cleared_outside (.inr (by rw [length_append]; omega))
  have hlast : last.clearedCells (front ++ last.cells).length
      ((front ++ last.cells).length + tail.length) (0 + front.length) = last.cells := by
    rw [clearedCells, if_neg]
    rw [length_append, length_cells]
    omega
  rw [keptBeside, append_assoc, cleared_append firstPayload_cells, hfront,
    cleared_wide hwide, hlast, ← append_assoc, take_left]

/-- The last character and the rest of a run behind it are taken for one wide character. -/
theorem keptBeside_of_narrow (hnarrow : ¬ last.Wide) (hpos : 0 < firstPayload tail)
    (hcounts : countsDown (firstPayload tail) tail = true) :
    keptBeside (front ++ last.cells) tail = front ++ [default] := by
  have hcells : last.cells = [last.leader] := by rw [Glyph.cells, spacers_eq_nil hnarrow]
  have hlen : (front ++ last.cells).length = front.length + 1 := by rw [hcells, length_append]; rfl
  have hfront : cleared (front.length + 1) (front.length + 1 + tail.length) 0 front = front :=
    cleared_outside (.inr (by omega))
  rw [keptBeside, hlen, append_assoc, cleared_append firstPayload_cells, hfront, hcells,
    singleton_append, cleared_cons, if_pos ⟨hpos, hcounts⟩, if_pos ⟨by omega, by omega⟩,
    replicate_succ, cons_append, take_length_add_append, take_succ_cons, take_zero]

theorem continues_of_keptBeside {k : Nat} (h : ((keptBeside front tail).getD k default).Continues) :
    (front.getD k default).Continues := by
  rw [keptBeside] at h
  by_cases hk : k < front.length
  · rw [getD_eq_getElem?_getD, getElem?_take_of_lt hk] at h
    have hold := continues_of_cleared h
    rwa [getD_append _ _ _ _ hk] at hold
  · rw [getD_eq_default _ _ (by rw [length_take]; omega)] at h
    exact absurd h Cell.not_continues_default

def spared (column count : Nat) (cells : List Cell) : List Cell :=
  keptBeside (keptCells column count cells) (staleCells column count cells)

/-- What a deletion leaves of a valid row. -/
def deletedCells (column count : Nat) (background : Color) (cells : List Cell) : List Cell :=
  spared column count cells ++ replicate count (Cell.erased background)

/-- The move cuts a wide character. -/
def Cuts (column count : Nat) (cells : List Cell) : Prop :=
  ((openedForDelete column count cells).getD (cells.length - count) default).Continues

/-- Every character left of `column` stays, and every character right of the deleted range moves
left. -/
def KeptByDelete (cells cells' : List Cell) (column count : Nat) : Prop :=
  ∀ s g, Occurs cells s g → (s + g.width ≤ column → Occurs cells' s g) ∧
    (column + count ≤ s → Occurs cells' (s - count) g)

/-- A wide character right of the deleted range straddles the new end of the kept cells, and the row
ends in a character of one column that is not blank. -/
def LosesLast (cells : List Cell) (column count : Nat) : Prop :=
  (∃ s g, Occurs cells s g ∧ column + count < s ∧ s < cells.length - count ∧ cells.length - count < s + g.width) ∧
    ∃ last, Occurs cells (cells.length - 1) last ∧ last.leader ≠ default

theorem occurs_last {cell : Cell} (hne : cells ≠ []) (hlast : cells.getD (cells.length - 1) default = cell)
    (hcell : ¬ cell.Continues) : Occurs cells (cells.length - 1) (.single cell hcell) := by
  have hpos := length_pos_of_ne_nil hne
  refine ⟨cells.take (cells.length - 1), [], ?_, length_take_of_le (by omega), rfl⟩
  have hsplit := take_append_drop (cells.length - 1) cells
  rw [drop_eq_getElem_cons (by omega), drop_of_length_le (by omega), ← getD_eq_getElem _ default, hlast] at hsplit
  exact hsplit.symm

variable (hcount : column + count ≤ cells.length)

include hcount

theorem length_keptCells : (keptCells column count cells).length = cells.length - count := by
  simp only [keptCells, length_append, length_take, length_drop, length_openedForDelete]
  omega

theorem length_spared : (spared column count cells).length = cells.length - count := by
  rw [spared, keptBeside, length_take_of_le (by rw [length_cleared, length_append]; omega), length_keptCells hcount]

theorem getD_keptCells {k : Nat} (hk : column ≤ k) :
    (keptCells column count cells).getD k default = (openedForDelete column count cells).getD (k + count) default := by
  have hfront : ((openedForDelete column count cells).take column).length = column :=
    length_take_of_le (by rw [length_openedForDelete]; omega)
  rw [keptCells, getD_append_right _ _ _ _ (by omega), hfront, getD_eq_getElem?_getD,
    getElem?_drop, ← getD_eq_getElem?_getD, show column + count + (k - column) = k + count by omega]

theorem eraseCells_deleted (background : Color) :
    eraseCells (cells.length - count) cells.length background (cleared (cells.length - count) cells.length 0
          (keptCells column count cells ++ staleCells column count cells)) =
      deletedCells column count background cells := by
  have hkept := length_keptCells hcount
  have hstale : (staleCells column count cells).length = count := length_staleCells (by omega)
  have htotal : cells.length = (keptCells column count cells).length + (staleCells column count cells).length := by
    omega
  rw [eraseCells, drop_of_length_le (by rw [length_cleared, length_append]; omega),
    append_nil, deletedCells, spared, keptBeside, Nat.sub_sub_self (by omega)]
  rw [← hkept, ← htotal]

/-- The second column of a wide character right behind the deleted range is lost. -/
theorem lost_by_delete (hwide : g.Wide) (hg : Occurs cells (column + count) g) :
    ¬ Occurs (deletedCells column count background cells) column g := by
  intro hkept
  have hspacer : 1 < g.width := hwide
  have hfits := hg.length_le
  have hlen := length_spared hcount
  have hcont := continues one_pos hwide
  rw [← hkept.getD hwide, deletedCells, getD_append _ _ _ _ (by omega)] at hcont
  have hold := continues_of_keptBeside hcont
  rw [getD_keptCells hcount (by omega), add_right_comm] at hold
  have honce : Occurs (cleared column (column + count) 0 cells) (column + count) g := hg.cleared (by omega)
  exact honce.not_continues_cleared ⟨lt_succ_self _, by omega⟩ hwide hold

variable (h : Tiled cells)

include h

/-- The stale cells cost the last character of a row at most. -/
theorem spared_cases :
    spared column count cells = keptCells column count cells ∧
      (Cuts column count cells →
        ((keptCells column count cells).getD (cells.length - count - 1) default).Continues) ∨
      ∃ front last, keptCells column count cells = front ++ Glyph.cells last ∧ Tiled front ∧ ¬ last.Wide ∧
        Cuts column count cells ∧
        spared column count cells = front ++ [default] := by
  by_cases hcut : Cuts column count cells
  · obtain ⟨s, g, -, hlow, -, hcounts⟩ := (tiled_openedForDelete h).occurs_of_cut hcut
    have hne : keptCells column count cells ≠ [] := by
      apply ne_nil_of_length_pos
      rw [length_keptCells hcount]
      omega
    obtain ⟨front, last, hlast, hfront⟩ := (tiled_keptCells h).exists_last hne
    by_cases hwide : last.Wide
    · refine .inl ⟨by rw [spared, hlast]; exact keptBeside_of_wide hwide, fun _ => ?_⟩
      have hlen := length_keptCells hcount
      rw [hlast, length_append, length_cells] at hlen
      rw [Glyph.Wide] at hwide
      rw [hlast, getD_append_right _ _ _ _ (by omega)]
      exact continues (by omega) (by omega)
    · refine .inr ⟨front, last, hlast, hfront, hwide, hcut, ?_⟩
      have hpos : 0 < firstPayload (staleCells column count cells) :=
        pos_of_ne_zero fun hzero => firstPayload_drop_eq_zero_iff.mp hzero hcut
      rw [spared, hlast]
      exact keptBeside_of_narrow hwide hpos hcounts
  · exact .inl ⟨keptBeside_of_edge (firstPayload_drop_eq_zero_iff.mpr hcut), fun hbad => absurd hbad hcut⟩

theorem tiled_spared : Tiled (spared column count cells) := by
  rcases spared_cases hcount h with ⟨heq, -⟩ | ⟨front, last, -, hfront, -, -, heq⟩
  · rw [heq]
    exact tiled_keptCells h
  · rw [heq]
    exact hfront.append (Tiled.replicate 1 Cell.not_continues_default)

theorem tiled_deletedCells : Tiled (deletedCells column count background cells) :=
  (tiled_spared hcount h).append (Tiled.replicate _ (Cell.not_continues_erased background))

/-- A wide character across the new end starts right of the deleted range. -/
theorem straddles_of_cut (hcut : Cuts column count cells) :
    ∃ s g, Occurs cells s g ∧ column + count < s ∧ s < cells.length - count ∧ cells.length - count < s + g.width := by
  obtain ⟨s, g, hg, hlow, hhigh, -⟩ := (tiled_openedForDelete h).occurs_of_cut hcut
  have hwide : g.Wide := by rw [Glyph.Wide]; omega
  obtain ⟨honce, hmiss⟩ := h.cleared.occurs_of_cleared hwide hg
  obtain ⟨hcells, hmiss'⟩ := h.occurs_of_cleared hwide honce
  exact ⟨s, g, hcells, by omega, hlow, hhigh⟩

theorem spared_eq_of_not_losesLast (hlast : ¬ LosesLast cells column count) :
    spared column count cells = keptCells column count cells := by
  rcases spared_cases hcount h with ⟨heq, -⟩ | ⟨front, last, hkept, -, hnarrow, hcut, heq⟩
  · exact heq
  · obtain ⟨s, g, hg, hlow, hhigh, hover⟩ := straddles_of_cut hcount h hcut
    have hcells : last.cells = [last.leader] := by rw [Glyph.cells, spacers_eq_nil hnarrow]
    have hlen := length_keptCells hcount
    have hfront : front.length = cells.length - count - 1 := by
      rw [hkept, hcells, length_append, length_singleton] at hlen
      omega
    -- the last kept cell was the last cell of the row
    have hopened : (openedForDelete column count cells).getD (cells.length - 1) default = last.leader := by
      have hend := getD_keptCells hcount (k := cells.length - count - 1) (by omega)
      rw [hkept, hcells, getD_append_right _ _ _ _ (by omega), hfront, Nat.sub_self,
        show cells.length - count - 1 + count = cells.length - 1 by omega] at hend
      exact hend.symm
    by_cases hblank : last.leader = default
    · rw [heq, hkept, hcells, hblank]
    · have hold : cells.getD (cells.length - 1) default = last.leader := by
        rcases getD_cleared (column + count) _ 0 (cleared column (column + count) 0 cells) _ with honce | hgone
        · rcases getD_cleared column (column + count) 0 cells (cells.length - 1) with hcell | hgone
          · rw [← hcell, ← honce]
            exact hopened
          · exact absurd (hopened.symm.trans (honce.trans hgone)) hblank
        · exact absurd (hopened.symm.trans hgone) hblank
      have hne : cells ≠ [] := ne_nil_of_length_pos (by omega)
      exact absurd ⟨⟨s, g, hg, hlow, hhigh, hover⟩, _, occurs_last hne hold last.leads, hblank⟩ hlast

theorem keptByDelete_of_kept (hkept : spared column count cells =
      keptCells column count cells) (hnone : ∀ g : Glyph, g.Wide → ¬ Occurs cells (column + count) g) :
    KeptByDelete cells (deletedCells column count background cells) column count := by
  intro s g hg
  have hlen : (openedForDelete column count cells).length = cells.length := length_openedForDelete
  have hblanks : firstPayload (replicate count (Cell.erased background)) = 0 :=
    (Tiled.replicate _ (Cell.not_continues_erased background)).firstPayload
  have hleft : ((openedForDelete column count cells).take column).length = column := length_take_of_le (by omega)
  rw [deletedCells, hkept]
  constructor
  · intro hs
    have hopened : Occurs (openedForDelete column count cells) s g := (hg.cleared (by omega)).cleared (by omega)
    exact ((hopened.of_take (edge_openedForDelete h).1 hs).append_left (edge_openedForDelete h).2).append_left hblanks
  · intro hs
    have hmiss : ¬ (g.Wide ∧ s < column + count + 1 ∧ column + count < s + g.width) := by
      rintro ⟨hwide, hlow, -⟩
      obtain rfl : s = column + count := by omega
      exact hnone g hwide hg
    have hopened : Occurs (openedForDelete column count cells) s g := (hg.cleared (by omega)).cleared hmiss
    have hmoved := (hopened.of_drop (edge_openedForDelete h).2 hs).append_right
      ((openedForDelete column count cells).take column)
    rw [hleft, show column + (s - (column + count)) = s - count by omega] at hmoved
    exact hmoved.append_left hblanks

/-- The last character of the row is lost to the stale cells. -/
theorem last_lost_by_delete {s : Nat}
    (hg : Occurs cells s g) (hlow : column + count < s) (hhigh : s < cells.length - count)
    (hover : cells.length - count < s + g.width) (hlast : Occurs cells (cells.length - 1) last)
    (hblank : last.leader ≠ default) :
    ¬ Occurs (deletedCells column count background cells) (cells.length - 1 - count) last := by
  intro hkept
  have hlen := length_keptCells hcount
  have hfits := hlast.length_le
  have hnarrow : ¬ last.Wide := by rw [Glyph.Wide]; omega
  -- the wide character is still there when its spacers become stale
  have hopened : Occurs (openedForDelete column count cells) s g := (hg.cleared (by omega)).cleared (by omega)
  have hcut : Cuts column count cells := by
    have hcont := g.continues (k := cells.length - count - s) (by omega) (by omega)
    rwa [← hopened.getD (by omega), Nat.add_sub_cancel' (by omega)] at hcont
  have hend : (openedForDelete column count cells).getD (cells.length - 1) default = last.leader := by
    have hthere : Occurs (openedForDelete column count cells) (cells.length - 1) last :=
      (hlast.cleared (fun hmeets => hnarrow hmeets.1)).cleared (fun hmeets => hnarrow hmeets.1)
    exact hthere.getD last.width_pos
  have hkeptEnd : (keptCells column count cells).getD (cells.length - count - 1) default = last.leader := by
    rw [getD_keptCells hcount (by omega), ← hend, show cells.length - count - 1 + count = cells.length - 1 by omega]
  rcases spared_cases hcount h with ⟨-, hcont⟩ | ⟨front, final, hfinal, -, hsingle, -, heq⟩
  · exact last.leads (hkeptEnd ▸ hcont hcut)
  · rw [hfinal, length_append, length_cells, width, spacers_eq_nil hsingle, length_nil] at hlen
    have hgone := hkept.getD last.width_pos
    rw [deletedCells, heq, append_assoc, getD_append_right _ _ _ _ (by omega),
      show cells.length - 1 - count + 0 - front.length = 0 by omega] at hgone
    exact hblank hgone.symm

/-- A deletion keeps every character but a wide one right behind the deleted range and a last one
beside stale cells. -/
theorem keptByDelete_iff : KeptByDelete cells (deletedCells column count background cells) column count ↔
      (∀ g : Glyph, g.Wide → ¬ Occurs cells (column + count) g) ∧ ¬ LosesLast cells column count := by
  constructor
  · intro hkept
    constructor
    · intro g hwide hg
      have hmoved := (hkept _ g hg).2 le_rfl
      rw [Nat.add_sub_cancel] at hmoved
      exact lost_by_delete hcount hwide hg hmoved
    · rintro ⟨⟨s, g, hg, hlow, hhigh, hover⟩, last, hlast, hblank⟩
      exact last_lost_by_delete hcount h hg hlow hhigh hover hlast hblank ((hkept _ last hlast).2 (by omega))
  · rintro ⟨hnone, hlast⟩
    exact keptByDelete_of_kept hcount h (spared_eq_of_not_losesLast hcount h hlast) hnone

end

/-! ## Both operations -/

section

variable {row : Row} {cells : List Cell} {column count : Nat} {background : Color}

theorem openedForDelete_of_end (hcount : ¬ column + count < cells.length) :
    openedForDelete column count cells = cleared column (column + count) 0 cells :=
  cleared_outside (.inr (by rw [length_cleared]; omega))

theorem deleteCells_eq (h : Tiled row.cells) (hcolumn : column < row.cells.length) :
    deleteCells column count background row = .ok () (if count = 0 then row else { row with
        cells := deletedCells column (min count (row.cells.length - column)) background row.cells
        dirty := true }) := by
  refine eq_ok_of_wp_iff fun post fail => ?_
  by_cases hzero : count = 0
  · simp [deleteCells, hzero, hcolumn]
  · have hn : min count (row.cells.length - column) ≠ 0 := by omega
    have hle : column + min count (row.cells.length - column) ≤ row.cells.length := by omega
    rw [if_neg hzero]
    generalize hcount : min count (row.cells.length - column) = n at *
    have herase := eraseCells_deleted hle background
    have htiled : Tiled (deletedCells column n background row.cells) := tiled_deletedCells hle h
    have hlen : row.cells.length ≤ (keptCells column n row.cells ++ staleCells column n row.cells).length := by
      rw [length_append, length_keptCells hle, length_staleCells (by omega)]
      omega
    simp only [deleteCells, wp_bind, wp_get, wp_ensure, wp_whenever, wp_modify, hcolumn, hcount, hn,
      ne_eq, not_false_eq_true, not_true, true_implies, false_implies, and_true]
    by_cases hend : column + n < row.cells.length
    · simp only [hend, true_implies, not_true, false_implies, and_true]
      exact wp_erase_repair ⟨sub_le _ _, hlen⟩ herase htiled
    · -- nothing stands behind the deletion, and its second scan would find nothing
      simp only [hend, false_implies, not_false_eq_true, true_implies, true_and]
      rw [keptCells, staleCells, openedForDelete_of_end hend] at hlen herase
      exact wp_erase_repair ⟨sub_le _ _, hlen⟩ herase htiled

/-- A count past the end of the row acts like the largest one that fits. -/
theorem keptByInsert_min_iff (h : Tiled cells) (hcolumn : column < cells.length) :
    KeptByInsert cells (insertedCells column (min count (cells.length - column)) background cells) column
        count ↔ ∀ g : Glyph, g.Wide → Occurs cells column g → cells.length < column + g.width + count := by
  by_cases hfits : count ≤ cells.length - column
  · rw [min_eq_left hfits]
    exact keptByInsert_iff h (by omega)
  · have hkept : KeptByInsert cells (insertedCells column (min count (cells.length - column)) background
        cells) column (min count (cells.length - column)) := by
      rw [keptByInsert_iff h (by omega)]
      intro g _ _
      have hpos := g.width_pos
      omega
    refine iff_of_true (fun s g hg => ⟨(hkept s g hg).1, fun hs hfit => ?_⟩) fun g _ _ => by omega
    omega

theorem keptByDelete_min_iff (h : Tiled cells) (hcolumn : column < cells.length) :
    KeptByDelete cells (deletedCells column (min count (cells.length - column)) background cells) column count ↔
      (∀ g : Glyph, g.Wide → ¬ Occurs cells (column + count) g) ∧ ¬ LosesLast cells column count := by
  by_cases hfits : count ≤ cells.length - column
  · rw [min_eq_left hfits]
    exact keptByDelete_iff (by omega) h
  · have hnone {s : Nat} {g : Glyph} (hs : cells.length ≤ s) : ¬ Occurs cells s g := fun hg => by
      have hle := hg.length_le
      have hpos := g.width_pos
      omega
    have hnotLast {n : Nat} (hn : cells.length ≤ column + n) : ¬ LosesLast cells column n := by
      rintro ⟨⟨s, g, hg, hlow, -⟩, -⟩
      exact hnone (by omega) hg
    have hkept : KeptByDelete cells (deletedCells column (min count (cells.length - column)) background
        cells) column (min count (cells.length - column)) := by
      rw [keptByDelete_iff (by omega) h]
      exact ⟨fun g _ => hnone (by omega), hnotLast (by omega)⟩
    exact iff_of_true (fun s g hg => ⟨(hkept s g hg).1, fun hs => absurd hg (hnone (by omega))⟩)
      ⟨fun g _ => hnone (by omega), hnotLast (by omega)⟩

end

/-- What inserting and deleting cells keeps of a valid row. -/
theorem characters_kept_iff {row : Row} (hvalid : row.hasValidWideCells = true) {column : Nat}
    (hcolumn : column < row.cells.length) (count : Nat) (background : Color) :
    (∃ row', insertCells column count background row = .ok () row' ∧
      (KeptByInsert row.cells row'.cells column count ↔ count = 0 ∨
        ∀ g : Glyph, g.Wide → Occurs row.cells column g → row.cells.length < column + g.width + count)) ∧
    ∃ row', deleteCells column count background row = .ok () row' ∧
      (KeptByDelete row.cells row'.cells column count ↔ count = 0 ∨
        (∀ g : Glyph, g.Wide → ¬ Occurs row.cells (column + count) g) ∧ ¬ LosesLast row.cells column count) := by
  have h := hasValidWideCells_iff.mp hvalid
  refine ⟨⟨_, insertCells_eq h hcolumn, ?_⟩, ⟨_, deleteCells_eq h hcolumn, ?_⟩⟩
  all_goals by_cases hzero : count = 0
  · subst hzero
    exact iff_of_true (fun _ _ hg => ⟨fun _ => hg, fun _ _ => hg⟩) (.inl rfl)
  · rw [if_neg hzero, or_iff_right hzero]
    exact keptByInsert_min_iff h hcolumn
  · subst hzero
    exact iff_of_true (fun _ _ hg => ⟨fun _ => hg, fun _ => hg⟩) (.inl rfl)
  · rw [if_neg hzero, or_iff_right hzero]
    exact keptByDelete_min_iff h hcolumn

/-- A letter, a wide character, another letter and a blank cell. -/
def wideRow : Row :=
  { cells := [⟨.scalar 'a', {}⟩, ⟨.scalar '宽', {}⟩, ⟨.spacer 1, {}⟩, ⟨.scalar 'b', {}⟩, {}]
    dirty := false
    linebreak := true }

theorem wideRow_kept_iff : wideRow.hasValidWideCells = true ∧ 3 < wideRow.cells.length ∧
    (∃ row', insertCells 3 1 default wideRow = .ok () row' ∧ (KeptByInsert wideRow.cells row'.cells 3 1 ↔ 1 = 0 ∨
        ∀ g : Glyph, g.Wide → Occurs wideRow.cells 3 g → wideRow.cells.length < 3 + g.width + 1)) ∧
    ∃ row', deleteCells 3 1 default wideRow = .ok () row' ∧ (KeptByDelete wideRow.cells row'.cells 3 1 ↔ 1 = 0 ∨
        (∀ g : Glyph, g.Wide → ¬ Occurs wideRow.cells (3 + 1) g) ∧ ¬ LosesLast wideRow.cells 3 1) :=
  ⟨by decide, by decide, characters_kept_iff (by decide) (by decide) 1 default⟩

/-- The wide character of `wideRow`. -/
def wideGlyph : Glyph where
  leader := ⟨.scalar '宽', {}⟩
  spacers := [⟨.spacer 1, {}⟩]
  leads := by decide
  solid := by decide
  counts := by decide

/-- Deleting the letter in front of the wide character clears it, and so does inserting a cell in
front of it. -/
theorem wide_character_is_cleared : wideRow.hasValidWideCells = true ∧ Occurs wideRow.cells 1 wideGlyph ∧
    (∃ row', deleteCells 0 1 default wideRow = .ok () row' ∧ ¬ Occurs row'.cells 0 wideGlyph) ∧
    ∃ row', insertCells 1 1 default wideRow = .ok () row' ∧ ¬ Occurs row'.cells 2 wideGlyph := by
  have hvalid : wideRow.hasValidWideCells = true := by decide
  refine ⟨hvalid, ⟨[⟨.scalar 'a', {}⟩], [⟨.scalar 'b', {}⟩, {}], rfl, rfl, rfl⟩,
    ⟨⟨[{}, {}, ⟨.scalar 'b', {}⟩, {}, {}], true, true⟩, rfl, fun hkept => ?_⟩,
    ⟨⟨[⟨.scalar 'a', {}⟩, {}, {}, {}, ⟨.scalar 'b', {}⟩], true, true⟩, rfl, fun hkept => ?_⟩⟩
  all_goals exact absurd (hkept.getD wideGlyph.width_pos) (by decide)

end Row

end Splinterm.Terminal
