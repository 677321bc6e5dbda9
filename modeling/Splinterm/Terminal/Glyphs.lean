import Mathlib.Data.List.GetD
import Splinterm.Terminal.Screen

/-!
# The characters of a row

A row is valid when it is a sequence of characters of any width, each a leader cell and the
spacers that count its remaining columns down to one. The scan that clears wide characters works
through such a row one character at a time, and what it does on one side of a character's edge does
not depend on the other side.
-/

namespace Splinterm.Terminal

open Lib.Hoare List Nat Row

/-- The cell continues a wide character. -/
def Cell.Continues (cell : Cell) : Prop := cell.content.isContinuation = true

instance : DecidablePred Cell.Continues := fun cell =>
  inferInstanceAs (Decidable (cell.content.isContinuation = true))

theorem Cell.not_continues_default : ¬ (default : Cell).Continues := by decide

theorem Cell.not_continues_erased (background : Color) : ¬ (Cell.erased background).Continues := by
  simp [Cell.Continues, Cell.erased]

variable {cell : Cell}

theorem Cell.continues_of_spacer {n : Nat} (h : cell.content = .spacer (n + 1)) : cell.Continues := by
  rw [Cell.Continues, h, CellContent.isContinuation_spacer_succ]

theorem Cell.not_continues_of (h : ∀ n, cell.content ≠ .spacer (n + 1)) : ¬ cell.Continues := by
  rw [Cell.Continues, CellContent.isContinuation]
  · exact Bool.false_ne_true
  · exact h

namespace Row

/-- The scan of `has_valid_wide_cells`. It moves right at every turn, so `fuel` at least the number
of cells reaches the end of the row. -/
def validFrom : Nat → List Cell → Bool
  | 0, _ => true
  | _ + 1, [] => true
  | fuel + 1, leader :: rest =>
    match leader.content with
    | .spacer 0 => validFrom fuel rest
    | .spacer (_ + 1) => false
    | _ =>
      let first := firstPayload rest
      if first = 0 then validFrom fuel rest
      else countsDown first rest && validFrom fuel (rest.drop first)

/-- Positive spacer payloads form complete, descending continuation sequences with a leader cell. -/
def hasValidWideCells (row : Row) : Bool := validFrom row.cells.length row.cells

/-! ## Lengths -/

variable {cells : List Cell}

theorem length_le_of_countsDown {n : Nat} (h : countsDown n cells = true) : n ≤ cells.length := by
  fun_induction countsDown with
  | case1 => exact zero_le _
  | case2 => cases h
  | case3 _ _ _ ih => exact succ_le_succ (ih (Bool.and_eq_true_iff.mp h).2)

/-- The scan keeps a cell or empties it. -/
theorem forall₂_clearFrom (start stop fuel column : Nat) (cells : List Cell) :
    List.Forall₂ (fun cell cell' => cell' = cell ∨ cell' = default) cells
      (clearFrom start stop fuel column cells) := by
  have hkept (cells : List Cell) : List.Forall₂ (fun cell cell' => cell' = cell ∨ cell' = default) cells cells :=
    forall₂_same.mpr fun _ _ => .inl rfl
  fun_induction clearFrom with
  | case1 => exact hkept _
  | case2 => exact .nil
  | case3 _ column leader rest remaining hrun ih =>
    rw [show leader :: rest = (leader :: rest.take remaining) ++ rest.drop remaining by simp]
    refine rel_append ?_ ih
    split
    · have hle := length_le_of_countsDown hrun.2
      exact forall₂_iff_get.mpr ⟨by simp [hle], fun _ _ _ => .inr (by simp)⟩
    · exact hkept _
  | case4 _ _ _ _ _ _ ih => exact .cons (.inl rfl) ih

theorem length_clearFrom (start stop fuel column : Nat) (cells : List Cell) :
    (clearFrom start stop fuel column cells).length = cells.length :=
  (forall₂_clearFrom ..).length_eq.symm

@[simp] theorem length_clearWideIntersections (start stop : Nat) (row : Row) :
    (row.clearWideIntersections start stop).cells.length = row.cells.length :=
  length_clearFrom ..

variable {start stop : Nat}

theorem length_eraseCells (background : Color) (h : start ≤ stop) (hs : stop ≤ cells.length) :
    (eraseCells start stop background cells).length = cells.length := by
  simp only [eraseCells, length_append, length_take, length_replicate, length_drop]
  omega

/-! ## Spacers -/

section

variable {cells tail : List Cell}

theorem firstPayload_append (hne : cells ≠ []) : firstPayload (cells ++ tail) = firstPayload cells := by
  obtain ⟨cell, rest, rfl⟩ := exists_cons_of_ne_nil hne
  rfl

theorem firstPayload_append_of_edge (htail : firstPayload tail = 0) :
    firstPayload (cells ++ tail) = firstPayload cells := by
  cases cells with
  | nil => exact htail
  | cons cell rest => rfl

theorem firstPayload_eq_zero_iff : firstPayload (cell :: cells) = 0 ↔ ¬ cell.Continues := by
  cases hcontent : cell.content with
  | spacer payload => cases payload <;> simp [firstPayload, Cell.Continues, hcontent]
  | _ => simp [firstPayload, Cell.Continues, hcontent]

theorem firstPayload_drop_eq_zero_iff {k : Nat} :
    firstPayload (cells.drop k) = 0 ↔ ¬ (cells.getD k default).Continues := by
  by_cases hk : k < cells.length
  · rw [drop_eq_getElem_cons hk, firstPayload_eq_zero_iff, getD_eq_getElem _ _ hk]
  · rw [drop_of_length_le (by omega), getD_eq_default _ _ (by omega)]
    exact ⟨fun _ => Cell.not_continues_default, fun _ => rfl⟩

variable {n : Nat}

theorem firstPayload_of_countsDown (h : countsDown (n + 1) cells = true) : firstPayload cells = n + 1 := by
  cases cells with
  | nil => cases h
  | cons cell rest =>
    simp only [countsDown, Bool.and_eq_true, decide_eq_true_eq] at h
    simp [firstPayload, h.1]

theorem countsDown_append (hn : n ≤ cells.length) : countsDown n (cells ++ tail) = countsDown n cells := by
  fun_induction countsDown with
  | case1 => rfl
  | case2 => cases hn
  | case3 _ _ _ ih => rw [cons_append, countsDown, ih (by simpa using hn)]

theorem countsDown_take (h : countsDown n cells = true) : countsDown n (cells.take n) = true := by
  have hlen : (cells.take n).length = n := length_take_of_le (length_le_of_countsDown h)
  have hrun : countsDown n (cells.take n ++ cells.drop n) = countsDown n (cells.take n) := countsDown_append hlen.ge
  rw [← hrun, take_append_drop]
  exact h

theorem le_length_of_countsDown_append (htail : firstPayload tail = 0)
    (h : countsDown n (cells ++ tail) = true) : n ≤ cells.length := by
  induction n generalizing cells with
  | zero => exact zero_le _
  | succ n ih =>
    cases cells with
    | nil =>
      rw [nil_append] at h
      rw [firstPayload_of_countsDown h] at htail
      cases htail
    | cons cell rest =>
      simp only [cons_append, countsDown, Bool.and_eq_true] at h
      exact succ_le_succ (ih h.2)

theorem countsDown_drop {k : Nat} (h : countsDown n cells = true) (hk : k ≤ n) :
    countsDown (n - k) (cells.drop k) = true := by
  induction k generalizing n cells with
  | zero => exact h
  | succ k ih =>
    obtain ⟨n, rfl⟩ : ∃ m, n = m + 1 := ⟨n - 1, by omega⟩
    cases cells with
    | nil => cases h
    | cons cell rest =>
      simp only [countsDown, Bool.and_eq_true] at h
      rw [Nat.add_sub_add_right]
      exact ih h.2 (by omega)

end

/-! ## Clearing -/

theorem clearFrom_congr {fuel fuel' column : Nat} (hfuel : cells.length ≤ fuel) (hfuel' : cells.length ≤ fuel') :
    clearFrom start stop fuel column cells = clearFrom start stop fuel' column cells := by
  induction fuel generalizing fuel' column cells with
  | zero =>
    obtain rfl : cells = [] := length_eq_zero_iff.mp (by omega)
    cases fuel' <;> rfl
  | succ fuel ih =>
    cases cells with
    | nil => cases fuel' <;> rfl
    | cons leader rest =>
      rw [length_cons] at hfuel hfuel'
      obtain ⟨fuel', rfl⟩ : ∃ m, fuel' = m + 1 := ⟨fuel' - 1, by omega⟩
      simp only [clearFrom]
      rw [ih (by rw [length_drop]; omega) (by rw [length_drop]; omega : _ ≤ fuel'),
        ih (by omega) (by omega : _ ≤ fuel')]

/-- The scan of cells that start at `column`, to their end. -/
def cleared (start stop column : Nat) (cells : List Cell) : List Cell :=
  clearFrom start stop cells.length column cells

section

variable {start stop column : Nat} {cells tail : List Cell}

@[simp] theorem length_cleared : (cleared start stop column cells).length = cells.length :=
  length_clearFrom ..

/-- A cleared cell is a blank cell or what it was. -/
theorem getD_cleared (start stop column : Nat) (cells : List Cell) (k : Nat) :
    (cleared start stop column cells).getD k default = cells.getD k default ∨
      (cleared start stop column cells).getD k default = default := by
  have hlen : (cleared start stop column cells).length = cells.length := length_cleared
  by_cases hk : k < cells.length
  · have hcell := (forall₂_iff_get.mp (forall₂_clearFrom start stop cells.length column cells)).2 k hk
      (hk.trans_eq hlen.symm)
    rwa [getD_eq_getElem _ _ hk, getD_eq_getElem]
  · exact .inr (getD_eq_default _ _ (by omega))

theorem continues_of_cleared {k : Nat} (h : ((cleared start stop column cells).getD k default).Continues) :
    (cells.getD k default).Continues := by
  rcases getD_cleared start stop column cells k with heq | heq
  · rwa [heq] at h
  · rw [heq] at h
    exact absurd h Cell.not_continues_default

@[simp] theorem cleared_nil : cleared start stop column [] = [] := rfl

theorem cleared_cons (leader : Cell) (rest : List Cell) : cleared start stop column (leader :: rest) =
      if 0 < firstPayload rest ∧ countsDown (firstPayload rest) rest = true then
        (if column < stop ∧ start < column + (firstPayload rest + 1) then
            List.replicate (firstPayload rest + 1) default else leader :: rest.take (firstPayload rest))
          ++ cleared start stop (column + (firstPayload rest + 1)) (rest.drop (firstPayload rest))
      else leader :: cleared start stop (column + 1) rest := by
  have hfuel : clearFrom start stop rest.length (column + (firstPayload rest + 1))
      (rest.drop (firstPayload rest)) =
        cleared start stop (column + (firstPayload rest + 1)) (rest.drop (firstPayload rest)) :=
    clearFrom_congr (by rw [length_drop]; omega) le_rfl
  rw [cleared, length_cons, clearFrom, hfuel]
  rfl

/-- The edge of a character separates the scan left of it from the scan right of it. -/
theorem cleared_append (htail : firstPayload tail = 0) : cleared start stop column (cells ++ tail) =
      cleared start stop column cells ++ cleared start stop (column + cells.length) tail := by
  induction hlen : cells.length using Nat.strong_induction_on generalizing column cells with
  | _ n ih =>
    subst hlen
    cases cells with
    | nil => rfl
    | cons leader rest =>
      rw [cons_append, cleared_cons, cleared_cons, firstPayload_append_of_edge htail, length_cons]
      by_cases hrun : 0 < firstPayload rest ∧ countsDown (firstPayload rest) rest = true
      · have hle := length_le_of_countsDown hrun.2
        rw [if_pos hrun, if_pos ⟨hrun.1, (countsDown_append hle).trans hrun.2⟩,
          take_append_of_le_length hle, drop_append_of_le_length hle,
          ih _ (by rw [length_drop, length_cons]; omega) rfl, length_drop,
          append_assoc,
          show column + (firstPayload rest + 1) + (rest.length - firstPayload rest) =
            column + (rest.length + 1) by omega]
      · rw [if_neg hrun, if_neg, ih _ (lt_succ_self _) rfl, cons_append,
          show column + 1 + rest.length = column + (rest.length + 1) by omega]
        -- the run would have to end left of the edge
        intro hbad
        have hle := le_length_of_countsDown_append htail hbad.2
        exact hrun ⟨hbad.1, (countsDown_append hle).symm.trans hbad.2⟩

theorem cleared_outside (h : stop ≤ column ∨ column + cells.length ≤ start) :
    cleared start stop column cells = cells := by
  rw [cleared]
  generalize cells.length = fuel
  fun_induction clearFrom with
  | case1 | case2 => rfl
  | case3 _ column leader rest remaining hrun ih =>
    have hle := length_le_of_countsDown hrun.2
    rw [length_cons] at h
    rw [if_neg (by omega), ih (by rw [length_drop]; omega), cons_append, take_append_drop]
  | case4 _ _ _ _ _ _ ih =>
    rw [length_cons] at h
    rw [ih (by omega)]

theorem firstPayload_drop_cleared {k : Nat} (h : firstPayload (cells.drop k) = 0) :
    firstPayload ((cleared start stop column cells).drop k) = 0 := by
  rw [firstPayload_drop_eq_zero_iff] at h ⊢
  exact fun hcont => h (continues_of_cleared hcont)

end

end Row

/-! ## Characters -/

/-- A character: its leader and the spacers of its remaining columns. A padding cell leads no wide
character. -/
structure Glyph where
  leader : Cell
  spacers : List Cell
  leads : ¬ leader.Continues
  solid : spacers ≠ [] → leader.content ≠ .spacer 0
  counts : countsDown spacers.length spacers = true

namespace Glyph

def cells (g : Glyph) : List Cell := g.leader :: g.spacers

def width (g : Glyph) : Nat := g.spacers.length + 1

def Wide (g : Glyph) : Prop := 1 < g.width

instance : DecidablePred Wide := fun g => inferInstanceAs (Decidable (1 < g.width))

/-- A cell that continues nothing is a character of its own. -/
def single (cell : Cell) (h : ¬ cell.Continues) : Glyph where
  leader := cell
  spacers := []
  leads := h
  solid := fun hne => absurd rfl hne
  counts := rfl

variable {g : Glyph} {rest : List Cell}

@[simp] theorem length_cells : g.cells.length = g.width := rfl

theorem width_pos : 0 < g.width := succ_pos _

theorem cells_append : g.cells ++ rest = g.leader :: (g.spacers ++ rest) := rfl

theorem firstPayload_cells : Row.firstPayload (g.cells ++ rest) = 0 :=
  firstPayload_eq_zero_iff.mpr g.leads

theorem spacers_eq_nil (h : ¬ g.Wide) : g.spacers = [] := by
  apply length_eq_zero_iff.mp
  rw [Wide, width] at h
  omega

theorem firstPayload_spacers (hrest : Row.firstPayload rest = 0) :
    Row.firstPayload (g.spacers ++ rest) = g.spacers.length := by
  cases hlen : g.spacers.length with
  | zero => rw [length_eq_zero_iff.mp hlen, nil_append, hrest]
  | succ n =>
    have hcounts := g.counts
    rw [hlen] at hcounts
    rw [firstPayload_append (ne_nil_of_length_eq_add_one hlen)]
    exact firstPayload_of_countsDown hcounts

theorem countsDown_spacers : countsDown g.spacers.length (g.spacers ++ rest) = true :=
  (countsDown_append le_rfl).trans g.counts

/-- Behind its leader a character continues up to its end. -/
theorem continues {k : Nat} (hpos : 0 < k) (hk : k < g.width) : (g.cells.getD k default).Continues := by
  obtain ⟨k, rfl⟩ : ∃ j, k = j + 1 := ⟨k - 1, by omega⟩
  have hk' : k < g.spacers.length := by simpa [width] using hk
  have hdrop := countsDown_drop g.counts (le_of_lt hk')
  obtain ⟨n, hn⟩ : ∃ n, g.spacers.length - k = n + 1 := ⟨g.spacers.length - k - 1, by omega⟩
  rw [hn] at hdrop
  have hfirst := firstPayload_of_countsDown hdrop
  by_contra hcont
  rw [show g.cells.getD (k + 1) default = g.spacers.getD k default from rfl,
    ← firstPayload_drop_eq_zero_iff, hfirst] at hcont
  cases hcont

variable {start stop column : Nat}

/-- What the scan makes of a character at `column`. -/
def clearedCells (start stop column : Nat) (g : Glyph) : List Cell :=
  if g.Wide ∧ column < stop ∧ start < column + g.width then List.replicate g.width default else g.cells

@[simp] theorem length_clearedCells : (g.clearedCells start stop column).length = g.width := by
  rw [clearedCells]
  split
  · exact length_replicate
  · rfl

/-- A wide character is read as one even when a further spacer follows it. -/
theorem cleared_wide (hwide : g.Wide) : Row.cleared start stop column (g.cells ++ rest) =
    g.clearedCells start stop column ++ Row.cleared start stop (column + g.width) rest := by
  have hne : g.spacers ≠ [] := ne_nil_of_length_pos (lt_of_succ_lt_succ hwide)
  have hfirst : firstPayload (g.spacers ++ rest) = g.spacers.length := by
    have hnil : firstPayload (g.spacers ++ []) = g.spacers.length := firstPayload_spacers rfl
    rw [append_nil] at hnil
    rw [firstPayload_append hne, hnil]
  rw [cells_append, cleared_cons, hfirst,
    if_pos ⟨lt_of_succ_lt_succ hwide, countsDown_spacers⟩, take_left, drop_left, clearedCells]
  simp only [hwide, true_and]
  rfl

theorem cleared_cells (hrest : Row.firstPayload rest = 0) : Row.cleared start stop column (g.cells ++ rest) =
      g.clearedCells start stop column ++ Row.cleared start stop (column + g.width) rest := by
  by_cases hwide : g.Wide
  · exact cleared_wide hwide
  · have hnil := spacers_eq_nil hwide
    rw [cells_append, cleared_cons, firstPayload_spacers hrest, hnil, if_neg (by simp), clearedCells,
      if_neg fun hmeets => hwide hmeets.1, cells, width, hnil]
    rfl

end Glyph

/-- A sequence of characters. -/
inductive Tiled : List Cell → Prop where
  | nil : Tiled []
  | glyph (g : Glyph) {rest : List Cell} : Tiled rest → Tiled (g.cells ++ rest)

namespace Tiled

variable {l l' : List Cell} {start stop column k : Nat}

theorem single (hcell : ¬ cell.Continues) (h : Tiled l) : Tiled (cell :: l) :=
  glyph (.single cell hcell) h

theorem append (h : Tiled l) (h' : Tiled l') : Tiled (l ++ l') := by
  induction h with
  | nil => exact h'
  | glyph g _ ih =>
    rw [append_assoc]
    exact glyph g ih

theorem of_forall (h : ∀ cell ∈ l, ¬ cell.Continues) : Tiled l := by
  induction l with
  | nil => exact nil
  | cons cell rest ih => exact single (h cell mem_cons_self) (ih fun c hc => h c (mem_cons_of_mem cell hc))

theorem replicate (n : Nat) (h : ¬ cell.Continues) : Tiled (List.replicate n cell) :=
  of_forall fun _ hc => (eq_of_mem_replicate hc).symm ▸ h

theorem firstPayload (h : Tiled l) : Row.firstPayload l = 0 := by
  cases h with
  | nil => rfl
  | glyph g _ => exact Glyph.firstPayload_cells

theorem clearedCells (g : Glyph) : Tiled (g.clearedCells start stop column) := by
  rw [Glyph.clearedCells]
  split
  · exact replicate _ Cell.not_continues_default
  · simpa using glyph g nil

theorem cleared (h : Tiled l) : Tiled (Row.cleared start stop column l) := by
  induction h generalizing column with
  | nil => exact nil
  | glyph g hrest ih =>
    rw [Glyph.cleared_cells hrest.firstPayload]
    exact (clearedCells g).append ih

/-- A row may be cut at the edge of a character. -/
theorem split (h : Tiled l) (hedge : Row.firstPayload (l.drop k) = 0) : Tiled (l.take k) ∧ Tiled (l.drop k) := by
  induction h generalizing k with
  | nil => simpa using nil
  | @glyph g rest hrest ih =>
    by_cases hk : k = 0
    · subst hk
      exact ⟨nil, glyph g hrest⟩
    · -- inside the character the next cell would continue it
      have hle : g.width ≤ k := by
        by_contra hlt
        rw [firstPayload_drop_eq_zero_iff, getD_append _ _ _ _ (by simpa using hlt)] at hedge
        exact hedge (Glyph.continues (pos_of_ne_zero hk) (by omega))
      obtain ⟨j, rfl⟩ : ∃ j, k = g.width + j := ⟨k - g.width, by omega⟩
      rw [← Glyph.length_cells, drop_length_add_append] at hedge
      rw [← Glyph.length_cells, take_length_add_append, drop_length_add_append]
      obtain ⟨htake, hdrop⟩ := ih hedge
      exact ⟨glyph g htake, hdrop⟩

theorem first_run {leader : Cell} {rest : List Cell} (h : Tiled (leader :: rest)) :
    countsDown (Row.firstPayload rest) rest = true ∧ Row.firstPayload (rest.drop (Row.firstPayload rest)) = 0 := by
  generalize hcells : leader :: rest = cells at h
  cases h with
  | nil => cases hcells
  | glyph g htail =>
    rw [Glyph.cells_append] at hcells
    cases hcells
    rw [Glyph.firstPayload_spacers htail.firstPayload, drop_left]
    exact ⟨g.countsDown_spacers, htail.firstPayload⟩

theorem edge_leaderOf (h : Tiled l) (column : Nat) : Row.firstPayload (l.drop (leaderOf l column)) = 0 := by
  fun_induction leaderOf with
  | case1 => exact h.firstPayload
  | case2 _ _ ih => exact ih
  | case3 _ hleads => exact firstPayload_drop_eq_zero_iff.mpr hleads

/-- After the scan no character crosses an edge inside `[start, stop]`. -/
theorem edge_cleared (h : Tiled l) (hstart : start ≤ column + k) (hstop : column + k ≤ stop) :
    Row.firstPayload ((Row.cleared start stop column l).drop k) = 0 := by
  induction h generalizing column k with
  | nil => simp [Row.firstPayload]
  | @glyph g rest hrest ih =>
    rw [Glyph.cleared_cells hrest.firstPayload]
    by_cases hk : k < g.width
    · rw [drop_append_of_le_length (by simpa using hk.le)]
      rw [firstPayload_append_of_edge hrest.cleared.firstPayload]
      rcases Nat.eq_zero_or_pos k with rfl | hpos
      · exact (clearedCells g).firstPayload
      · -- the character meets the range, so nothing of it is left
        rw [Glyph.clearedCells, if_pos ⟨by rw [Glyph.Wide]; omega, by omega, by omega⟩, drop_replicate]
        exact (replicate _ Cell.not_continues_default).firstPayload
    · obtain ⟨j, rfl⟩ : ∃ j, k = g.width + j := ⟨k - g.width, by omega⟩
      rw [drop_append, drop_of_length_le (by simp), nil_append, Glyph.length_clearedCells, Nat.add_sub_cancel_left]
      exact ih (by omega) (by omega)

/-- Both ends of a range are edges after the scan, so it may be overwritten with characters of one column. -/
theorem overwritten {cell : Cell} (h : Tiled l) (hle : start ≤ stop) (hcell : ¬ cell.Continues) :
    Tiled ((Row.cleared start stop 0 l).take start ++ List.replicate (stop - start) cell ++
      (Row.cleared start stop 0 l).drop stop) := by
  have hleft : Row.firstPayload ((Row.cleared start stop 0 l).drop start) = 0 := h.edge_cleared (by omega) (by omega)
  have hright : Row.firstPayload ((Row.cleared start stop 0 l).drop stop) = 0 := h.edge_cleared (by omega) (by omega)
  exact ((h.cleared.split hleft).1.append (replicate _ hcell)).append (h.cleared.split hright).2

end Tiled

namespace Row

/-! ## Valid rows -/

theorem tiled_of_run {leader : Cell} {rest : List Cell} {n : Nat} (hleads : ¬ leader.Continues)
    (hsolid : leader.content ≠ .spacer 0) (hcounts : countsDown n rest = true)
    (hrest : Tiled (rest.drop n)) : Tiled (leader :: rest) := by
  have hlen : (rest.take n).length = n := length_take_of_le (length_le_of_countsDown hcounts)
  have htiled := Tiled.glyph
    ⟨leader, rest.take n, hleads, fun _ => hsolid, hlen.symm ▸ countsDown_take hcounts⟩ hrest
  rwa [Glyph.cells_append, take_append_drop] at htiled

variable {fuel : Nat} {cells : List Cell}

theorem tiled_of_validFrom (hfuel : cells.length ≤ fuel) (h : validFrom fuel cells = true) : Tiled cells := by
  fun_induction validFrom with
  | case1 =>
    rw [length_eq_zero_iff.mp (le_zero.mp hfuel)]
    exact Tiled.nil
  | case2 => exact Tiled.nil
  | case3 _ _ _ hcontent ih => exact (ih (le_of_succ_le_succ hfuel) h).single (by simp [Cell.Continues, hcontent])
  | case4 => cases h
  | case5 _ _ _ _ _ _ hspacer ih => exact (ih (le_of_succ_le_succ hfuel) h).single (Cell.not_continues_of hspacer)
  | case6 _ _ rest _ _ hpadding hspacer ih =>
    rw [Bool.and_eq_true] at h
    have hrest := le_of_succ_le_succ hfuel
    exact tiled_of_run (Cell.not_continues_of hspacer) hpadding h.1 (ih (by rw [length_drop]; omega) h.2)

theorem validFrom_of_tiled (hfuel : cells.length ≤ fuel) (h : Tiled cells) : validFrom fuel cells = true := by
  induction h generalizing fuel with
  | nil => cases fuel <;> rfl
  | @glyph g rest hrest ih =>
    have hlen : g.spacers.length + 1 + rest.length ≤ fuel := by simpa [Glyph.width] using hfuel
    obtain ⟨fuel, rfl⟩ : ∃ m, fuel = m + 1 := ⟨fuel - 1, by omega⟩
    have hnarrow (hnil : g.spacers = []) : validFrom fuel (g.spacers ++ rest) = true := by
      rw [hnil, nil_append]
      exact ih (by omega)
    rw [Glyph.cells_append, validFrom]
    split
    · -- padding stands alone
      next hcontent => exact hnarrow (by_contra fun hne => g.solid hne hcontent)
    · next hcontent => exact absurd (Cell.continues_of_spacer hcontent) g.leads
    · dsimp only
      rw [Glyph.firstPayload_spacers hrest.firstPayload]
      split
      · next hzero => exact hnarrow (length_eq_zero_iff.mp hzero)
      · rw [Glyph.countsDown_spacers, drop_left, Bool.true_and]
        exact ih (by omega)

theorem hasValidWideCells_iff {row : Row} : row.hasValidWideCells = true ↔ Tiled row.cells :=
  ⟨tiled_of_validFrom le_rfl, validFrom_of_tiled le_rfl⟩

/-! ## Repair -/

theorem repairFrom_leader {column : Nat} (hcolumn : column < cells.length)
    (h : ¬ (cells.getD column default).Continues) :
    repairFrom (fuel + 1) column cells = repairFrom fuel (column + 1) cells := by
  rw [repairFrom, if_pos hcolumn]
  split
  · next hcontent => exact absurd (Cell.continues_of_spacer hcontent) h
  · rfl

/-- The first spacer of a character leads the scan to its end. -/
theorem repairFrom_spacers {leader n : Nat} (hleads : ¬ (cells.getD leader default).Continues)
    (hcounts : countsDown (n + 1) (cells.drop (leader + 1)) = true) :
    repairFrom (fuel + 1) (leader + 1) cells = repairFrom fuel (leader + (n + 2)) cells := by
  have hlen := length_le_of_countsDown hcounts
  rw [length_drop] at hlen
  have hcolumn : leader + 1 < cells.length := by omega
  have hcontent : (cells.getD (leader + 1) default).content = .spacer (n + 1) := by
    rw [drop_eq_getElem_cons hcolumn] at hcounts
    simp only [countsDown, Bool.and_eq_true, decide_eq_true_eq] at hcounts
    rw [getD_eq_getElem _ _ hcolumn]
    exact hcounts.1
  have hleader : leaderOf cells (leader + 1) = leader := by
    rw [leaderOf, if_pos (by rw [hcontent]; rfl)]
    cases leader with
    | zero => rfl
    | succ leader => rw [leaderOf, if_neg (show ¬ CellContent.isContinuation _ = true from hleads)]
  rw [repairFrom, if_pos hcolumn, hcontent]
  dsimp only
  rw [hleader, if_pos ⟨lt_succ_self leader, hcounts⟩]

/-- The repair of valid cells ends and changes nothing, however wide the characters are. -/
theorem repairFrom_tiled {before l : List Cell} (h : Tiled l) (hfuel : l.length ≤ fuel) :
    repairFrom fuel before.length (before ++ l) = some (before ++ l) := by
  induction h generalizing fuel before with
  | nil =>
    cases fuel <;> rw [repairFrom, if_neg (by simp)]
  | @glyph g rest hrest ih =>
    have hlen : g.spacers.length + 1 + rest.length ≤ fuel := by simpa [Glyph.width] using hfuel
    obtain ⟨fuel, rfl⟩ : ∃ m, fuel = m + 1 := ⟨fuel - 1, by omega⟩
    have hleader : (before ++ (g.cells ++ rest)).getD before.length default = g.leader := by
      rw [getD_append_right _ _ _ _ le_rfl, Nat.sub_self]
      rfl
    have hleads : ¬ ((before ++ (g.cells ++ rest)).getD before.length default).Continues := by
      rw [hleader]
      exact g.leads
    have hnext {m : Nat} (hm : rest.length ≤ m) :
        repairFrom m (before.length + g.width) (before ++ (g.cells ++ rest)) = some (before ++ (g.cells ++ rest)) := by
      have hih := @ih m (before ++ g.cells) hm
      rwa [length_append, Glyph.length_cells, append_assoc] at hih
    rw [repairFrom_leader (by simp [Glyph.width]) hleads]
    cases hspacers : g.spacers.length with
    | zero =>
      have hone : g.width = 1 := by rw [Glyph.width, hspacers]
      rw [← hone]
      exact hnext (by omega)
    | succ n =>
      obtain ⟨fuel, rfl⟩ : ∃ m, fuel = m + 1 := ⟨fuel - 1, by omega⟩
      have hcounts : countsDown (n + 1) ((before ++ (g.cells ++ rest)).drop (before.length + 1)) = true := by
        rw [drop_length_add_append, ← hspacers]
        exact Glyph.countsDown_spacers
      rw [repairFrom_spacers hleads hcounts, show before.length + (n + 2) = before.length + g.width by
        rw [Glyph.width, hspacers]]
      exact hnext (by omega)

theorem wp_repairWideCells_iff {row : Row} (h : Tiled row.cells) {post : Unit → Row → Prop}
    {fail : Fault → Row → Prop} : wp repairWideCells post fail row ↔ post () row := by
  have hsame : repairFrom row.cells.length ([] : List Cell).length ([] ++ row.cells) =
      some ([] ++ row.cells) := repairFrom_tiled h le_rfl
  rw [nil_append, length_nil] at hsame
  simp only [repairWideCells, wp_bind, wp_get, hsame, wp_set]

end Row

end Splinterm.Terminal
