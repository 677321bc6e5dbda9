import Splinterm.Terminal.GridEdit

/-!
# Grids made anew

New grids, grids whose visible rows are reset in place, and grids whose rows all
receive new identities: the invariant holds of each.
-/

namespace Splinterm.Terminal.Grid

open Lib Hoare Grid

variable {policy : Policy} {g g' : Grid}

/-! ## New grids -/

theorem isPowerOfTwo_pos {n : Nat} (h : isPowerOfTwo n = true) : 0 < n := by
  rw [isPowerOfTwo, decide_eq_true_eq] at h
  exact h.2

def blank (rowCapacity columns : Nat) (h : 0 < rowCapacity) : Grid :=
  { slots := .replicate rowCapacity h {}, columns, offset := 0, view := 0, screenRows := 1,
    cursor := {}, savedCursor := {}, generation := 0, nextRowId := 1, historyGeneration := 1 }

variable {rowCapacity : Nat}

theorem rowCapacity_blank (columns : Nat) (h : 0 < rowCapacity) :
    (blank rowCapacity columns h).rowCapacity = rowCapacity := List.length_replicate

theorem get_blank (columns : Nat) (h : 0 < rowCapacity) (p : Int) : (blank rowCapacity columns h).slots.get p = {} := by
  rw [blank, RingBuffer.get_replicate]

variable {columns : Nat}

theorem new_eq_ok : Grid.new rowCapacity columns = .ok g ↔
      ∃ h : 0 < rowCapacity, isPowerOfTwo rowCapacity = true ∧ columns ≠ 0 ∧ columns < 2 ^ 31 ∧
        rowCapacity ≤ 2 ^ 30 ∧ blank rowCapacity columns h = g := by
  rw [new]
  by_cases hpos : 0 < rowCapacity
  · rw [dif_pos hpos]
    simp only [bind_eq_ok, rejectIf_eq_ok, exists_const, pure, Except.pure, Except.ok.injEq,
      Bool.not_eq_false, not_le, not_lt, blank, hpos, exists_true_left]
  · simp [hpos]

variable {screenRows : Nat}

theorem new_of_sized (h : Sized rowCapacity columns screenRows) :
    Grid.new rowCapacity columns = .ok (blank rowCapacity columns (isPowerOfTwo_pos h.capacity)) :=
  new_eq_ok.mpr ⟨_, h.capacity, h.columns_pos.ne', h.columns_lt, h.capacity_le, rfl⟩

theorem Sized.checked (h : Sized rowCapacity columns screenRows) : rejectIf (¬ (1 ≤ screenRows ∧ screenRows ≤
      (blank rowCapacity columns (isPowerOfTwo_pos h.capacity)).rowCapacity)) Fault.panic = .ok () := by
  rw [rejectIf_eq_ok, not_not, rowCapacity_blank]
  exact ⟨h.screenRows_pos, h.screenRows_le⟩

/-- A size `Grid.new` and the check after it accept. -/
theorem sized_of_ok {dimensions : Grid} {u : Unit} (hnew : Grid.new rowCapacity columns = .ok dimensions)
    (hcheck : rejectIf (¬ (1 ≤ screenRows ∧ screenRows ≤ dimensions.rowCapacity)) Fault.panic =
      .ok u) : Sized rowCapacity columns screenRows := by
  obtain ⟨hpos, hpow, hzero, hlt, hle, rfl⟩ := new_eq_ok.mp hnew
  rw [rejectIf_eq_ok, not_not, rowCapacity_blank] at hcheck
  exact ⟨hpow, hle, Nat.pos_of_ne_zero hzero, hlt, hcheck.1, hcheck.2⟩

theorem sized_of_withScreenSize (h : Grid.withScreenSize rowCapacity columns screenRows = .ok g) :
    ∃ hs : Sized rowCapacity columns screenRows,
      (List.range screenRows).foldl (fun g (row : Nat) => g.editOrAllocate (0 + row) id)
        { blank rowCapacity columns (isPowerOfTwo_pos hs.capacity) with screenRows } = g := by
  obtain ⟨dimensions, hnew, h⟩ := bind_eq_ok.mp h
  obtain ⟨_, hcheck, h⟩ := bind_eq_ok.mp h
  refine ⟨sized_of_ok hnew hcheck, ?_⟩
  obtain ⟨hpos, -, -, -, -, rfl⟩ := new_eq_ok.mp hnew
  cases h
  simp only [zero_add]

theorem inv_of_withScreenSize (h : Grid.withScreenSize rowCapacity columns screenRows = .ok g) : g.Inv policy := by
  obtain ⟨hs, rfl⟩ := sized_of_withScreenSize h
  set start : Grid := { blank rowCapacity columns (isPowerOfTwo_pos hs.capacity) with screenRows }
  have hcap : start.rowCapacity = rowCapacity := rowCapacity_blank columns (isPowerOfTwo_pos hs.capacity)
  have hempty : ∀ p : Int, start.slots.get p = {} := get_blank columns (isPowerOfTwo_pos hs.capacity)
  have hstored : Stored policy start.columns start.nextRowId start.slots := by
    constructor
    · intro p
      rw [hempty]
      exact Slot.Ok.empty
    · intro p q hp
      rw [hempty] at hp
      cases hp
  have hal := allocated (g := start) id 0
    (show screenRows ≤ start.rowCapacity from hcap ▸ hs.screenRows_le)
  have hhome : start.OnScreen {} := ⟨hs.columns_pos, hs.screenRows_pos⟩
  apply inv_of_frame (g := start) (hcap.symm ▸ hs) hhome hhome hal.same.frame
    (hal.same.offset.trans_lt (hcap.symm ▸ isPowerOfTwo_pos hs.capacity))
    (hal.same.view.trans hal.same.offset.symm) (Nat.one_pos.trans_le hal.same.nextRowId)
    (hal.stored hstored Nat.one_pos fun _ hshaped => hshaped)
  · intro r hr
    have hrow := hal.row r hr
    rw [zero_add] at hrow
    exact Option.isSome_of_eq_some hrow
  · intro p q hlow hpq hhigh hp _
    have hrows : start.screenRows = screenRows := rfl
    rw [hal.same.slot_below (by omega) (by omega), slot, hempty] at hp
    cases hp

/-! ## New identities for all rows -/

theorem screenRows_reidentifyAllocatedRow (g : Grid) (p : Int) :
    (g.reidentifyAllocatedRow p).screenRows = g.screenRows := by
  rw [reidentifyAllocatedRow_eq]
  split <;> rfl

theorem reidentifyAllocatedRowsChronologically_eq (g : Grid) :
    g.reidentifyAllocatedRowsChronologically =
      (List.range g.rowCapacity).foldl
        (fun g' (j : Nat) => g'.reidentifyAllocatedRow ((g.screenRows : Int) + j)) g := by
  have hboth : ∀ n : Nat, (List.range n).foldl
      (fun g (j : Nat) => g.reidentifyAllocatedRow (g.screenRows + j)) g = (List.range n).foldl
          (fun g' (j : Nat) => g'.reidentifyAllocatedRow ((g.screenRows : Int) + j)) g ∧ ((List.range n).foldl
        (fun g (j : Nat) => g.reidentifyAllocatedRow (g.screenRows + j)) g).screenRows =
        g.screenRows := by
    intro n
    induction n with
    | zero => exact ⟨rfl, rfl⟩
    | succ n ih =>
      simp only [List.range_succ, List.foldl_append, List.foldl_cons, List.foldl_nil]
      rw [screenRows_reidentifyAllocatedRow, ih.2, ih.1]
      exact ⟨rfl, rfl⟩
  exact (hboth _).1

/-- Rows that are well shaped, with or without identities. -/
structure Laid (policy : Policy) (g : Grid) : Prop where
  sized : Sized g.rowCapacity g.columns g.screenRows
  offset : g.offset < g.rowCapacity
  view : g.view = g.offset
  cursor : g.OnScreen g.cursor
  savedCursor : g.OnScreen g.savedCursor
  nextRowId_pos : 0 < g.nextRowId
  row : ∀ (p : Int) (row : Row), g.row p = some row → row.Shaped policy g.columns
  unallocated : ∀ p : Int, (g.slot p).row = none → (g.slot p).id = 0
  visible : ∀ r : Nat, r < g.screenRows → (g.slot r).row.isSome = true

theorem Inv.laid (h : g.Inv policy) : g.Laid policy where
  sized := h.sized
  offset := h.offset
  view := h.view
  cursor := h.cursor
  savedCursor := h.savedCursor
  nextRowId_pos := h.nextRowId_pos
  row := fun p row hrow => (h.stored.ok _).shaped hrow
  unallocated := fun p hrow => by rw [slot, h.stored.eq_empty hrow]
  visible := h.visible

theorem Laid.reidentified (h : g.Laid policy) : g.reidentifyAllocatedRowsChronologically.Inv policy := by
  rw [reidentifyAllocatedRowsChronologically_eq]
  have hre := Grid.reidentified (g.screenRows : Int) (le_refl g.rowCapacity)
  set final := (List.range g.rowCapacity).foldl
    (fun g' (j : Nat) => g'.reidentifyAllocatedRow ((g.screenRows : Int) + j)) g
  have hcap : final.rowCapacity = g.rowCapacity := hre.same.size
  apply inv_of_frame h.sized h.cursor h.savedCursor hre.same.frame
    (hre.same.offset.trans_lt h.offset) (by rw [hre.same.view, hre.same.offset, h.view])
    (h.nextRowId_pos.trans_le hre.same.nextRowId)
    (hre.stored (fun p hp => absurd hp (g.not_beyond _ p)) h.row h.unallocated h.nextRowId_pos)
  · intro r hr
    rw [hre.row]
    exact h.visible r hr
  · intro p q hlow hpq hhigh hp hq
    have hat : ∀ p : Int, final.slot p = final.slot ((g.screenRows : Int) +
        (p + g.rowCapacity - g.screenRows)) := fun p => by
      rw [← slot_add_capacity final]
      congr 1
      omega
    obtain ⟨i, hi⟩ : ∃ i : Nat, (i : Int) = p + g.rowCapacity - g.screenRows :=
      ⟨(p + g.rowCapacity - g.screenRows).toNat, by omega⟩
    obtain ⟨j, hj⟩ : ∃ j : Nat, (j : Int) = q + g.rowCapacity - g.screenRows :=
      ⟨(q + g.rowCapacity - g.screenRows).toNat, by omega⟩
    rw [hat p, ← hi] at hp ⊢
    rw [hat q, ← hj] at hq ⊢
    exact hre.increasing i j (by omega) (by omega) hp hq

/-- A reset grid goes on in the identities of the grid it replaces. -/
theorem Inv.continueHistoryNamespace (h : g.Inv policy) {historySpace : Nat × Nat}
    (hpos : 0 < historySpace.1) : (g.continueHistoryNamespace historySpace).Inv policy := by
  have hlaid : ({ g with nextRowId := historySpace.1, historyGeneration := historySpace.2 + 1 } :
      Grid).Laid policy := { h.laid with nextRowId_pos := hpos }
  exact hlaid.reidentified

/-! ## Resetting in place -/

theorem Inv.resetVisible (h : g.Inv policy) (background : Color) : (g.resetVisible background).Inv policy := by
  have hal := allocated (Row.eraseAll background) 0 h.screenRows_le
  simp only [zero_add] at hal
  set final := (List.range g.screenRows).foldl
    (fun g (row : Nat) => g.editOrAllocate row (Row.eraseAll background)) g
  have hhistory : ∀ p : Int, (g.screenRows : Int) - g.rowCapacity ≤ p → p < 0 →
      final.slot p = g.slot p := fun p hlow hhigh => hal.same.slot_below (by omega) hhigh
  have hinv : final.Inv policy := by
    apply inv_of_frame h.sized h.cursor h.savedCursor hal.same.frame
      (hal.same.offset.trans_lt h.offset) (by rw [hal.same.view, hal.same.offset, h.view])
      (h.nextRowId_pos.trans_le hal.same.nextRowId)
      (hal.stored h.stored h.nextRowId_pos fun _ hs => hs.eraseAll background)
    · intro r hr
      exact Option.isSome_iff_exists.mpr ⟨_, zero_add (r : Int) ▸ hal.row r hr⟩
    · intro p q hlow hpq hhigh hp hq
      rw [hhistory p hlow (by omega)] at hp ⊢
      rw [hhistory q (by omega) hhigh] at hq ⊢
      exact h.history p q hlow hpq hhigh hp hq
  have hhome : final.OnScreen {} := ⟨hinv.columns_pos, hinv.screenRows_pos⟩
  exact { hinv with cursor := hhome, savedCursor := hhome, view := rfl }

/-! ## Resizing without reflow -/

theorem onScreen_resizedCursor (cursor : Cursor) (oldScreenRows : Nat) (hcolumns : 0 < g.columns)
    (hrows : 0 < g.screenRows) : g.OnScreen (resizedCursor cursor oldScreenRows g.columns g.screenRows) := by
  simp only [OnScreen, resizedCursor]
  constructor
  · omega
  · split <;> omega

/-- The row a resize without reflow keeps at `row`, or makes. -/
def keptRow (newColumns newScreenRows : Nat) (g : Grid) (row : Nat) : Row :=
  if row < min g.screenRows newScreenRows then
    (((g.row row).getD (Row.newDirty g.columns)).resizeWithoutReflow newColumns).setLinebreak true
  else Row.newDirty newColumns

theorem shaped_keptRow (h : g.Inv policy) (newColumns newScreenRows row : Nat) :
    (g.keptRow newColumns newScreenRows row).Shaped policy newColumns := by
  rw [keptRow]
  split
  · apply Row.Shaped.setLinebreak
    cases hrow : g.row row with
    | some old => exact Row.Shaped.resizeWithoutReflow ((h.stored.ok _).shaped hrow) newColumns
    | none =>
      have hnew : (Row.newDirty g.columns).Shaped policy g.columns := Row.shaped_newDirty _
      exact hnew.resizeWithoutReflow newColumns
  · exact Row.shaped_newDirty newColumns

theorem Inv.resizeWithoutReflow (h : g.Inv policy) {resized : Grid × OrdMap Nat Nat}
    (hok : g.resizeWithoutReflow rowCapacity columns screenRows = .ok resized) : resized.1.Inv policy := by
  obtain ⟨dimensions, hnew, hok⟩ := bind_eq_ok.mp hok
  obtain ⟨_, hcheck, hok⟩ := bind_eq_ok.mp hok
  have hs := sized_of_ok hnew hcheck
  obtain ⟨hpos, -, -, -, -, rfl⟩ := new_eq_ok.mp hnew
  cases hok
  set start : Grid := { blank rowCapacity columns hpos with screenRows }
  have hcap : start.rowCapacity = rowCapacity := rowCapacity_blank columns hpos
  have hempty : ∀ p : Int, start.slot p = {} := fun p => get_blank columns hpos _
  have hfill := filled (g := start) (fun row => { row := some (g.keptRow columns screenRows row) }) 0
    (show screenRows ≤ start.rowCapacity from hcap ▸ hs.screenRows_le)
  simp only [zero_add] at hfill
  set filledGrid := (List.range screenRows).foldl (fun g' (row : Nat) =>
    g'.setSlot row { row := some (g.keptRow columns screenRows row) }) start
  set placed : Grid :=
    { filledGrid with
      cursor := resizedCursor g.cursor g.screenRows columns screenRows
      savedCursor := resizedCursor g.savedCursor g.screenRows columns screenRows
      generation := g.generation + 1
      nextRowId := g.nextRowId
      historyGeneration := g.historyGeneration + 1 }
  have hfcap : placed.rowCapacity = rowCapacity := hfill.same.size.trans hcap
  have hfcolumns : placed.columns = columns := hfill.same.columns
  have hfrows : placed.screenRows = screenRows := hfill.same.screenRows
  -- a slot holds a row of the new screen, or nothing
  have hslot : ∀ p : Int, (∃ i, placed.slot p = { row := some (g.keptRow columns screenRows i) }) ∨
      placed.slot p = {} := fun p =>
    (hfill.same.slot_cases p).imp
      (fun ⟨i, hi, _, heq⟩ => ⟨i, heq.trans (hfill.slot i hi)⟩)
      fun ⟨_, heq⟩ => heq.trans (hempty p)
  have hcursor : ∀ cursor : Cursor, placed.OnScreen (resizedCursor cursor g.screenRows columns screenRows) := by
    intro cursor
    have hon := onScreen_resizedCursor (g := placed) cursor g.screenRows
      (hfcolumns.symm ▸ hs.columns_pos) (hfrows.symm ▸ hs.screenRows_pos)
    rwa [hfcolumns, hfrows] at hon
  have hlaid : placed.Laid policy :=
    { sized := by
        rw [hfcap, hfcolumns, hfrows]
        exact hs
      offset := by
        rw [show placed.offset = 0 from hfill.same.offset, hfcap]
        exact hpos
      view := hfill.same.view.trans hfill.same.offset.symm
      cursor := hcursor _
      savedCursor := hcursor _
      nextRowId_pos := h.nextRowId_pos
      row := by
        intro p row hrow
        rw [hfcolumns]
        rcases hslot p with ⟨i, heq⟩ | heq
        · rw [Grid.row, heq] at hrow
          cases hrow
          exact shaped_keptRow h columns screenRows i
        · rw [Grid.row, heq] at hrow
          cases hrow
      unallocated := by
        intro p hrow
        rcases hslot p with ⟨i, heq⟩ | heq
        · rw [heq]
        · rw [heq]
      visible := by
        intro r hr
        rw [← zero_add (r : Int), show placed.slot (0 + r) = _ from hfill.slot r (hfrows ▸ hr)]
        rfl }
  exact hlaid.reidentified

end Splinterm.Terminal.Grid
