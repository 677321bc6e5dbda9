import Splinterm.Terminal.GridShape

/-!
# Scrolling

What a forward and a reverse scroll of a region do to every row of the screen and
of the history. The source moves the origin of the ring and swaps the rows outside
the region back into place; here the result is stated row by row.
-/

namespace Splinterm.Terminal.Grid

open Lib Hoare RingBuffer Nat Grid

/-- The sizes `Grid.new` and its callers assert. -/
structure Sized (rowCapacity columns screenRows : Nat) : Prop where
  capacity : isPowerOfTwo rowCapacity = true
  capacity_le : rowCapacity ≤ 2 ^ 30
  columns_pos : 0 < columns
  columns_lt : columns < 2 ^ 31
  screenRows_pos : 0 < screenRows
  screenRows_le : screenRows ≤ rowCapacity

/-- The grid's representation invariant. -/
structure Inv (policy : Policy) (g : Grid) : Prop where
  capacity : isPowerOfTwo g.rowCapacity = true
  capacity_le : g.rowCapacity ≤ 2 ^ 30
  columns_pos : 0 < g.columns
  columns_lt : g.columns < 2 ^ 31
  screenRows_pos : 0 < g.screenRows
  screenRows_le : g.screenRows ≤ g.rowCapacity
  offset : g.offset < g.rowCapacity
  view : g.view = g.offset
  cursor : g.OnScreen g.cursor
  savedCursor : g.OnScreen g.savedCursor
  nextRowId_pos : 0 < g.nextRowId
  stored : Stored policy g.columns g.nextRowId g.slots
  visible : ∀ r : Nat, r < g.screenRows → (g.slot r).row.isSome = true
  history : ∀ p q : Int, (g.screenRows : Int) - g.rowCapacity ≤ p → p < q → q < 0 →
    (g.slot p).row.isSome = true → (g.slot q).row.isSome = true → (g.slot p).id < (g.slot q).id

variable {policy : Policy} {g g' : Grid} {view start stop rows : Nat} {background : Color}

theorem SameFrame.trans {g'' : Grid} (h : g.SameFrame g') (h' : g'.SameFrame g'') : g.SameFrame g'' :=
  ⟨h'.columns.trans h.columns, h'.screenRows.trans h.screenRows, h'.cursor.trans h.cursor,
    h'.savedCursor.trans h.savedCursor, h'.historyGeneration.trans h.historyGeneration, h'.size.trans h.size⟩

theorem Inv.sized (h : g.Inv policy) : Sized g.rowCapacity g.columns g.screenRows :=
  { h with }

/-- A grid of a proper frame satisfies the invariant when its slots do. -/
theorem inv_of_frame (hs : Sized g.rowCapacity g.columns g.screenRows) (hcursor : g.OnScreen g.cursor)
    (hsaved : g.OnScreen g.savedCursor) (hf : g.SameFrame g') (hoffset : g'.offset < g.rowCapacity)
    (hview : g'.view = g'.offset) (hpos : 0 < g'.nextRowId) (hstored : Stored policy g.columns g'.nextRowId g'.slots)
    (hvisible : ∀ r : Nat, r < g.screenRows → (g'.slot r).row.isSome = true)
    (hhistory : ∀ p q : Int, (g.screenRows : Int) - g.rowCapacity ≤ p → p < q → q < 0 →
      (g'.slot p).row.isSome = true → (g'.slot q).row.isSome = true →
      (g'.slot p).id < (g'.slot q).id) : g'.Inv policy := by
  have hcap : g'.rowCapacity = g.rowCapacity := hf.size
  rw [← hcap, ← hf.columns, ← hf.screenRows] at hs
  exact
    { hs with
      offset := by rw [hcap]; exact hoffset
      view := hview
      cursor := by rw [hf.cursor, OnScreen, hf.columns, hf.screenRows]; exact hcursor
      savedCursor := by rw [hf.savedCursor, OnScreen, hf.columns, hf.screenRows]; exact hsaved
      nextRowId_pos := hpos
      stored := by rw [hf.columns]; exact hstored
      visible := by rw [hf.screenRows]; exact hvisible
      history := by rw [hf.screenRows, hcap]; exact hhistory }

/-- A row a scroll exposes: what erasing makes of a row of the grid, or of a new one. -/
def Erased (background : Color) (g : Grid) (row : Row) : Prop :=
  ∃ old, (old = Row.new g.columns ∨ ∃ p, g.row p = some old) ∧ row = old.eraseAll background

theorem erased_editedRow {q : Int} (hcolumns : g'.columns = g.columns)
    (hsource : g'.slot q = {} ∨ ∃ p, g'.slot q = g.slot p) (background : Color) :
    g.Erased background (g'.editedRow (Row.eraseAll background) q) := by
  refine ⟨(g'.row q).getD (Row.new g'.columns), ?_, rfl⟩
  rcases hsource with hnone | ⟨p, hp⟩
  · rw [row, hnone, hcolumns]
    exact .inl rfl
  · rw [show g'.row q = g.row p from congrArg Slot.row hp]
    cases hrow : g.row p with
    | none => exact .inl (congrArg Row.new hcolumns)
    | some row => exact .inr ⟨p, hrow⟩

/-- The slots once the origin has moved and the rows around the region are back. -/
structure Turned (view start stop : Nat) (g g' : Grid) : Prop where
  frame : g.SameFrame g'
  view : g'.view = view
  nextRowId : g'.nextRowId = g.nextRowId
  outside : ∀ r : Nat, r < g.screenRows → r < start ∨ stop ≤ r → g'.slot r = g.slot r
  source : ∀ q : Int, ∃ p : Int, g'.slot q = g.slot p
  stored : ∀ {policy : Policy}, Stored policy g.columns g.nextRowId g.slots →
    Stored policy g.columns g.nextRowId g'.slots

/-- What a scroll of a region leaves around it, and where its rows come from: `source` says it
of those that stay, and the others are erased ones. -/
structure Scrolled (background : Color) (start stop : Nat) (source : Nat → Option Nat) (g g' : Grid) : Prop where
  frame : g.SameFrame g'
  offset : g'.offset < g.rowCapacity
  view : g.view = g.offset → g'.view = g'.offset
  view_lt : g.view < g.rowCapacity → g'.view < g.rowCapacity
  nextRowId : g.nextRowId ≤ g'.nextRowId
  outside : ∀ r : Nat, r < g.screenRows → r < start ∨ stop ≤ r → g'.slot r = g.slot r
  moved : ∀ r from_, start ≤ r → r < stop → source r = some from_ → g'.slot r = g.slot from_
  exposed : ∀ r : Nat, start ≤ r → r < stop → source r = none → ∃ row, g.Erased background row ∧ g'.row r = some row
  kept : ∀ q row, g'.row q = some row → (∃ p, g.row p = some row) ∨ g.Erased background row
  stored : ∀ {policy : Policy}, Stored policy g.columns g.nextRowId g.slots → 0 < g.nextRowId →
    Stored policy g.columns g'.nextRowId g'.slots

theorem Scrolled.inv {source : Nat → Option Nat} (h : g.Inv policy) (hs : Scrolled background start stop source g g')
    (hsource : ∀ r from_, r < stop → source r = some from_ → from_ < g.screenRows)
    (hhistory : ∀ p q : Int, (g.screenRows : Int) - g.rowCapacity ≤ p → p < q → q < 0 →
      (g'.slot p).row.isSome = true → (g'.slot q).row.isSome = true →
      (g'.slot p).id < (g'.slot q).id) : g'.Inv policy := by
  refine inv_of_frame h.sized h.cursor h.savedCursor hs.frame hs.offset (hs.view h.view)
    (h.nextRowId_pos.trans_le hs.nextRowId) (hs.stored h.stored h.nextRowId_pos) ?_ hhistory
  intro r hr
  by_cases hside : r < start ∨ stop ≤ r
  · rw [hs.outside r hr hside]
    exact h.visible r hr
  · cases hfrom : source r with
    | some from_ =>
      rw [hs.moved r from_ (by omega) (by omega) hfrom]
      exact h.visible from_ (hsource r from_ (by omega) hfrom)
    | none =>
      obtain ⟨row, -, hrow⟩ := hs.exposed r (by omega) (by omega) hfrom
      exact Option.isSome_of_eq_some hrow

/-- A position counted from an origin that has moved. -/
theorem get_moved (g : Grid) (d p : Int) : g.slots.get (g.slots.index (g.offset + d) + p) = g.slot (p + d) := by
  apply get_congr
  rw [index_index_add]
  congr 1
  omega

/-! ## Forward -/

/-- The first part of `scrollForwardCore`: the new origin and both runs of swaps. -/
def turnForward (view start stop rows : Nat) (g : Grid) : Grid :=
  let g := { g with offset := g.slots.index (g.offset + rows), view }
  let g := (List.range start).foldr (fun row g => g.swapRows ((row : Int) - rows) row) g
  (List.range (g.screenRows - stop)).foldr
    (fun row g => g.swapRows (((stop + row : Nat) : Int) - rows) (stop + row : Nat)) g

theorem scrollForwardCore_eq (start stop rows : Nat) (background : Color) (g : Grid) :
    ∃ view, (g.view = g.offset → view = g.slots.index (g.offset + rows)) ∧
      (g.view < g.rowCapacity → view < g.rowCapacity) ∧ scrollForwardCore start stop rows background g =
        ((List.range rows).foldl (fun g (row : Nat) => g.recycleRow background (((stop - rows : Nat) : Int) + row))
          (turnForward view start stop rows g)).reidentifyNewestHistoryRows rows := by
  refine ⟨({ g with offset := g.slots.index (g.offset + rows) } : Grid).viewAfterForward rows
    (g.absoluteToScrollback g.view) (g.view == g.offset), ?_, ?_, ?_⟩
  · intro h
    simp [viewAfterForward, h]
  · intro h
    unfold viewAfterForward
    split
    · exact g.slots.index_lt ((g.offset : Int) + rows)
    · split
      · exact g.slots.index_lt _
      · exact h
  · simp only [scrollForwardCore, turnForward, cast_add]

theorem turnForward_eq (view start stop rows : Nat) (g : Grid) : ∃ generation, turnForward view start stop rows g =
      let origin := g.slots.index (g.offset + rows)
      { g with
        offset := origin
        view
        generation
        slots := (g.slots.shiftUp origin rows start).shiftUp ((origin : Int) + stop) rows
          (g.screenRows - stop) } := by
  obtain ⟨gen, htop⟩ := foldr_swapRows 0 rows start
    { g with offset := g.slots.index (g.offset + rows), view }
  simp only [zero_add, add_zero] at htop
  obtain ⟨gen', hbottom⟩ := foldr_swapRows stop rows (g.screenRows - stop)
    { g with
      offset := g.slots.index (g.offset + rows)
      view
      generation := gen
      slots := g.slots.shiftUp (g.slots.index (g.offset + rows)) rows start }
  refine ⟨gen', ?_⟩
  rw [turnForward]
  rw [htop]
  exact hbottom

/-- The rows that leave the region pass those above it, each into the history slot its remainder
names. -/
structure TurnedForward (view start stop rows : Nat) (g g' : Grid) : Prop extends Turned view start stop g g' where
  offset : g'.offset = g.slots.index (g.offset + rows)
  moved : ∀ r : Nat, start ≤ r → r + rows < stop → g'.slot r = g.slot (r + rows : Nat)
  older : ∀ p : Int, (g.screenRows : Int) - g.rowCapacity ≤ p → p < -rows → g'.slot p = g.slot (p + rows)
  passed : ∀ x : Nat, start ≤ x → x < start + rows → (g.screenRows : Int) - g.rowCapacity ≤ (x % rows : Nat) - rows →
    g'.slot ((x % rows : Nat) - rows) = g.slot x

theorem turnedForward (view : Nat) (hrows : start + rows ≤ stop) (hstop : stop ≤ g.screenRows)
    (hcap : g.screenRows ≤ g.rowCapacity) :
    TurnedForward view start stop rows g (turnForward view start stop rows g) := by
  obtain ⟨gen, heq⟩ := turnForward_eq view start stop rows g
  set origin : Nat := g.slots.index (g.offset + rows) with horigin
  set top := g.slots.shiftUp origin rows start with htop
  set all := top.shiftUp ((origin : Int) + stop) rows (g.screenRows - stop) with hall
  have hsize : g.slots.size = g.rowCapacity := rfl
  have htopSize : top.size = g.rowCapacity := size_shiftUp ..
  have hallSize : all.size = g.rowCapacity := (size_shiftUp ..).trans htopSize
  have hread (p : Int) : g.slots.get (origin + p) = g.slot (p + rows) := g.get_moved rows p
  obtain ⟨htopIn, htopOut⟩ := get_shiftUp origin
    (show rows + start ≤ g.slots.size by omega)
  obtain ⟨hallIn, hallOut⟩ := get_shiftUp ((origin : Int) + stop)
    (show rows + (g.screenRows - stop) ≤ top.size by omega)
  have htopRest : ∀ p : Int, start ≤ p → p < g.rowCapacity - rows → top.get (origin + p) = g.slot (p + rows) := by
    intro p hlow hhigh
    rw [htopOut _ (by omega) (by omega), hread]
  have hallRest : ∀ p : Int, (g.screenRows : Int) - g.rowCapacity ≤ p → p < stop - rows →
      all.get (origin + p) = top.get (origin + p) := by
    intro p hlow hhigh
    -- compared one turn later, where the window starts at the screen
    rw [← get_add_size all, ← get_add_size top, hallSize, htopSize]
    exact hallOut _ (by omega) (by omega)
  rw [heq]
  refine
    { frame := { size := hallSize }, offset := rfl, view := rfl, nextRowId := rfl,
      outside := ?_, moved := ?_, older := ?_, passed := ?_, source := ?_,
      stored := fun h => (h.shiftUp _ _ _).shiftUp _ _ _ }
  · intro r hr hside
    show all.get (origin + r) = _
    rcases hside with hlt | hge
    · rw [hallRest _ (by omega) (by omega), htopIn r hlt, add_sub_assoc, hread]
      congr 1
      omega
    · obtain ⟨j, rfl⟩ := Nat.exists_eq_add_of_le hge
      have hj := hallIn j (by omega)
      rw [cast_add, ← add_assoc, hj, show (origin : Int) + stop + j - rows =
        origin + (stop + j - rows) by omega, htopRest _ (by omega) (by omega)]
      congr 1
      omega
  · intro q
    have hslots := forall_get_shiftUp (p := fun slot => ∃ p : Int, slot = g.slot p)
      (fun k => ⟨k - g.offset, get_eq_slot g k⟩) origin rows start
    exact forall_get_shiftUp (p := fun slot => ∃ p : Int, slot = g.slot p) hslots _ _ _ _
  · intro r hlow hhigh
    show all.get (origin + r) = _
    rw [hallRest _ (by omega) (by omega), htopRest _ (by omega) (by omega)]
    rfl
  · intro p hlow hhigh
    show all.get (origin + p) = _
    rw [hallRest _ (by omega) (by omega), ← get_add_size top, htopSize, htopRest _ (by omega) (by omega),
      add_right_comm, slot_add_capacity]
  · intro x hlow hhigh hkept
    have hmod : x % rows < rows := mod_lt _ (by omega)
    show all.get (origin + _) = _
    rw [hallRest _ hkept (by omega), ← add_sub_assoc, get_shiftUp_passed (r := g.slots)
      origin (by omega) hlow hhigh, add_sub_assoc, hread]
    congr 1
    omega

/-- The rows of a forward scroll come from below. -/
def forwardSource (stop rows r : Nat) : Option Nat := if r + rows < stop then some (r + rows) else none

/-- A region scrolled forward by `rows`. The rows that leave it go into the history
under new identities, whatever the region is. -/
structure ScrolledForward (background : Color) (start stop rows : Nat) (g g' : Grid) : Prop extends
    Scrolled background start stop (forwardSource stop rows) g g' where
  older : ∀ p : Int, (g.screenRows : Int) - g.rowCapacity ≤ p → p < -rows → g'.slot p = g.slot (p + rows)
  passed : ∀ x : Nat, start ≤ x → x < start + rows → (g.screenRows : Int) - g.rowCapacity ≤ (x % rows : Nat) - rows →
    g'.row ((x % rows : Nat) - rows) = g.row x
  newest : ∀ p : Int, (g.screenRows : Int) - g.rowCapacity ≤ p → -rows ≤ p → p < 0 →
    (g'.slot p).row.isSome = true → g.nextRowId + rows ≤ (g'.slot p).id
  increasing : ∀ p q : Int, (g.screenRows : Int) - g.rowCapacity ≤ p → -rows ≤ p → p < q → q < 0 →
    (g'.slot p).row.isSome = true → (g'.slot q).row.isSome = true → (g'.slot p).id < (g'.slot q).id

theorem scrolledForward (hrows : start + rows ≤ stop) (hstop : stop ≤ g.screenRows)
    (hcap : g.screenRows ≤ g.rowCapacity) (background : Color) :
    ScrolledForward background start stop rows g (scrollForwardCore start stop rows background g) := by
  obtain ⟨view, hfollows, hview, heq⟩ := scrollForwardCore_eq start stop rows background g
  have hturn := turnedForward view hrows hstop hcap
  rw [heq]
  set turned := turnForward view start stop rows g
  have hturnedCap : turned.rowCapacity = g.rowCapacity := hturn.frame.size
  have hrec := recycled (g := turned) background ((stop - rows : Nat) : Int)
    (show rows ≤ turned.rowCapacity by omega)
  set recycledGrid := (List.range rows).foldl
    (fun g (row : Nat) => g.recycleRow background (((stop - rows : Nat) : Int) + row)) turned
  have hrecCap : recycledGrid.rowCapacity = g.rowCapacity := hrec.same.size.trans hturnedCap
  have hframe := hturn.frame.trans hrec.same.frame
  set count := min rows (recycledGrid.rowCapacity - recycledGrid.screenRows) with hcount
  have hre := reidentified (-count) (show count ≤ recycledGrid.rowCapacity by omega)
  have hfinal : recycledGrid.reidentifyNewestHistoryRows rows =
      (List.range count).foldl (fun g (j : Nat) => g.reidentifyAllocatedRow (-(count : Int) + j))
        recycledGrid := by
    simp only [reidentifyNewestHistoryRows, ← hcount, sub_eq_neg_add]
  rw [hfinal]
  set final := (List.range count).foldl
    (fun g (j : Nat) => g.reidentifyAllocatedRow (-(count : Int) + j)) recycledGrid
  have hrows' : recycledGrid.screenRows = g.screenRows := hframe.screenRows
  have horigin : final.offset = g.slots.index (g.offset + rows) :=
    hre.same.offset.trans (hrec.same.offset.trans hturn.offset)
  have hviewed : final.view = view := hre.same.view.trans (hrec.same.view.trans hturn.view)
  -- the screen and the older history are written by one stage each
  have hscreen : ∀ r : Nat, r < g.screenRows → final.slot r = recycledGrid.slot r := fun r hr =>
    hre.same.slot r (by omega) (by omega)
  have hkept : ∀ p : Int, (g.screenRows : Int) - g.rowCapacity ≤ p → p < stop - rows →
      recycledGrid.slot p = turned.slot p := fun p hlow hhigh =>
    hrec.same.slot_below (by omega) (by omega)
  have hnewest : ∀ p : Int, (g.screenRows : Int) - g.rowCapacity ≤ p → -(rows : Int) ≤ p → p < 0 →
      ∃ i : Nat, i < count ∧ p = -(count : Int) + i := by
    intro p hlow hlow' hhigh
    exact ⟨(p + count).toNat, by omega, by omega⟩
  have hblank : ∀ i : Nat, i < rows → ∃ row, g.Erased background row ∧
      recycledGrid.row (((stop - rows : Nat) : Int) + i) = some row := fun i hi =>
    ⟨_, erased_editedRow hturn.frame.columns (.inr (hturn.source _)) background, congrArg Slot.row (hrec.slot i hi)⟩
  refine
    { frame := hframe.trans hre.same.frame
      offset := horigin ▸ g.slots.index_lt _
      view := fun h => by rw [hviewed, hfollows h, horigin]
      view_lt := fun h => hviewed.symm ▸ hview h
      nextRowId := hturn.nextRowId ▸ hrec.same.nextRowId.trans hre.same.nextRowId
      outside := ?_, moved := ?_, exposed := ?_, older := ?_, passed := ?_, newest := ?_, increasing := ?_
      kept := ?_, stored := ?_ }
  · intro r hr hside
    rw [hscreen r hr, ← hturn.outside r hr hside]
    rcases hside with hlt | hge
    · exact hkept r (by omega) (by omega)
    · exact hrec.same.slot r (by omega) (by omega)
  · intro r from_ hlow hhigh hfrom
    obtain ⟨hstays, ⟨⟩⟩ := Option.ite_none_right_eq_some.mp hfrom
    rw [hscreen r (by omega), hkept r (by omega) (by omega), hturn.moved r hlow hstays]
  · intro r hlow hhigh hnone
    have hlast : stop ≤ r + rows := by simpa [forwardSource] using hnone
    obtain ⟨i, rfl⟩ := Nat.exists_eq_add_of_le (show stop - rows ≤ r by omega)
    rw [row, hscreen _ (by omega)]
    exact hblank i (by omega)
  · intro q row hrow
    rw [Grid.row, hre.row] at hrow
    rcases hrec.same.slot_cases q with ⟨i, hi, -, hslot⟩ | ⟨-, hslot⟩
    · obtain ⟨blank, herased, heq⟩ := hblank i hi
      rw [hslot, ← Grid.row, heq] at hrow
      cases hrow
      exact .inr herased
    · obtain ⟨p, hp⟩ := hturn.source q
      rw [hslot, hp] at hrow
      exact .inl ⟨p, hrow⟩
  · intro policy hstored hpos
    have hst := hturn.stored hstored
    rw [← hturn.nextRowId, ← hturn.frame.columns] at hst
    rw [← hturn.nextRowId] at hpos
    have hst' := hrec.stored hst hpos
    rw [← hrec.same.columns] at hst'
    have := hre.stored (fun _ _ => hst') (fun _ _ hrow => (hst'.ok _).shaped hrow)
      (fun p hrow => by rw [slot, hst'.eq_empty hrow]) (hpos.trans_le hrec.same.nextRowId)
    rwa [hframe.columns] at this
  · intro p hlow hhigh
    rw [← hturn.older p hlow hhigh, ← hkept p hlow (by omega)]
    exact hre.same.slot_below (by omega) (by omega)
  · intro x hlow hhigh hlow'
    have hmod : x % rows < rows := mod_lt _ (by omega)
    rw [row, hre.row, hkept _ hlow' (by omega), hturn.passed x hlow hhigh hlow', row]
  · intro p hlow hlow' hhigh hsome
    obtain ⟨i, hi, rfl⟩ := hnewest p hlow hlow' hhigh
    rw [← hturn.nextRowId, ← hrec.nextRowId]
    exact (hre.fresh i hi hsome).1
  · intro p q hlow hlow' hpq hhigh hp hq
    obtain ⟨i, hi, rfl⟩ := hnewest p hlow hlow' (by omega)
    obtain ⟨j, hj, rfl⟩ := hnewest q (by omega) (by omega) hhigh
    exact hre.increasing i j (by omega) hj hp hq

theorem ScrolledForward.inv (h : g.Inv policy) (hs : ScrolledForward background start stop rows g g')
    (hstop : stop ≤ g.screenRows) : g'.Inv policy := by
  apply hs.toScrolled.inv h
  · intro r from_ hr hfrom
    obtain ⟨hstays, ⟨⟩⟩ := Option.ite_none_right_eq_some.mp hfrom
    omega
  · intro p q hlow hpq hhigh hp hq
    by_cases hnew : -(rows : Int) ≤ p
    · exact hs.increasing p q hlow hnew hpq hhigh hp hq
    · rw [hs.older p hlow (by omega)] at hp ⊢
      by_cases hnew' : -(rows : Int) ≤ q
      · have hlt : (g.slot (p + rows)).id < g.nextRowId := (h.stored.ok _).id_lt hp
        exact hlt.trans_le ((le_add_right _ _).trans (hs.newest q (by omega) hnew' hhigh hq))
      · rw [hs.older q (by omega) (by omega)] at hq ⊢
        exact h.history _ _ (by omega) (by omega) (by omega) hp hq

/-! ## Reverse -/

/-- The middle of `scrollReverseCore`: the new origin and both runs of swaps. -/
def turnReverse (view start stop rows : Nat) (g : Grid) : Grid :=
  let g : Grid := { g with offset := g.slots.index ((g.offset : Int) - rows), view }
  let g := (List.range (g.screenRows - stop)).foldl
    (fun g (row : Nat) => g.swapRows ((stop : Int) + rows + row) ((stop : Int) + row)) g
  (List.range start).foldl (fun g (row : Nat) => g.swapRows ((0 : Int) + rows + row) ((0 : Int) + row)) g

/-- The slots a reverse scroll empties first. -/
def emptyRows (stop rows : Nat) (g : Grid) : Grid :=
  (List.range rows).foldl (fun g (row : Nat) => g.setSlot (((stop - rows : Nat) : Int) + row) {}) g

theorem emptied (stop : Nat) (hrows : rows ≤ g.rowCapacity) :
    g.Filled (fun _ => {}) ((stop - rows : Nat) : Int) rows (emptyRows stop rows g) :=
  filled _ _ hrows

theorem scrollReverseCore_eq (start stop : Nat) (hrows : rows ≤ g.rowCapacity) (background : Color) :
    ∃ view, (g.view = g.offset → view = g.slots.index ((g.offset : Int) - rows)) ∧
      (g.view < g.rowCapacity → view < g.rowCapacity) ∧ scrollReverseCore start stop rows background g =
        (List.range rows).foldl
          (fun g (row : Nat) => g.editOrAllocate ((start : Int) + row) (Row.eraseAll background))
          (turnReverse view start stop rows (emptyRows stop rows g)) := by
  have hem := emptied (g := g) stop hrows
  have hindex (i : Int) : (emptyRows stop rows g).slots.index i = g.slots.index i := index_congr hem.same.size i
  simp only [scrollReverseCore, turnReverse, cast_add, zero_add]
  split
  · refine ⟨_, fun _ => ?_, fun _ => ?_, rfl⟩
    · rw [← hem.same.offset]
      exact hindex _
    · exact (hindex _).trans_lt (g.slots.index_lt _)
  · rename_i hnot
    refine ⟨_, fun h => absurd (.inl (beq_iff_eq.mpr h)) hnot, fun h => ?_, rfl⟩
    exact hem.same.view.trans_lt h

theorem turnReverse_eq (view start stop rows : Nat) (g : Grid) : ∃ generation, turnReverse view start stop rows g =
      let origin := g.slots.index (g.offset - rows)
      { g with
        offset := origin
        view
        generation
        slots := (g.slots.shiftDown ((origin : Int) + stop) rows
          (g.screenRows - stop)).shiftDown origin rows start } := by
  obtain ⟨gen, hbottom⟩ := foldl_swapRows stop rows (g.screenRows - stop)
    { g with offset := g.slots.index (g.offset - rows), view }
  obtain ⟨gen', htop⟩ := foldl_swapRows 0 rows start
    { g with
      offset := g.slots.index (g.offset - rows)
      view
      generation := gen
      slots := g.slots.shiftDown ((g.slots.index (g.offset - rows) : Int) + stop) rows
        (g.screenRows - stop) }
  refine ⟨gen', ?_⟩
  rw [turnReverse]
  rw [hbottom]
  exact htop

/-- The rows at the bottom of the region were empty. -/
structure TurnedReverse (view start stop rows : Nat) (g g' : Grid) : Prop extends Turned view start stop g g' where
  offset : g'.offset = g.slots.index (g.offset - rows)
  moved : ∀ r : Nat, start + rows ≤ r → r < stop → g'.slot r = g.slot (r - rows : Nat)
  history : ∀ p : Int, (g.screenRows : Int) - g.rowCapacity ≤ p → p < 0 → g'.slot p = {} ∨
      ((g.screenRows : Int) - g.rowCapacity ≤ p - rows ∧ g'.slot p = g.slot (p - rows))

theorem turnedReverse (view : Nat) (hrows : start + rows ≤ stop) (hstop : stop ≤ g.screenRows)
    (hcap : g.screenRows ≤ g.rowCapacity)
    (hempty : ∀ i : Nat, i < rows → g.slot (((stop - rows : Nat) : Int) + i) = {}) :
    TurnedReverse view start stop rows g (turnReverse view start stop rows g) := by
  obtain ⟨gen, heq⟩ := turnReverse_eq view start stop rows g
  set origin : Nat := g.slots.index (g.offset - rows) with horigin
  set bottom := g.slots.shiftDown ((origin : Int) + stop) rows (g.screenRows - stop) with hbottom
  set all := bottom.shiftDown origin rows start with hall
  have hsize : g.slots.size = g.rowCapacity := rfl
  have hbottomSize : bottom.size = g.rowCapacity := size_shiftDown ..
  have hallSize : all.size = g.rowCapacity := (size_shiftDown ..).trans hbottomSize
  have hread (p : Int) : g.slots.get (origin + p) = g.slot (p - rows) := g.get_moved (-rows) p
  have hbound : rows + (g.screenRows - stop) ≤ g.slots.size := by omega
  obtain ⟨hbottomIn, hbottomOut⟩ := get_shiftDown ((origin : Int) + stop) hbound
  obtain ⟨hallIn, hallOut⟩ := get_shiftDown (origin : Int)
    (show rows + start ≤ bottom.size by omega)
  -- the emptied rows end one turn above the screen, which is the oldest history
  have hbottomOld : ∀ p : Int, (g.screenRows : Int) - g.rowCapacity ≤ p →
      p < g.screenRows - g.rowCapacity + rows → bottom.get (origin + p) = {} := by
    intro p hlow hhigh
    obtain ⟨m, hm, hget⟩ := get_shiftDown_passed ((origin : Int) + stop) hbound
      (p + g.rowCapacity - g.screenRows).toNat (by omega)
    rw [← get_add_size bottom, hbottomSize, show (origin : Int) + (p + g.rowCapacity) =
      origin + stop + ((g.screenRows - stop : Nat) : Int) +
        ((p + g.rowCapacity - g.screenRows).toNat : Int) by omega, hget, add_assoc, hread,
      ← hempty m hm]
    congr 1
    omega
  have hbottomRest : ∀ p : Int, (g.screenRows : Int) - g.rowCapacity + rows ≤ p → p < stop →
      bottom.get (origin + p) = g.slot (p - rows) := by
    intro p hlow hhigh
    rw [← get_add_size bottom, hbottomSize, hbottomOut _ (by omega) (by omega), ← hsize, get_add_size, hread]
  have hallRest : ∀ p : Int, (start : Int) + rows ≤ p → p < g.rowCapacity →
      all.get (origin + p) = bottom.get (origin + p) := fun p hlow hhigh =>
    hallOut _ (by omega) (by omega)
  rw [heq]
  refine
    { frame := { size := hallSize }, offset := rfl, view := rfl, nextRowId := rfl,
      outside := ?_, moved := ?_, history := ?_, source := ?_,
      stored := fun h => (h.shiftDown _ _ _).shiftDown _ _ _ }
  · intro r hr hside
    show all.get (origin + r) = _
    rcases hside with hlt | hge
    · rw [hallIn r hlt, add_assoc, hbottomRest _ (by omega) (by omega)]
      congr 1
      omega
    · obtain ⟨j, rfl⟩ := Nat.exists_eq_add_of_le hge
      rw [hallRest _ (by omega) (by omega), cast_add, ← add_assoc, hbottomIn j (by omega), add_assoc, add_assoc, hread]
      congr 1
      omega
  · intro q
    have hslots := forall_get_shiftDown (p := fun slot => ∃ p : Int, slot = g.slot p)
      (fun k => ⟨k - g.offset, get_eq_slot g k⟩) ((origin : Int) + stop) rows (g.screenRows - stop)
    exact forall_get_shiftDown (p := fun slot => ∃ p : Int, slot = g.slot p) hslots _ _ _ _
  · intro r hlow hhigh
    show all.get (origin + r) = _
    rw [hallRest _ (by omega) (by omega), hbottomRest _ (by omega) (by omega)]
    congr 1
    omega
  · intro p hlow hhigh
    show all.get (origin + p) = _ ∨ _ ∧ all.get (origin + p) = _
    rw [← get_add_size all, hallSize, hallRest _ (by omega) (by omega), ← hbottomSize, get_add_size]
    by_cases hold : p < g.screenRows - g.rowCapacity + rows
    · left
      exact hbottomOld p hlow hold
    · right
      exact ⟨by omega, hbottomRest p (by omega) (by omega)⟩

/-- The rows of a reverse scroll come from above. -/
def reverseSource (start rows r : Nat) : Option Nat := if start + rows ≤ r then some (r - rows) else none

/-- A region scrolled backward by `rows`. -/
structure ScrolledReverse (background : Color) (start stop rows : Nat) (g g' : Grid) : Prop extends
    Scrolled background start stop (reverseSource start rows) g g' where
  history : ∀ p : Int, (g.screenRows : Int) - g.rowCapacity ≤ p → p < 0 → g'.slot p = {} ∨
      ((g.screenRows : Int) - g.rowCapacity ≤ p - rows ∧ g'.slot p = g.slot (p - rows))

theorem scrolledReverse (hrows : start + rows ≤ stop) (hstop : stop ≤ g.screenRows)
    (hcap : g.screenRows ≤ g.rowCapacity) (background : Color) :
    ScrolledReverse background start stop rows g (scrollReverseCore start stop rows background g) := by
  have hem := emptied (g := g) stop (show rows ≤ g.rowCapacity by omega)
  obtain ⟨view, hfollows, hview, heq⟩ := scrollReverseCore_eq (g := g) start stop
    (show rows ≤ g.rowCapacity by omega) background
  rw [heq]
  set empty := emptyRows stop rows g
  have hemptyCap : empty.rowCapacity = g.rowCapacity := hem.same.size
  have hemptyRows : empty.screenRows = g.screenRows := hem.same.screenRows
  have hturn := turnedReverse view hrows (by rw [hemptyRows]; exact hstop)
    (by rw [hemptyRows, hemptyCap]; exact hcap) hem.slot
  set turned := turnReverse view start stop rows empty
  have hturnedCap : turned.rowCapacity = g.rowCapacity := hturn.frame.size.trans hemptyCap
  have hnext : turned.nextRowId = g.nextRowId := hturn.nextRowId.trans hem.nextRowId
  have hframe := hem.same.frame.trans hturn.frame
  have hal := allocated (g := turned) (Row.eraseAll background) (start : Int)
    (show rows ≤ turned.rowCapacity by omega)
  set final := (List.range rows).foldl
    (fun g (row : Nat) => g.editOrAllocate ((start : Int) + row) (Row.eraseAll background)) turned
  have horigin : final.offset = g.slots.index (g.offset - rows) := by
    rw [hal.same.offset, hturn.offset, hem.same.offset]
    exact index_congr hem.same.size _
  have hviewed : final.view = view := hal.same.view.trans hturn.view
  -- emptying is not seen outside the bottom of the region
  have hseen : ∀ p : Int, (g.screenRows : Int) - g.rowCapacity ≤ p → p < stop - rows →
      empty.slot p = g.slot p := fun p hlow hhigh => hem.same.slot_below (by omega) (by omega)
  have hkept : ∀ p : Int, (start : Int) + rows ≤ p → p < start + g.rowCapacity →
      final.slot p = turned.slot p := fun p hlow hhigh =>
    hal.same.slot p hlow (by omega)
  have hkeptBelow : ∀ p : Int, (g.screenRows : Int) - g.rowCapacity ≤ p → p < start →
      final.slot p = turned.slot p := fun p hlow hhigh => hal.same.slot_below (by omega) hhigh
  have hempty : ∀ p : Int, empty.slot p = g.slot p ∨ empty.slot p = {} := fun p =>
    (hem.same.slot_cases p).symm.imp (·.2) fun ⟨i, hi, _, hslot⟩ => hslot.trans (hem.slot i hi)
  have hsource : ∀ q : Int, turned.slot q = {} ∨ ∃ p, turned.slot q = g.slot p := by
    intro q
    obtain ⟨p, hp⟩ := hturn.source q
    rw [hp]
    exact (hempty p).symm.imp id fun h => ⟨p, h⟩
  have hopened : ∀ i : Nat, i < rows →
      ∃ row, g.Erased background row ∧ final.row ((start : Int) + i) = some row := fun i hi =>
    ⟨_, erased_editedRow hframe.columns (hsource _) background, hal.row i hi⟩
  refine
    { frame := hframe.trans hal.same.frame
      offset := horigin ▸ g.slots.index_lt _
      view := fun h => by rw [hviewed, hfollows h, horigin]
      view_lt := fun h => hviewed.symm ▸ hview h
      nextRowId := hnext ▸ hal.same.nextRowId
      outside := ?_, moved := ?_, exposed := ?_, history := ?_, kept := ?_, stored := ?_ }
  · intro r hr hside
    rcases hside with hlt | hge
    · rw [hkeptBelow r (by omega) (by omega), hturn.outside r (by omega) (.inl hlt), hseen r (by omega) (by omega)]
    · rw [hkept r (by omega) (by omega), hturn.outside r (by omega) (.inr hge)]
      exact hem.same.slot r (by omega) (by omega)
  · intro r from_ hlow hhigh hfrom
    obtain ⟨hstays, ⟨⟩⟩ := Option.ite_none_right_eq_some.mp hfrom
    rw [hkept r (by omega) (by omega), hturn.moved r hstays hhigh, hseen _ (by omega) (by omega)]
  · intro r hlow hhigh hnone
    have hfirst : r < start + rows := by simpa [reverseSource] using hnone
    obtain ⟨i, rfl⟩ := Nat.exists_eq_add_of_le hlow
    exact hopened i (by omega)
  · intro q row hrow
    rcases hal.same.slot_cases q with ⟨i, hi, -, hslot⟩ | ⟨-, hslot⟩
    · obtain ⟨blank, herased, heq⟩ := hopened i hi
      rw [show final.row q = some blank from (congrArg Slot.row hslot).trans heq] at hrow
      cases hrow
      exact .inr herased
    · rw [Grid.row, hslot] at hrow
      rcases hsource q with hnone | ⟨p, hp⟩
      · rw [hnone] at hrow
        cases hrow
      · rw [hp] at hrow
        exact .inl ⟨p, hrow⟩
  · intro policy hstored hpos
    have hthin : Stored policy g.columns g.nextRowId empty.slots := hstored.thinned hem.same.size fun i => by
        rw [get_eq_slot empty, get_eq_slot g, hem.same.offset]
        exact hempty _
    rw [← hem.same.columns, ← hem.nextRowId] at hthin
    have hst := hturn.stored hthin
    rw [← hturn.nextRowId, ← hturn.frame.columns] at hst
    rw [← hframe.columns]
    exact hal.stored hst (hnext.symm ▸ hpos) fun _ hs => hs.eraseAll background
  · intro p hlow hhigh
    rw [hkeptBelow p hlow (by omega)]
    rcases hturn.history p (by omega) hhigh with hblank | ⟨hlow', hslot⟩
    · exact .inl hblank
    · rw [hslot, hseen _ (by omega) (by omega)]
      exact .inr ⟨by omega, rfl⟩

theorem ScrolledReverse.inv (h : g.Inv policy) (hs : ScrolledReverse background start stop rows g g')
    (hstop : stop ≤ g.screenRows) : g'.Inv policy := by
  apply hs.toScrolled.inv h
  · intro r from_ hr hfrom
    obtain ⟨hstays, ⟨⟩⟩ := Option.ite_none_right_eq_some.mp hfrom
    omega
  · intro p q hlow hpq hhigh hp hq
    rcases hs.history p hlow (by omega) with hblank | ⟨hlow', hslot⟩
    · rw [hblank] at hp
      cases hp
    · rcases hs.history q (by omega) hhigh with hblank | ⟨-, hslot'⟩
      · rw [hblank] at hq
        cases hq
      · rw [hslot] at hp ⊢
        rw [hslot'] at hq ⊢
        exact h.history _ _ hlow' (by omega) (by omega) hp hq

/-- `Grid::scroll` within the screen returns, and by no rows it leaves the grid alone. -/
theorem scroll_eq {region : ScrollRegion} (hregion : region.start < region.stop ∧ region.stop ≤ g.screenRows)
    (hrows : rows ≤ region.stop - region.start) (hpos : 1 ≤ g.screenRows)
    (hle : g.screenRows ≤ g.rowCapacity) (hview : g.view < g.rowCapacity) (direction : ScrollDirection)
    (background : Color) : scroll direction region rows background g = .ok () (if 0 < rows then match direction with
      | .forward => scrollForwardCore region.start region.stop rows background g
      | .reverse => scrollReverseCore region.start region.stop rows background g
    else g) := by
  refine eq_ok_of_wp_iff fun post fail => ?_
  simp only [scroll, wp_bind, wp_get, wp_ensure, wp_whenever, wp_modify, hregion, hrows, hpos, hle, hview,
    and_self, not_true, false_implies, true_implies, and_true]
  by_cases hmoves : 0 < rows
  · simp only [hmoves, true_implies, not_true, false_implies, and_true, if_true]
    cases direction <;> rfl
  · simp only [hmoves, false_implies, not_false_eq_true, true_implies, true_and, if_false]

end Splinterm.Terminal.Grid
