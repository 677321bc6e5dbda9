import Splinterm.Terminal.GridScrollSpec

/-!
# Scrolling as the history records it

One forward scroll by several rows against as many scrolls by one. The screens agree. The
histories agree as far as the rows that were there before go, but the rows that leave the
region pass the rows above it by swaps of stride `rows`, and so reach the history rotated by
the remainder of the region's first row.
-/

namespace Splinterm.Terminal.Grid

open Lib Hoare List Nat RingBuffer

/-- How many history rows the ring has room for. -/
def historyCapacity (g : Grid) : Nat := g.rowCapacity - g.screenRows

/-- The contents of the history, oldest first. -/
def historyRows (g : Grid) : List Row := g.scrollbackRowsChronological.map (·.2)

/-- As many forward scrolls by one row. -/
def scrollOneByOne (region : ScrollRegion) (background : Color) : Nat → GridM Unit
  | 0 => pure ()
  | rows + 1 => do
    scrollOneByOne region background rows
    scroll .forward region 1 background

variable {g g' g'' : Grid} {start stop rows : Nat} {background : Color}

/-! ## The history by position -/

theorem SameFrame.historyCapacity (h : g.SameFrame g') : g'.historyCapacity = g.historyCapacity := by
  rw [Grid.historyCapacity, h.screenRows]
  exact congrArg (· - _) h.size

theorem historyRows_eq (h : g.screenRows ≤ g.rowCapacity) : g.historyRows = (range g.historyCapacity).filterMap
      fun k : Nat => g.row ((k : Int) - g.historyCapacity) := by
  have hslot (k : Nat) : g.slots.get (g.offset + g.screenRows + k) = g.slot ((k : Int) - g.historyCapacity) := by
    rw [← slot_add_capacity, historyCapacity]
    congr 1
    omega
  rw [historyRows, scrollbackRowsChronological, window, filterMap_map, map_filterMap]
  apply filterMap_congr
  intro k _
  simp only [Function.comp_apply, Slot.identified, hslot, Option.map_map, Grid.row]
  exact Option.map_id'

/-- The history rows a scroll by `rows` leaves, by the positions they had. -/
def olderRows (g : Grid) (rows : Nat) : List Row :=
  (range (g.historyCapacity - rows)).filterMap
    fun k : Nat => g.row ((k : Int) + rows - g.historyCapacity)

/-- Those of the `rows` rows that leave the region which the history has room for, in the order
`place` puts them. -/
def departedRows (g : Grid) (start rows : Nat) (place : Nat → Nat) : List Row :=
  (range (min rows g.historyCapacity)).filterMap
    fun i : Nat => g.row (start + place (rows - min rows g.historyCapacity + i) : Nat)

/-- What a scroll did to the history: older rows moved up by `rows`, and the `i`-th of the newest
slots holds the row `place i` of those that left the region. -/
structure Records (start rows : Nat) (place : Nat → Nat) (g g' : Grid) : Prop where
  older : ∀ p : Int, -(g.historyCapacity : Int) ≤ p → p < -rows → g'.row p = g.row (p + rows)
  newest : ∀ i : Nat, i < rows → rows ≤ i + g.historyCapacity →
    g'.row ((i : Int) - rows) = g.row (start + place i : Nat)

theorem Records.historyRows {place : Nat → Nat} (h : Records start rows place g g')
    (hframe : g.SameFrame g') (hcap : g.screenRows ≤ g.rowCapacity) :
    g'.historyRows = g.olderRows rows ++ g.departedRows start rows place := by
  have hcap' : g'.screenRows ≤ g'.rowCapacity := by
    rw [hframe.screenRows]
    exact hcap.trans_eq hframe.size.symm
  have hsplit : range g.historyCapacity = range (g.historyCapacity - rows) ++
      (range (min rows g.historyCapacity)).map (g.historyCapacity - rows + ·) := by
    rw [← range_add]
    congr 1
    omega
  rw [historyRows_eq hcap', hframe.historyCapacity, hsplit, filterMap_append, filterMap_map]
  congr 1
  · apply filterMap_congr
    intro k hk
    rw [mem_range] at hk
    rw [h.older _ (by omega) (by omega)]
    congr 1
    omega
  · apply filterMap_congr
    intro i hi
    rw [mem_range] at hi
    rw [Function.comp_apply, ← h.newest _ (by omega) (by omega)]
    congr 1
    omega

/-! ## One scroll -/

/-- The place among the departing rows of the row that ends in the `i`-th of the newest slots. -/
def turnedPlace (start rows i : Nat) : Nat := (i + (rows - start % rows)) % rows

theorem turnedPlace_of_dvd {i : Nat} (h : rows ∣ start) (hi : i < rows) : turnedPlace start rows i = i := by
  rw [turnedPlace, mod_eq_zero_of_dvd h, Nat.sub_zero, add_mod_right, mod_eq_of_lt hi]

theorem turnedPlace_lt {i : Nat} (hi : i < rows) : turnedPlace start rows i < rows :=
  mod_lt _ (by omega)

theorem add_turnedPlace_mod (start : Nat) {i : Nat} (hi : i < rows) :
    (start + turnedPlace start rows i) % rows = i := by
  have hlt : start % rows < rows := mod_lt _ (by omega)
  have hsum : start + (i + (rows - start % rows)) = i + rows * (start / rows + 1) := by
    have := div_add_mod start rows
    rw [mul_add]
    omega
  rw [turnedPlace, add_mod_mod, hsum, add_mul_mod_self_left, mod_eq_of_lt hi]

theorem ScrolledForward.records (hs : ScrolledForward background start stop rows g g')
    (hcap : g.screenRows ≤ g.rowCapacity) : Records start rows (turnedPlace start rows) g g' := by
  have hcapacity : (g.historyCapacity : Int) = g.rowCapacity - g.screenRows := by
    rw [historyCapacity]
    omega
  constructor
  · intro p hlow hhigh
    exact congrArg Slot.row (hs.older p (by omega) hhigh)
  · intro i hi hkept
    have hmod := add_turnedPlace_mod start hi
    have hpassed := hs.passed (start + turnedPlace start rows i) (by omega)
      (Nat.add_lt_add_left (turnedPlace_lt hi) _) (by rw [hmod]; omega)
    rwa [hmod] at hpassed

/-! ## Scroll after scroll -/

/-- A scrolled grid: the screen as one scroll by `rows` leaves it, and the rows that left the
region in the history as `place` orders them. -/
structure Stepped (region : ScrollRegion) (rows : Nat) (background : Color) (place : Nat → Nat)
    (g g' : Grid) : Prop where
  fits : g'.Fits
  frame : g.SameFrame g'
  view : g.view = g.offset → g'.view = g'.offset
  shows : Shows region.start region.stop background (forwardSource region.stop rows) g g'
  records : Records region.start rows place g g'

variable {region : ScrollRegion}

theorem Stepped.refl {place : Nat → Nat} (h : g.Fits) : Stepped region 0 background place g g where
  fits := h
  frame := {}
  view := id
  shows := Shows.refl .forward g
  records := ⟨fun p _ _ => by simp, fun i hi => absurd hi (not_lt_zero i)⟩

/-- One call of `scroll`, by any number of rows. -/
theorem Fits.stepped (h : g.Fits) (hregion : region.start < region.stop ∧ region.stop ≤ g.screenRows)
    (hrows : rows ≤ region.stop - region.start) (background : Color) :
    ∃ g', scroll .forward region rows background g = .ok () g' ∧
      Stepped region rows background (turnedPlace region.start rows) g g' := by
  refine ⟨_, scroll_eq hregion hrows h.screenRows_pos h.screenRows_le h.view .forward background, ?_⟩
  have hfit : region.start + rows ≤ region.stop := by omega
  by_cases hpos : 0 < rows
  · rw [if_pos hpos]
    have hs := scrolledForward hfit hregion.2 h.screenRows_le background
    exact ⟨hs.fits h, hs.frame, hs.view, hs.shows h.wide, hs.records h.screenRows_le⟩
  · obtain rfl : rows = 0 := by omega
    exact .refl h

theorem Shows.step (h : Shows start stop background (forwardSource stop rows) g g')
    (h' : Shows start stop background (forwardSource stop 1) g' g'')
    (hrows : g'.screenRows = g.screenRows) (hcolumns : g'.columns = g.columns) :
    Shows start stop background (forwardSource stop (rows + 1)) g g'' := by
  constructor
  · intro r hr hside
    rw [h'.outside r (hrows ▸ hr) hside, h.outside r hr hside]
  · intro r from_ hlow hhigh hfrom
    obtain ⟨_, ⟨⟩⟩ := Option.ite_none_right_eq_some.mp hfrom
    rw [h'.moved r (r + 1) hlow hhigh (if_pos (by omega)),
      h.moved (r + 1) (r + 1 + rows) (by omega) (by omega) (if_pos (by omega))]
    congr 2
    omega
  · intro r hlow hhigh hnone
    unfold forwardSource at hnone
    split at hnone
    · cases hnone
    · -- the row was blank already, or this scroll exposes it
      by_cases hnext : r + 1 < stop
      · rw [h'.moved r (r + 1) hlow hhigh (if_pos hnext), h.exposed (r + 1) (by omega) hnext (if_neg (by omega))]
      · rw [h'.exposed r hlow hhigh (if_neg hnext), hcolumns]

theorem Records.step (h : Records start rows id g g') (h' : Records start 1 (turnedPlace start 1) g' g'')
    (hcap : g'.historyCapacity = g.historyCapacity)
    (hnext : g'.row start = g.row (start + rows : Nat)) : Records start (rows + 1) id g g'' := by
  have hlast : turnedPlace start 1 0 = 0 := mod_one _
  constructor
  · intro p hlow hhigh
    rw [h'.older p (by omega) (by omega), h.older _ (by omega) (by omega)]
    congr 1
    omega
  · intro i hi hkept
    rcases Nat.lt_succ_iff_lt_or_eq.mp hi with hlt | rfl
    · have hmoved := h'.older ((i : Int) - (rows + 1 : Nat)) (by omega) (by omega)
      rw [hmoved, ← h.newest i hlt (by omega)]
      congr 1
      omega
    · have hentered := h'.newest 0 (by omega) (by omega)
      rw [hlast, add_zero, hnext] at hentered
      rw [id, ← hentered]
      congr 1
      omega

theorem Stepped.step (h : Stepped region rows background id g g')
    (h' : Stepped region 1 background (turnedPlace region.start 1) g' g'')
    (hlt : region.start + rows < region.stop) : Stepped region (rows + 1) background id g g'' where
  fits := h'.fits
  frame := h.frame.trans h'.frame
  view hview := h'.view (h.view hview)
  shows := h.shows.step h'.shows h.frame.screenRows h.frame.columns
  records := h.records.step h'.records h.frame.historyCapacity
    (h.shows.moved _ _ le_rfl (by omega) (if_pos hlt))

theorem Fits.stepped_oneByOne (h : g.Fits) (hregion : region.start < region.stop ∧ region.stop ≤ g.screenRows)
    (hrows : rows ≤ region.stop - region.start) (background : Color) :
    ∃ g', scrollOneByOne region background rows g = .ok () g' ∧ Stepped region rows background id g g' := by
  induction rows with
  | zero => exact ⟨g, rfl, .refl h⟩
  | succ rows ih =>
    obtain ⟨g', hrun, hsteps⟩ := ih (by omega)
    have hrows' : g'.screenRows = g.screenRows := hsteps.frame.screenRows
    have hone : 1 ≤ region.stop - region.start := by omega
    obtain ⟨g'', hscroll, hstep⟩ := hsteps.fits.stepped (hrows' ▸ hregion) hone background
    refine ⟨g'', ?_, hsteps.step hstep (by omega)⟩
    simp only [scrollOneByOne, bind, EStateM.bind, hrun]
    exact hscroll

/-! ## One scroll against many -/

theorem Shows.row_eq {source : Nat → Option Nat} (h : Shows start stop background source g g')
    (h' : Shows start stop background source g g'') {r : Nat} (hr : r < g.screenRows) : g'.row r = g''.row r := by
  by_cases hside : r < start ∨ stop ≤ r
  · rw [h.outside r hr hside, h'.outside r hr hside]
  · cases hsource : source r with
    | some from_ => rw [h.moved r from_ (by omega) (by omega) hsource, h'.moved r from_ (by omega) (by omega) hsource]
    | none => rw [h.exposed r (by omega) (by omega) hsource, h'.exposed r (by omega) (by omega) hsource]

theorem snapshotViewRows_eq (h : g.view = g.offset) :
    g.snapshotViewRows = (range g.screenRows).filterMap fun r : Nat => g.row r := by
  rw [snapshotViewRows, window, filterMap_map, h]
  rfl

/-- The rows the history keeps of those that leave are the same read rotated as read in order. -/
def DepartsInOrder (g : Grid) (start rows : Nat) : Prop :=
  g.departedRows start rows (turnedPlace start rows) = g.departedRows start rows id

instance (g : Grid) (start rows : Nat) : Decidable (g.DepartsInOrder start rows) :=
  inferInstanceAs (Decidable (_ = _))

theorem departedRows_turned_of_dvd (h : rows ∣ start) :
    g.departedRows start rows (turnedPlace start rows) = g.departedRows start rows id := by
  apply filterMap_congr
  intro i hi
  rw [mem_range] at hi
  rw [turnedPlace_of_dvd h (by omega), id]

/-- One scroll by `rows` leaves the screen, and a view that follows it, as `rows` scrolls by one
do. The scrolls by one send the departing rows to the history from top to bottom; the one scroll
sends them rotated, and the histories agree exactly when the rotation cannot be seen, as when
`rows` divides the first row of the region. -/
theorem scroll_composes_iff {g : Grid} (h : g.Fits) (region : ScrollRegion) (rows : Nat)
    (background : Color) (hregion : region.start < region.stop ∧ region.stop ≤ g.screenRows)
    (hrows : rows ≤ region.stop - region.start) :
    ∃ once single, scroll .forward region rows background g = .ok () once ∧
      scrollOneByOne region background rows g = .ok () single ∧
      (∀ r : Nat, r < g.screenRows → once.row r = single.row r) ∧
      (g.view = g.offset → once.snapshotViewRows = single.snapshotViewRows) ∧
      single.historyRows = g.olderRows rows ++ g.departedRows region.start rows id ∧
      once.historyRows = g.olderRows rows ++ g.departedRows region.start rows (turnedPlace region.start rows) ∧
      (once.historyRows = single.historyRows ↔ g.DepartsInOrder region.start rows) ∧
      (rows ∣ region.start → g.DepartsInOrder region.start rows) := by
  obtain ⟨single, hrun, hsteps⟩ := h.stepped_oneByOne hregion hrows background
  obtain ⟨once, hscroll, hstep⟩ := h.stepped hregion hrows background
  have hshown (r : Nat) (hr : r < g.screenRows) : once.row r = single.row r := hstep.shows.row_eq hsteps.shows hr
  have hsingle := hsteps.records.historyRows hsteps.frame h.screenRows_le
  have honce := hstep.records.historyRows hstep.frame h.screenRows_le
  refine ⟨once, single, hscroll, hrun, hshown, ?_, hsingle, honce, ?_, departedRows_turned_of_dvd⟩
  · intro hview
    rw [snapshotViewRows_eq (hstep.view hview), snapshotViewRows_eq (hsteps.view hview),
      hstep.frame.screenRows, hsteps.frame.screenRows]
    exact filterMap_congr fun r hr => hshown r (mem_range.mp hr)
  · rw [hsingle, honce, append_cancel_left_eq, DepartsInOrder]

def letterRow (character : Char) : Row where
  cells := [{ content := .scalar character }]
  dirty := true
  linebreak := true

/-- Four lines on a screen of four rows, with room for four more above. -/
def fourLetters : Grid where
  slots :=
    ⟨[{ row := some (letterRow 'a'), id := 1 }, { row := some (letterRow 'b'), id := 2 },
      { row := some (letterRow 'c'), id := 3 }, { row := some (letterRow 'd'), id := 4 },
      {}, {}, {}, {}], by decide⟩
  columns := 1
  offset := 0
  view := 0
  screenRows := 4
  cursor := {}
  savedCursor := {}
  generation := 0
  nextRowId := 5
  historyGeneration := 1

theorem fourLetters_fits : fourLetters.Fits := by
  refine ⟨by decide, by decide, by decide, by decide, ?_⟩
  have hall : ∀ slot ∈ fourLetters.slots.items, slot.Wide 1 := by
    intro slot hslot row hrow
    simp only [fourLetters, mem_cons, not_mem_nil, or_false] at hslot
    rcases hslot with rfl | rfl | rfl | rfl | rfl | rfl | rfl | rfl <;> cases hrow <;> rfl
  exact forall_mem_iff.mp hall

theorem fourLetters_scroll_composes :
    ∃ once single, scroll .forward ⟨2, 4, by decide⟩ 2 default fourLetters = .ok () once ∧
      scrollOneByOne ⟨2, 4, by decide⟩ default 2 fourLetters = .ok () single ∧
      (∀ r : Nat, r < fourLetters.screenRows → once.row r = single.row r) ∧
      (fourLetters.view = fourLetters.offset → once.snapshotViewRows = single.snapshotViewRows) ∧
      single.historyRows = fourLetters.olderRows 2 ++ fourLetters.departedRows 2 2 id ∧
      once.historyRows = fourLetters.olderRows 2 ++ fourLetters.departedRows 2 2 (turnedPlace 2 2) ∧
      (once.historyRows = single.historyRows ↔ fourLetters.DepartsInOrder 2 2) ∧
      (2 ∣ 2 → fourLetters.DepartsInOrder 2 2) :=
  scroll_composes_iff fourLetters_fits ⟨2, 4, by decide⟩ 2 default (by decide) (by decide)

/-- The region from the second row down, scrolled by two at once, sends its second row to the
history before its first. -/
theorem departing_rows_change_places :
    ∃ once single, scroll .forward ⟨1, 4, by decide⟩ 2 default fourLetters = .ok () once ∧
      scrollOneByOne ⟨1, 4, by decide⟩ default 2 fourLetters = .ok () single ∧
      once.historyRows = [letterRow 'c', letterRow 'b'] ∧ single.historyRows = [letterRow 'b', letterRow 'c'] :=
  ⟨_, _, rfl, rfl, by decide, by decide⟩

end Splinterm.Terminal.Grid
