import Splinterm.Terminal.Stored

/-!
# Grid primitives

How each primitive write of a grid changes the slots, and what it leaves alone.
The scrolls are built from these.
-/

namespace Splinterm.Terminal.Grid

open Lib Hoare RingBuffer Nat Grid

variable {g g' : Grid} {p q : Int}

/-! ## One slot -/

theorem slot_setSlot (g : Grid) (p q : Int) (slot : Slot) : (g.setSlot p slot).slot q =
      if g.absoluteIndex p = g.absoluteIndex q then slot else g.slot q :=
  get_set ..

def write (g : Grid) (p : Int) (slot : Slot) (generation nextRowId : Nat) : Grid :=
  { g with generation, nextRowId, slots := g.slots.set (g.offset + p) slot }

theorem slot_write (g : Grid) (p q : Int) (slot : Slot) (generation nextRowId : Nat) :
    (g.write p slot generation nextRowId).slot q = if g.absoluteIndex p = g.absoluteIndex q then slot else g.slot q :=
  get_set ..

@[simp] theorem slot_write_self (g : Grid) (p : Int) (slot : Slot) (generation nextRowId : Nat) :
    (g.write p slot generation nextRowId).slot p = slot := by
  rw [slot_write, if_pos rfl]

theorem editOrAllocate_some {row : Row} (h : g.row p = some row) (edit : Row → Row) : g.editOrAllocate p edit =
      g.write p { g.slot p with row := some (edit row) } (g.generation + 1) g.nextRowId := by
  have h' : g.bumpGeneration.row p = some row := h
  rw [editOrAllocate]
  rw [h']
  rfl

theorem editOrAllocate_none (h : g.row p = none) (edit : Row → Row) :
    g.editOrAllocate p edit = g.write p { row := some (edit (Row.new g.columns)), id := g.nextRowId }
      (g.generation + 1) (g.nextRowId + 1) := by
  have h' : g.bumpGeneration.row p = none := h
  rw [editOrAllocate]
  rw [h']
  simp only [setSlot, assignNewRowId, slot, bumpGeneration, set_set, get_set_self, write]

/-- The row at `p` after an edit that allocates it when it is missing. -/
def editedRow (edit : Row → Row) (g : Grid) (p : Int) : Row :=
  edit ((g.row p).getD (Row.new g.columns))

theorem recycleRow_eq (background : Color) (g : Grid) (p : Int) : g.recycleRow background p =
      g.write p { row := some (g.editedRow (Row.eraseAll background) p), id := g.nextRowId }
        (g.generation + 1) (g.nextRowId + 1) := by
  have hset : ∀ r : Row, (g.bumpGeneration.setSlot p
      { g.slot p with row := some r }).assignNewRowId p =
        g.write p { row := some r, id := g.nextRowId } (g.generation + 1) (g.nextRowId + 1) := by
    intro r
    simp only [setSlot, assignNewRowId, slot, bumpGeneration, set_set, get_set_self, write]
  rw [recycleRow, editedRow]
  cases g.row p with
  | some | none => exact hset _

theorem slots_swapRows (g : Grid) (p q : Int) :
    (g.swapRows p q).slots = g.slots.swap (g.offset + p) (g.offset + q) := by
  rw [swapRows]
  split
  · rename_i h
    apply ext_get (by simp)
    intro i
    rw [get_swap]
    split
    · rename_i hq
      exact get_congr (hq.symm.trans h.symm)
    · split
      · rename_i hp
        exact get_congr (hp.symm.trans h)
      · rfl
  · rfl

/-- The fields a swap leaves alone. -/
theorem swapRows_eq (g : Grid) (p q : Int) : ∃ generation, g.swapRows p q =
      { g with generation, slots := g.slots.swap (g.offset + p) (g.offset + q) } := by
  have hslots := slots_swapRows g p q
  by_cases h : g.absoluteIndex p = g.absoluteIndex q
  · rw [swapRows, if_pos h] at hslots ⊢
    exact ⟨g.generation, by rw [← hslots]⟩
  · rw [swapRows, if_neg h]
    exact ⟨g.generation + 1, rfl⟩

/-! ## Runs of swaps -/

theorem foldr_swapRows (base : Int) (rows count : Nat) (g : Grid) :
    ∃ generation, (List.range count).foldr (fun j g => g.swapRows (base + j - rows) (base + j)) g =
      { g with generation, slots := g.slots.shiftUp (g.offset + base) rows count } := by
  induction count generalizing g with
  | zero => exact ⟨g.generation, rfl⟩
  | succ count ih =>
    obtain ⟨gen, hswap⟩ := swapRows_eq g (base + count - rows) (base + count)
    obtain ⟨gen', hfold⟩ := ih (g.swapRows (base + count - rows) (base + count))
    refine ⟨gen', ?_⟩
    rw [List.range_succ, List.foldr_append, List.foldr_cons, List.foldr_nil, hfold, hswap, shiftUp_succ]
    simp only [add_sub_assoc, add_assoc]

theorem foldl_swapRows (base : Int) (rows count : Nat) (g : Grid) :
    ∃ generation, (List.range count).foldl (fun g j => g.swapRows (base + rows + j) (base + j)) g =
      { g with generation, slots := g.slots.shiftDown (g.offset + base) rows count } := by
  induction count with
  | zero => exact ⟨g.generation, rfl⟩
  | succ count ih =>
    obtain ⟨gen, hfold⟩ := ih
    obtain ⟨gen', hswap⟩ := swapRows_eq
      { g with generation := gen, slots := g.slots.shiftDown (g.offset + base) rows count }
      (base + rows + count) (base + count)
    refine ⟨gen', ?_⟩
    rw [List.range_succ, List.foldl_append, List.foldl_cons, List.foldl_nil, hfold, hswap, shiftDown_succ]
    simp only [add_assoc]

/-! ## Positions -/

theorem absoluteIndex_ne {w : Int} (hp : w ≤ p ∧ p < w + g.rowCapacity)
    (hq : w ≤ q ∧ q < w + g.rowCapacity) (hne : p ≠ q) : g.absoluteIndex p ≠ g.absoluteIndex q := by
  intro h
  rw [absoluteIndex, absoluteIndex, index_inj (w := g.offset + w)] at h
  · omega
  all_goals
    unfold rowCapacity at hp hq
    omega

theorem exists_in_window (g : Grid) (base p : Int) :
    ∃ i : Nat, i < g.rowCapacity ∧ g.absoluteIndex p = g.absoluteIndex (base + i) := by
  refine ⟨g.slots.index (p - base), g.slots.index_lt _, ?_⟩
  rw [absoluteIndex, absoluteIndex, index_eq_iff, index_cast]
  have hsplit : (g.offset : Int) + p - (g.offset + (base + (p - base) % (g.slots.size : Int))) =
      (p - base) - (p - base) % (g.slots.size : Int) := by omega
  rw [hsplit]
  exact Int.emod_eq_zero_of_dvd Int.dvd_self_sub_emod

theorem slot_congr (h : g.absoluteIndex p = g.absoluteIndex q) : g.slot p = g.slot q :=
  get_congr h

theorem slot_add_capacity (g : Grid) (p : Int) : g.slot (p + g.rowCapacity) = g.slot p := by
  apply slot_congr
  rw [absoluteIndex, ← add_assoc]
  exact index_add_size

theorem get_eq_slot (g : Grid) (i : Int) : g.slots.get i = g.slot (i - g.offset) := by
  rw [slot, add_sub_cancel]

/-- The position names no slot of `[base, base + count)`. -/
def Beyond (base : Int) (count : Nat) (g : Grid) (p : Int) : Prop :=
  ∀ i : Nat, i < count → g.absoluteIndex p ≠ g.absoluteIndex (base + i)

theorem not_beyond (g : Grid) (base p : Int) : ¬ g.Beyond base g.rowCapacity p := fun h => by
  obtain ⟨i, hi, heq⟩ := g.exists_in_window base p
  exact h i hi heq

theorem slot_write_of_ne {w : Int} (hp : w ≤ p ∧ p < w + g.rowCapacity)
    (hq : w ≤ q ∧ q < w + g.rowCapacity) (hne : p ≠ q) (slot : Slot) (generation nextRowId : Nat) :
    (g.write p slot generation nextRowId).slot q = g.slot q := by
  rw [slot_write, if_neg (absoluteIndex_ne hp hq hne)]

/-! ## Runs of writes -/

/-- The fields a scroll keeps. -/
structure SameFrame (g g' : Grid) : Prop where
  columns : g'.columns = g.columns := by rfl
  screenRows : g'.screenRows = g.screenRows := by rfl
  cursor : g'.cursor = g.cursor := by rfl
  savedCursor : g'.savedCursor = g.savedCursor := by rfl
  historyGeneration : g'.historyGeneration = g.historyGeneration := by rfl
  size : g'.slots.size = g.slots.size := by rfl

/-- What a run of writes at `[base, base + count)` leaves alone. -/
structure SameOutside (base : Int) (count : Nat) (g g' : Grid) : Prop extends frame : SameFrame g g' where
  offset : g'.offset = g.offset
  view : g'.view = g.view
  nextRowId : g.nextRowId ≤ g'.nextRowId
  slot : ∀ p : Int, base + count ≤ p → p < base + g.rowCapacity → g'.slot p = g.slot p

namespace SameOutside

variable {base : Int} {count : Nat}

theorem refl (base : Int) (g : Grid) : g.SameOutside base 0 g :=
  ⟨{}, rfl, rfl, le_rfl, fun _ _ _ => rfl⟩

variable (h : g.SameOutside base count g')

include h

theorem write (hcount : count < g.rowCapacity) (slot : Slot)
    (generation : Nat) {nextRowId : Nat} (hnext : g'.nextRowId ≤ nextRowId) :
    g.SameOutside base (count + 1) (g'.write (base + count) slot generation nextRowId) := by
  refine { h with size := size_set.trans h.size, nextRowId := h.nextRowId.trans hnext, slot := ?_ }
  intro p hlow hhigh
  have hcap : g'.rowCapacity = g.rowCapacity := h.size
  rw [slot_write_of_ne (w := base) (by omega) (by omega) (by omega)]
  exact h.slot p (by omega) hhigh

theorem extend : g.SameOutside base (count + 1) g' :=
  { h with slot := fun p hlow hhigh => h.slot p (by omega) hhigh }

theorem absoluteIndex (p : Int) : g'.absoluteIndex p = g.absoluteIndex p := by
  rw [Grid.absoluteIndex, h.offset]
  exact index_congr h.size _

/-- A position below the written rows is read one turn of the ring later. -/
theorem slot_below (hlow : base + count ≤ p + g.rowCapacity) (hhigh : p < base) : g'.slot p = g.slot p := by
  have hcap : g'.rowCapacity = g.rowCapacity := h.size
  rw [← slot_add_capacity g', ← slot_add_capacity g, hcap, h.slot _ hlow (by omega)]

theorem slot_cases (p : Int) : (∃ i : Nat, i < count ∧ g.absoluteIndex p = g.absoluteIndex (base + i) ∧
      g'.slot p = g'.slot (base + i)) ∨ g.Beyond base count p ∧ g'.slot p = g.slot p := by
  obtain ⟨i, hi, hindex⟩ := g.exists_in_window base p
  have hslot : g'.slot p = g'.slot (base + i) := by
    apply slot_congr
    rw [h.absoluteIndex, h.absoluteIndex, hindex]
  by_cases hlt : i < count
  · exact .inl ⟨i, hlt, hindex, hslot⟩
  · refine .inr ⟨fun k hk heq => ?_, ?_⟩
    · exact absoluteIndex_ne (w := base) (by omega) (by omega) (by omega) (hindex.symm.trans heq)
    · rw [hslot, h.slot _ (by omega) (by omega), slot_congr hindex]

end SameOutside

variable {policy : Policy} {base : Int} {count : Nat}

/-- A run of writes, one to each position from `base` on: `I` is what they carry along, `Q` what
each says of its slot. -/
theorem foldl_write {f : Grid → Nat → Grid} (base : Int) (hcount : count ≤ g.rowCapacity)
    (I : Nat → Grid → Prop) (Q : Nat → Slot → Prop) (hstart : I 0 g)
    (hstep : ∀ (j : Nat) (g' : Grid), g.SameOutside base j g' → g'.slot (base + j) = g.slot (base + j) → I j g' →
      ∃ slot generation next, f g' j = g'.write (base + j) slot generation next ∧
        g'.nextRowId ≤ next ∧ Q j slot ∧ I (j + 1) (g'.write (base + j) slot generation next)) :
    g.SameOutside base count ((List.range count).foldl f g) ∧ I count ((List.range count).foldl f g) ∧
      ∀ i : Nat, i < count → Q i (((List.range count).foldl f g).slot (base + i)) := by
  apply foldl_range (P := fun j g' => g.SameOutside base j g' ∧ I j g' ∧ ∀ i : Nat, i < j → Q i (g'.slot (base + i)))
  · exact ⟨.refl base g, hstart, fun i hi => absurd hi (not_lt_zero i)⟩
  · rintro j g' hj ⟨hsame, hI, hQ⟩
    have hcap : g'.rowCapacity = g.rowCapacity := hsame.size
    obtain ⟨slot, generation, next, heq, hnext, hslot, hI'⟩ :=
      hstep j g' hsame (hsame.slot _ (by omega) (by omega)) hI
    rw [heq]
    refine ⟨hsame.write (by omega) slot generation hnext, hI', fun i hi => ?_⟩
    rcases Nat.lt_succ_iff_lt_or_eq.mp hi with hlt | rfl
    · rw [slot_write_of_ne (w := base) (by omega) (by omega) (by omega)]
      exact hQ i hlt
    · rw [slot_write_self]
      exact hslot

theorem shaped_editedRow (h : Stored policy g.columns g.nextRowId g.slots) {edit : Row → Row}
    (hedit : ∀ row : Row, row.Shaped policy g.columns → (edit row).Shaped policy g.columns)
    (p : Int) : (g.editedRow edit p).Shaped policy g.columns := by
  apply hedit
  cases hr : g.row p with
  | some row => exact (h.ok _).shaped hr
  | none => exact Row.shaped_new g.columns

theorem editedRow_congr (hslot : g'.slot q = g.slot p) (hcolumns : g'.columns = g.columns)
    (edit : Row → Row) : g'.editedRow edit q = g.editedRow edit p := by
  simp only [editedRow, row, hslot, hcolumns]

/-- Rows brought in by a forward scroll: blank and under fresh identities. -/
structure Recycled (background : Color) (base : Int) (count : Nat) (g g' : Grid) : Prop where
  same : g.SameOutside base count g'
  nextRowId : g'.nextRowId = g.nextRowId + count
  slot : ∀ i : Nat, i < count → g'.slot (base + i) =
      { row := some (g.editedRow (Row.eraseAll background) (base + i)), id := g.nextRowId + i }
  stored : ∀ {policy : Policy}, Stored policy g.columns g.nextRowId g.slots → 0 < g.nextRowId →
    Stored policy g.columns g'.nextRowId g'.slots

theorem recycled (background : Color) (base : Int) (hcount : count ≤ g.rowCapacity) : g.Recycled background base count
      ((List.range count).foldl (fun g (row : Nat) => g.recycleRow background (base + row)) g) := by
  obtain ⟨hsame, ⟨hnext, hstored⟩, hslot⟩ := foldl_write
    (f := fun g row => g.recycleRow background (base + row)) base hcount
    (fun j g' => g'.nextRowId = g.nextRowId + j ∧ ∀ {policy : Policy},
      Stored policy g.columns g.nextRowId g.slots → 0 < g.nextRowId → Stored policy g.columns g'.nextRowId g'.slots)
    (fun i slot => slot = { row := some (g.editedRow (Row.eraseAll background) (base + i)), id := g.nextRowId + i })
    ⟨rfl, fun h _ => h⟩ (by
      rintro j g' hsame hslot ⟨hnext, hstored⟩
      have hrow := editedRow_congr hslot hsame.columns (Row.eraseAll background)
      refine ⟨_, _, _, recycleRow_eq background g' _, le_succ _, by rw [hrow, hnext], ?_, fun h hpos => ?_⟩
      · show g'.nextRowId + 1 = _
        rw [hnext, add_assoc]
      · rw [hrow]
        exact (hstored h hpos).set_fresh _ (shaped_editedRow h (fun _ hs => hs.eraseAll background) _)
          (hpos.trans_le hsame.nextRowId))
  exact ⟨hsame, hnext, hslot, hstored⟩

theorem editOrAllocate_eq (g : Grid) (p : Int) (edit : Row → Row) : ∃ id next, g.nextRowId ≤ next ∧
      g.editOrAllocate p edit = g.write p { row := some (g.editedRow edit p), id } (g.generation + 1) next ∧
      ((g.slot p).row.isSome = true ∧ id = (g.slot p).id ∧ next = g.nextRowId ∨
        (g.slot p).row = none ∧ id = g.nextRowId ∧ next = g.nextRowId + 1) := by
  cases hr : g.row p with
  | some row =>
    refine ⟨(g.slot p).id, g.nextRowId, le_rfl, ?_, .inl ⟨?_, rfl, rfl⟩⟩
    · rw [editOrAllocate_some hr, editedRow, hr]
      rfl
    · exact Option.isSome_iff_exists.mpr ⟨row, hr⟩
  | none =>
    refine ⟨g.nextRowId, g.nextRowId + 1, le_succ _, ?_, .inr ⟨hr, rfl, rfl⟩⟩
    rw [editOrAllocate_none hr, editedRow, hr]
    rfl

/-- Rows edited in place, or allocated there. -/
structure Allocated (edit : Row → Row) (base : Int) (count : Nat) (g g' : Grid) : Prop where
  same : g.SameOutside base count g'
  row : ∀ i : Nat, i < count → g'.row (base + i) = some (g.editedRow edit (base + i))
  stored : ∀ {policy : Policy}, Stored policy g.columns g.nextRowId g.slots → 0 < g.nextRowId →
    (∀ row : Row, row.Shaped policy g.columns → (edit row).Shaped policy g.columns) →
    Stored policy g.columns g'.nextRowId g'.slots

theorem allocated (edit : Row → Row) (base : Int) (hcount : count ≤ g.rowCapacity) : g.Allocated edit base count
      ((List.range count).foldl (fun g (row : Nat) => g.editOrAllocate (base + row) edit) g) := by
  obtain ⟨hsame, hstored, hrow⟩ := foldl_write
    (f := fun g row => g.editOrAllocate (base + row) edit) base hcount
    (fun _ g' => ∀ {policy : Policy}, Stored policy g.columns g.nextRowId g.slots → 0 < g.nextRowId →
      (∀ row : Row, row.Shaped policy g.columns → (edit row).Shaped policy g.columns) →
        Stored policy g.columns g'.nextRowId g'.slots)
    (fun i slot => slot.row = some (g.editedRow edit (base + i))) (fun h _ _ => h) (by
      intro j g' hsame hslot hstored
      obtain ⟨id, next, hnext, heq, hid⟩ := editOrAllocate_eq g' (base + j) edit
      rw [editedRow_congr hslot hsame.columns] at heq
      refine ⟨_, _, next, heq, hnext, rfl, fun h hpos hedit => ?_⟩
      have hshape := shaped_editedRow h hedit (base + j)
      have hst := hstored h hpos hedit
      rcases hid with ⟨hsome, rfl, rfl⟩ | ⟨-, rfl, rfl⟩
      · exact hst.set_row hsome hshape
      · exact hst.set_fresh _ hshape (hpos.trans_le hsame.nextRowId))
  exact ⟨hsame, hrow, hstored⟩

/-- Slots written from a table. -/
structure Filled (slot : Nat → Slot) (base : Int) (count : Nat) (g g' : Grid) : Prop where
  same : g.SameOutside base count g'
  nextRowId : g'.nextRowId = g.nextRowId
  slot : ∀ i : Nat, i < count → g'.slot (base + i) = slot i

theorem filled (slot : Nat → Slot) (base : Int) (hcount : count ≤ g.rowCapacity) : g.Filled slot base count
      ((List.range count).foldl (fun g (row : Nat) => g.setSlot (base + row) (slot row)) g) := by
  obtain ⟨hsame, hnext, hslot⟩ := foldl_write
    (f := fun g row => g.setSlot (base + row) (slot row)) base hcount
    (fun _ g' => g'.nextRowId = g.nextRowId) (fun i written => written = slot i) rfl
    fun j g' _ _ hnext => ⟨slot j, g'.generation, g'.nextRowId, rfl, le_rfl, rfl, hnext⟩
  exact ⟨hsame, hnext, hslot⟩

/-- Rows under new identities, in the order of their positions. -/
structure Reidentified (base : Int) (count : Nat) (g g' : Grid) : Prop where
  same : g.SameOutside base count g'
  row : ∀ p : Int, (g'.slot p).row = (g.slot p).row
  fresh : ∀ i : Nat, i < count → (g'.slot (base + i)).row.isSome = true →
    g.nextRowId ≤ (g'.slot (base + i)).id ∧ (g'.slot (base + i)).id < g'.nextRowId
  unallocated : ∀ p : Int, (g.slot p).row = none → g'.slot p = g.slot p
  increasing : ∀ i j : Nat, i < j → j < count → (g'.slot (base + i)).row.isSome = true →
    (g'.slot (base + j)).row.isSome = true → (g'.slot (base + i)).id < (g'.slot (base + j)).id

/-- One turn of the loop. -/
theorem reidentifyAllocatedRow_eq (g : Grid) (p : Int) : g.reidentifyAllocatedRow p =
      if (g.slot p).row.isSome = true then
        g.write p { g.slot p with id := g.nextRowId } g.generation (g.nextRowId + 1)
      else g := rfl

theorem Reidentified.step (h : g.Reidentified base count g') (hcount : count < g.rowCapacity) :
    g.Reidentified base (count + 1) (g'.reidentifyAllocatedRow (base + count)) := by
  have hcap : g'.rowCapacity = g.rowCapacity := h.same.size
  rw [reidentifyAllocatedRow_eq]
  by_cases hsome : (g'.slot (base + count)).row.isSome = true
  · rw [if_pos hsome]
    have hother : ∀ i : Nat, i < count →
        (g'.write (base + count) { g'.slot (base + count) with id := g'.nextRowId } g'.generation
          (g'.nextRowId + 1)).slot (base + i) = g'.slot (base + i) := fun i hi =>
      slot_write_of_ne (w := base) (by omega) (by omega) (by omega) _ _ _
    refine ⟨h.same.write hcount _ _ (le_succ _), ?_, ?_, ?_, ?_⟩
    · intro p
      rw [slot_write]
      split
      · rename_i hp
        rw [← h.row p, ← slot_congr hp]
      · exact h.row p
    · intro i hi hi'
      rcases Nat.lt_succ_iff_lt_or_eq.mp hi with hlt | rfl
      · rw [hother i hlt] at hi' ⊢
        have hf := h.fresh i hlt hi'
        exact ⟨hf.1, lt_succ_of_lt hf.2⟩
      · rw [slot_write_self]
        exact ⟨h.same.nextRowId, lt_succ_self _⟩
    · intro p hp
      rw [slot_write, if_neg]
      · exact h.unallocated p hp
      · intro hidx
        rw [slot_congr hidx, h.row p, hp] at hsome
        cases hsome
    · intro i j hij hj hi' hj'
      rcases Nat.lt_succ_iff_lt_or_eq.mp hj with hlt | rfl
      · rw [hother i (hij.trans hlt)] at hi' ⊢
        rw [hother j hlt] at hj' ⊢
        exact h.increasing i j hij hlt hi' hj'
      · rw [hother i hij] at hi' ⊢
        rw [slot_write_self]
        exact (h.fresh i hij hi').2
  · rw [if_neg hsome]
    refine ⟨h.same.extend, h.row, ?_, h.unallocated, ?_⟩
    · intro i hi hi'
      rcases Nat.lt_succ_iff_lt_or_eq.mp hi with hlt | rfl
      · exact h.fresh i hlt hi'
      · exact absurd hi' hsome
    · intro i j hij hj hi' hj'
      rcases Nat.lt_succ_iff_lt_or_eq.mp hj with hlt | rfl
      · exact h.increasing i j hij hlt hi' hj'
      · exact absurd hj' hsome

theorem reidentified (base : Int) (hcount : count ≤ g.rowCapacity) : g.Reidentified base count
      ((List.range count).foldl (fun g (j : Nat) => g.reidentifyAllocatedRow (base + j)) g) := by
  apply foldl_range (P := fun j g' => g.Reidentified base j g')
  · exact ⟨.refl base g, fun _ => rfl, fun i hi => absurd hi (not_lt_zero i),
      fun _ _ => rfl, fun _ j _ hj => absurd hj (not_lt_zero j)⟩
  · intro j g' hj h
    exact h.step (by omega)

theorem Reidentified.distinct (h : g.Reidentified base count g')
    (hold : ∀ p : Int, g.Beyond base count p → Stored policy g.columns g.nextRowId g.slots) : Distinct g'.slots := by
  intro i j hi hj hid
  have hindex (i : Int) : g'.slots.index i = g.absoluteIndex (i - g'.offset) := by
    rw [← h.same.absoluteIndex, absoluteIndex, add_sub_cancel]
  rw [get_eq_slot] at hi hid
  rw [get_eq_slot g' j] at hj hid
  rw [hindex, hindex]
  have hlt : ∀ p : Int, g.Beyond base count p → g'.slot p = g.slot p →
      (g'.slot p).row.isSome = true → (g'.slot p).id < g.nextRowId := by
    intro p hp hslot hsome
    rw [hslot] at hsome ⊢
    exact ((hold p hp).ok _).id_lt hsome
  rcases h.same.slot_cases (i - g'.offset) with ⟨k, hk, hik, hislot⟩ | ⟨hiout, hislot⟩
  all_goals rcases h.same.slot_cases (j - g'.offset) with ⟨l, hl, hjl, hjslot⟩ | ⟨hjout, hjslot⟩
  · rw [hislot] at hi hid
    rw [hjslot] at hj hid
    rw [hik, hjl]
    rcases lt_trichotomy k l with hkl | rfl | hkl
    · exact absurd hid (h.increasing k l hkl hl hi hj).ne
    · rfl
    · exact absurd hid (h.increasing l k hkl hk hj hi).ne'
  · have hj' := hlt _ hjout hjslot hj
    rw [hislot] at hi hid
    exact absurd hid (hj'.trans_le (h.fresh k hk hi).1).ne'
  · have hi' := hlt _ hiout hislot hi
    rw [hjslot] at hj hid
    exact absurd hid (hi'.trans_le (h.fresh l hl hj).1).ne
  · rw [hislot] at hi hid
    rw [hjslot] at hj hid
    exact (hold _ hiout).distinct _ _ hi hj hid

/-- Fresh identities make a ring of well-shaped rows a stored one. -/
theorem Reidentified.stored (h : g.Reidentified base count g')
    (hold : ∀ p : Int, g.Beyond base count p → Stored policy g.columns g.nextRowId g.slots)
    (hrow : ∀ (p : Int) (row : Row), g.row p = some row → row.Shaped policy g.columns)
    (hempty : ∀ p : Int, (g.slot p).row = none → (g.slot p).id = 0) (hpos : 0 < g.nextRowId) :
    Stored policy g.columns g'.nextRowId g'.slots := by
  refine ⟨fun i => ?_, h.distinct hold⟩
  rw [get_eq_slot]
  rcases h.same.slot_cases (i - g'.offset) with ⟨k, hk, -, hslot⟩ | ⟨hout, hslot⟩
  · rw [hslot]
    cases hr : (g.slot (base + k)).row with
    | none =>
      rw [h.unallocated _ hr]
      exact .inl ⟨hr, hempty _ hr⟩
    | some row =>
      have hnew : (g'.slot (base + k)).row = some row := (h.row _).trans hr
      have hf := h.fresh k hk (by rw [hnew]; rfl)
      exact .inr ⟨row, hnew, hrow _ _ hr, hpos.trans_le hf.1, hf.2⟩
  · rw [hslot]
    exact ((hold _ hout).ok _).mono h.same.nextRowId

end Splinterm.Terminal.Grid
