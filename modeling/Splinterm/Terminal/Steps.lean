import Splinterm.Lib.Moves
import Splinterm.Terminal.GridFresh

/-!
# Primitive updates

Whatever a command does, it does it by a few primitive updates: edits of a row, moves of rows
inside the ring of a grid, cursor movements, a fresh or resized grid in the place of a screen, and
updates of everything beside the screens. The relations below name them once. They say nothing of
failures: a command that stops is not looked at.
-/

namespace Splinterm.Terminal

set_option linter.dupNamespace false

open Lib Hoare Relation Grid RingBuffer

/-! ## Rows -/

namespace Row

/-- The cells `[start, stop)` become padding, as a wide character that wraps leaves them. -/
def padded (start stop : Nat) (row : Row) : Row :=
  (List.range' start (stop - start)).foldl
    (fun row pad => row.edited pad fun cell => { cell with content := .spacer 0 }) row

/-- One edit of a row of `columns` cells. Padding reaches its end, and is let through where `ok`
holds. -/
inductive Step (ok : Row → Nat → Prop) (columns : Nat) : Row → Row → Prop where
  | linebreak (row : Row) (linebreak : Bool) : Step ok columns row (row.setLinebreak linebreak)
  | eraseAll (row : Row) (background : Color) : Step ok columns row (row.eraseAll background)
  | erase {row row' : Row} {start stop : Nat} {background : Color}
      (h : Row.erase start stop background row = .ok () row') : Step ok columns row row'
  | fill {row row' : Row} {start stop : Nat} {content : CellContent} {attributes : Attributes}
      (hcontent : ¬ Cell.Continues ⟨content, attributes⟩)
      (h : Row.fill start stop content attributes row = .ok () row') : Step ok columns row row'
  | insert {row row' : Row} {column count : Nat} {background : Color}
      (h : insertCells column count background row = .ok () row') : Step ok columns row row'
  | delete {row row' : Row} {column count : Nat} {background : Color}
      (h : deleteCells column count background row = .ok () row') : Step ok columns row row'
  | write {row row' : Row} {column width : Nat} {character : Char} {attributes : Attributes}
      (hwidth : 0 < width) (h : writeCharacter column width character attributes row = .ok () row') :
      Step ok columns row row'
  | compose {row row' : Row} {column key : Nat} {sequence : List Char} {table : ComposedTable}
      (hbase : table.sequenceAt (row.cells.getD column default).content = some sequence)
      (h : setContent column (.composed key) row = .ok () row') : Step ok columns row row'
  | pad {row : Row} {column : Nat} (h : ok row column) :
      Step ok columns row (row.padded column columns)

end Row

/-! ## Grids -/

namespace Grid

variable {ok : Row → Nat → Prop} {g g' g'' : Grid} {row : Row} {p : Int}

def Holds (g : Grid) (row : Row) : Prop := ∃ p : Int, g.row p = some row

theorem holds_iff : g.Holds row ↔ ∃ i : Int, (g.slots.get i).row = some row := by
  refine ⟨fun ⟨p, hp⟩ => ⟨g.offset + p, hp⟩, fun ⟨i, hi⟩ => ⟨i - g.offset, ?_⟩⟩
  rw [Grid.row, slot, add_sub_cancel]
  exact hi

theorem holds_congr (h : g'.slots = g.slots) : g'.Holds row ↔ g.Holds row := by
  rw [holds_iff, holds_iff, h]

/-- Rows are moved, dropped or replaced by what edits make of them, or of new rows. -/
structure Reworks (ok : Row → Nat → Prop) (g g' : Grid) : Prop where
  columns : g'.columns = g.columns
  cursor : g'.cursor = g.cursor
  rows : ∀ row', g'.Holds row' →
    ∃ row, (g.Holds row ∨ row = Row.new g.columns) ∧ ReflTransGen (Row.Step ok g.columns) row row'

namespace Reworks

/-- Only what names, counts or shows the rows differs. -/
theorem of_holds (hcolumns : g'.columns = g.columns) (hcursor : g'.cursor = g.cursor)
    (hrows : ∀ row, g'.Holds row → g.Holds row) : g.Reworks ok g' :=
  ⟨hcolumns, hcursor, fun row hrow => ⟨row, .inl (hrows row hrow), .refl⟩⟩

theorem of_slots (hcolumns : g'.columns = g.columns) (hcursor : g'.cursor = g.cursor)
    (hslots : g'.slots = g.slots) : g.Reworks ok g' :=
  of_holds hcolumns hcursor fun _ => (holds_congr hslots).mp

theorem refl (g : Grid) : g.Reworks ok g := of_slots rfl rfl rfl

theorem trans (h : g.Reworks ok g') (h' : g'.Reworks ok g'') : g.Reworks ok g'' := by
  refine ⟨h'.columns.trans h.columns, h'.cursor.trans h.cursor, fun row'' hrow'' => ?_⟩
  obtain ⟨row', hrow' | rfl, hlast⟩ := h'.rows row'' hrow''
  all_goals rw [h.columns] at hlast
  · obtain ⟨row, hrow, hfirst⟩ := h.rows row' hrow'
    exact ⟨row, hrow, hfirst.trans hlast⟩
  · exact ⟨_, .inr rfl, hlast⟩

theorem setSlot {slot : Slot} (h : ∀ row', slot.row = some row' →
      ∃ row, (g.Holds row ∨ row = Row.new g.columns) ∧ ReflTransGen (Row.Step ok g.columns) row row') :
    g.Reworks ok (g.setSlot p slot) := by
  refine ⟨rfl, rfl, fun row' ⟨q, hq⟩ => ?_⟩
  rw [row, slot_setSlot] at hq
  split at hq
  · exact h row' hq
  · exact ⟨row', .inl ⟨q, hq⟩, .refl⟩

theorem foldl {α : Type} {f : Grid → α → Grid} (hf : ∀ g a, Reworks ok g (f g a)) (l : List α)
    (g : Grid) : g.Reworks ok (l.foldl f g) := by
  induction l generalizing g with
  | nil => exact refl g
  | cons a l ih => exact (hf g a).trans (ih (f g a))

theorem foldr {α : Type} {f : α → Grid → Grid} (hf : ∀ g a, Reworks ok g (f a g)) (l : List α)
    (g : Grid) : g.Reworks ok (l.foldr f g) := by
  induction l with
  | nil => exact refl g
  | cons a l ih => exact ih.trans (hf _ a)

end Reworks

/-! ## Moves of rows -/

theorem reworks_assignNewRowId (g : Grid) (p : Int) : g.Reworks ok (g.assignNewRowId p) := by
  have hset : g.Reworks ok (g.setSlot p { g.slot p with id := g.nextRowId }) :=
    .setSlot fun row hrow => ⟨row, .inl ⟨p, hrow⟩, .refl⟩
  exact hset.trans (.of_slots rfl rfl rfl)

theorem reworks_reidentifyAllocatedRow (g : Grid) (p : Int) : g.Reworks ok (g.reidentifyAllocatedRow p) := by
  rw [reidentifyAllocatedRow]
  split
  · exact reworks_assignNewRowId g p
  · exact .refl g

theorem reworks_reidentifyNewestHistoryRows (g : Grid) (count : Nat) :
    g.Reworks ok (g.reidentifyNewestHistoryRows count) :=
  .foldl (fun g _ => reworks_reidentifyAllocatedRow g _) _ g

theorem reworks_reidentifyAllocatedRowsChronologically (g : Grid) :
    g.Reworks ok g.reidentifyAllocatedRowsChronologically :=
  .foldl (fun g _ => reworks_reidentifyAllocatedRow g _) _ g

theorem reworks_swapRows (g : Grid) (p q : Int) : g.Reworks ok (g.swapRows p q) := by
  obtain ⟨generation, heq⟩ := swapRows_eq g p q
  rw [heq]
  refine .of_holds rfl rfl fun row hrow => ?_
  rw [holds_iff] at hrow ⊢
  obtain ⟨i, hi⟩ := hrow
  -- a slot of the swapped ring is some slot of the old one
  rw [get_swap] at hi
  split at hi
  · exact ⟨_, hi⟩
  · split at hi
    · exact ⟨_, hi⟩
    · exact ⟨i, hi⟩

theorem reworks_write_editedRow {edit : Row → Row} (g : Grid)
    (hedit : ∀ row, ReflTransGen (Row.Step ok g.columns) row (edit row)) (p : Int) (id generation nextRowId : Nat) :
    g.Reworks ok (g.write p { row := some (g.editedRow edit p), id } generation nextRowId) := by
  have hset : g.Reworks ok (g.setSlot p { row := some (g.editedRow edit p), id }) := by
    apply Reworks.setSlot
    intro row' hrow'
    cases hrow'
    rw [editedRow]
    cases hrow : g.row p with
    | some row => exact ⟨row, .inl ⟨p, hrow⟩, hedit row⟩
    | none => exact ⟨_, .inr rfl, hedit _⟩
  exact hset.trans (.of_slots rfl rfl rfl)

theorem reworks_editOrAllocate {edit : Row → Row} (g : Grid)
    (hedit : ∀ row, ReflTransGen (Row.Step ok g.columns) row (edit row)) (p : Int) : g.Reworks ok (g.editOrAllocate p edit) := by
  obtain ⟨id, next, -, heq, -⟩ := editOrAllocate_eq g p edit
  rw [heq]
  exact reworks_write_editedRow g hedit p id _ next

theorem reworks_recycleRow (background : Color) (g : Grid) (p : Int) : g.Reworks ok (g.recycleRow background p) := by
  rw [recycleRow_eq]
  exact reworks_write_editedRow g (fun row => .single (.eraseAll row background)) p _ _ _

theorem reworks_scrollForwardCore (start stop rows : Nat) (background : Color) (g : Grid) :
    g.Reworks ok (scrollForwardCore start stop rows background g) := by
  refine Reworks.trans ?_ (reworks_reidentifyNewestHistoryRows _ rows)
  refine Reworks.trans ?_ (.foldl (fun g _ => reworks_recycleRow background g _) _ _)
  refine Reworks.trans ?_ (.foldr (fun g _ => reworks_swapRows g _ _) _ _)
  refine Reworks.trans ?_ (.foldr (fun g _ => reworks_swapRows g _ _) _ _)
  exact .of_slots rfl rfl rfl

theorem reworks_scrollReverseCore (start stop rows : Nat) (background : Color) (g : Grid) :
    g.Reworks ok (scrollReverseCore start stop rows background g) := by
  have hemptied : g.Reworks ok ((List.range rows).foldl
      (fun g (row : Nat) => g.setSlot (stop - rows + row : Nat) {}) g) :=
    .foldl (fun g _ => .setSlot fun _ h => by cases h) _ g
  have herase (columns : Nat) (row : Row) : ReflTransGen (Row.Step ok columns) row (row.eraseAll background) :=
    .single (.eraseAll row background)
  refine Reworks.trans ?_ (.foldl (fun g _ => reworks_editOrAllocate g (herase _) _) _ _)
  refine Reworks.trans ?_ (.foldl (fun g _ => reworks_swapRows g _ _) _ _)
  refine Reworks.trans ?_ (.foldl (fun g _ => reworks_swapRows g _ _) _ _)
  refine hemptied.trans ?_
  split
  · exact .of_slots rfl rfl rfl
  · exact .of_slots rfl rfl rfl

theorem reworks_clearScrollback (g : Grid) : g.Reworks ok g.clearScrollback := by
  rw [clearScrollback]
  split
  · refine .of_holds rfl rfl fun row hrow => ?_
    rw [holds_iff] at hrow ⊢
    obtain ⟨i, hi⟩ := hrow
    rw [get_mapIdx] at hi
    split at hi
    · cases hi
    · exact ⟨i, hi⟩
  · exact .refl g

theorem reworks_continueHistoryNamespace (g : Grid) (historySpace : Nat × Nat) :
    g.Reworks ok (g.continueHistoryNamespace historySpace) := by
  refine Reworks.trans ?_ (reworks_reidentifyAllocatedRowsChronologically _)
  exact .of_slots rfl rfl rfl

/-- The rows of a new screen, also after they were reworked. -/
theorem rows_of_withScreenSize {rowCapacity columns screenRows : Nat} {row : Row}
    (h : withScreenSize rowCapacity columns screenRows = .ok g) (hreworks : g.Reworks ok g')
    (hrow : g'.Holds row) : ReflTransGen (Row.Step ok g'.columns) (Row.new g'.columns) row := by
  obtain ⟨hsized, rfl⟩ := sized_of_withScreenSize h
  set start : Grid := { blank rowCapacity columns (isPowerOfTwo_pos hsized.capacity) with screenRows }
  set filled := (List.range screenRows).foldl
    (fun g (row : Nat) => g.editOrAllocate (0 + row) id) start
  have hempty (p : Int) : start.slot p = {} := get_blank columns (isPowerOfTwo_pos hsized.capacity) _
  have hfilled : start.Reworks ok filled := .foldl (fun g _ => reworks_editOrAllocate g (fun _ => .refl) _) _ start
  have hall := hfilled.trans hreworks
  obtain ⟨old, hold | rfl, hsteps⟩ := hall.rows row hrow
  · obtain ⟨p, hp⟩ := hold
    rw [Grid.row, hempty] at hp
    cases hp
  · rw [hall.columns]
    exact hsteps

/-- The updates of the grid of a screen. -/
inductive Step (ok : Row → Nat → Prop) : Grid → Grid → Prop where
  | reworks {g g' : Grid} (h : g.Reworks ok g') : Step ok g g'
  | cursors {g g' : Grid} (hcolumns : g'.columns = g.columns) (hslots : g'.slots = g.slots) : Step ok g g'
  | fresh {g g' : Grid} (h : ∀ row, g'.Holds row → ReflTransGen (Row.Step ok g'.columns) (Row.new g'.columns) row) :
      Step ok g g'
  | cut {g g' : Grid} {rowCapacity columns screenRows : Nat} {anchors : OrdMap Nat Nat}
      (h : g.resizeWithoutReflow rowCapacity columns screenRows = .ok (g', anchors)) : Step ok g g'
  | reflow {g g' : Grid} {rowCapacity columns screenRows : Nat} {composedWidth : Nat → Nat}
      {anchors : OrdMap Nat Nat}
      (h : g.resizeWithReflow rowCapacity columns screenRows composedWidth = .ok (g', anchors)) : Step ok g g'

/-! ## Operations of a grid -/

section

variable {α : Type}

/-- An edit of a row replaces that row and nothing else. -/
theorem wp_onRow_of_row (edit : RowM α) :
    wp (onRow p edit) (fun a g' => ∃ row row', g.row p = some row ∧ edit row = .ok a row' ∧
      g' = g.withRow p row') (fun _ _ => True) g := by
  simp only [onRow, wp_bind, wp_get, wp_okOr, wp_set, wp_zoom]
  refine ⟨fun row hrow => ?_, fun _ => trivial⟩
  rw [wp]
  cases hedit : edit row with
  | ok a row' => exact ⟨row, row', hrow, hedit, rfl⟩
  | error e row' => trivial

theorem reworks_withRow {row' : Row} (hrow : g.row p = some row)
    (hsteps : ReflTransGen (Row.Step ok g.columns) row row') : g.Reworks ok (g.withRow p row') := by
  have hset : g.Reworks ok (g.setSlot p { g.slot p with row := some row' }) := by
    apply Reworks.setSlot
    intro found hfound
    cases hfound
    exact ⟨row, .inl ⟨p, hrow⟩, hsteps⟩
  exact hset.trans (.of_slots rfl rfl rfl)

theorem wp_onRow_reworks {edit : RowM α} (hedit : ∀ row a row', g.row p = some row →
      edit row = .ok a row' → ReflTransGen (Row.Step ok g.columns) row row') :
    wp (onRow p edit) (fun _ g' => g.Reworks ok g') (fun _ _ => True) g := by
  refine wp_imp (wp_onRow_of_row edit) ?_
  rintro a g' ⟨row, row', hrow, hrun, rfl⟩
  exact reworks_withRow hrow (hedit row a row' hrow hrun)

/-- A loop of edits of one row replaces that row by what the edits make of it. -/
theorem wp_forM_onRow {l : List α} {edit : α → RowM Unit} :
    wp (l.forM fun a => onRow p (edit a)) (fun _ g' => (l = [] ∧ g' = g) ∨
      ∃ row row' generation, g.row p = some row ∧ l.forM edit row = .ok () row' ∧
        g' = g.write p { g.slot p with row := some row' } generation g.nextRowId)
      (fun _ _ => True) g := by
  induction l generalizing g with
  | nil => exact .inl ⟨rfl, rfl⟩
  | cons a l ih =>
    rw [wp_forM_cons]
    refine wp_imp (wp_onRow_of_row (edit a)) ?_
    rintro _ g' ⟨row, row', hrow, hrun, rfl⟩
    refine wp_imp ih ?_
    rintro _ g'' (⟨rfl, rfl⟩ | ⟨mid, row'', generation, hmid, hrest, rfl⟩)
    · refine .inr ⟨row, row', _, hrow, ?_, rfl⟩
      rw [forM_cons_of_ok hrun]
      rfl
    · refine .inr ⟨row, row'', generation, hrow, ?_, ?_⟩
      · rw [Grid.row, withRow, slot_write_self] at hmid
        cases hmid
        rw [forM_cons_of_ok hrun]
        exact hrest
      · simp only [withRow, write, slot, set_set, get_set_self]

theorem wp_setCursor_step (cursor : Cursor) :
    wp (setCursor cursor) (fun _ g' => g'.columns = g.columns ∧ g'.slots = g.slots ∧ g'.cursor = cursor)
      (fun _ _ => True) g := by
  simp only [setCursor, wp_bind, wp_get, wp_ensure, wp_whenever, wp_set]
  exact ⟨fun _ => ⟨fun _ => by simp [bumpGeneration], fun hsame => by simpa using hsame⟩, fun _ => trivial⟩

theorem wp_setSavedCursor_step (cursor : Cursor) :
    wp (setSavedCursor cursor) (fun _ g' => g'.columns = g.columns ∧ g'.slots = g.slots) (fun _ _ => True) g := by
  simp only [setSavedCursor, wp_bind, wp_get, wp_ensure, wp_whenever, wp_set]
  exact ⟨fun _ => ⟨fun _ => by simp [bumpGeneration], fun _ => by simp⟩, fun _ => trivial⟩

theorem wp_scroll_reworks (direction : ScrollDirection) (region : ScrollRegion) (rows : Nat) (background : Color) :
    wp (scroll direction region rows background) (fun _ g' => g.Reworks ok g') (fun _ _ => True) g := by
  simp only [scroll, wp_bind, wp_get, wp_ensure, wp_whenever, wp_modify]
  refine ⟨fun _ => ⟨fun _ => ⟨fun _ => ⟨fun _ => ?_, fun _ => trivial⟩, fun _ => .refl g⟩,
    fun _ => trivial⟩, fun _ => trivial⟩
  cases direction with
  | forward => exact reworks_scrollForwardCore _ _ _ _ _
  | reverse => exact reworks_scrollReverseCore _ _ _ _ _

/-- The visible rows are erased, then the cursors go home. -/
theorem steps_resetVisible (background : Color) (g : Grid) : ReflTransGen (Step ok) g (g.resetVisible background) := by
  have herase (columns : Nat) (row : Row) : ReflTransGen (Row.Step ok columns) row (row.eraseAll background) :=
    .single (.eraseAll row background)
  have herased : ReflTransGen (Step ok) g ((List.range g.screenRows).foldl
      (fun g (row : Nat) => g.editOrAllocate row (Row.eraseAll background)) g) :=
    .single (.reworks (.foldl (fun g _ => reworks_editOrAllocate g (herase _) _) _ g))
  exact herased.tail (.cursors rfl rfl)

end

end Grid

/-! ## Terminals -/

namespace Terminal

variable {ok : Row → Nat → Prop} {t t' : Terminal} {α : Type}

def screen (t : Terminal) : ActiveScreen → Grid
  | .normal => t.normal
  | .alternate => t.alternate

def withScreen (screen : ActiveScreen) (g : Grid) (t : Terminal) : Terminal :=
  match screen with
  | .normal => { t with normal := g }
  | .alternate => { t with alternate := g }

theorem grid_eq (t : Terminal) : t.grid = t.screen t.active := rfl

theorem setGrid_eq (g : Grid) (t : Terminal) : t.setGrid g = t.withScreen t.active g := rfl

/-- Neither a screen nor what was published differs. -/
structure Beside (t t' : Terminal) : Prop where
  normal : t'.normal = t.normal
  alternate : t'.alternate = t.alternate
  config : t'.config = t.config
  revision : t'.revision = t.revision
  outbox : t'.outbox = t.outbox

theorem Beside.of (h : (t'.normal, t'.alternate, t'.config, t'.revision, t'.outbox) =
    (t.normal, t.alternate, t.config, t.revision, t.outbox)) : t.Beside t' := by
  simp only [Prod.mk.injEq] at h
  exact ⟨h.1, h.2.1, h.2.2.1, h.2.2.2.1, h.2.2.2.2⟩

/-- The updates a command is made of. -/
inductive Step (ok : Row → Nat → Prop) : Terminal → Terminal → Prop where
  | beside {t t' : Terminal} (h : t.Beside t') : Step ok t t'
  | screen {t : Terminal} (screen : ActiveScreen) {g : Grid} (h : Grid.Step ok (t.screen screen) g) :
      Step ok t (t.withScreen screen g)

/-- Where a command that returns leaves a terminal. -/
abbrev Does (ok : Row → Nat → Prop) (m : TerminalM α) (t : Terminal) : Prop :=
  Moves (Step ok) (fun _ => False) m t

theorem steps_screen (screen : ActiveScreen) {g : Grid} (h : ReflTransGen (Grid.Step ok) (t.screen screen) g) :
    ReflTransGen (Step ok) t (t.withScreen screen g) := by
  induction h with
  | refl =>
    cases screen with
    | normal | alternate => exact .refl
  | @tail g g' _ hlast ih =>
    have hthere : (t.withScreen screen g).screen screen = g := by cases screen <;> rfl
    have hlater : (t.withScreen screen g).withScreen screen g' = t.withScreen screen g' := by
      cases screen <;> rfl
    rw [← hthere] at hlast
    rw [← hlater]
    exact ih.tail (.screen screen hlast)

/-- An update of everything beside the screens. -/
theorem does_modify {f : Terminal → Terminal} (h : t.Beside (f t)) : Does ok (modify f) t :=
  .modify (.beside h)

theorem does_set (h : t.Beside t') : Does ok (set t') t := .set (.beside h)

/-! ## The parts commands share -/

/-- A run of a grid operation on one of the screens. -/
theorem does_zoom (screen : ActiveScreen) {view : Terminal → Grid} {put : Grid → Terminal → Terminal} {m : GridM α}
    (h : wp m (fun _ g => ReflTransGen (Grid.Step ok) (t.screen screen) g) (fun _ _ => True) (view t))
    (hput : ∀ g, put g t = t.withScreen screen g) : Does ok (zoom view put m) t := by
  rw [Does, Moves, wp_zoom]
  refine wp_mono h (fun _ g hg => ?_) fun _ _ _ hfalse => hfalse.elim
  rw [hput]
  exact steps_screen screen hg

theorem does_onGrid {m : GridM α}
    (h : wp m (fun _ g => ReflTransGen (Grid.Step ok) t.grid g) (fun _ _ => True) t.grid) : Does ok (onGrid m) t :=
  does_zoom t.active h fun _ => rfl

theorem wp_setCursor_steps {g : Grid} (cursor : Cursor) :
    wp (Grid.setCursor cursor) (fun _ g' => ReflTransGen (Grid.Step ok) g g') (fun _ _ => True) g :=
  wp_imp (wp_setCursor_step cursor) (fun _ _ h => .single (.cursors h.1 h.2.1))

theorem does_setCursor (cursor : Cursor) : Does ok (setCursor cursor) t := does_onGrid (wp_setCursor_steps cursor)

theorem does_onRow {p : Nat} {edit : RowM α} (h : ∀ row a row', t.grid.row p = some row →
      edit row = .ok a row' → ReflTransGen (Row.Step ok t.grid.columns) row row') : Does ok (onRow p edit) t :=
  does_onGrid (wp_imp (wp_onRow_reworks h) (fun _ _ h => .single (.reworks h)))

theorem does_onRow_modify {row : Nat} {edit : Row → Row} (h : ∀ row, Row.Step ok t.grid.columns row (edit row)) :
    Does ok (onRow row (modify edit)) t :=
  does_onRow fun found _ _ _ hrun => by
    cases hrun
    exact .single (h found)

/-- A relation that lets the image plane and the open change be updated. -/
structure Lax (r : Terminal → Terminal → Prop) : Prop where
  images : ∀ (t : Terminal) images, r t { t with images }
  currentChange : ∀ (t : Terminal) currentChange, r t { t with currentChange }

namespace Lax

variable {r : Terminal → Terminal → Prop} {caught : Fault → Prop}

theorem onImages (h : Lax r) (m : PlaneM α) : Moves r (fun _ => False) (onImages m) t := by
  rw [Moves, wp, Terminal.onImages]
  cases m t.images with
  | ok a images => exact .single (h.images t images)
  | error stop images =>
    cases stop with
    | rejected e => exact .single (h.images t images)
    | fault f => exact fun hfalse => hfalse.elim

theorem onPlane (h : Lax r) (m : PlaneM α) : Moves r (fun _ => False) (onPlane m) t := by
  refine (h.onImages m).bind fun result t' => ?_
  cases result with
  | ok a => exact .pure a
  | error e => exact .throw _

theorem pushDamage (h : Lax r) (damage : TerminalDamage) : Moves r (fun _ => False) (pushDamage damage) t :=
  .get_bind (.okOr_bind fun _ _ => .set (h.currentChange t _))

theorem overwriteImageCells (h : Lax r) (rect : CellRect) : Moves r (fun _ => False) (overwriteImageCells rect) t := by
  refine .get_bind (.whenever fun _ => .fromResult_bind fun _ _ => ?_)
  exact (h.onPlane _).bind fun _ _ => .whenever fun _ => h.pushDamage _

theorem scrollGrid (h : Lax r) (hgrid : ∀ (t : Terminal) g, t.grid.Reworks ok g → r t (t.setGrid g))
    (direction : ScrollDirection) (region : ScrollRegion) (rows : Nat) (background : Color) :
    Moves r (fun _ => False) (scrollGrid direction region rows background) t := by
  have hscroll {t : Terminal} :
      Moves r (fun _ => False) (onGrid (scroll direction region rows background)) t := by
    rw [Moves, onGrid, wp_zoom]
    exact wp_mono (wp_scroll_reworks direction region rows background)
      (fun _ g hg => .single (hgrid t g hg)) fun _ _ _ hfalse => hfalse.elim
  refine .get_bind (.ite (fun _ => .fromResult_bind fun before _ => ?_) fun _ => hscroll)
  refine hscroll.bind fun _ t' => .whenever fun _ => .get_bind ?_
  exact (h.onPlane _).bind fun _ _ => .whenever fun _ => h.pushDamage _

end Lax

theorem lax_step : Lax (Step ok) where
  images := fun _ _ => .beside (.of rfl)
  currentChange := fun _ _ => .beside (.of rfl)

theorem beside_pushEvent (event : TerminalEvent) (t : Terminal) : t.Beside (t.pushEvent event) := by
  rw [pushEvent]
  split
  · exact .of rfl
  · split
    · exact .of rfl
    · exact .of rfl

theorem does_emit (event : TerminalEvent) : Does ok (emit event) t :=
  does_modify (beside_pushEvent event t)

theorem does_onPlane (m : PlaneM α) : Does ok (onPlane m) t := lax_step.onPlane m

theorem does_pruneActiveImageAnchors : Does ok pruneActiveImageAnchors t :=
  .get_bind (.whenever fun _ => does_onPlane _)

theorem does_overwriteImageCells (rect : CellRect) : Does ok (overwriteImageCells rect) t :=
  lax_step.overwriteImageCells rect

theorem does_scrollGrid (direction : ScrollDirection) (region : ScrollRegion) (rows : Nat)
    (background : Color) : Does ok (scrollGrid direction region rows background) t :=
  lax_step.scrollGrid (fun t _ h => .screen t.active (.reworks h)) direction region rows background

end Terminal

end Splinterm.Terminal
