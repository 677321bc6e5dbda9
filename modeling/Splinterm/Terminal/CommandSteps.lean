import Splinterm.Terminal.Control
import Splinterm.Terminal.Steps

/-!
# What commands do

Every command of the screen and every control sequence is a sequence of primitive updates. Only
printing can pad a line, and only when a wide character wraps.
-/

namespace Splinterm.Terminal

set_option linter.dupNamespace false

open Lib Hoare Relation Grid

namespace Terminal

variable {ok : Row → Nat → Prop} {t t' : Terminal} {cursor : Cursor}

/-! ## Screen commands -/

theorem does_lineFeed : Does ok lineFeed t :=
  .get_bind (.either (does_scrollGrid ..) <| does_setCursor _)

theorem does_reverseIndex : Does ok reverseIndex t :=
  .get_bind (.either (does_scrollGrid ..) <| does_setCursor _)

/-! ## Printing -/

@[simp] theorem grid_setGrid (g : Grid) (t : Terminal) : (t.setGrid g).grid = g := by
  rw [setGrid]
  cases hactive : t.active with
  | normal | alternate => simp only [grid]

theorem setGrid_setGrid (g g' : Grid) (t : Terminal) : (t.setGrid g).setGrid g' = t.setGrid g' := by
  cases hactive : t.active with
  | normal | alternate => simp only [setGrid, hactive]

theorem setGrid_grid (t : Terminal) : t.setGrid t.grid = t := by
  rw [setGrid_eq, grid_eq]
  generalize t.active = screen
  cases screen with
  | normal => rfl
  | alternate => rfl

theorem lax_of_grid (p : Grid → Prop) : Lax fun t t' : Terminal => p t.grid → p t'.grid where
  images := fun _ _ h => h
  currentChange := fun _ _ h => h

theorem grid_of_overwriteImageCells {rect : CellRect} {u : Unit}
    (hrun : overwriteImageCells rect t = .ok u t') : t'.grid = t.grid :=
  ((lax_of_grid (· = t.grid)).overwriteImageCells rect).keeps hrun (fun _ _ h => h) rfl

theorem cursor_of_setCursor {u : Unit} (hrun : setCursor cursor t = .ok u t') : t'.grid.cursor = cursor := by
  have hcursor : wp (setCursor cursor) (fun _ t' => t'.grid.cursor = cursor) (fun _ _ => True) t := by
    rw [setCursor, onGrid, wp_zoom]
    refine wp_imp (wp_setCursor_step cursor) (fun _ g h => ?_)
    rw [grid_setGrid]
    exact h.2.2
  have hat := wp_of_ok hcursor hrun
  exact hat

theorem column_of_lineFeed {u : Unit} (hrun : lineFeed t = .ok u t') :
    t'.grid.cursor.position.column = t.grid.cursor.position.column := by
  let p := fun g : Grid => g.cursor.position.column = t.grid.cursor.position.column
  have hscroll (u : Terminal) (g : Grid) (h : u.grid.Reworks (fun _ _ => True) g) (hu : p u.grid) :
      p (u.setGrid g).grid := by
    rw [grid_setGrid]
    exact (congrArg (·.position.column) h.cursor).trans hu
  have hmoves : Moves (fun u u' => p u.grid → p u'.grid) (fun _ => False) lineFeed t := by
    refine .get_bind (.either ((lax_of_grid p).scrollGrid hscroll ..) ?_)
    exact .of_runs fun _ _ hrun _ => congrArg (·.position.column) (cursor_of_setCursor hrun)
  exact hmoves.keeps hrun (fun _ _ h => h) rfl

theorem does_takeDeferredWrap : Does ok takeDeferredWrap t := by
  refine .get_bind (.either (.either ?_ <| .pure _) <| .pure _)
  refine (does_onRow_modify fun row => .linebreak row false).seq ?_
  exact (does_setCursor _).seq <| does_lineFeed.seq <| .get_bind (.pure _)

theorem takeDeferredWrap_cases (hrun : takeDeferredWrap t = .ok cursor t') :
    (t' = t ∧ cursor = t.grid.cursor ∧ cursor.deferredWrap = false) ∨
      (t' = t ∧ t.modes.autoMargin = false) ∨ cursor.position.column = 0 := by
  have hcases : wp takeDeferredWrap (fun cursor t' =>
      (t' = t ∧ cursor = t.grid.cursor ∧ cursor.deferredWrap = false) ∨
        (t' = t ∧ t.modes.autoMargin = false) ∨ cursor.position.column = 0) (fun _ _ => True) t := by
    simp only [takeDeferredWrap, wp_bind, wp_get, wp_ite, wp_pure]
    refine ⟨fun _ => ⟨fun _ => ?_, fun hmargin => ?_⟩, fun hnone => ?_⟩
    · apply wp_of_runs
      intro _ _ _
      rw [wp_bind]
      apply wp_of_runs
      intro _ u hcursor
      rw [wp_bind]
      apply wp_of_runs
      intro _ u' hfeed
      simp only [wp_bind, wp_get, wp_pure]
      rw [column_of_lineFeed hfeed, cursor_of_setCursor hcursor]
      exact .inr (.inr rfl)
    · exact .inr (.inl ⟨by simp, by simpa using hmargin⟩)
    · exact .inl ⟨by simp, by simp, by simpa using hnone⟩
  have hends := wp_of_ok hcases hrun
  exact hends

theorem wp_setContent_edited {row : Row} (column : Nat) (content : CellContent) : wp (Row.setContent column content)
      (fun _ row' => row' = row.edited column fun cell => { cell with content }) (fun _ _ => True) row := by
  simp only [Row.setContent, Row.editCell, wp_bind, wp_get, wp_ensure, wp_set]
  exact ⟨fun _ => ⟨fun _ => rfl, fun _ => trivial⟩, fun _ => trivial⟩

theorem wp_padding {row : Row} (pads : List Nat) :
    wp (pads.forM fun pad => Row.setContent pad (.spacer 0)) (fun _ row' => row' = pads.foldl
      (fun row pad => row.edited pad fun cell => { cell with content := .spacer 0 }) row)
      (fun _ _ => True) row := by
  induction pads generalizing row with
  | nil => rfl
  | cons pad pads ih =>
    rw [wp_forM_cons]
    refine wp_imp (wp_setContent_edited pad (.spacer 0)) ?_
    rintro _ _ rfl
    exact ih

theorem does_padding {p start stop : Nat} (hstop : stop = t.grid.columns)
    (hok : ∀ row, t.grid.row p = some row → ok row start) :
    Does ok ((List.range' start (stop - start)).forM fun pad => onRow p (Row.setContent pad (.spacer 0))) t := by
  have hloop : (List.range' start (stop - start)).forM (fun pad => onRow p (Row.setContent pad (.spacer 0))) =
      onGrid ((List.range' start (stop - start)).forM fun pad => Grid.onRow p (Row.setContent pad (.spacer 0))) :=
    forM_zoom grid_setGrid setGrid_setGrid setGrid_grid _ _
  rw [hloop]
  apply does_onGrid
  refine wp_imp wp_forM_onRow ?_
  rintro _ g (⟨-, rfl⟩ | ⟨row, row', generation, hrow, hrun, rfl⟩)
  · exact .refl
  · have hpadded := wp_of_ok (wp_padding _) hrun
    have hset : t.grid.Reworks ok (t.grid.setSlot p { t.grid.slot p with row := some row' }) := by
      apply Grid.Reworks.setSlot
      intro found hfound
      cases hfound
      refine ⟨row, .inl ⟨p, hrow⟩, .single ?_⟩
      rw [hpadded, hstop]
      exact .pad (hok row hrow)
    exact .single (.reworks (hset.trans (.of_slots rfl rfl rfl)))

/-- A wide character wraps: the rest of the line is padded in one go. -/
theorem does_wrapWide (hok : ∀ row, t.grid.row cursor.position.row = some row → ok row cursor.position.column) :
    Does ok (wrapWide cursor) t := by
  refine .get_bind ((does_overwriteImageCells _).bind_of_ok fun _ u hoverwrite => ?_)
  rw [← grid_of_overwriteImageCells hoverwrite] at hok
  refine Moves.bind ?_ fun _ _ => (does_onRow_modify fun row => .linebreak row false).seq ?_
  · exact does_padding (by rw [grid_of_overwriteImageCells hoverwrite]) hok
  · exact (does_setCursor _).seq <| does_lineFeed.seq <| .get_bind (.pure _)

theorem does_combine (charWidth : Char → Option Nat) (character : Char) : Does ok (combine charWidth character) t := by
  refine .get_bind (.whenever fun _ => .okOr_bind fun row hrow => .ensure_bind fun _ => ?_)
  dsimp only
  split
  · exact .pure ()
  · next sequence hsequence =>
    refine .whenever fun _ => .set_bind (.beside (.of rfl)) ?_
    split
    · refine does_onRow fun found _ row' hfound hrun => .single ?_
      -- the row the base was read from is the one that is written
      obtain rfl : row = found := Option.some.inj (hrow.symm.trans hfound)
      exact .compose hsequence hrun
    · exact .pure ()

theorem does_putCharacter (character : Char) (cursor : Cursor) {width : Nat} (hwidth : 0 < width) :
    Does ok (putCharacter character cursor width) t := by
  refine .get_bind ((does_overwriteImageCells _).seq ?_)
  refine (Moves.whenever fun _ => ?_).seq <| Moves.bind ?_ fun _ _ => ?_
  · exact does_onRow fun _ _ _ _ hrun => .single (.insert hrun)
  · exact does_onRow fun _ _ _ _ hrun => .single (.write hwidth hrun)
  · exact .either (does_setCursor _) <| does_setCursor _

/-- Printing the character would pad the line and wrap: it is too wide for the rest of the line,
and automatic margins are on. -/
def WrapsWide (charWidth : Char → Option Nat) (character : Char) (t : Terminal) : Prop :=
  let width := (charWidth character).getD 0
  let cursor := t.grid.cursor
  width ≤ t.grid.columns ∧ t.grid.columns < cursor.position.column + width ∧
    cursor.deferredWrap = false ∧ t.modes.autoMargin = true

instance (charWidth : Char → Option Nat) (character : Char) (t : Terminal) :
    Decidable (t.WrapsWide charWidth character) := inferInstanceAs (Decidable (_ ∧ _ ∧ _ ∧ _))

/-- What a wrap of the character would pad satisfies `ok`. -/
def PadsWell (ok : Row → Nat → Prop) (charWidth : Char → Option Nat) (character : Char) (t : Terminal) : Prop :=
  t.WrapsWide charWidth character → ∀ row, t.grid.row t.grid.cursor.position.row = some row →
    ok row t.grid.cursor.position.column

theorem does_print {charWidth : Char → Option Nat} {character : Char}
    (hok : t.PadsWell ok charWidth character) : Does ok (print charWidth character) t := by
  refine .ite (fun _ => does_combine charWidth character) fun hwidth => .get_bind ?_
  refine .whenever fun hfits => does_takeDeferredWrap.bind_of_ok fun cursor u htake => .get_bind ?_
  have hpos : 0 < (charWidth character).getD 0 := Nat.pos_of_ne_zero hwidth
  refine .ite (fun hlong => .ite (fun hmargin => ?_) fun _ => ?_) fun _ => ?_
  · refine Moves.bind ?_ fun _ _ => does_putCharacter character _ hpos
    -- a wrap that was pending has left the cursor in the first column, where the character fits
    obtain ⟨rfl, rfl, hnone⟩ | ⟨rfl, hoff⟩ | hhome := takeDeferredWrap_cases htake
    · exact does_wrapWide (hok ⟨hfits, hlong, hnone, hmargin⟩)
    · rw [hoff] at hmargin
      cases hmargin
    · omega
  · exact does_putCharacter character cursor Nat.one_pos
  · exact does_putCharacter character cursor hpos

/-! ## Cursor movement, erasing and lines -/

theorem does_clearDeferredWrap (homeColumn : Bool) : Does ok (clearDeferredWrap homeColumn) t :=
  .get_bind (does_setCursor _)

theorem does_carriageReturn : Does ok carriageReturn t := .get_bind (does_setCursor _)

theorem does_backspace : Does ok backspace t := .get_bind (does_setCursor _)

theorem does_tab (count : Nat) (forward : Bool) : Does ok (tab count forward) t :=
  .get_bind ((Moves.whenever fun _ => .ensure _ _).seq <| does_setCursor _)

theorem does_moveCursor (columnDelta rowDelta : Int) : Does ok (moveCursor columnDelta rowDelta) t :=
  .get_bind (.ensure_bind fun _ => does_setCursor _)

theorem does_setColumn (column : Nat) : Does ok (setColumn column) t := .get_bind (does_setCursor _)

theorem does_setRow (row : Nat) : Does ok (setRow row) t := .get_bind (does_setCursor _)

variable (params : Params)

theorem does_setPosition : Does ok (setPosition params) t :=
  (does_setRow _).seq <| does_setColumn _

theorem does_erase (row start stop : Nat) (background : Color) :
    Does ok (onRow row (Row.erase start stop background)) t :=
  does_onRow fun _ _ _ _ hrun => .single (.erase hrun)

theorem does_eraseLine (mode : Nat) : Does ok (eraseLine mode) t := by
  have herase (t : Terminal) (row start stop : Nat) (background : Color) : Does ok (do
      overwriteImageCells ⟨row, row + 1, start, stop⟩
      onRow row (Row.erase start stop background)) t :=
    (does_overwriteImageCells _).seq <| does_erase ..
  refine (does_clearDeferredWrap false).bind fun _ t => .get_bind ?_
  exact .either (herase ..) <| .either (herase ..) <| .either (herase ..) <| .pure ()

theorem does_eraseRows (rows : List Nat) (background : Color) : Does ok (eraseRows rows background) t :=
  .forM fun _ _ _ => does_onRow_modify fun row => .eraseAll row background

theorem does_removeVisiblePlacements : Does ok removeVisiblePlacements t := by
  refine .get_bind (.fromResult_bind fun _ _ => .forM fun _ _ t => ?_)
  exact (lax_step.onImages _).seq <| .pure ()

theorem does_eraseDisplay (mode : Nat) : Does ok (eraseDisplay mode) t := by
  refine (does_clearDeferredWrap false).bind fun _ t => .get_bind ?_
  refine .either ?_ <| .either ?_ <| .either ?_ <| .either ?_ <| .pure ()
  · refine (does_overwriteImageCells _).seq <| (does_overwriteImageCells _).seq ?_
    exact (does_erase ..).seq <| does_eraseRows ..
  · refine (does_overwriteImageCells _).seq <| (does_overwriteImageCells _).seq ?_
    exact (does_eraseRows ..).seq <| does_erase ..
  · refine (does_overwriteImageCells _).seq <| does_removeVisiblePlacements.seq ?_
    exact does_eraseRows ..
  · exact does_onGrid (.single (.reworks (reworks_clearScrollback _)))

/-- Inserting and deleting characters, for any edit of a row by steps. -/
theorem does_shiftCharacters {shift : Nat → Nat → Color → RowM Unit} (param : Param)
    (h : ∀ columns column count background row row', shift column count background row = .ok () row' →
      Row.Step ok columns row row') : Does ok (shiftCharacters shift param) t := by
  refine (does_clearDeferredWrap false).bind fun _ t => .get_bind ?_
  refine (does_overwriteImageCells _).seq <| does_onRow fun row _ row' _ hrun => ?_
  exact .single (h _ _ _ _ row row' hrun)

theorem does_eraseCharacters (param : Param) : Does ok (eraseCharacters param) t :=
  (does_clearDeferredWrap false).seq <| .get_bind ((does_overwriteImageCells _).seq <| does_erase ..)

theorem does_scrollRegion_new (start stop : Nat) : Does ok (ScrollRegion.new start stop) t := by
  rw [ScrollRegion.new]
  split
  · exact .pure _
  · exact .throw _

theorem state_of_scrollRegion_new {start stop : Nat} {region : ScrollRegion}
    (hrun : ScrollRegion.new start stop t = .ok region t') : t' = t := by
  rw [ScrollRegion.new] at hrun
  split at hrun
  · cases hrun
    rfl
  · cases hrun

theorem does_shiftLines (direction : ScrollDirection) (param : Param) : Does ok (shiftLines direction param) t :=
  (does_clearDeferredWrap true).seq <| .get_bind (.whenever fun _ =>
    (does_scrollRegion_new ..).bind fun _ _ => does_scrollGrid ..)

theorem does_scrollLines (direction : ScrollDirection) (param : Param) :
    Does ok (scrollLines direction param) t := .get_bind (does_scrollGrid ..)

theorem does_setScrollRegion : Does ok (setScrollRegion params) t := by
  refine .get_bind (.whenever fun _ => (does_scrollRegion_new ..).bind_of_ok fun region u hregion => ?_)
  obtain rfl : u = t := state_of_scrollRegion_new hregion
  exact .set_bind (.beside (.of rfl)) (does_setCursor _)

theorem does_saveCursor : Does ok saveCursor t := by
  refine .get_bind (Moves.bind ?_ fun _ _ => does_modify (.of rfl))
  exact does_onGrid (wp_imp (wp_setSavedCursor_step _) (fun _ _ h => .single (.cursors h.1 h.2)))

theorem does_restoreCursor : Does ok restoreCursor t :=
  .get_bind ((does_setCursor _).seq <| does_modify (.of rfl))

/-! ## Reports, tab stops and operating-system commands -/

theorem does_sgr : Does ok (sgr params) t :=
  .get_bind (.either (does_set (.of rfl)) <| .fromResult_bind fun _ _ => does_set (.of rfl))

theorem does_csiReply (body : List UInt8) : Does ok (csiReply body) t := does_emit _

theorem does_deviceStatus («private» : Option UInt8) (code : Nat) : Does ok (deviceStatus «private» code) t :=
  .get_bind (.either (does_csiReply _) <| .either (does_csiReply _) <| .pure ())

theorem does_deviceAttributes («private» : Option UInt8) : Does ok (deviceAttributes «private») t :=
  .get_bind (.either (does_csiReply _) <| .either (does_csiReply _) <| .pure ())

theorem does_reportSixelGeometry (maximum : Bool) : Does ok (reportSixelGeometry maximum) t :=
  .get_bind (does_csiReply _)

theorem does_xtsmgraphics : Does ok (xtsmgraphics params) t := by
  refine .get_bind ?_
  dsimp only
  split
  · exact does_csiReply _
  · exact .set_bind (.beside (.of rfl)) (does_csiReply _)
  · exact .set_bind (.beside (.of rfl)) (does_csiReply _)
  · exact does_csiReply _
  · exact does_reportSixelGeometry false
  · exact .set_bind (.beside (.of rfl)) (does_reportSixelGeometry false)
  · exact .set_bind (.beside (.of rfl)) (does_reportSixelGeometry false)
  · exact does_reportSixelGeometry true
  · exact .pure ()

theorem does_setTabStop (column : Nat) (stop : Bool) : Does ok (setTabStop column stop) t :=
  .get_bind (.ensure_bind fun _ => does_set (.of rfl))

theorem does_clearTabs (mode : Nat) : Does ok (clearTabs mode) t :=
  .get_bind (.either (does_setTabStop ..) <| .either (does_set (.of rfl)) <| .pure ())

theorem does_setPaletteEntry (index color : Nat) : Does ok (setPaletteEntry index color) t :=
  .get_bind (.ensure_bind fun _ => .set_bind (.beside (.of rfl)) (does_emit _))

theorem does_setDefaultColor (slot color : Nat) : Does ok (setDefaultColor slot color) t :=
  .get_bind (.ensure_bind fun _ => .set_bind (.beside (.of rfl)) (does_emit _))

theorem does_oscPalette (data : List UInt8) (terminator : StringTerminator) :
    Does ok (oscPalette data terminator) t := by
  refine .forM fun field _ t => ?_
  split
  · exact .pure ()
  · refine .either (.get_bind (.okOr_bind fun _ _ => does_emit _)) ?_
    split
    · exact does_setPaletteEntry ..
    · exact .pure ()

theorem does_resetPalette (data : List UInt8) : Does ok (resetPalette data) t := by
  refine .get_bind (.either (does_set (.of rfl)) <| .forM fun field _ t => ?_)
  split
  · exact .pure ()
  · exact .okOr_bind fun _ _ => does_setPaletteEntry ..

theorem does_osc (payload : List UInt8) (terminator : StringTerminator) : Does ok (osc payload terminator) t := by
  refine .whenever fun _ => .either ?_ <| .either (does_oscPalette ..) <| .either (does_resetPalette _) ?_
  · exact (does_modify (.of rfl)).seq <| does_emit _
  · split
    · refine .either (.get_bind (.okOr_bind fun _ _ => does_emit _)) ?_
      split
      · exact does_setDefaultColor ..
      · exact .pure ()
    · split
      · exact .get_bind (.okOr_bind fun _ _ => does_setDefaultColor ..)
      · exact .pure ()

/-! ## Screens, modes and reset -/

theorem does_enterAlternate (saveRestore : Bool) : Does ok (enterAlternate saveRestore) t := by
  refine (Moves.whenever fun _ => does_saveCursor).bind fun _ t => .get_bind ?_
  refine Moves.bind (does_zoom .alternate ?_ fun _ => rfl) fun _ _ => (does_onPlane _).seq ?_
  · exact steps_resetVisible t.background t.alternate
  · refine (does_modify (.of rfl)).seq ?_
    exact (does_zoom .alternate (wp_setCursor_steps _) fun _ => rfl).seq <| does_modify (.of rfl)

theorem does_leaveAlternate (saveRestore : Bool) : Does ok (leaveAlternate saveRestore) t := by
  refine .get_bind (.set_bind (.beside (.of rfl)) ?_)
  exact (does_zoom .normal (wp_setCursor_steps _) fun _ => rfl).seq <| .whenever fun _ => does_restoreCursor

theorem does_selectAlternate (enabled saveRestore : Bool) : Does ok (selectAlternate enabled saveRestore) t :=
  .get_bind (.either (does_enterAlternate _) <| .either (does_leaveAlternate _) <| .pure ())

theorem does_modifyModes (edit : TerminalModes → TerminalModes) : Does ok (modifyModes edit) t :=
  does_modify (.of rfl)

theorem does_setPrivateMode (mode : Nat) (enabled : Bool) : Does ok (setPrivateMode mode enabled) t := by
  have hset {t' : Terminal} (h : t.Beside t') : Does ok (set t') t := does_set h
  refine .get_bind ?_
  split
  all_goals first
    | exact .pure ()
    | exact does_modifyModes _
    | exact (does_modifyModes _).seq <| does_setCursor _
    | exact does_selectAlternate enabled _
    | exact hset (.of rfl)
    | exact .either does_saveCursor does_restoreCursor

theorem does_setPrivateModes (enabled : Bool) : Does ok (setPrivateModes params enabled) t :=
  .forM fun _ _ _ => does_setPrivateMode ..

theorem screens_of_new {columns rows : Nat} {config : TerminalConfig} (h : Terminal.new columns rows config = .ok t) :
    (∃ normalCapacity, Grid.withScreenSize normalCapacity columns rows = .ok t.normal) ∧
      (∃ alternateCapacity, Grid.withScreenSize alternateCapacity columns rows = .ok t.alternate) ∧
      t.config = config := by
  simp only [Terminal.new, bind_eq_ok, pure, Except.pure, Except.ok.injEq] at h
  obtain ⟨-, -, normalCapacity, -, -, -, alternateCapacity, -, -, -, -, -, -, -, -, -, normal, hnormal,
    alternate, halternate, rfl⟩ := h
  exact ⟨⟨normalCapacity, hnormal⟩, ⟨alternateCapacity, halternate⟩, rfl⟩

theorem does_reset : Does ok reset t := by
  refine .get_bind (.fromResult_bind fun fresh hfresh => ?_)
  obtain ⟨⟨_, hnormal⟩, ⟨_, halternate⟩, hconfig⟩ := screens_of_new hfresh
  let normal := fresh.normal.continueHistoryNamespace t.normal.historyNamespace
  let alternate := fresh.alternate.continueHistoryNamespace t.alternate.historyNamespace
  have hfirst : ReflTransGen (Step ok) t { t with normal } :=
    .single (.screen .normal (.fresh fun _ => rows_of_withScreenSize hnormal (reworks_continueHistoryNamespace ..)))
  have hboth : ReflTransGen (Step ok) t { t with normal, alternate } :=
    hfirst.tail (.screen .alternate (.fresh fun _ => rows_of_withScreenSize halternate
      (reworks_continueHistoryNamespace ..)))
  exact hboth.tail (.beside ⟨rfl, rfl, hconfig, rfl, rfl⟩)

/-! ## Dispatch -/

theorem does_execute (b : UInt8) : Does ok (execute b) t :=
  .either (does_emit _) <| .either does_backspace <| .either (does_tab ..) <| .either does_lineFeed <|
    .either does_carriageReturn <| .pure ()

theorem does_esc (intermediates : List UInt8) (finalByte : UInt8) : Does ok (esc intermediates finalByte) t := by
  refine .whenever fun _ => .either does_saveCursor <| .either does_restoreCursor <|
    .either does_lineFeed <| .either ?_ <| .either ?_ <| .either does_reverseIndex <| .either does_reset <|
    .either (does_modifyModes _) <| .either (does_modifyModes _) <| .pure ()
  · exact does_carriageReturn.seq does_lineFeed
  · exact .get_bind (does_setTabStop ..)

theorem does_csiCommand («private» : Option UInt8) (params : Params) (finalByte : UInt8) :
    Does ok (csiCommand «private» params finalByte) t :=
  .either (does_moveCursor ..) <| .either (does_moveCursor ..) <|
  .either (does_moveCursor ..) <| .either (does_moveCursor ..) <|
  .either ((does_moveCursor ..).seq <| does_carriageReturn) <|
  .either ((does_moveCursor ..).seq <| does_carriageReturn) <|
  .either (does_setColumn _) <| .either (does_setRow _) <|
  .either (does_setPosition _) <| .either (does_eraseDisplay _) <| .either (does_eraseLine _) <|
  .either (does_shiftCharacters _ fun _ _ _ _ _ _ => .insert) <|
  .either (does_shiftCharacters _ fun _ _ _ _ _ _ => .delete) <|
  .either (does_eraseCharacters _) <| .either (does_shiftLines ..) <|
  .either (does_shiftLines ..) <| .either (does_scrollLines ..) <|
  .either (does_scrollLines ..) <| .either (does_tab ..) <| .either (does_tab ..) <| .either (does_clearTabs _) <|
  .either (does_modifyModes _) <| .either (does_sgr _) <|
  .either (does_setScrollRegion _) <| .either does_saveCursor <|
  .either does_restoreCursor <| .either (does_deviceStatus ..) <| .either (does_deviceAttributes _) <| .pure ()

theorem does_csi («private» : Option UInt8) (intermediates : List UInt8) (params : Params)
    (finalByte : UInt8) : Does ok (csi «private» intermediates params finalByte) t :=
  .either (does_emit _) <| .either (does_setPrivateModes ..) <|
    .either (does_modify (.of rfl)) <| .either (does_xtsmgraphics _) <| .either (does_csiCommand ..) <| .pure ()

end Terminal

end Splinterm.Terminal
