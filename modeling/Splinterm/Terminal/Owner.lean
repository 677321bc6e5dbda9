import Splinterm.Terminal.Advance

/-!
# The owner of a terminal

Besides feeding bytes and resizing, the owner of a terminal feeds up to the end of a synchronized
frame, edits the images of the active screen directly, and asks for the updates after a revision it
has seen. Updates are answered from a bounded history of those committed last.
-/

namespace Splinterm.Terminal

set_option linter.dupNamespace false

open Lib Hoare

/-- Drops every application id naming removed content. -/
def KittyImageIds.removeContent (ids : KittyImageIds) (screen : ActiveScreen) (content : Nat) : KittyImageIds :=
  let m := ids.map screen
  ids.setMap screen ⟨m.entries.filter fun entry => entry.2 ≠ content, m.sorted.filter _⟩

/-- Contiguous updates after a requested base revision. -/
structure UpdateBatch where
  base : Nat
  current : Nat
  updates : List TerminalUpdate

/-- The requested update base is unavailable; the caller must take a snapshot. -/
structure ResnapshotRequired where
  requested : Nat
  oldestAvailable : Nat
  current : Nat

/-- `while history.len() > limit { history.pop_front() }`. -/
def popFront (limit : Nat) : List TerminalUpdate → List TerminalUpdate
  | [] => []
  | update :: rest =>
    if limit < (update :: rest).length then popFront limit rest else update :: rest

/-- A committed update enters the history, which lets go of its oldest ones. -/
def pushUpdate (limit : Nat) (history : List TerminalUpdate) (update : TerminalUpdate) :
    List TerminalUpdate := popFront limit (history ++ [update])

namespace Terminal

/-! ## The update history -/

/-- `update_history`, filled by the updates committed since the terminal was made. -/
def updateHistory (t : Terminal) : List TerminalUpdate :=
  t.outbox.foldl (pushUpdate t.config.updateHistoryLimit) []

def oldestBase (t : Terminal) : Nat :=
  (t.updateHistory.head?.map fun update => update.revision - 1).getD t.revision

def validateUpdateBase (base : Nat) (t : Terminal) : Except ResnapshotRequired Unit :=
  rejectIf (t.revision < base ∨ base < t.oldestBase) ⟨base, t.oldestBase, t.revision⟩

def updateCountSince (base : Nat) (t : Terminal) : Except ResnapshotRequired Nat := do
  t.validateUpdateBase base
  pure (t.updateHistory.countP fun update => decide (base < update.revision))

def updatesSince (base : Nat) (t : Terminal) : Except ResnapshotRequired UpdateBatch := do
  t.validateUpdateBase base
  pure ⟨base, t.revision, t.updateHistory.filter fun update => decide (base < update.revision)⟩

/-! ## Images of the active screen -/

def cursorRowId : TerminalM Nat := do
  let t ← get
  okOr .panic (t.grid.rowId t.grid.cursor.position.row)

def commitImageChange (t : Terminal) : Terminal :=
  commitChange { t with currentChange := some (({} : ChangeSet).push (.images t.active)) }

/-- An image operation that is committed when it succeeds. -/
def imageChange {α : Type} (m : PlaneM α) : TerminalM (Except ImageError α) := do
  match ← onImages m with
  | .ok a =>
    modify commitImageChange
    pure (.ok a)
  | .error e => pure (.error e)

def insertImageAtCursor (sha256 : List UInt8 → List UInt8) (content : NewImageContent)
    (placement : NewImagePlacementOptions) : TerminalM (Except ImageError (Nat × Nat)) := do
  let rowId ← cursorRowId
  let t ← get
  imageChange (ImagePlane.insertContentAndPlacement sha256 t.active content rowId placement)

def insertImageContent (sha256 : List UInt8 → List UInt8) (input : NewImageContent) :
    TerminalM (Except ImageError Nat) := do
  let t ← get
  imageChange (ImagePlane.insertContent sha256 t.active input)

def insertImagePlacement (input : NewImagePlacement) : TerminalM (Except ImageError Nat) := do
  let t ← get
  if t.grid.retainedRowIds.contains input.rowId then
    imageChange (ImagePlane.insertPlacement t.active input)
  else pure (.error .invalidAnchor)

def removeImagePlacement (id : Nat) : TerminalM (Except ImageError Unit) := do
  let t ← get
  imageChange (ImagePlane.removePlacement t.active id)

def removeImageContent (id : Nat) : TerminalM (Except ImageError Unit) := do
  let t ← get
  match ← onImages (ImagePlane.removeContent t.active id) with
  | .ok _ =>
    modify fun t => { t with kittyImageIds := t.kittyImageIds.removeContent t.active id }
    modify commitImageChange
    pure (.ok ())
  | .error e => pure (.error e)

/-! ## Feeding to a boundary -/

variable (ext : External)

/-- `advance_inner`: the bytes consumed and whether a synchronized frame ended with the last one. -/
def advanceInner (stopAtSynchronizedBoundary : Bool) : Nat → List UInt8 → TerminalM (Nat × Bool)
  | offset, [] => pure (offset, false)
  | offset, b :: rest => do
    let before ← get
    advanceByte ext b
    let after ← get
    if stopAtSynchronizedBoundary = true ∧ before.synchronizedUpdates = true
        ∧ after.synchronizedUpdates = false then pure (offset + 1, true)
    else advanceInner stopAtSynchronizedBoundary (offset + 1) rest

def advanceToSynchronizedBoundary (bytes : List UInt8) : TerminalM (Nat × Bool) :=
  advanceInner ext true 0 bytes

end Terminal

/-! ## Runs -/

/-- The calls of the owner, those that edit images included. -/
inductive OwnerCall where
  | call (call : Call)
  | feedToBoundary (bytes : List UInt8)
  | insertImageAtCursor (content : NewImageContent) (placement : NewImagePlacementOptions)
  | insertImageContent (input : NewImageContent)
  | insertImagePlacement (input : NewImagePlacement)
  | removeImagePlacement (id : Nat)
  | removeImageContent (id : Nat)

def OwnerCall.perform (ext : External) : OwnerCall → TerminalM Unit
  | .call c => c.perform ext
  | .feedToBoundary bytes => do let _ ← Terminal.advanceToSynchronizedBoundary ext bytes
  | .insertImageAtCursor content placement => do
    let _ ← Terminal.insertImageAtCursor ext.sha256 content placement
  | .insertImageContent input => do let _ ← Terminal.insertImageContent ext.sha256 input
  | .insertImagePlacement input => do let _ ← Terminal.insertImagePlacement input
  | .removeImagePlacement id => do let _ ← Terminal.removeImagePlacement id
  | .removeImageContent id => do let _ ← Terminal.removeImageContent id

/-- The calls of a run, in order. -/
def performOwned (ext : External) (calls : List OwnerCall) : TerminalM Unit :=
  calls.forM (OwnerCall.perform ext)

namespace Terminal

/-! ## The actions of a run -/

variable (ext : External)

/-- The action one turn of the reprocess loop recognizes, and the terminal it is handled in. -/
def dispatchedOnce (b : UInt8) (t : Terminal) : List (Action × Terminal) :=
  match t.parser.feed b with
  | .ok fed => fed.action.toList.map (·, { t with parser := fed.parser })
  | .error _ => []

def dispatchedLoop (b : UInt8) : Nat → Terminal → List (Action × Terminal)
  | 0, _ => []
  | turns + 1, t =>
    dispatchedOnce b t ++
      match feedOnce ext b t with
      | .ok true t' => dispatchedLoop b turns t'
      | _ => []

/-- The actions recognized in a run of bytes, up to the boundary when there is one to stop at. -/
def dispatchedBytes (stopAtSynchronizedBoundary : Bool) : List UInt8 → Terminal → List (Action × Terminal)
  | [], _ => []
  | b :: rest, t =>
    dispatchedLoop ext b 2 t ++
      match advanceByte ext b t with
      | .ok _ t' =>
        if stopAtSynchronizedBoundary = true ∧ t.synchronizedUpdates = true
            ∧ t'.synchronizedUpdates = false then []
        else dispatchedBytes stopAtSynchronizedBoundary rest t'
      | .error _ _ => []

end Terminal

/-- The call feeds bytes, which may be several actions. -/
def OwnerCall.Feeds : OwnerCall → Prop
  | .call (.feed _) => True
  | .feedToBoundary _ => True
  | _ => False

/-- The actions recognized during a call. -/
def OwnerCall.dispatched (ext : External) : OwnerCall → Terminal → List (Action × Terminal)
  | .call (.feed bytes), t => Terminal.dispatchedBytes ext false bytes t
  | .feedToBoundary bytes, t => Terminal.dispatchedBytes ext true bytes t
  | _, _ => []

/-- The actions recognized during a run, each with the terminal it is handled in. -/
def dispatched (ext : External) : List OwnerCall → Terminal → List (Action × Terminal)
  | [], _ => []
  | call :: rest, t =>
    call.dispatched ext t ++
      match call.perform ext t with
      | .ok _ t' => dispatched ext rest t'
      | .error _ _ => []

/-! ## Runs of a new terminal -/

/-- The run returns and where it starts and ends passes the check. -/
def checkRun (ext : External) (columns rows : Nat) (config : TerminalConfig) (calls : List OwnerCall)
    (check : Terminal → Terminal → Bool) : Bool :=
  match Terminal.new columns rows config with
  | .error _ => false
  | .ok t₀ =>
    match performOwned ext calls t₀ with
    | .ok _ t => check t₀ t
    | .error _ _ => false

theorem exists_run_of_check {ext : External} {columns rows : Nat} {config : TerminalConfig}
    {calls : List OwnerCall} {check : Terminal → Terminal → Bool}
    (h : checkRun ext columns rows config calls check = true) :
    ∃ t₀ t, Terminal.new columns rows config = .ok t₀ ∧ performOwned ext calls t₀ = .ok () t ∧ check t₀ t = true := by
  rw [checkRun] at h
  cases hnew : Terminal.new columns rows config with
  | error e => simp [hnew] at h
  | ok t₀ =>
    cases hrun : performOwned ext calls t₀ with
    | ok _ t => exact ⟨t₀, t, rfl, hrun, by simpa [hnew, hrun] using h⟩
    | error e t => simp [hnew, hrun] at h

/-- One, two or three columns a character, and no image format. -/
def plainLibrary : External where
  charWidth := fun character => some (if character = '宽' then 2 else if character = '៘' then 3 else 1)
  charWidth_lt := by
    intro character width h
    cases h
    split
    · decide
    · split <;> decide
  sha256 := fun _ => []
  base64Decode := fun _ => none
  inflate := fun _ _ => none
  png := fun _ => none
  hslToBgra := fun _ _ _ => 0

end Splinterm.Terminal
