import Splinterm.Terminal.ImageSteps
import Splinterm.Terminal.Owner

/-!
# What runs do

A run of the owner's calls is a sequence of actions, each of them primitive updates and at most one
commit. Which lines the run pads is decided by the characters it prints.
-/

namespace Splinterm.Terminal

set_option linter.dupNamespace false

open Lib Hoare Relation List

namespace Terminal

variable (ext : External) {ok : Row → Nat → Prop} {t t' : Terminal} {α : Type}

/-! ## Actions -/

/-- The action pads only what satisfies `ok`. -/
def PadsOnly (ok : Row → Nat → Prop) : Action × Terminal → Prop
  | (.print character, t) => t.PadsWell ok ext.charWidth character
  | _ => True

variable {ext} {action : Action}

theorem does_dispatchInner (h : PadsOnly ext ok (action, t)) : Does ok (dispatchInner ext action) t := by
  cases action with
  | print character => exact does_print h
  | execute b => exact does_execute b
  | esc intermediates finalByte => exact does_esc ..
  | csi «private» intermediates params finalByte => exact does_csi ..
  | osc payload terminator => exact does_osc ..
  | dcs _ | stringTruncated => exact does_emit _
  | _ => exact .throw _

theorem handles_dispatch (h : PadsOnly ext ok (action, t)) : Handles ok (dispatch ext action) t := by
  refine handles_transact (does_dispatchInner ?_)
  -- the open change is not looked at by a wrap
  cases action with
  | print character => exact h
  | _ => trivial

theorem handles_handle (h : PadsOnly ext ok (action, t)) : Handles ok (handle ext action) t := by
  cases action with
  | sixelBegin params => exact .of_does (does_modify (beside_beginSixel params t))
  | sixelData b => exact .of_does (does_putSixel ext b)
  | sixelEnd => exact handles_endSixel ext
  | sixelAbort => exact .of_does (does_modify (beside_abortSixel t))
  | kittyBegin | kittyAbort | itermAbort => exact .of_does (does_modify (.of rfl))
  | kittyCommand control truncated => exact handles_commandKitty ext control truncated
  | kittyData b => exact .of_does (does_modify (beside_putKitty b t))
  | kittyEnd => exact handles_endKitty ext
  | itermBegin metadata truncated => exact .of_does (does_beginIterm metadata truncated)
  | itermData b => exact .of_does (does_modify (beside_putIterm b t))
  | itermEnd => exact handles_endIterm ext
  | _ => exact handles_dispatch h

/-! ## Bytes -/

/-- A sequence of actions. -/
abbrev Runs (ok : Row → Nat → Prop) (m : TerminalM α) (t : Terminal) : Prop :=
  Moves (Acts ok) (fun _ => False) m t

theorem runs_of_handles {m : TerminalM α} (h : Handles ok m t) : Runs ok m t :=
  wp_mono h (fun _ _ hacts => .single hacts) fun _ _ _ hfalse => hfalse.elim

theorem acts_of_beside (h : t.Beside t') : Acts ok t t' := ⟨t', .single (.beside h), .inl rfl⟩

theorem acts_commitChange (h : t.Beside t') : Acts ok t t'.commitChange := ⟨t', .single (.beside h), .inr rfl⟩

theorem runs_feedOnce {b : UInt8} (h : ∀ d ∈ dispatchedOnce b t, PadsOnly ext ok d) : Runs ok (feedOnce ext b) t := by
  refine .get_bind (.fromResult_bind fun fed hfed => ?_)
  refine .set_bind (acts_of_beside (.of rfl)) ?_
  rw [dispatchedOnce, hfed] at h
  split
  · next action haction =>
    refine (runs_of_handles (handles_handle (h _ ?_))).bind fun _ _ => .pure _
    simp [haction]
  · exact .pure _

theorem runs_feedLoop {b : UInt8} {turns : Nat} (h : ∀ d ∈ dispatchedLoop ext b turns t, PadsOnly ext ok d) :
    Runs ok (feedLoop ext b turns) t := by
  induction turns generalizing t with
  | zero => exact .throw _
  | succ turns ih =>
    have honce := runs_feedOnce fun d hd => h d (mem_append_left _ hd)
    refine honce.bind_of_ok fun again u hrun => .whenever fun hagain => ih fun d hd => ?_
    refine h d (mem_append_right _ ?_)
    rw [hrun, hagain]
    exact hd

theorem runs_advanceInner {stop : Bool} {bytes : List UInt8} (offset : Nat)
    (h : ∀ d ∈ dispatchedBytes ext stop bytes t, PadsOnly ext ok d) :
    Runs ok (advanceInner ext stop offset bytes) t := by
  induction bytes generalizing t offset with
  | nil => exact .pure _
  | cons b rest ih =>
    have hbyte : Runs ok (advanceByte ext b) t := runs_feedLoop fun d hd => h d (mem_append_left _ hd)
    refine .get_bind (hbyte.bind_of_ok fun _ u hrun => .get_bind (.ite (fun _ => .pure _) fun hgoes => ?_))
    refine ih _ fun d hd => h d (mem_append_right _ ?_)
    rw [hrun]
    simp only [hgoes, if_false]
    exact hd

/-- Feeding is feeding that stops nowhere. -/
theorem runs_advance {bytes : List UInt8} (h : ∀ d ∈ dispatchedBytes ext false bytes t, PadsOnly ext ok d) :
    Runs ok (advance ext bytes) t := by
  induction bytes generalizing t with
  | nil => exact .pure _
  | cons b rest ih =>
    have hbyte : Runs ok (advanceByte ext b) t := runs_feedLoop fun d hd => h d (mem_append_left _ hd)
    refine hbyte.bind_of_ok fun _ u hrun => ih fun d hd => h d (mem_append_right _ ?_)
    rw [hrun]
    simpa using hd

/-! ## Calls -/

theorem does_resizeImages (screen : ActiveScreen) (g : Grid) (anchors : OrdMap Nat Nat) (columns : Nat) :
    Does ok (resizeImages screen g anchors columns) t := by
  refine .get_bind (.either ?_ <| .pure _)
  refine (does_onPlane _).bind fun _ _ => (does_onPlane _).seq ?_
  split
  · refine (does_onPlane _).bind fun _ _ => (does_onPlane _).bind fun _ _ => .pure _
  · refine (Moves.pure _).bind fun _ _ => (does_onPlane _).bind fun _ _ => .pure _

theorem handles_resize (columns rows : Nat) : Handles ok (resize columns rows) t := by
  refine .get_bind (.either ?_ <| .of_does (.pure ()))
  refine .set_bind (.of rfl) (.fromResult_bind fun _ _ => .fromResult_bind fun _ _ => ?_)
  refine .fromResult_bind fun ⟨normal, _⟩ hnormal => .modify_bind (.screen .normal (.reflow hnormal)) ?_
  refine .fromResult_bind fun ⟨alternate, _⟩ halternate => ?_
  refine .modify_bind (.screen .alternate (.cut halternate)) (.bind (does_resizeImages ..) fun _ _ => ?_)
  refine .bind (does_resizeImages ..) fun _ _ => .bind (does_scrollRegion_new ..) fun _ _ => ?_
  refine .bind (does_modify (.of rfl)) fun _ _ => .get_bind (.okOr_bind fun _ => ?_)
  exact .set_bind (.of rfl) .commit

theorem handles_imageChange (m : PlaneM α) : Handles ok (imageChange m) t := by
  refine .bind (lax_step.onImages m) fun result u => ?_
  cases result with
  | ok a => exact acts_commitChange (t := u) (.of rfl)
  | error e => exact .of_does (.pure _)

theorem handles_removeImageContent (id : Nat) : Handles ok (removeImageContent id) t := by
  refine .get_bind (.bind (lax_step.onImages _) fun result u => ?_)
  cases result with
  | ok a =>
    exact acts_commitChange (.of rfl)
  | error e => exact .of_does (.pure _)

theorem acts_expireSynchronizedUpdates (t : Terminal) : Acts ok t t.expireSynchronizedUpdates := by
  rw [expireSynchronizedUpdates]
  split
  · exact acts_commitChange (.of rfl)
  · exact ⟨t, .refl, .inl rfl⟩

theorem handles_perform {call : OwnerCall} (hcall : ¬ call.Feeds) : Handles ok (call.perform ext) t := by
  have hedit {α : Type} {m : TerminalM α} (hm : Handles ok m t) : Handles ok (m >>= fun _ => pure ()) t := by
    rw [Handles, wp_bind]
    exact hm
  cases call with
  | call c =>
    cases c with
    | feed bytes => exact (hcall trivial).elim
    | resize columns rows => exact handles_resize columns rows
    | setCellPixelSize | drainEvents => exact acts_of_beside (.of rfl)
    | expireSynchronizedUpdates => exact acts_expireSynchronizedUpdates t
  | feedToBoundary bytes => exact (hcall trivial).elim
  | insertImageAtCursor content placement =>
    exact hedit (.bind (.get_bind (.okOr ..)) fun _ _ => .get_bind (handles_imageChange _))
  | insertImageContent | removeImagePlacement => exact hedit (.get_bind (handles_imageChange _))
  | insertImagePlacement input => exact hedit (.get_bind (.either (handles_imageChange _) <| .of_does (.pure _)))
  | removeImageContent id => exact hedit (handles_removeImageContent id)

theorem runs_perform {call : OwnerCall} (h : ∀ d ∈ call.dispatched ext t, PadsOnly ext ok d) :
    Runs ok (call.perform ext) t := by
  by_cases hfeeds : call.Feeds
  · cases call with
    | call c =>
      cases c with
      | feed bytes => exact runs_advance h
      | _ => exact hfeeds.elim
    | feedToBoundary bytes => exact (runs_advanceInner 0 h).bind fun _ _ => .pure ()
    | _ => exact hfeeds.elim
  · exact runs_of_handles (handles_perform hfeeds)

/-- A run of calls whose characters pad only what satisfies `ok`. -/
theorem runs_performOwned {calls : List OwnerCall} (h : ∀ d ∈ dispatched ext calls t, PadsOnly ext ok d) :
    Runs ok (performOwned ext calls) t := by
  induction calls generalizing t with
  | nil => exact .pure ()
  | cons call rest ih =>
    have hcall := runs_perform fun d hd => h d (mem_append_left _ hd)
    refine hcall.bind_of_ok fun _ u hrun => ih fun d hd => h d (mem_append_right _ ?_)
    rw [hrun]
    exact hd

end Terminal

end Splinterm.Terminal
