import Splinterm.Terminal.Graphics
import Splinterm.Terminal.CommandSteps

/-!
# What image transfers do

The handlers of sixel, Kitty and iTerm2 images reach the screens through the same primitive updates.
A graphics command that is refused goes on where it stopped, so its refusals are looked at like
returns.
-/

namespace Splinterm.Terminal

set_option linter.dupNamespace false

open Lib Hoare Relation

/-- The handler goes on after the stop. -/
def KittyStop.Caught : KittyStop → Prop
  | .refused _ => True
  | .fault _ => False

namespace Terminal

variable {ok : Row → Nat → Prop} {t t' : Terminal} {α : Type} {m : TerminalM α}

/-- Where a graphics command leaves a terminal, returning or refused. -/
abbrev DoesCommand (ok : Row → Nat → Prop) (m : KittyM α) (t : Terminal) : Prop :=
  Moves (Step ok) KittyStop.Caught m t

theorem doesCommand_check (result : Except KittyError α) : DoesCommand ok (KittyM.check result) t := by
  cases result with
  | ok a => exact .pure a
  | error e => exact .throw _

theorem doesCommand_run (h : Does ok m t) : DoesCommand ok (KittyM.run m) t := by
  rw [DoesCommand, Moves, wp, KittyM.run]
  cases hrun : m t with
  | ok a t' => exact h.of_ok hrun
  | error f t' => exact fun hfalse => hfalse.elim

theorem doesCommand_plane (m : PlaneM α) : DoesCommand ok (KittyM.plane m) t := by
  have hstep (images : ImagePlane) : Step ok t { t with images } := lax_step.images t images
  rw [DoesCommand, Moves, wp, KittyM.plane]
  cases m t.images with
  | ok a images => exact .single (hstep images)
  | error stop images =>
    cases stop with
    | rejected e => exact fun _ => .single (hstep images)
    | fault f => exact fun hfalse => hfalse.elim

theorem does_attemptCommand {m : KittyM α} (h : DoesCommand ok m t) : Does ok (attemptCommand m) t := by
  rw [Does, Moves, wp, attemptCommand]
  cases hrun : m t with
  | ok a t' => exact h.of_ok hrun
  | error stop t' =>
    cases stop with
    | refused e => exact wp_of_error h hrun trivial
    | fault f => exact fun hfalse => hfalse.elim

theorem doesCommand_cursorAnchor (error : KittyError) : DoesCommand ok (cursorAnchor error) t :=
  .get_bind ((doesCommand_run (.fromResult _)).bind fun _ _ => doesCommand_check _)

/-! ## Replies -/

theorem does_replyKittyCorrelation (c : KittyCorrelation) (result : Except KittyError Unit) :
    Does ok (replyKittyCorrelation c result) t := by
  refine .whenever fun _ => ?_
  cases result with
  | ok _ => exact (Moves.pure _).bind fun _ _ => .whenever fun _ => does_emit _
  | error e =>
    refine (does_emit _).bind fun _ _ => (Moves.pure _).bind fun _ _ => ?_
    exact .whenever fun _ => does_emit _

variable (ext : External) (command : Kitty.Command)

theorem does_replyKitty (result : Except KittyError Unit) :
    Does ok (replyKitty command result) t := does_replyKittyCorrelation _ result

theorem does_rejectKittyChunk (control : List UInt8) (fallback : KittyCorrelation) (error : KittyError) :
    Does ok (rejectKittyChunk control fallback error) t := by
  refine .get_bind ?_
  cases t.kittyUpload with
  | some upload => exact .set_bind (.beside (.of rfl)) (does_replyKitty ..)
  | none => exact does_replyKittyCorrelation ..

/-! ## iTerm2 -/

theorem does_beginIterm (metadata : List UInt8) (truncated : Bool) : Does ok (beginIterm metadata truncated) t := by
  refine .get_bind ?_
  split
  · refine .set_bind (.beside (.of rfl)) ((does_replyKitty ..).bind fun _ _ => ?_)
    exact does_modify (.of rfl)
  · exact does_modify (.of rfl)

theorem beside_putIterm (b : UInt8) (t : Terminal) : t.Beside (putIterm b t) := by
  rw [putIterm]
  cases t.itermTransfer with
  | none | some => exact .of rfl

theorem doesCommand_processIterm (transfer : ItermTransfer) : DoesCommand ok (processIterm ext transfer) t := by
  refine (doesCommand_check _).bind fun _ _ => (doesCommand_check _).bind fun _ _ => ?_
  refine (doesCommand_check _).bind fun command _ => (doesCommand_check _).bind fun image t => .get_bind ?_
  refine (doesCommand_check _).bind fun _ _ => (doesCommand_check _).bind fun cell _ => ?_
  refine .ensure_bind fun _ => (doesCommand_check _).bind fun extent _ => ?_
  refine (doesCommand_cursorAnchor _).bind fun rowId _ => (doesCommand_plane _).bind fun _ _ => ?_
  exact .whenever fun _ => doesCommand_run (does_moveCursor ..)

/-! ## Kitty -/

theorem beside_putKitty (b : UInt8) (t : Terminal) : t.Beside (putKitty b t) := by
  rw [putKitty]
  cases t.kittyChunk with
  | none | some => exact .of rfl

theorem doesCommand_kittyPlacementInput (contentId : Nat) (applicationImageId : Option Nat) (width height : Nat) :
    DoesCommand ok (kittyPlacementInput command contentId applicationImageId width height) t := by
  refine .get_bind ((doesCommand_check _).bind fun _ _ => (doesCommand_check _).bind fun _ _ => ?_)
  refine (doesCommand_check _).bind fun _ _ => (doesCommand_check _).bind fun _ _ => ?_
  exact (doesCommand_cursorAnchor _).bind fun _ _ => .pure _

theorem doesCommand_placeKittyContent (contentId : Nat)
    (applicationImageId : Option Nat) : DoesCommand ok (placeKittyContent command contentId applicationImageId) t := by
  refine .get_bind ((doesCommand_check _).bind fun content _ => ?_)
  refine (doesCommand_kittyPlacementInput ..).bind fun placement _ => ?_
  refine (doesCommand_plane _).bind fun result _ => (doesCommand_check _).bind fun _ _ => ?_
  exact .whenever fun _ => doesCommand_run (does_moveCursor ..)

theorem doesCommand_placeKitty : DoesCommand ok (placeKitty command) t :=
  (doesCommand_check _).bind fun _ _ => .get_bind ((doesCommand_check _).bind fun _ _ =>
    doesCommand_placeKittyContent ..)

theorem doesCommand_transmitKitty (bytes : List UInt8) : DoesCommand ok (transmitKitty ext command bytes) t := by
  refine (doesCommand_check _).bind fun _ _ => (doesCommand_check _).bind fun image t => .get_bind ?_
  refine (doesCommand_check _).bind fun _ _ => .whenever fun _ => ?_
  have hplace (contentId : Nat) (applicationId : Option Nat) (u : Terminal) : DoesCommand ok (do
      whenever (command.imageId ≠ 0) (modify fun t =>
        { t with kittyImageIds := t.kittyImageIds.insert t.active command.imageId contentId })
      whenever (command.action = .transmitAndDisplay)
        (placeKittyContent command contentId applicationId)) u :=
    (Moves.whenever fun _ => .modify (.beside (.of rfl))).bind fun _ _ =>
      .whenever fun _ => doesCommand_placeKittyContent ..
  dsimp only
  split
  · refine (Moves.whenever fun _ => ?_).bind fun _ _ => (doesCommand_plane _).bind fun _ _ => hplace ..
    exact (doesCommand_kittyPlacementInput ..).bind fun _ _ => doesCommand_check _
  · exact (doesCommand_plane _).bind fun _ _ => hplace ..

theorem doesCommand_removeUnplacedContent (entry : Nat × Nat) : DoesCommand ok (removeUnplacedContent entry) t :=
  .get_bind (.whenever fun _ => (doesCommand_plane _).bind fun _ _ => .modify (.beside (.of rfl)))

theorem doesCommand_deleteKitty : DoesCommand ok (deleteKitty command) t := by
  refine (doesCommand_check _).bind fun _ _ => (doesCommand_check _).bind fun _ t => .get_bind ?_
  refine (doesCommand_run (.fromResult _)).bind fun visible _ => ?_
  refine (Moves.forM fun _ _ _ => doesCommand_plane _).bind fun _ _ => .whenever fun _ => .get_bind ?_
  exact .forM fun _ _ _ => doesCommand_removeUnplacedContent _

/-! ## Actions that publish -/

/-- Updates of the terminal, then at most one commit of what they changed. -/
def Acts (ok : Row → Nat → Prop) (t t' : Terminal) : Prop :=
  ∃ u, ReflTransGen (Step ok) t u ∧ (t' = u ∨ t' = u.commitChange)

/-- Where an action that returns leaves a terminal. -/
def Handles (ok : Row → Nat → Prop) (m : TerminalM α) (t : Terminal) : Prop :=
  wp m (fun _ t' => Acts ok t t') (fun _ _ => True) t

namespace Handles

variable {β : Type} {k : α → TerminalM β}

theorem of_does (h : Does ok m t) : Handles ok m t :=
  wp_mono h (fun _ t' hsteps => ⟨t', hsteps, .inl rfl⟩) fun _ _ _ => trivial

theorem bind (hm : Does ok m t) (hk : ∀ a u, Handles ok (k a) u) : Handles ok (m >>= k) t := by
  rw [Handles, wp_bind]
  refine wp_mono hm ?_ ?_
  · intro a u hu
    refine wp_imp (hk a u) ?_
    rintro _ t' ⟨v, hv, ht'⟩
    exact ⟨v, hu.trans hv, ht'⟩
  · exact fun _ _ _ => trivial

theorem get_bind {k : Terminal → TerminalM β} (h : Handles ok (k t) t) : Handles ok (get >>= k) t := h

theorem set_bind {k : PUnit → TerminalM β} (h : t.Beside t') (hk : Handles ok (k ⟨⟩) t') :
    Handles ok (set t' >>= k) t := by
  refine wp_imp hk ?_
  rintro _ t' ⟨v, hv, ht'⟩
  exact ⟨v, .head (.beside h) hv, ht'⟩

theorem modify_bind {f : Terminal → Terminal} {k : PUnit → TerminalM β} (h : Step ok t (f t))
    (hk : Handles ok (k ⟨⟩) (f t)) : Handles ok (modify f >>= k) t := by
  refine wp_imp hk ?_
  rintro _ t' ⟨v, hv, ht'⟩
  exact ⟨v, .head h hv, ht'⟩

theorem fromResult_bind {r : Except Fault α}
    (h : ∀ a, r = .ok a → Handles ok (k a) t) : Handles ok (fromResult r >>= k) t := by
  cases r with
  | ok a => exact h a rfl
  | error e => trivial

theorem okOr_bind {e : Fault} {o : Option α} (h : ∀ a, Handles ok (k a) t) : Handles ok (okOr e o >>= k) t := by
  cases o with
  | some a => exact h a
  | none => trivial

theorem either {c : Prop} [Decidable c] {m m' : TerminalM α} (h : Handles ok m t) (h' : Handles ok m' t) :
    Handles ok (if c then m else m') t := by
  rw [Handles, wp_ite]
  exact ⟨fun _ => h, fun _ => h'⟩

theorem commit : Handles ok (modify commitChange) t := ⟨t, .refl, .inr rfl⟩

end Handles

theorem does_recordActionChanges (before : ActionBaseline) (hint : ActionHint) :
    Does ok (recordActionChanges before hint) t :=
  .get_bind (.okOr_bind fun _ _ => .fromResult_bind fun _ _ => does_set (.of rfl))

theorem handles_transact {hint : ActionHint} {action : TerminalM Unit}
    (h : Does ok action { t with currentChange := some {} }) : Handles ok (transact hint action) t := by
  refine .get_bind (.set_bind (.of rfl) (.bind h fun _ _ => ?_))
  exact .bind does_pruneActiveImageAnchors fun _ _ => .bind (does_recordActionChanges ..) fun _ _ => .commit

theorem handles_endIterm : Handles ok (endIterm ext) t := by
  refine .get_bind ?_
  cases t.itermTransfer with
  | none => exact .of_does (.pure ())
  | some transfer =>
    refine .set_bind (.of rfl) (handles_transact ?_)
    refine (does_attemptCommand (doesCommand_processIterm ext transfer)).bind fun result _ => ?_
    cases result with
    | ok _ => exact .pure ()
    | error e => exact (does_modify (.of rfl)).seq (does_emit _)

theorem handles_processKitty (bytes : List UInt8) : Handles ok (processKitty ext command bytes) t := by
  refine .get_bind (handles_transact (Moves.bind (does_attemptCommand ?_) fun result _ => ?_))
  · split
    any_goals exact doesCommand_transmitKitty ext command bytes
    · exact doesCommand_placeKitty command
    · exact doesCommand_deleteKitty command
  · refine (Moves.whenever fun _ => does_modify (.of rfl)).bind fun _ _ => ?_
    exact .whenever fun _ => does_replyKitty ..

theorem handles_continueUpload (upload : KittyUpload) (command : Kitty.Command) (chunk : KittyChunk)
    (decoded : List UInt8) : Handles ok (continueUpload ext upload command chunk decoded) t := by
  have hrefuse (command : Kitty.Command) (error : KittyError) :
      Handles ok (replyKitty command (.error error)) t := .of_does (does_replyKitty ..)
  refine .either (hrefuse ..) <| .either (hrefuse ..) <| .either (hrefuse ..) ?_
  exact .either (.of_does (does_modify (.of rfl))) <| handles_processKitty ..

theorem handles_startUpload (chunk : KittyChunk) (decoded : List UInt8) :
    Handles ok (startUpload ext command chunk decoded) t := by
  have hrefuse (error : KittyError) : Handles ok (replyKitty command (.error error)) t :=
    .of_does (does_replyKitty ..)
  refine .either (.either (hrefuse _) <| .either (hrefuse _) ?_) ?_
  · exact .of_does (does_modify (.of rfl))
  · exact handles_processKitty ..

theorem handles_endKitty : Handles ok (endKitty ext) t := by
  refine .get_bind ?_
  split
  · exact .of_does (.pure ())
  · next chunk _ =>
    have hreject (u : Terminal) (error : KittyError) :
        Handles ok (rejectKittyChunk chunk.control (kittyCorrelation chunk.control) error) u :=
      .of_does (does_rejectKittyChunk ..)
    refine .set_bind (.of rfl) ?_
    split
    · exact hreject ..
    · refine .either (hreject ..) <| .either (hreject ..) <| .either ?_ <| .either (hreject ..) ?_
      · exact .bind (does_modify (.of rfl)) fun _ _ => handles_processKitty ..
      · dsimp only
        split
        · exact hreject ..
        · split
          · exact .bind (does_modify (.of rfl)) fun _ _ => handles_continueUpload ..
          · exact handles_startUpload ..

theorem handles_commandKitty (control : List UInt8) (truncated : Bool) :
    Handles ok (commandKitty ext control truncated) t :=
  .bind (does_modify (.of rfl)) fun _ _ => handles_endKitty ext

/-! ## Sixel -/

theorem beside_keepPalette (palette : List Nat) (t : Terminal) : t.Beside (keepPalette palette t) := by
  rw [keepPalette]
  split
  · exact .of rfl
  · exact .of rfl

theorem beside_beginSixel (params : Params) (t : Terminal) : t.Beside (beginSixel params t) := by
  rw [beginSixel]
  split
  · exact .of rfl
  · exact .of rfl

theorem beside_abortSixel (t : Terminal) : t.Beside (abortSixel t) := by
  rw [abortSixel]
  split
  · exact .of rfl
  · next decoder _ =>
    have h := beside_keepPalette decoder.palette { t with sixelDecoder := none }
    exact { h with }

theorem does_putSixel (b : UInt8) : Does ok (putSixel ext b) t := by
  refine .get_bind ?_
  split
  · exact .pure ()
  · split
    · exact does_set (.of rfl)
    · next _ decoder _ =>
      have h := beside_abortSixel { t with sixelDecoder := some decoder }
      exact .set_bind (.beside { h with }) (does_emit _)
    · exact .throw _

theorem does_finishSixelDecoder (decoder : SixelDecoder) : Does ok (finishSixelDecoder decoder) t := by
  rw [finishSixelDecoder]
  split
  · exact (does_modify (beside_keepPalette _ t)).bind fun _ _ => .pure _
  · exact (does_emit _).seq (.pure _)
  · exact (does_emit _).seq (.pure _)

theorem does_advancePastSixel (image : SixelImage) (cell : CellPixels) (startColumn columns : Nat) :
    Does ok (advancePastSixel image cell startColumn columns) t :=
  (Moves.forM fun _ _ _ => does_lineFeed).bind fun _ _ => .get_bind (does_setCursor _)

theorem handles_placeSixel (image : SixelImage) (cell : CellPixels) (rowOrder : List Nat)
    (rowId startColumn : Nat) (destination : CellExtent) :
    Handles ok (placeSixel ext image cell rowOrder rowId startColumn destination) t := by
  refine .get_bind (.set_bind (.of rfl) (.bind (lax_step.onImages _) fun result u => ?_))
  cases result with
  | error e => exact .bind (does_modify (.of rfl)) fun _ _ => .of_does (does_emit _)
  | ok ids =>
    refine .bind (.whenever fun _ => does_advancePastSixel ..) fun _ _ => ?_
    exact .bind does_pruneActiveImageAnchors fun _ _ => .bind (does_recordActionChanges ..) fun _ _ => .commit

theorem handles_showSixel (image : SixelImage) : Handles ok (showSixel ext image) t := by
  have hrefuse (u : Terminal) (event : TerminalEvent) : Handles ok (emit event) u := .of_does (does_emit _)
  refine .get_bind ?_
  split
  · exact hrefuse ..
  · refine .either (hrefuse ..) <| .either (hrefuse ..) ?_
    refine .bind (.fromResult _) fun rowOrder u => ?_
    split
    · exact hrefuse ..
    · exact handles_placeSixel ..

theorem handles_endSixel : Handles ok (endSixel ext) t := by
  refine .get_bind ?_
  split
  · exact .of_does (.pure ())
  · refine .set_bind (.of rfl) (.bind (does_finishSixelDecoder _) fun image _ => ?_)
    cases image with
    | none => exact .of_does (.pure ())
    | some image => exact handles_showSixel ext image

end Terminal

end Splinterm.Terminal
