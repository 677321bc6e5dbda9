import Splinterm.Handoff.Manifest

/-!
# The hold of the carried Windows and their resume tickets

After an adoption the daemon holds every carried Window for a while: its pinned process and
the controllers its old connections held, as placeholders. A relaunched Window claims one
ticket over its continuation channel, and each of its panes presents the ticket to have one
placeholder turned back into a lease.

Every operation runs under one mutex, so an interleaving is a sequence of operations. What
the kernel answers about a process, the random bytes of a ticket, and whether a packet went
out are arguments. `restore` is the caller's closure; a panic in it poisons the mutex.
-/

namespace Splinterm.Handoff

open Core Daemon Lib Hoare

def handoffResumeTicketBytes : Nat := 32

abbrev OwnedFd := Nat
abbrev TicketBytes := Vector UInt8 handoffResumeTicketBytes

/-- What a continuation claim is checked against. -/
structure ContinuationBinding where
  daemonGeneration : UInt64
  clientSnapshot : Option (UInt64 × UInt64)
  uid : UInt32

structure IssuedTicket where
  bytes : TicketBytes
  daemonGeneration : UInt64
  clientSnapshot : UInt64 × UInt64
  spent : List SplintId
deriving DecidableEq

structure ControllerPlaceholder where
  splintId : SplintId
  incarnation : UInt64
  window : UInt8
  connection : UInt64
deriving DecidableEq

structure HeldHandoffWindow where
  record : ManifestWindow
  process : OwnedFd
  continuation : Option OwnedFd
  ticket : Option IssuedTicket
deriving DecidableEq

structure HeldHandoffWindows where
  windows : List HeldHandoffWindow
  placeholders : List ControllerPlaceholder
  expiresAt : Instant

/-- The mutex with what it guards, and the watch that tells the servers of its release. -/
structure HandoffWindowHold where
  held : Option HeldHandoffWindows := none
  released : Bool := false
  poisoned : Bool := false

variable (hold : HandoffWindowHold) (held : HeldHandoffWindows)

/-- The content of the mutex, unless it is poisoned. -/
def HandoffWindowHold.lock : Option HeldHandoffWindows :=
  if hold.poisoned then none else hold.held

/-! ## Announcing -/

structure CandidateWindowStage where
  record : ManifestWindow
  process : OwnedFd
  continuation : OwnedFd
  live : Bool

structure WindowAnnouncement where
  announced : Nat := 0
  exited : Nat := 0
  unsent : Nat := 0
  placeholders : Nat := 0

/-- What announcing asks of the system. -/
structure Announcing where
  runtime : Bool
  pidfdExited : OwnedFd → Option Bool
  sendOutcome : OwnedFd → Bool
  now : Instant

/-- The Windows that took their outcome, and the count of the others. -/
def keepWindow (system : Announcing) (kept : List HeldHandoffWindow × WindowAnnouncement)
    (window : CandidateWindowStage) : List HeldHandoffWindow × WindowAnnouncement :=
  let (windows, announcement) := kept
  if ¬ window.live ∨ (system.pidfdExited window.process).getD true then
    (windows, { announcement with exited := announcement.exited + 1 })
  else if ¬ system.sendOutcome window.continuation then
    (windows, { announcement with unsent := announcement.unsent + 1 })
  else (windows ++ [⟨window.record, window.process, some window.continuation, none⟩], announcement)

/-- The placeholder of a controller a kept Window's connection held. -/
def placeholderOf (kept : List HeldHandoffWindow) (splint : ManifestSplint) : Option ControllerPlaceholder :=
  match splint.controller with
  | .released => none
  | .heldBy window connection =>
    if kept.any fun held => held.record.index = window ∧ connection ∈ held.record.oldConnections then
      some ⟨splint.splintId, splint.incarnation, window, connection⟩
    else none

def announceAndHold (system : Announcing) (windows : List CandidateWindowStage)
    (splints : List ManifestSplint) (duration : Nat) : HandoffWindowHold × WindowAnnouncement :=
  if ¬ system.runtime ∧ windows.any (·.live) then
    ({}, { unsent := windows.countP (·.live), exited := windows.countP (¬ ·.live) })
  else
    let (kept, announcement) := windows.foldl (keepWindow system) ([], {})
    let placeholders := splints.filterMap (placeholderOf kept)
    let announcement :=
      { announcement with announced := kept.length, placeholders := placeholders.length }
    if system.runtime ∧ kept ≠ [] then
      ({ held := some ⟨kept, placeholders, system.now + duration⟩ }, announcement)
    else ({}, announcement)

/-! ## Processes -/

inductive WindowProcessState where
  | live
  | exited

/-- What the kernel answers about processes at one moment. -/
structure ProcessChecks where
  processExecutable : UInt32 → Option (UInt64 × UInt64)
  inspectWindowProcess : OwnedFd → ManifestWindow → Option WindowProcessState

inductive ProcessMismatch where
  | process
  | exited
  | identity
  | executable

def verifyWindowProcess (checks : ProcessChecks) (window : HeldHandoffWindow) (pid : UInt32)
    (snapshot : UInt64 × UInt64) : Except ProcessMismatch Unit := do
  rejectIf (pid ≠ window.record.pid) .process
  match checks.inspectWindowProcess window.process window.record with
  | some .live => rejectIf (checks.processExecutable pid ≠ some snapshot) .executable
  | some .exited => .error .exited
  | none => .error .identity

/-! ## Dropping a Window -/

/-- `drop_window` at the place between `pre` and `post`. -/
def dropWindow (held : HeldHandoffWindows)
    (pre : List HeldHandoffWindow) (window : HeldHandoffWindow) (post : List HeldHandoffWindow) : HandoffWindowHold :=
  if pre ++ post = [] then { hold with held := none, released := true }
  else { hold with held := some { held with
    windows := pre ++ post
    placeholders := held.placeholders.filter fun placeholder => placeholder.window ≠ window.record.index } }

def HeldHandoffWindows.position (index : UInt8) :
    Option (List HeldHandoffWindow × HeldHandoffWindow × List HeldHandoffWindow) :=
  splitFirst (fun window => window.record.index = index) held.windows

def refuseWindow (index : UInt8) : HandoffWindowHold :=
  match hold.lock with
  | none => hold
  | some held =>
    match held.position index with
    | none => hold
    | some (pre, window, post) => dropWindow hold held pre window post

/-- Ends the hold; a poisoned mutex keeps its content, which nothing can reach. -/
def release : HandoffWindowHold :=
  { hold with held := if hold.poisoned then hold.held else none, released := true }

/-- `serve_continuations` takes the daemon ends the hold still owns. -/
def serveContinuations : HandoffWindowHold :=
  match hold.lock with
  | none => hold
  | some held => { hold with held := some { held with
      windows := held.windows.map fun window => { window with continuation := none } } }

/-! ## The continuation claim -/

inductive ClaimRefusal where
  | endOfFile
  | receive
  | truncated
  | descriptors
  | credentials
  | malformed
  | generation
  | user
  | process (mismatch : ProcessMismatch)
  | noSnapshot
  | nothingHeld
  | alreadyClaimed
  | released
  | random
  | send

structure ReceivedClaim where
  daemonGeneration : UInt64
  pid : UInt32
  uid : UInt32

structure HandoffTicketGrant where
  daemonGeneration : UInt64
  ticket : TicketBytes

/-- A claim as it reaches the hold, with what the system answers while it is completed. -/
structure Claim where
  index : UInt8
  received : Except ClaimRefusal ReceivedClaim
  binding : ContinuationBinding
  now : Instant
  checks : ProcessChecks
  randomTicket : Option TicketBytes
  sendWhole : HandoffTicketGrant → Bool

def okOr {α ε : Type} (e : ε) : Option α → Except ε α
  | none => .error e
  | some a => .ok a

/-- The closure of `complete_claim`: the ticket to issue, once its grant is sent. -/
def Claim.issue (claim : Claim) (held : HeldHandoffWindows) (window : HeldHandoffWindow) :
    Except ClaimRefusal IssuedTicket := do
  let received ← claim.received
  rejectIf (held.expiresAt ≤ claim.now) .released
  rejectIf (received.daemonGeneration ≠ claim.binding.daemonGeneration) .generation
  rejectIf (received.uid ≠ claim.binding.uid) .user
  let snapshot ← okOr .noSnapshot claim.binding.clientSnapshot
  (verifyWindowProcess claim.checks window received.pid snapshot).mapError .process
  rejectIf (¬ held.placeholders.any fun placeholder => placeholder.window = claim.index) .nothingHeld
  let bytes ← okOr .random claim.randomTicket
  rejectIf (¬ claim.sendWhole ⟨claim.binding.daemonGeneration, bytes⟩) .send
  return ⟨bytes, claim.binding.daemonGeneration, snapshot, []⟩

/-- What completing a claim leaves; `issued` is the Window that was given its ticket. -/
structure Claimed where
  hold : HandoffWindowHold
  answer : Except ClaimRefusal Unit
  issued : Option HeldHandoffWindow

def completeClaim (claim : Claim) : Claimed :=
  match hold.lock with
  | none => ⟨hold, .error .released, none⟩
  | some held =>
    match held.position claim.index with
    | none => ⟨hold, .error .released, none⟩
    | some (pre, window, post) =>
      -- a Window keeps the ticket it has; only this attempt fails
      if window.ticket.isSome then ⟨hold, .error .alreadyClaimed, none⟩
      else match claim.issue held window with
        | .error refusal => ⟨dropWindow hold held pre window post, .error refusal, none⟩
        | .ok ticket =>
          let window := { window with ticket := some ticket }
          ⟨{ hold with held := some { held with windows := pre ++ window :: post } }, .ok (), some window⟩

/-! ## The redemption -/

structure TicketPresentation where
  ticket : TicketBytes
  claimantPid : UInt32
  claimantStartTime : Option UInt64
  splintId : SplintId
  incarnation : UInt64
  liveIncarnation : Option UInt64
  daemonGeneration : UInt64

inductive TicketRefusal where
  | unknown
  | expired
  | generation
  | binding (mismatch : ProcessMismatch)
  | replayed

inductive ClaimSkip where
  | notHeld
  | incarnationChanged
  | unavailable

inductive Redemption (T : Type) where
  | restored (lease : T)
  | skipped (reason : ClaimSkip)

/-- What the caller's closure does with a placeholder. -/
inductive Restore (T : Type) where
  | lease (value : T)
  | unavailable
  | panicked

/-- Two tickets are compared in full, by the bits in which they differ. -/
def sameTicket (left right : TicketBytes) : Bool :=
  (left.toList.zip right.toList).foldl
    (fun difference pair => difference ||| (pair.1 ^^^ pair.2)) (0 : UInt8) = 0

def HeldHandoffWindow.answersTo (window : HeldHandoffWindow) (ticket : TicketBytes) : Bool :=
  window.ticket.any fun issued => sameTicket issued.bytes ticket

/-- The generation and the process of a presentation, against what the ticket is bound to. -/
def TicketPresentation.bound (presentation : TicketPresentation) (checks : ProcessChecks)
    (window : HeldHandoffWindow) (ticket : IssuedTicket) : Except TicketRefusal Unit := do
  rejectIf (ticket.daemonGeneration ≠ presentation.daemonGeneration) .generation
  rejectIf (presentation.claimantStartTime ≠ some window.record.startTime) (.binding .process)
  (verifyWindowProcess checks window presentation.claimantPid ticket.clientSnapshot).mapError .binding

/-- What a redemption leaves; no answer is a panic, `called` is what `restore` was given. -/
structure Redeemed (T : Type) where
  hold : HandoffWindowHold
  answer : Option (Except TicketRefusal (Redemption T))
  called : Option ControllerPlaceholder

section Redeem

variable {T : Type} (checks : ProcessChecks) (presentation : TicketPresentation) (now : Instant)
  (restore : ControllerPlaceholder → Restore T)

/-- The hold after a placeholder was looked for: the Window ends with its last placeholder. -/
def settle (hold : HandoffWindowHold) (held : HeldHandoffWindows) (pre : List HeldHandoffWindow)
    (window : HeldHandoffWindow) (post : List HeldHandoffWindow) : HandoffWindowHold :=
  if held.placeholders.any fun placeholder => placeholder.window = window.record.index then
    { hold with held := some held }
  else dropWindow hold held pre window post

/-- The part of `redeem` after the checks: the placeholder is spent before `restore` runs. -/
def spend (hold : HandoffWindowHold) (held : HeldHandoffWindows) (pre : List HeldHandoffWindow)
    (window : HeldHandoffWindow) (ticket : IssuedTicket) (post : List HeldHandoffWindow) : Redeemed T :=
  match splitFirst (fun placeholder => placeholder.window = window.record.index ∧
      placeholder.splintId = presentation.splintId) held.placeholders with
  | none => ⟨settle hold held pre window post, some (.ok (.skipped .notHeld)), none⟩
  | some (before, placeholder, after) =>
    let window := { window with
      ticket := some { ticket with spent := ticket.spent ++ [placeholder.splintId] } }
    let held := { held with windows := pre ++ window :: post, placeholders := before ++ after }
    if placeholder.incarnation ≠ presentation.incarnation ∨
        presentation.liveIncarnation ≠ some placeholder.incarnation then
      ⟨settle hold held pre window post, some (.ok (.skipped .incarnationChanged)), none⟩
    else match restore placeholder with
      | .lease value => ⟨settle hold held pre window post, some (.ok (.restored value)), some placeholder⟩
      | .unavailable => ⟨settle hold held pre window post, some (.ok (.skipped .unavailable)), some placeholder⟩
      | .panicked => ⟨{ hold with held := some held, poisoned := true }, none, some placeholder⟩

def redeem (hold : HandoffWindowHold) : Redeemed T :=
  match hold.lock with
  | none => ⟨hold, some (.error .unknown), none⟩
  | some held =>
    if held.expiresAt ≤ now then
      ⟨{ hold with held := none, released := true }, some (.error .expired), none⟩
    else match splitLast (·.answersTo presentation.ticket) held.windows with
      | none => ⟨hold, some (.error .unknown), none⟩
      | some (pre, window, post) =>
        match window.ticket with
        | none => ⟨hold, some (.error .unknown), none⟩
        | some ticket =>
          match presentation.bound checks window ticket with
          | .error refusal => ⟨dropWindow hold held pre window post, some (.error refusal), none⟩
          | .ok () =>
            if presentation.splintId ∈ ticket.spent then ⟨hold, some (.error .replayed), none⟩
            else spend presentation restore hold held pre window ticket post

end Redeem

end Splinterm.Handoff
