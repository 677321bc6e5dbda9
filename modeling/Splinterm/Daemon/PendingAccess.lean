import Splinterm.Lib.Lifecycle
import Splinterm.Daemon.Types

/-!
# Pending workspace access requests

The registry of `RequestLairAccess` calls that wait for the person's answer. Each
operation runs under the registry's lock, so an interleaving of the daemon's tasks
is a sequence of operations. A request is identified by the watch channel made for
it: request ids saturate, channels never repeat. Two fields record what happened
and are read by no operation: `log`, the events of every request, and `started`,
every deny cooldown.
-/

namespace Splinterm.Daemon

open Core Lib

def maxPendingTotal : Nat := 8

def pendingAccessLifetimeSeconds : Nat := 120

def pendingLifetime : Nat := fromSecs pendingAccessLifetimeSeconds

def denyCooldown : Nat := fromSecs 10

def maxUncollectedDenials : Nat := 2 * maxPendingTotal

structure ProcessKey where
  uid : Nat
  pid : Nat
  startTime : Nat
deriving DecidableEq

def ProcessKey.of (peer : PeerIdentity) : Option ProcessKey :=
  peer.startTime.map fun startTime => ⟨peer.uid, peer.pid, startTime⟩

inductive IdentityKey where
  | verified (uid : Nat) (path : PathBuf) (sha256 : String)
  | executing (uid device inode : Nat)
deriving DecidableEq

def IdentityKey.of (peer : PeerIdentity) : IdentityKey :=
  match peer.persistentExecutable with
  | some executable => .verified peer.uid executable.path executable.sha256
  | none => .executing peer.uid peer.executableFile.1 peer.executableFile.2

/-- How a pending request ended, for every call waiting on it; `ρ` is the reply a grant carries. -/
inductive Outcome (ρ : Type) where
  | granted (response : ρ)
  | failed (error : ProtocolError)

/-- A request's watch channel, with the two tokens cancelled when it is delivered. -/
structure Channel (ρ : Type) where
  value : Option (Outcome ρ)
  receivers : Nat
  cancelled : Bool
  done : Bool

structure PinnedRequester where
  pidfd : Nat
  executing : Nat × Nat

inductive Phase where
  | queued
  | prompting
  | committing (ended : Option ProtocolError)
  | published
deriving DecidableEq

structure Entry where
  id : Nat
  process : ProcessKey
  identity : IdentityKey
  peer : PeerIdentity
  lairId : LairId
  scopes : List AccessScope
  agentName : Option String
  openedUnixSeconds : Nat
  expires : Instant
  expiresAtUnixSeconds : Nat
  /-- The index of the request's channel. -/
  outcome : Nat
  pidfd : Nat
  executing : Nat × Nat
  phase : Phase

structure Denial where
  process : ProcessKey
  lairId : LairId
  scopes : List AccessScope
  until_ : Instant

structure Cooldown where
  identity : IdentityKey
  lairId : LairId
  until_ : Instant

/-- What happened to one request. -/
inductive RequestEvent where
  | opened
  /-- Its prompt was shown. -/
  | shown
  /-- The person granted it and the commit began. -/
  | answered
  /-- An end operation counted it. -/
  | ended (error : ProtocolError)
  /-- The publish step ran. -/
  | published
  /-- The commit finished and the request left. -/
  | finished
deriving DecidableEq

structure PendingAccess (ρ : Type) where
  entries : List Entry
  denials : List Denial
  cooldowns : List Cooldown
  prompterRunning : Bool
  nextId : Nat
  closed : Bool
  /-- The authorization revision every grant source shares. -/
  revision : Nat
  channels : List (Channel ρ)
  log : List (Nat × RequestEvent)
  started : List Cooldown

def cancelled (message : String) : ProtocolError := .new .cancelled message

def denied : ProtocolError := .new .consentDenied "Lair access was denied"

/-- `unix_seconds_at`, with the wall clock's reading passed in. -/
def unixSecondsAt (unixNow : Nat) (expires now : Instant) : Nat :=
  saturatingAdd unixNow ((expires - now) / nanosPerSecond)

structure Admitted where
  requestId : Nat
  expires : Instant
  expiresAtUnixSeconds : Nat
  outcome : Nat
  /-- The pidfd to watch, for a newly opened request. -/
  opened : Option Nat

structure PromptJob where
  requestId : Nat
  peer : PeerIdentity
  lairId : LairId
  scopes : List AccessScope
  agentName : Option String
  expires : Instant

structure CommitTicket where
  peer : PeerIdentity
  process : ProcessKey
  pidfd : Nat
  executing : Nat × Nat

structure Denied where
  peer : PeerIdentity
  lairId : LairId
  scopes : List AccessScope

namespace PendingAccess

variable {ρ : Type}

def new : PendingAccess ρ where
  entries := []
  denials := []
  cooldowns := []
  prompterRunning := false
  nextId := 0
  closed := false
  revision := 0
  channels := []
  log := []
  started := []

def note (channel : Nat) (event : RequestEvent) (s : PendingAccess ρ) : PendingAccess ρ :=
  { s with log := s.log ++ [(channel, event)] }

variable (s : PendingAccess ρ)

def advanceRevision : PendingAccess ρ :=
  { s with revision := saturatingAdd s.revision 1 }

def deliver (channel : Nat) (outcome : Outcome ρ) (s : PendingAccess ρ) : PendingAccess ρ :=
  { s with
    channels := s.channels.modify channel fun c => { c with value := some outcome, cancelled := true, done := true } }

def prune (now : Instant) (s : PendingAccess ρ) : PendingAccess ρ :=
  { s with
    denials := s.denials.filter fun denial => denial.until_ > now
    cooldowns := s.cooldowns.filter fun cooldown => cooldown.until_ > now }

def position (requestId : Nat) : Option (List Entry × Entry × List Entry) :=
  splitFirst (fun entry => entry.id = requestId) s.entries

/-- The loop of `end_where`: `s` holds the entries already passed, the list those to come. -/
def endFrom (error : ProtocolError) (selected : Entry → Bool) : List Entry → PendingAccess ρ → Nat × PendingAccess ρ
  | [], s => (0, s)
  | entry :: rest, s =>
    if entry.phase = .published ∨ ¬ selected entry then
      endFrom error selected rest { s with entries := s.entries ++ [entry] }
    else
      let (count, s') :=
        match entry.phase with
        | .committing ended =>
          endFrom error selected rest
            (note entry.outcome (.ended error)
              { s with
                entries := s.entries ++
                  [{ entry with phase := .committing (some (ended.getD error)) }] })
        | _ =>
          endFrom error selected rest
            (note entry.outcome (.ended error) (deliver entry.outcome (.failed error) s))
      (count + 1, s')

def endWhere (error : ProtocolError) (selected : Entry → Bool) (s : PendingAccess ρ) : Nat × PendingAccess ρ :=
  endFrom error selected s.entries { s with entries := [] }

/-- Advances the revision when `count` requests ended. -/
def ended (result : Nat × PendingAccess ρ) : Nat × PendingAccess ρ :=
  if result.1 > 0 then (result.1, result.2.advanceRevision) else result

/-- Joins a pending request of the same process and workspace, or refuses a different one. -/
def join (entry : Entry) (scopes : List AccessScope) (s : PendingAccess ρ) :
    Except ProtocolError Admitted × PendingAccess ρ :=
  if entry.scopes ≠ scopes then
    (.error
      { ProtocolError.new .resourceLimit
          "a different access request for this workspace is already pending" with
        pendingRequestId := some entry.id }, s)
  else
    (.ok
      { requestId := entry.id
        expires := entry.expires
        expiresAtUnixSeconds := entry.expiresAtUnixSeconds
        outcome := entry.outcome
        opened := none },
     { s with
       channels := s.channels.modify entry.outcome fun c => { c with receivers := c.receivers + 1 } })

/-- Pushes a new queued request. -/
def openRequest (peer : PeerIdentity) (process : ProcessKey) (lairId : LairId)
    (scopes : List AccessScope) (agentName : Option String) (now : Instant) (unixNow : Nat)
    (pinned : PinnedRequester) (s : PendingAccess ρ) : Admitted × PendingAccess ρ :=
  let id := saturatingAdd s.nextId 1
  let expires := now + pendingLifetime
  let channel := s.channels.length
  let entry : Entry :=
    { id
      process
      identity := .of peer
      peer
      lairId
      scopes
      agentName
      openedUnixSeconds := unixSecondsAt unixNow now now
      expires
      expiresAtUnixSeconds := unixSecondsAt unixNow expires now
      outcome := channel
      pidfd := pinned.pidfd
      executing := pinned.executing
      phase := .queued }
  ({ requestId := id
     expires
     expiresAtUnixSeconds := entry.expiresAtUnixSeconds
     outcome := channel
     opened := some pinned.pidfd }, note channel .opened
     { s with
       nextId := id
       entries := s.entries ++ [entry]
       channels := s.channels ++ [⟨none, 1, false, false⟩]
       revision := saturatingAdd s.revision 1 })

def admitRequest (peer : PeerIdentity) (lairId : LairId) (scopes : List AccessScope)
    (agentName : Option String) (now : Instant) (unixNow : Nat)
    (openPidfd : ProcessKey → Except ProtocolError PinnedRequester) (s : PendingAccess ρ) :
    Except ProtocolError Admitted × PendingAccess ρ :=
  match ProcessKey.of peer with
  | none =>
    (.error (.new .consentUnavailable
      "the requesting process cannot be pinned for a pending request"), s)
  | some process =>
    if s.closed then (.error (.new .consentUnavailable "the daemon is shutting down"), s)
    else
      let s := s.prune now
      match splitFirst (fun denial : Denial =>
          denial.process = process ∧ denial.lairId = lairId ∧ denial.scopes = scopes) s.denials with
      | some (pre, _, post) => (.error denied, { s with denials := pre ++ post })
      | none =>
        match s.entries.find? (fun entry => entry.process = process ∧ entry.lairId = lairId) with
        | some entry => s.join entry scopes
        | none =>
          if s.cooldowns.any (fun cooldown =>
              cooldown.identity = IdentityKey.of peer ∧ cooldown.lairId = lairId) then
            (.error (.new .rateLimited "access to this workspace was just denied; retry later"), s)
          else if s.entries.length ≥ maxPendingTotal then
            (.error (.new .resourceLimit "too many access requests are pending"), s)
          else
            match openPidfd process with
            | .error error => (.error error, s)
            | .ok pinned =>
              let (admitted, s) := s.openRequest peer process lairId scopes agentName now unixNow pinned
              (.ok admitted, s)

def claimPrompter : Bool × PendingAccess ρ :=
  (!s.prompterRunning, { s with prompterRunning := true })

def releasePrompter : PendingAccess ρ := { s with prompterRunning := false }

def nextPrompt : Option PromptJob × PendingAccess ρ :=
  match splitFirst (fun entry : Entry => entry.phase = .queued) s.entries with
  | none => (none, { s with prompterRunning := false })
  | some (pre, entry, post) =>
    (some
      { requestId := entry.id
        peer := entry.peer
        lairId := entry.lairId
        scopes := entry.scopes
        agentName := entry.agentName
        expires := entry.expires }, note entry.outcome .shown
       { s with
         entries := pre ++ { entry with phase := .prompting } :: post
         revision := saturatingAdd s.revision 1 })

/-- The denials after one more, which its requester collects by asking again; none is kept when a
call waits for it now. -/
def uncollected (entry : Entry) (s : PendingAccess ρ) : List Denial :=
  if ((s.channels[entry.outcome]?).map (·.receivers)).getD 0 = 0 then
    (if s.denials.length = maxUncollectedDenials then s.denials.tail else s.denials) ++
      [⟨entry.process, entry.lairId, entry.scopes, entry.expires⟩]
  else s.denials

def deny (requestId : Nat) (now : Instant) (s : PendingAccess ρ) : Option Denied × PendingAccess ρ :=
  match s.position requestId with
  | none => (none, s)
  | some (pre, entry, post) =>
    if entry.phase ≠ .prompting then (none, s)
    else
      let cooldown : Cooldown := ⟨entry.identity, entry.lairId, now + denyCooldown⟩
      (some ⟨entry.peer, entry.lairId, entry.scopes⟩, note entry.outcome (.ended denied)
         (deliver entry.outcome (.failed denied)
           { s with
             entries := pre ++ post
             revision := saturatingAdd s.revision 1
             cooldowns := s.cooldowns ++ [cooldown]
             started := s.started ++ [cooldown]
             denials := uncollected entry s }))

def endRequest (requestId : Nat) (error : ProtocolError) (s : PendingAccess ρ) : Bool × PendingAccess ρ :=
  let (count, s) := ended (s.endWhere error fun entry => entry.id = requestId)
  (count = 1, s)

def expire (requestId : Nat) (now : Instant) (s : PendingAccess ρ) : Bool × PendingAccess ρ :=
  let (count, s) := ended (s.endWhere (cancelled "the access request expired without an answer")
    fun entry => entry.id = requestId ∧ entry.expires ≤ now)
  (count = 1, s)

def cancel (process : ProcessKey) (lairId : LairId) (requestId : Nat) (s : PendingAccess ρ) : Bool × PendingAccess ρ :=
  let (count, s) := ended (s.endWhere (cancelled "the access request was cancelled")
    fun entry => entry.id = requestId ∧ entry.process = process ∧ entry.lairId = lairId)
  (count = 1, s)

def cancelAll : Nat × PendingAccess ρ :=
  ended (s.endWhere (cancelled "access was revoked") fun _ => true)

def close : Nat × PendingAccess ρ :=
  ended ({ s with closed := true }.endWhere (cancelled "the daemon is shutting down") fun _ => true)

/-- `publish` is what the publish step returns; the step runs exactly when it is returned. -/
def publishIfLive {α : Type} (requestId : Nat) (publish : α) (s : PendingAccess ρ) : Option α × PendingAccess ρ :=
  match s.position requestId with
  | none => (none, s)
  | some (pre, entry, post) =>
    if entry.phase ≠ .committing none then (none, s)
    else
      (some publish, note entry.outcome .published
         { s with entries := pre ++ { entry with phase := .published } :: post })

def endLair (lairId : LairId) (s : PendingAccess ρ) : Nat × PendingAccess ρ :=
  ended (s.endWhere (.new .notFound "the workspace no longer exists")
    fun entry => entry.lairId = lairId)

def endAllAtFence : Nat × PendingAccess ρ :=
  ended (s.endWhere
    (.new .handoffInProgress "the daemon is upgrading; ask again after it restarts") fun _ => true)

def beginCommit (requestId : Nat) (s : PendingAccess ρ) : Option CommitTicket × PendingAccess ρ :=
  match s.position requestId with
  | none => (none, s)
  | some (pre, entry, post) =>
    if entry.phase ≠ .prompting then (none, s)
    else
      (some ⟨entry.peer, entry.process, entry.pidfd, entry.executing⟩, note entry.outcome .answered
         { s with entries := pre ++ { entry with phase := .committing none } :: post })

def finishCommit (requestId : Nat) (outcome : Outcome ρ) (s : PendingAccess ρ) : Bool × PendingAccess ρ :=
  match s.position requestId with
  | none => (false, s)
  | some (pre, entry, post) =>
    let s := { s with entries := pre ++ post, revision := saturatingAdd s.revision 1 }
    match entry.phase with
    | .committing (some error) => (false, note entry.outcome .finished (deliver entry.outcome (.failed error) s))
    | _ => (true, note entry.outcome .finished (deliver entry.outcome outcome s))

/-- A waiting call leaves: its receiver is dropped. -/
def dropReceiver (channel : Nat) (s : PendingAccess ρ) : PendingAccess ρ :=
  { s with channels := s.channels.modify channel fun c => { c with receivers := c.receivers - 1 } }

end PendingAccess

end Splinterm.Daemon
