import Splinterm.Daemon.Types

/-!
# Remembered agent access

`AgentAccess` keeps "while this workspace is open" and "always" definitions in memory
and the latter in a store file. Memory and file have a lock each. A commit or a flush
holds the file lock throughout and takes the memory lock twice: to read what it will
write, and to record what came of it. So it is three steps here (`beginCommit` or
`beginFlush`, `runWrite`, `finishWrite`), and the operations that only take the memory
lock may run between them.

`contents` is what the file may hold: its first element is what it holds now, the
others are what a crash may bring back because the write after them was not made
durable. `dead`, `flushed` and `used` record what happened and are read by no
operation.
-/

namespace Splinterm.Daemon

open Core Lib

def maxRememberedEntries : Nat := 256

def maxDisplayNameBytes : Nat := 256

def lastUsedWriteIntervalSeconds : Nat := 60 * 60

inductive AccessLevel where
  | look
  | lookAndType
  | manage

def AccessLevel.scopes : AccessLevel → List AccessScope
  | .look => [.topologyObserve, .observe, .scrollback, .agentStatusReport]
  | .lookAndType => [.topologyObserve, .observe, .scrollback, .agentStatusReport, .input, .resize, .controlTakeover]
  | .manage =>
    [.topologyObserve, .observe, .scrollback, .agentStatusReport, .input, .resize,
      .controlTakeover, .processSpawn, .topologyLayout, .topologyName, .terminate, .processRestore]

inductive AccessSet where
  | level (level : AccessLevel)
  | custom (scopes : List AccessScope)

def AccessSet.covers (required : List AccessScope) : AccessSet → Bool
  | .level bundle => required.all fun scope => scope ∈ bundle.scopes
  | .custom scopes => required.all fun scope => scope ∈ scopes

inductive DurableIdentity where
  | protectedInstall (path : PathBuf)
  | nixProfile (path : PathBuf)
deriving DecidableEq

def DurableEvidence.matches_ (evidence : DurableEvidence) : DurableIdentity → Bool
  | .protectedInstall path => evidence.protectedInstall = some path
  | .nixProfile path => evidence.nixProfiles.any fun profile => profile = path

/-- A remembered entry's stable id. -/
structure EntryId where
  text : String
deriving DecidableEq

structure RememberedEntry where
  id : EntryId
  identity : DurableIdentity
  lairId : LairId
  access : AccessSet
  createdUnixSeconds : Nat
  lastUsedUnixSeconds : Option Nat
  displayName : Option String

/-- What a definition is for; a store holds one for each. -/
def RememberedEntry.key (entry : RememberedEntry) : DurableIdentity × LairId :=
  (entry.identity, entry.lairId)

structure SessionGrant where
  grantId : Nat
  uid : Nat
  path : PathBuf
  sha256 : String
  lairId : LairId
  access : AccessSet
  displayName : Option String
  createdUnixSeconds : Nat

structure RememberedGrant where
  grantId : Nat
  entry : RememberedEntry
  /-- The last-used time the store holds for this entry. -/
  persistedLastUsed : Option Nat
  workspaceMissing : Bool

inductive StoreFault where
  | notConfigured
  | retired
  | unsafe_ (why : String)
  | corrupt (why : String)
  | oversized
  | unsupportedVersion (version : Nat)
  | unreadable (why : String)

inductive StoreWriteError where
  | unavailable (fault : StoreFault)
  | conflict
  | bounds
  | io (stage error : String)
  | notDurable (stage error : String)

inductive FileState where
  | absent
  | loaded (version : Nat)
  | unavailable (fault : StoreFault)

/-- What the operating system makes of a write. -/
inductive WriteFate where
  | durable
  | conflict
  /-- The encoded document is too long. -/
  | bounds
  | io (stage error : String)
  | notDurable (stage error : String)

inductive CommitError where
  /-- The peer has no pinned executable identity. -/
  | notOffered
  | workspaceEnded
  | store (error : StoreWriteError)
  /-- The answer's request ended first. -/
  | ended

inductive GrantDuration where
  | once
  | workspaceSession
  | remembered

structure AgentAuthorization where
  grantId : Nat
  duration : GrantDuration
  flushDue : Bool

structure Committed where
  grantId : Nat
  replaced : Option Nat
  entryId : Option EntryId

structure LairEnd where
  grantIds : List Nat
  flushNeeded : Bool

structure RevokedAll where
  sessionGrantIds : List Nat
  rememberedGrantIds : List Nat

/-- A commit or a flush that holds the file lock. -/
structure Writing where
  /-- The entry to commit; none for a flush. -/
  commit : Option RememberedEntry
  proposal : List RememberedEntry
  /-- What the write returned, once it ran. -/
  result : Option (Except StoreWriteError Unit)
  /-- What memory held when the write began, and which entries were dead then. -/
  snapshot : List RememberedEntry
  deadBefore : List EntryId

structure AgentAccess where
  ids : GrantIds
  sessions : List SessionGrant
  remembered : List RememberedGrant
  /-- Revoked in memory, still in the file until a write succeeds. -/
  pendingRemovals : List RememberedEntry
  endedLairs : List LairId
  available : Bool
  flushInFlight : Bool
  nextLastUsedAttempt : Nat
  fileState : FileState
  contents : List (List RememberedEntry)
  writing : Option Writing
  /-- Entries revoked, ended with their Lair, or whose commit failed. -/
  dead : List EntryId
  /-- Entries that were dead when a flush began that returned success. -/
  flushed : List EntryId
  used : List EntryId

/-- The longest start of the name that fits, without control characters. -/
def boundedDisplayName (name : String) : String :=
  let isControl (c : Char) : Bool := c.toNat < 32 ∨ 127 ≤ c.toNat ∧ c.toNat < 160
  let rec fit (room : Nat) : List Char → List Char
    | [] => []
    | c :: cs => if c.utf8Size ≤ room then c :: fit (room - c.utf8Size) cs else []
  String.ofList (fit maxDisplayNameBytes (name.toList.filter fun c => !isControl c))

/-- `BTreeMap::insert` on the pending removals, keyed by the entry's id. -/
def insertPending (entry : RememberedEntry) (pending : List RememberedEntry) : List RememberedEntry :=
  pending.filter (fun other => other.id ≠ entry.id) ++ [entry]

namespace AgentAccess

/-- One runtime grant for each entry a load keeps. -/
def loadGrants (workspaceMissing : LairId → Bool) : List RememberedEntry → GrantIds → List RememberedGrant × GrantIds
  | [], ids => ([], ids)
  | entry :: entries, ids =>
    let (grantId, ids) := ids.draw
    let (grants, ids) := loadGrants workspaceMissing entries ids
    (⟨grantId, entry, entry.lastUsedUnixSeconds, workspaceMissing entry.lairId⟩ :: grants, ids)

/-- The entries a load finds; an unusable store has none. -/
def storedEntries (entries : List RememberedEntry) : FileState → List RememberedEntry
  | .loaded _ => entries
  | _ => []

/-- What a load makes of the store's entries. Entries whose removal a previous round still owed stay
revoked. -/
def load (ids : GrantIds) (fileState : FileState) (entries : List RememberedEntry)
    (workspaceMissing : LairId → Bool) (carriedRemovals : List EntryId) : AgentAccess :=
  let entries := storedEntries entries fileState
  let carried := entries.filter fun entry => entry.id ∈ carriedRemovals
  let kept := entries.filter fun entry => entry.id ∉ carriedRemovals
  let (remembered, ids) := loadGrants workspaceMissing kept ids
  { ids
    sessions := []
    remembered
    pendingRemovals := carried
    endedLairs := []
    available := match fileState with
      | .unavailable _ => false
      | _ => true
    flushInFlight := false
    nextLastUsedAttempt := 0
    fileState
    contents := [entries]
    writing := none
    dead := carried.map (·.id)
    flushed := []
    used := entries.map (·.id) }

variable (s : AgentAccess)

def rememberedEntries : List RememberedEntry := s.remembered.map (·.entry)

def flushNeeded : Bool :=
  !s.pendingRemovals.isEmpty ||
    s.remembered.any fun grant => grant.entry.lastUsedUnixSeconds ≠ grant.persistedLastUsed

/-- `Memory::written`: a write of exactly `written` was durable. -/
def written (written : List RememberedEntry) (s : AgentAccess) : Bool × AgentAccess :=
  let pending := s.pendingRemovals.filter fun entry => entry.id ∈ written.map (·.id)
  (pending.length ≠ s.pendingRemovals.length,
   { s with
     remembered := s.remembered.map fun grant =>
       match written.find? fun entry => entry.id = grant.entry.id with
       | some entry => { grant with persistedLastUsed := entry.lastUsedUnixSeconds }
       | none => grant
     pendingRemovals := pending })

def advanceRevision : AgentAccess := { s with ids := s.ids.advanceRevision }

def matchesSession (peer : PeerIdentity) (lairId : LairId) (executable : ExecutableIdentity)
    (grant : SessionGrant) : Bool :=
  grant.lairId = lairId ∧ grant.uid = peer.uid ∧ grant.path = executable.path ∧ grant.sha256 = executable.sha256

/-- The remembered half of `authorize`: a match updates the entry's last-used time. -/
def authorizeRemembered (evidence : DurableEvidence) (lairId : LairId)
    (required : List AccessScope) (now : Nat) (s : AgentAccess) : Option AgentAuthorization × AgentAccess :=
  if !s.available then (none, s)
  else
    match splitFirst (fun grant : RememberedGrant =>
        grant.entry.lairId = lairId ∧ grant.workspaceMissing = false ∧
          evidence.matches_ grant.entry.identity ∧ grant.entry.access.covers required)
        s.remembered with
    | none => (none, s)
    | some (pre, grant, post) =>
      let flushDue := !s.flushInFlight ∧ now ≥ s.nextLastUsedAttempt ∧
        now - grant.persistedLastUsed.getD 0 ≥ lastUsedWriteIntervalSeconds
      (some ⟨grant.grantId, .remembered, flushDue⟩,
       { s with
         remembered :=
           pre ++ { grant with entry := { grant.entry with lastUsedUnixSeconds := some now } } :: post
         flushInFlight := s.flushInFlight || flushDue })

def authorize (peer : PeerIdentity) (lairId : LairId) (required : List AccessScope) (now : Nat)
    (s : AgentAccess) : Option AgentAuthorization × AgentAccess :=
  match peer.durable with
  | none => (none, s)
  | some evidence =>
    if evidence.installedRelay then (none, s)
    else
      match peer.persistentExecutable.bind fun executable =>
          s.sessions.find? fun grant =>
            matchesSession peer lairId executable grant ∧ grant.access.covers required with
      | some grant => (some ⟨grant.grantId, .workspaceSession, false⟩, s)
      | none => s.authorizeRemembered evidence lairId required now

/-- `commit_session_gated`, with the gate's answer passed in. -/
def commitSessionGated (peer : PeerIdentity) (lairId : LairId) (access : AccessSet)
    (displayName : Option String) (gate : Bool) (unixSeconds : Nat) (s : AgentAccess) :
    Except CommitError Committed × AgentAccess :=
  match peer.persistentExecutable with
  | none => (.error .notOffered, s)
  | some executable =>
    if lairId ∈ s.endedLairs then (.error .workspaceEnded, s)
    else if !gate then (.error .ended, s)
    else
      let replaced := s.sessions.find? (matchesSession peer lairId executable)
      let (grantId, ids) := s.ids.draw
      let grant : SessionGrant :=
        { grantId
          uid := peer.uid
          path := executable.path
          sha256 := executable.sha256
          lairId
          access
          displayName := displayName.map boundedDisplayName
          createdUnixSeconds := unixSeconds }
      (.ok ⟨grantId, replaced.map (·.grantId), none⟩,
       advanceRevision { s with
         ids
         sessions := s.sessions.eraseP (matchesSession peer lairId executable) ++ [grant] })

def revokeSession (grantId : Nat) (s : AgentAccess) : Bool × AgentAccess :=
  match splitFirst (fun grant : SessionGrant => grant.grantId = grantId) s.sessions with
  | none => (false, s)
  | some (pre, _, post) => (true, advanceRevision { s with sessions := pre ++ post })

def revokeRemembered (entryId : EntryId) (s : AgentAccess) : Option Nat × AgentAccess :=
  match splitFirst (fun grant : RememberedGrant => grant.entry.id = entryId) s.remembered with
  | none => (none, s)
  | some (pre, grant, post) =>
    (some grant.grantId,
     advanceRevision { s with
       remembered := pre ++ post
       pendingRemovals := insertPending grant.entry s.pendingRemovals
       dead := entryId :: s.dead })

/-- Every grant of `ended` leaves memory and owes its removal from the file. -/
def dropRemembered (ended : List RememberedGrant) (kept : List RememberedGrant) (s : AgentAccess) : AgentAccess :=
  { s with
    remembered := kept
    pendingRemovals := ended.foldl (fun pending grant => insertPending grant.entry pending)
      s.pendingRemovals
    dead := ended.map (·.entry.id) ++ s.dead }

def endLair (lairId : LairId) (s : AgentAccess) : LairEnd × AgentAccess :=
  let (endedSessions, sessions) := s.sessions.partition fun grant => grant.lairId = lairId
  let (ended, kept) := s.remembered.partition fun grant => grant.entry.lairId = lairId
  let grantIds := endedSessions.map (·.grantId) ++ ended.map (·.grantId)
  let s := dropRemembered ended kept
    { s with endedLairs := lairId :: s.endedLairs, sessions }
  (⟨grantIds, !ended.isEmpty⟩, if grantIds = [] then s else s.advanceRevision)

def revokeAll : RevokedAll × AgentAccess :=
  let revoked : RevokedAll := ⟨s.sessions.map (·.grantId), s.remembered.map (·.grantId)⟩
  let s := dropRemembered s.remembered [] { s with sessions := [] }
  (revoked, if revoked.sessionGrantIds = [] ∧ revoked.rememberedGrantIds = [] then s else s.advanceRevision)

/-- The first part of `commit_remembered`, up to the write. The entry's id is drawn at random. -/
def beginCommit (id : EntryId) (identity : DurableIdentity) (lairId : LairId) (access : AccessSet)
    (displayName : Option String) (unixSeconds : Nat) (s : AgentAccess) : Option CommitError × AgentAccess :=
  let entry : RememberedEntry :=
    { id
      identity
      lairId
      access
      createdUnixSeconds := unixSeconds
      lastUsedUnixSeconds := none
      displayName := displayName.map boundedDisplayName }
  let s := { s with used := id :: s.used }
  if lairId ∈ s.endedLairs then (some .workspaceEnded, { s with dead := id :: s.dead })
  else
    let kept := s.rememberedEntries.filter fun other => other.key ≠ entry.key
    (none, { s with
      writing := some ⟨some entry, kept ++ [entry], none, s.rememberedEntries, s.dead⟩ })

/-- The first part of `flush`; `some` when no write is owed. -/
def beginFlush : Option (Except StoreWriteError Unit) × AgentAccess :=
  if !s.flushNeeded then
    (some (.ok ()), { s with flushInFlight := false, flushed := s.dead ++ s.flushed })
  else
    (none, { s with
      writing := some ⟨none, s.rememberedEntries, none, s.rememberedEntries, s.dead⟩ })

/-- `DurableFile::write`. -/
def write (proposal : List RememberedEntry) (fate : WriteFate) (s : AgentAccess) :
    Except StoreWriteError Unit × AgentAccess :=
  let replace (version : Nat) (contents : List (List RememberedEntry)) :=
    { s with fileState := .loaded version, contents }
  let attempt (version : Nat) : Except StoreWriteError Unit × AgentAccess :=
    if proposal.length > maxRememberedEntries then (.error .bounds, s)
    else
      match fate with
      | .durable => (.ok (), replace version [proposal])
      | .notDurable stage error => (.error (.notDurable stage error), replace version (proposal :: s.contents))
      | .conflict => (.error .conflict, s)
      | .bounds => (.error .bounds, s)
      | .io stage error => (.error (.io stage error), s)
  match s.fileState with
  | .unavailable fault => (.error (.unavailable fault), s)
  | .absent => attempt 1
  | .loaded version => attempt version

/-- The write of the commit or flush that holds the file lock. -/
def runWrite (fate : WriteFate) (s : AgentAccess) : AgentAccess :=
  match s.writing with
  | some writing =>
    if writing.result.isNone then
      let (result, s) := s.write writing.proposal fate
      { s with writing := some { writing with result := some result } }
    else s
  | none => s

/-- The end of `commit_remembered` after the write returned. -/
def finishCommit (entry : RememberedEntry) (proposal : List RememberedEntry)
    (result : Except StoreWriteError Unit) (s : AgentAccess) : Except CommitError Committed × AgentAccess :=
  match result with
  | .error (.notDurable stage error) =>
    (.error (.store (.notDurable stage error)),
     { s with
       pendingRemovals := insertPending entry s.pendingRemovals
       dead := entry.id :: s.dead })
  | .error error => (.error (.store error), { s with dead := entry.id :: s.dead })
  | .ok () =>
    let (completed, s) := s.written proposal
    let s := if completed then s.advanceRevision else s
    if entry.lairId ∈ s.endedLairs then
      (.error .workspaceEnded,
       { s with
         pendingRemovals := insertPending entry s.pendingRemovals
         dead := entry.id :: s.dead })
    else
      let replaced := s.remembered.find? fun grant => grant.entry.key = entry.key
      let (grantId, ids) := s.ids.draw
      (.ok ⟨grantId, replaced.map (·.grantId), some entry.id⟩,
       advanceRevision { s with
         ids
         remembered := s.remembered.eraseP (fun grant => grant.entry.key = entry.key) ++
           [⟨grantId, entry, none, false⟩] })

/-- The end of `flush` after the write returned. -/
def finishFlush (proposal : List RememberedEntry) (deadBefore : List EntryId)
    (result : Except StoreWriteError Unit) (unixSeconds : Nat) (s : AgentAccess) :
    Except StoreWriteError Unit × AgentAccess :=
  match result with
  | .ok () =>
    let (completed, s) := s.written proposal
    let s := if completed then s.advanceRevision else s
    (.ok (), { s with flushInFlight := false, flushed := deadBefore ++ s.flushed })
  | .error error =>
    (.error error,
     { s with
       flushInFlight := false
       nextLastUsedAttempt := saturatingAdd unixSeconds lastUsedWriteIntervalSeconds })

/-- The last part of a commit or flush, which then releases the file lock. -/
def finishWrite (unixSeconds : Nat) (s : AgentAccess) : AgentAccess :=
  match s.writing with
  | some ⟨commit, proposal, some result, _, deadBefore⟩ =>
    let s := match commit with
      | some entry => (s.finishCommit entry proposal result).2
      | none => (s.finishFlush proposal deadBefore result unixSeconds).2
    { s with writing := none }
  | _ => s

end AgentAccess

end Splinterm.Daemon
