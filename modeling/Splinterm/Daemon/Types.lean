import Splinterm.Core.Model

/-!
# Types the daemon's access stores share

Protocol errors, access scopes and the identity of a connected peer. Clock
readings are nanoseconds; counters are 64-bit and say where they saturate.
-/

namespace Splinterm.Daemon

open Core

/-- A reading of the monotonic clock, in nanoseconds. -/
abbrev Instant := Nat

def nanosPerSecond : Nat := 1000000000

def fromSecs (seconds : Nat) : Nat := seconds * nanosPerSecond

def u64Max : Nat := 2 ^ 64 - 1

def saturatingAdd (a b : Nat) : Nat := min (a + b) u64Max

inductive ErrorCode where
  | authenticationFailed
  | handshakeRequired
  | incompatibleVersion
  | invalidFrame
  | frameTooLarge
  | invalidRequestId
  | duplicateRequestId
  | tooManyOutstandingRequests
  | developmentFeatureDisabled
  | unsupportedOperation
  | consentUnavailable
  | consentDenied
  | unauthorized
  | controllerUnavailable
  | controlTransferUnavailable
  | staleTopology
  | notFound
  | staleIncarnation
  | imageContentNotFound
  | staleImageContent
  | invalidArgument
  | resourceLimit
  | rateLimited
  | cancelled
  | requestNotFound
  | internal
  | handoffInProgress
  | handoffUnavailable
  | invalidHandoffTicket
deriving DecidableEq

inductive HandoffBlockingReason where
  | transientLairsOpen (count : Nat) (lairIds : List LairId)
  | notPackaged
  | rollbackUnavailable
  | unsupported
deriving DecidableEq

structure ProtocolError where
  code : ErrorCode
  message : String
  currentTopologyRevision : Option TopologyRevision
  handoffBlockingReasons : List HandoffBlockingReason
  pendingRequestId : Option Nat
deriving DecidableEq

def ProtocolError.new (code : ErrorCode) (message : String) : ProtocolError where
  code
  message
  currentTopologyRevision := none
  handoffBlockingReasons := []
  pendingRequestId := none

inductive AccessScope where
  | observe
  | scrollback
  | input
  | resize
  | clipboardRead
  | clipboardWrite
  | terminate
  | controlTakeover
  | topologyObserve
  | topologyLayout
  | topologyName
  | processSpawn
  | processRestore
  | agentStatusReport
deriving DecidableEq

/-- Every scope, in the order of their declaration. -/
def AccessScope.all : List AccessScope :=
  [.observe, .scrollback, .input, .resize, .clipboardRead, .clipboardWrite, .terminate,
    .controlTakeover, .topologyObserve, .topologyLayout, .topologyName, .processSpawn,
    .processRestore, .agentStatusReport]

theorem AccessScope.mem_all (scope : AccessScope) : scope ∈ all := by cases scope <;> decide

/-- The elements of a `BTreeSet` of scopes, in its order. -/
def scopeSet (scopes : List AccessScope) : List AccessScope :=
  AccessScope.all.filter fun scope => scope ∈ scopes

@[simp] theorem mem_scopeSet {scope : AccessScope} {scopes : List AccessScope} :
    scope ∈ scopeSet scopes ↔ scope ∈ scopes := by
  simp [scopeSet, scope.mem_all]

/-- The counters every source of authority shares. -/
structure GrantIds where
  next : Nat
  revision : Nat

/-- `GrantIds::next`: the counter wraps, the id drawn from it saturates. -/
def GrantIds.draw (ids : GrantIds) : Nat × GrantIds :=
  (saturatingAdd ids.next 1, { ids with next := (ids.next + 1) % 2 ^ 64 })

def GrantIds.advanceRevision (ids : GrantIds) : GrantIds :=
  { ids with revision := saturatingAdd ids.revision 1 }

/-- The verified executable file behind a peer. -/
structure ExecutableIdentity where
  path : PathBuf
  device : Nat
  inode : Nat
  ownerUid : Nat
  mode : Nat
  size : Nat
  sha256 : String
deriving DecidableEq

/-- What connection verification found out about the peer's installation. -/
structure DurableEvidence where
  protectedInstall : Option PathBuf
  nixProfiles : List PathBuf
  interpreter : Bool
  installedRelay : Bool
deriving DecidableEq

/-- A connected peer. The install prefix and the pinned client snapshot are only ever compared, so
they stand as tokens; the trusted-UI match takes part in no comparison and is left out. -/
structure PeerIdentity where
  uid : Nat
  pid : Nat
  executableLabel : String
  executableDevice : Nat
  executableInode : Nat
  installPrefix : Nat
  pinnedClient : Option Nat
  persistentExecutable : Option ExecutableIdentity
  startTime : Option Nat
  durable : Option DurableEvidence
deriving DecidableEq

/-- Device and inode of the file the peer executed when it was verified. -/
def PeerIdentity.executableFile (peer : PeerIdentity) : Nat × Nat :=
  (peer.executableDevice, peer.executableInode)

end Splinterm.Daemon
