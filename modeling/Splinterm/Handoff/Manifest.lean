import Mathlib.Data.Prod.Lex
import Splinterm.Lib.Canonical
import Splinterm.Policy.Document

/-!
# The handoff manifest

A daemon that hands over to its successor writes one manifest: what each inherited
descriptor is for, the Splints it carries, those it leaves out, and the Windows whose
connections cross. `encodeManifest` sorts the lists, checks the result and writes it;
`decodeManifest` reads bytes back and accepts only what encoding writes.

The JSON writer and reader, and the text of an identifier, are arguments.
-/

namespace Splinterm.Handoff

open Core Lib Hoare

def handoffManifestSchemaV1 : UInt16 := 1
def maxHandoffManifestBytes : Nat := 256 * 1024
def maxManifestSplints : Nat := 256
def maxManifestLairs : Nat := maxManifestSplints
def maxManifestDojos : Nat := maxManifestSplints
def maxManifestWindows : Nat := 64
def maxManifestWindowConnections : Nat := 128
def maxHandoffDescriptors : Nat := 1024
def maxInheritedFd : UInt32 := 0x7FFFFFFF
def unixFileTypeMask : UInt32 := 0o170000
def unixRegularFile : UInt32 := 0o100000
def maxExecutableSnapshotBytes : UInt64 := 256 * 1024 * 1024
def packagedOwnerUid : UInt32 := 0
/-- The seals `WRITE`, `GROW`, `SHRINK` and `SEAL` of a memory file. -/
def requiredExecutableSeals : UInt32 := 0x8 ||| 0x4 ||| 0x2 ||| 0x1
def terminalCheckpointSchemaV2 : UInt16 := 2
def pathMax : Nat := 4096
def helperExecutable : String := "splinterm-pty-child"
def maxInstallPrefixBytes : Nat := pathMax - 1 - 1 - helperExecutable.utf8ByteSize

/-! ## Data -/

inductive ManifestKind where
  | forward
  | rollback
deriving DecidableEq

/-- The closed set of descriptor roles. -/
inductive HandoffDescriptorSlot where
  | ptyMaster (slot : UInt16)
  | listener
  | imageListener
  | checkpointManifest
  | rollbackManifest
  | terminalCheckpoint (slot : UInt16)
  | imageState (slot : UInt16)
  | forwardClient
  | rollbackDaemon
  | rollbackClient
  | clientProcess (index : UInt8)
  | continuation (index : UInt8)
deriving DecidableEq

/-- The derived order: the place of the variant, then its payload. -/
def HandoffDescriptorSlot.order : HandoffDescriptorSlot → ℕ ×ₗ ℕ
  | ptyMaster slot => toLex (0, slot.toNat)
  | listener => toLex (1, 0)
  | imageListener => toLex (2, 0)
  | checkpointManifest => toLex (3, 0)
  | rollbackManifest => toLex (4, 0)
  | terminalCheckpoint slot => toLex (5, slot.toNat)
  | imageState slot => toLex (6, slot.toNat)
  | forwardClient => toLex (7, 0)
  | rollbackDaemon => toLex (8, 0)
  | rollbackClient => toLex (9, 0)
  | clientProcess index => toLex (10, index.toNat)
  | continuation index => toLex (11, index.toNat)

structure ManifestBuildVersion where
  major : UInt16
  minor : UInt16
  patch : UInt16
deriving DecidableEq

structure GenerationEvidence where
  buildIdentity : Vector UInt8 32
  buildVersion : ManifestBuildVersion
deriving DecidableEq

structure ManifestExecutableImage where
  sourceDevice : UInt64
  sourceInode : UInt64
  sourceOwnerUid : UInt32
  sourceMode : UInt32
  sourceSize : UInt64
  sourceSha256 : Vector UInt8 32
  snapshotDevice : UInt64
  snapshotInode : UInt64
  snapshotSize : UInt64
  snapshotSha256 : Vector UInt8 32
  snapshotSeals : UInt32
deriving DecidableEq

structure ManifestExecutablePair where
  daemon : ManifestExecutableImage
  client : ManifestExecutableImage
  generation : GenerationEvidence
deriving DecidableEq

structure ExecutablePairSetEvidence where
  forward : ManifestExecutablePair
  rollback : ManifestExecutablePair
deriving DecidableEq

structure ManifestDescriptor where
  slot : HandoffDescriptorSlot
  inheritedFd : UInt32
deriving DecidableEq

structure ManifestPtyIdentity where
  childPid : UInt32
  processGroup : UInt32
  sessionId : UInt32
  masterSlot : UInt16
deriving DecidableEq

structure ManifestPtySize where
  columns : UInt16
  rows : UInt16
  pixelWidth : UInt16
  pixelHeight : UInt16
deriving DecidableEq

inductive ExitDisposition where
  | running
  | exited
deriving DecidableEq

inductive BodyDisposition where
  | descriptor (slot : UInt16)
  | notPresent
  | unsupported
deriving DecidableEq

inductive ControllerDisposition where
  | released
  | heldBy (window : UInt8) (connection : UInt64)
deriving DecidableEq

inductive SubscriptionDisposition where
  | dropped
deriving DecidableEq

structure ManifestSplint where
  lairId : LairId
  dojoId : DojoId
  splintId : SplintId
  incarnation : UInt64
  pty : ManifestPtyIdentity
  size : ManifestPtySize
  foregroundProcessGroup : Option UInt32
  terminalRevision : UInt64
  historyGeneration : UInt64
  exit : ExitDisposition
  terminalCheckpoint : BodyDisposition
  imageState : BodyDisposition
  controller : ControllerDisposition
  subscriptions : SubscriptionDisposition
deriving DecidableEq

/-- A process exit: an exit code or a terminating signal. -/
structure ManifestProcessExit where
  code : Option Int
  signal : Option Int
deriving DecidableEq

def ManifestProcessExit.isValid (exit : ManifestProcessExit) : Bool :=
  match exit.code, exit.signal with
  | some code, none => 0 ≤ code ∧ code ≤ 255
  | none, some signal => 1 ≤ signal ∧ signal ≤ 127
  | _, _ => false

/-- A registered Splint the source left out because its process had exited. -/
structure ManifestExcludedSplint where
  lairId : LairId
  dojoId : DojoId
  splintId : SplintId
  incarnation : UInt64
  childPid : UInt32
  exit : Option ManifestProcessExit
deriving DecidableEq

/-- A trusted local Window whose connections cross the handoff. -/
structure ManifestWindow where
  index : UInt8
  pid : UInt32
  startTime : UInt64
  clientDevice : UInt64
  clientInode : UInt64
  oldConnections : List UInt64
deriving DecidableEq

structure HandoffManifestV1 where
  schema : UInt16
  kind : ManifestKind
  handoffId : Vector UInt8 16
  sourceGeneration : GenerationEvidence
  targetGeneration : GenerationEvidence
  sourceDaemonGeneration : UInt64
  targetDaemonGeneration : UInt64
  topologyRevision : UInt64
  durableStateGeneration : UInt64
  privateProtocol : UInt16
  handoffProtocol : UInt16
  terminalCheckpointSchema : UInt16
  descriptorManifestSchema : UInt16
  installPrefix : PathBuf
  executablePairs : ExecutablePairSetEvidence
  counterpartManifestSlot : HandoffDescriptorSlot
  splints : List ManifestSplint
  excludedSplints : List ManifestExcludedSplint
  windows : List ManifestWindow
  descriptors : List ManifestDescriptor
deriving DecidableEq

inductive ManifestError where
  | tooLarge
  | encoding
  | nonCanonical
  | invalidSchema
  | invalidIdentity
  | invalidBounds
  | invalidTopology
  | invalidDescriptors
  | invalidRuntime
  | invalidExecutables
  | invalidInstallPrefix
  | invalidWindows
deriving DecidableEq

/-! ## Checks of single records -/

/-- A positive Linux process id. -/
def isLinuxPid (raw : UInt32) : Bool := 0 < raw.toNat ∧ raw.toNat ≤ 0x7FFFFFFF

def validateGeneration (generation : GenerationEvidence) : Except ManifestError Unit := do
  rejectIf (generation.buildIdentity = .replicate 32 0) .invalidIdentity
  rejectIf (generation.buildVersion = ⟨0, 0, 0⟩) .invalidIdentity

variable (manifest : HandoffManifestV1)

/-- `older.checked_add(1)` is none at the top of the range, so no generation follows it. -/
def validateDaemonGenerations : Except ManifestError Unit :=
  let (older, newer) := match manifest.kind with
    | .forward => (manifest.sourceDaemonGeneration, manifest.targetDaemonGeneration)
    | .rollback => (manifest.targetDaemonGeneration, manifest.sourceDaemonGeneration)
  rejectIf (older = 0 ∨ older.toNat + 1 ≠ newer.toNat) .invalidIdentity

/-- A path put together again from its components. -/
def rejoined (path : PathBuf) : PathBuf :=
  let names := (Policy.components path).filterMap fun
    | .rootDir => none
    | .curDir => some [0x2E]
    | .parentDir => some [0x2E, 0x2E]
    | .normal name => some name
  (if Policy.isAbsolute path then [0x2F] else []) ++ List.intercalate [0x2F] names

/-- `validate_install_prefix_path`; only the root and the empty path have no parent. -/
def validateInstallPrefixPath (path : PathBuf) : Except ManifestError Unit :=
  let canonicalForm := ((Policy.components path).all fun
      | .rootDir => true
      | .normal _ => true
      | _ => false) ∧ rejoined path = path
  rejectIf (path = [] ∨ path.length > maxInstallPrefixBytes ∨ 0 ∈ path ∨ ¬ Policy.isAbsolute path ∨ ¬ canonicalForm ∨
    Policy.components path = [] ∨ Policy.components path = [.rootDir]) .invalidInstallPrefix

def validateExecutableImage (image : ManifestExecutableImage) : Except ManifestError Unit :=
  let regularFile := image.sourceMode &&& unixFileTypeMask = unixRegularFile
  rejectIf (image.sourceDevice = 0 ∨ image.sourceInode = 0 ∨ image.snapshotDevice = 0 ∨
    image.snapshotInode = 0 ∨ image.sourceOwnerUid ≠ packagedOwnerUid ∨ ¬ regularFile ∨
    image.sourceMode &&& 0o111 = 0 ∨ image.sourceMode &&& 0o022 ≠ 0 ∨ image.sourceSize = 0 ∨
    image.sourceSize > maxExecutableSnapshotBytes ∨ image.sourceSize ≠ image.snapshotSize ∨
    (image.sourceDevice = image.snapshotDevice ∧ image.sourceInode = image.snapshotInode) ∨
    image.sourceSha256 = .replicate 32 0 ∨ image.sourceSha256 ≠ image.snapshotSha256 ∨
    image.snapshotSeals &&& requiredExecutableSeals ≠ requiredExecutableSeals) .invalidExecutables

def validateExecutablePair (pair : ManifestExecutablePair) : Except ManifestError Unit := do
  validateGeneration pair.generation
  validateExecutableImage pair.daemon
  validateExecutableImage pair.client
  rejectIf (pair.daemon.snapshotDevice = pair.client.snapshotDevice ∧
    pair.daemon.snapshotInode = pair.client.snapshotInode) .invalidExecutables

def validateExecutablePairs : Except ManifestError Unit := do
  let pairs := manifest.executablePairs
  validateExecutablePair pairs.forward
  validateExecutablePair pairs.rollback
  let generationsMatch : Bool := match manifest.kind with
    | .forward => pairs.forward.generation = manifest.targetGeneration ∧
        pairs.rollback.generation = manifest.sourceGeneration
    | .rollback => pairs.forward.generation = manifest.sourceGeneration ∧
        pairs.rollback.generation = manifest.targetGeneration
  rejectIf (¬ generationsMatch) .invalidExecutables

/-! ## Windows -/

structure WindowsSeen where
  indices : List UInt8 := []
  pids : List UInt32 := []
  connections : List UInt64 := []

/-- A connection of a Window: not zero, and not met before. -/
def WindowsSeen.seeConnection (seen : WindowsSeen) (connection : UInt64) : Except ManifestError WindowsSeen := do
  rejectIf (connection = 0 ∨ connection ∈ seen.connections) .invalidWindows
  return { seen with connections := connection :: seen.connections }

/-- One turn of the loop over the Windows; `count` is their number. -/
def WindowsSeen.seeWindow (count : Nat) (seen : WindowsSeen) (window : ManifestWindow) :
    Except ManifestError WindowsSeen := do
  rejectIf (window.index.toNat ≥ count ∨ window.index ∈ seen.indices ∨ ¬ isLinuxPid window.pid ∨
    window.pid ∈ seen.pids ∨ window.startTime = 0 ∨ window.clientDevice = 0 ∨
    window.clientInode = 0 ∨ window.oldConnections = []) .invalidWindows
  let seen := { seen with indices := window.index :: seen.indices, pids := window.pid :: seen.pids }
  window.oldConnections.foldlM WindowsSeen.seeConnection seen

/-- A connection of the Window holds the controller. -/
def heldIn (windows : List ManifestWindow) (window : UInt8) (connection : UInt64) : Bool :=
  windows.any fun record => record.index = window ∧ connection ∈ record.oldConnections

/-- The lease of a Splint, if a connection held it; `leases` are the connections met before. -/
def seeLease (windows : List ManifestWindow) (leases : List UInt64) (splint : ManifestSplint) :
    Except ManifestError (List UInt64) :=
  match splint.controller with
  | .released => .ok leases
  | .heldBy window connection => do
    rejectIf (¬ heldIn windows window connection ∨ connection ∈ leases) .invalidWindows
    return connection :: leases

def validateWindows : Except ManifestError Unit := do
  let _ ← manifest.windows.foldlM (WindowsSeen.seeWindow manifest.windows.length) {}
  let _ ← manifest.splints.foldlM (seeLease manifest.windows) []

/-! ## Descriptors -/

structure DescriptorsSeen where
  slots : List HandoffDescriptorSlot := []
  descriptors : List UInt32 := []

def DescriptorsSeen.seeDescriptor (seen : DescriptorsSeen) (entry : ManifestDescriptor) :
    Except ManifestError DescriptorsSeen := do
  rejectIf (entry.inheritedFd < 3 ∨ entry.inheritedFd > maxInheritedFd ∨ entry.slot ∈ seen.slots ∨
    entry.inheritedFd ∈ seen.descriptors) .invalidDescriptors
  return { slots := entry.slot :: seen.slots, descriptors := entry.inheritedFd :: seen.descriptors }

def globalSlots : List HandoffDescriptorSlot :=
  [.listener, .imageListener, .checkpointManifest, .rollbackManifest, .forwardClient, .rollbackDaemon, .rollbackClient]

/-- The slot of a body that crosses in a descriptor of its own. -/
def BodyDisposition.slots (role : UInt16 → HandoffDescriptorSlot) : BodyDisposition → List HandoffDescriptorSlot
  | descriptor slot => [role slot]
  | _ => []

def ManifestSplint.slots (splint : ManifestSplint) : List HandoffDescriptorSlot :=
  .ptyMaster splint.pty.masterSlot ::
    (splint.terminalCheckpoint.slots .terminalCheckpoint ++ splint.imageState.slots .imageState)

def ManifestWindow.slots (window : ManifestWindow) : List HandoffDescriptorSlot :=
  [.clientProcess window.index, .continuation window.index]

/-- The slots the records call for, repetitions included. -/
def expectedSlots : List HandoffDescriptorSlot :=
  globalSlots ++ manifest.splints.flatMap ManifestSplint.slots ++ manifest.windows.flatMap ManifestWindow.slots

/-- Sets are compared, so a slot called for twice counts once. -/
def sameSet (a b : List HandoffDescriptorSlot) : Bool := a ⊆ b ∧ b ⊆ a

def validateDescriptors : Except ManifestError Unit := do
  let seen ← manifest.descriptors.foldlM DescriptorsSeen.seeDescriptor {}
  rejectIf (¬ sameSet seen.slots (expectedSlots manifest)) .invalidDescriptors

/-! ## Splints -/

structure SplintsSeen where
  splintIds : List SplintId := []
  childPids : List UInt32 := []
  dojoLairs : List (DojoId × LairId) := []
  lairs : List LairId := []
  dojos : List DojoId := []
  ptySlots : List HandoffDescriptorSlot := []
  checkpointSlots : List HandoffDescriptorSlot := []
  imageSlots : List HandoffDescriptorSlot := []

/-- The identity of a Splint, carried or left out: its id and its child are new, and its
Dojo lies in the Lair it lay in before. -/
def SplintsSeen.seeIdentity (seen : SplintsSeen) (lairId : LairId) (dojoId : DojoId)
    (splintId : SplintId) (childPid : UInt32) : Except ManifestError SplintsSeen := do
  rejectIf (splintId ∈ seen.splintIds ∨ childPid ∈ seen.childPids ∨
    (seen.dojoLairs.lookup dojoId).any (· ≠ lairId)) .invalidTopology
  return { seen with
    splintIds := splintId :: seen.splintIds
    childPids := childPid :: seen.childPids
    dojoLairs := (dojoId, lairId) :: seen.dojoLairs
    lairs := seen.lairs.insert lairId
    dojos := seen.dojos.insert dojoId }

/-- A slot of its kind not met before and among the manifest's descriptors. -/
def freshSlot (slot : HandoffDescriptorSlot) (met listed : List HandoffDescriptorSlot) :
    Except ManifestError (List HandoffDescriptorSlot) := do
  rejectIf (slot ∈ met ∨ slot ∉ listed) .invalidDescriptors
  return slot :: met

def SplintsSeen.seePty (listed : List HandoffDescriptorSlot) (seen : SplintsSeen)
    (splint : ManifestSplint) : Except ManifestError SplintsSeen := do
  let ptySlots ← freshSlot (.ptyMaster splint.pty.masterSlot) seen.ptySlots listed
  return { seen with ptySlots }

def SplintsSeen.seeCheckpoint (listed : List HandoffDescriptorSlot) (seen : SplintsSeen)
    (splint : ManifestSplint) : Except ManifestError SplintsSeen :=
  match splint.terminalCheckpoint with
  | .descriptor slot => do
    let checkpointSlots ← freshSlot (.terminalCheckpoint slot) seen.checkpointSlots listed
    return { seen with checkpointSlots }
  | _ => .error .invalidRuntime

/-- Schema 2 keeps the images in the terminal's own body. -/
def SplintsSeen.seeImage (schema : UInt16) (listed : List HandoffDescriptorSlot)
    (seen : SplintsSeen) (splint : ManifestSplint) : Except ManifestError SplintsSeen :=
  match splint.imageState with
  | .notPresent => .ok seen
  | .descriptor slot => do
    rejectIf (schema = terminalCheckpointSchemaV2) .invalidRuntime
    let imageSlots ← freshSlot (.imageState slot) seen.imageSlots listed
    return { seen with imageSlots }
  | .unsupported => .error .invalidRuntime

def validateRuntime (splint : ManifestSplint) : Except ManifestError Unit :=
  rejectIf (splint.incarnation = 0 ∨ ¬ isLinuxPid splint.pty.childPid ∨
    splint.pty.childPid ≠ splint.pty.processGroup ∨ splint.pty.childPid ≠ splint.pty.sessionId ∨
    splint.size.columns = 0 ∨ splint.size.rows = 0 ∨ splint.historyGeneration = 0 ∨
    splint.exit ≠ .running ∨ splint.foregroundProcessGroup.any (¬ isLinuxPid ·)) .invalidRuntime

/-- One turn of the loop over the carried Splints. -/
def SplintsSeen.seeSplint (schema : UInt16) (listed : List HandoffDescriptorSlot)
    (seen : SplintsSeen) (splint : ManifestSplint) : Except ManifestError SplintsSeen := do
  let seen ← seen.seeIdentity splint.lairId splint.dojoId splint.splintId splint.pty.childPid
  let seen ← seen.seePty listed splint
  let seen ← seen.seeCheckpoint listed splint
  let seen ← seen.seeImage schema listed splint
  validateRuntime splint
  return seen

/-- One turn of the loop over the Splints left out. -/
def SplintsSeen.seeExcluded (seen : SplintsSeen) (excluded : ManifestExcludedSplint) :
    Except ManifestError SplintsSeen := do
  let seen ← seen.seeIdentity excluded.lairId excluded.dojoId excluded.splintId excluded.childPid
  rejectIf (excluded.incarnation = 0 ∨ ¬ isLinuxPid excluded.childPid ∨ excluded.exit.any (¬ ·.isValid)) .invalidRuntime
  return seen

def validateSplints : Except ManifestError Unit := do
  let listed := manifest.descriptors.map (·.slot)
  let seen ← manifest.splints.foldlM
    (SplintsSeen.seeSplint manifest.terminalCheckpointSchema listed) {}
  let seen ← manifest.excludedSplints.foldlM SplintsSeen.seeExcluded seen
  rejectIf (seen.lairs.length > maxManifestLairs ∨ seen.dojos.length > maxManifestDojos)
    .invalidBounds

/-! ## The manifest -/

def validateManifest : Except ManifestError Unit := do
  rejectIf (manifest.schema ≠ handoffManifestSchemaV1 ∨ manifest.handoffId = .replicate 16 0 ∨
    manifest.privateProtocol = 0 ∨ manifest.handoffProtocol = 0 ∨ manifest.terminalCheckpointSchema = 0 ∨
    manifest.descriptorManifestSchema ≠ handoffManifestSchemaV1) .invalidSchema
  validateGeneration manifest.sourceGeneration
  validateGeneration manifest.targetGeneration
  rejectIf (manifest.sourceGeneration = manifest.targetGeneration) .invalidIdentity
  validateDaemonGenerations manifest
  validateInstallPrefixPath manifest.installPrefix
  rejectIf (manifest.splints.length > maxManifestSplints ∨ manifest.excludedSplints.length > maxManifestSplints ∨
    manifest.splints.length + manifest.excludedSplints.length > maxManifestSplints ∨
    manifest.descriptors.length > maxHandoffDescriptors ∨ manifest.windows.length > maxManifestWindows ∨
    (manifest.windows.map (·.oldConnections.length)).sum > maxManifestWindowConnections)
    .invalidBounds
  validateExecutablePairs manifest
  validateWindows manifest
  validateDescriptors manifest
  validateSplints manifest
  match manifest.kind, manifest.counterpartManifestSlot with
  | .forward, .rollbackManifest => .ok ()
  | .rollback, .checkpointManifest => .ok ()
  | _, _ => .error .invalidDescriptors

/-! ## The canonical form -/

/-- Third-party code: the JSON of a manifest, and the text of a UUID. -/
structure Codec where
  toVec : HandoffManifestV1 → Option (List UInt8)
  fromSlice : List UInt8 → Option HandoffManifestV1
  uuidText : Nat → String

section Codec

variable (codec : Codec)

/-- The key of a Splint: the texts of its Lair, its Dojo and its own id. -/
def Codec.sortKey (lairId : LairId) (dojoId : DojoId) (splintId : SplintId) : String ×ₗ String ×ₗ String :=
  toLex (codec.uuidText lairId.uuid, toLex (codec.uuidText dojoId.uuid, codec.uuidText splintId.uuid))

def Codec.splintSortKey (splint : ManifestSplint) : String ×ₗ String ×ₗ String :=
  codec.sortKey splint.lairId splint.dojoId splint.splintId

def Codec.excludedSplintSortKey (splint : ManifestExcludedSplint) : String ×ₗ String ×ₗ String :=
  codec.sortKey splint.lairId splint.dojoId splint.splintId

def canonicalWindow (window : ManifestWindow) : ManifestWindow :=
  { window with oldConnections := sortByKey UInt64.toNat window.oldConnections }

/-- Windows by index, each with its connections ascending. -/
def canonicalWindows (windows : List ManifestWindow) : List ManifestWindow :=
  (sortByKey (fun window => window.index.toNat) windows).map canonicalWindow

/-- The manifest with its lists in canonical order. -/
def Codec.canonical (manifest : HandoffManifestV1) : HandoffManifestV1 :=
  { manifest with
    splints := sortByKey codec.splintSortKey manifest.splints
    excludedSplints := sortByKey codec.excludedSplintSortKey manifest.excludedSplints
    windows := canonicalWindows manifest.windows
    descriptors := sortByKey (fun entry => entry.slot.order) manifest.descriptors }

def Codec.encodeManifest (manifest : HandoffManifestV1) : Except ManifestError (List UInt8) := do
  let canonical := codec.canonical manifest
  validateManifest canonical
  match codec.toVec canonical with
  | none => .error .encoding
  | some bytes => do
    rejectIf (bytes.length > maxHandoffManifestBytes) .tooLarge
    return bytes

def Codec.decodeManifest (bytes : List UInt8) : Except ManifestError HandoffManifestV1 := do
  rejectIf (bytes.length > maxHandoffManifestBytes) .tooLarge
  match codec.fromSlice bytes with
  | none => .error .encoding
  | some manifest => do
    let again ← codec.encodeManifest manifest
    rejectIf (again ≠ bytes) .nonCanonical
    return manifest

end Codec

end Splinterm.Handoff
