import Splinterm.Handoff.Manifest

/-!
# The canonical form of a manifest, and who owns what in it

Encoding sorts before it checks. On a manifest that passes the checks the sort keys tell
the entries apart, so the arrangement of the lists that encoding was given is lost in the
bytes. What the three loops of the checks record in their sets makes every descriptor
number, slot, Splint, child and connection of an accepted manifest the property of one
record.
-/

namespace Splinterm.Handoff

open Core Lib Hoare List Except

/-! ## What the loops record -/

theorem takes_seeConnection :
    Takes WindowsSeen.connections (fun connection => [connection]) WindowsSeen.seeConnection := by
  intro seen connection seen' h
  obtain ⟨hfresh, rfl⟩ := checked_eq_ok.mp h
  exact .one (not_or.mp hfresh).2

theorem seeConnections_indices {connections : List UInt64} {seen seen' : WindowsSeen}
    (h : connections.foldlM WindowsSeen.seeConnection seen = .ok seen') : seen'.indices = seen.indices := by
  refine foldlM_keeps (p := fun s => s.indices = seen.indices) (fun _ _ _ _ hkept hstep => ?_) h rfl
  obtain ⟨-, rfl⟩ := checked_eq_ok.mp hstep
  exact hkept

theorem takes_seeWindow_index (count : Nat) :
    Takes WindowsSeen.indices (fun window => [window.index]) (WindowsSeen.seeWindow count) := by
  intro seen window seen' h
  obtain ⟨_, hfresh, h⟩ := bind_eq_ok.mp h
  rw [rejectIf_eq_ok] at hfresh
  rw [seeConnections_indices h]
  exact .one fun hmem => hfresh (.inr (.inl hmem))

theorem takes_seeWindow_connections (count : Nat) :
    Takes WindowsSeen.connections ManifestWindow.oldConnections (WindowsSeen.seeWindow count) := by
  intro seen window seen' h
  obtain ⟨_, -, h⟩ := bind_eq_ok.mp h
  have hadded := takes_seeConnection.foldlM h
  rwa [flatMap_singleton'] at hadded

def ManifestSplint.lease (splint : ManifestSplint) : List UInt64 :=
  match splint.controller with
  | .released => []
  | .heldBy _ connection => [connection]

theorem takes_seeLease (windows : List ManifestWindow) : Takes id ManifestSplint.lease (seeLease windows) := by
  intro leases splint leases' h
  unfold seeLease at h
  unfold ManifestSplint.lease
  cases hcontroller : splint.controller with
  | released =>
    rw [hcontroller, ok.injEq] at h
    exact h ▸ .nothing _
  | heldBy window connection =>
    rw [hcontroller] at h
    obtain ⟨hfresh, rfl⟩ := checked_eq_ok.mp h
    exact .one (not_or.mp hfresh).2

theorem takes_seeDescriptor_slot :
    Takes DescriptorsSeen.slots (fun entry => [entry.slot]) DescriptorsSeen.seeDescriptor := by
  intro seen entry seen' h
  obtain ⟨hfresh, rfl⟩ := checked_eq_ok.mp h
  exact .one fun hmem => hfresh (.inr (.inr (.inl hmem)))

theorem takes_seeDescriptor_fd : Takes DescriptorsSeen.descriptors (fun entry => [entry.inheritedFd])
      DescriptorsSeen.seeDescriptor := by
  intro seen entry seen' h
  obtain ⟨hfresh, rfl⟩ := checked_eq_ok.mp h
  exact .one fun hmem => hfresh (.inr (.inr (.inr hmem)))

variable {slot : HandoffDescriptorSlot} {listed : List HandoffDescriptorSlot}

theorem added_freshSlot {met met' : List HandoffDescriptorSlot}
    (h : freshSlot slot met listed = .ok met') : Added met [slot] met' := by
  obtain ⟨hfresh, rfl⟩ := checked_eq_ok.mp h
  exact .one (not_or.mp hfresh).1

/-- What a turn over a Splint adds to the identities. -/
structure Identified (seen seen' : SplintsSeen) (splintId : SplintId) (childPid : UInt32) : Prop where
  splintIds : Added seen.splintIds [splintId] seen'.splintIds
  childPids : Added seen.childPids [childPid] seen'.childPids

variable {seen seen' : SplintsSeen}

theorem identified_seeIdentity {lairId : LairId} {dojoId : DojoId} {splintId : SplintId} {childPid : UInt32}
    (h : seen.seeIdentity lairId dojoId splintId childPid = .ok seen') : Identified seen seen' splintId childPid := by
  obtain ⟨hfresh, rfl⟩ := checked_eq_ok.mp h
  rw [not_or, not_or] at hfresh
  exact ⟨.one hfresh.1, .one hfresh.2.1⟩

variable {splint : ManifestSplint}

theorem seePty_eq_ok (h : seen.seePty listed splint = .ok seen') :
    ∃ ptySlots, Added seen.ptySlots [.ptyMaster splint.pty.masterSlot] ptySlots ∧ seen' = { seen with ptySlots } := by
  obtain ⟨ptySlots, hslot, h⟩ := bind_eq_ok.mp h
  exact ⟨_, added_freshSlot hslot, (ok.inj h).symm⟩

theorem seeCheckpoint_eq_ok (h : seen.seeCheckpoint listed splint = .ok seen') :
    ∃ checkpointSlots, Added seen.checkpointSlots
        (splint.terminalCheckpoint.slots .terminalCheckpoint) checkpointSlots ∧
      seen' = { seen with checkpointSlots } := by
  unfold SplintsSeen.seeCheckpoint at h
  cases hbody : splint.terminalCheckpoint with
  | descriptor slot =>
    rw [hbody] at h
    obtain ⟨checkpointSlots, hslot, h⟩ := bind_eq_ok.mp h
    exact ⟨_, added_freshSlot hslot, (ok.inj h).symm⟩
  | notPresent | unsupported => simp [hbody] at h

theorem seeImage_eq_ok {schema : UInt16} (h : seen.seeImage schema listed splint = .ok seen') :
    ∃ imageSlots, Added seen.imageSlots (splint.imageState.slots .imageState) imageSlots ∧
      seen' = { seen with imageSlots } := by
  unfold SplintsSeen.seeImage at h
  cases hbody : splint.imageState with
  | descriptor slot =>
    rw [hbody] at h
    obtain ⟨_, -, h⟩ := bind_eq_ok.mp h
    obtain ⟨imageSlots, hslot, h⟩ := bind_eq_ok.mp h
    exact ⟨_, added_freshSlot hslot, (ok.inj h).symm⟩
  | notPresent =>
    rw [hbody, ok.injEq] at h
    exact ⟨_, .nothing _, h.symm⟩
  | unsupported => simp [hbody] at h

/-- What a turn over a carried Splint adds. -/
structure Recorded (seen seen' : SplintsSeen) (splint : ManifestSplint) : Prop
    extends Identified seen seen' splint.splintId splint.pty.childPid where
  ptySlots : Added seen.ptySlots [.ptyMaster splint.pty.masterSlot] seen'.ptySlots
  checkpointSlots : Added seen.checkpointSlots
    (splint.terminalCheckpoint.slots .terminalCheckpoint) seen'.checkpointSlots
  imageSlots : Added seen.imageSlots (splint.imageState.slots .imageState) seen'.imageSlots

theorem recorded_seeSplint {schema : UInt16}
    (h : seen.seeSplint schema listed splint = .ok seen') : Recorded seen seen' splint := by
  obtain ⟨seen₁, hidentity, h⟩ := bind_eq_ok.mp h
  obtain ⟨seen₂, hpty, h⟩ := bind_eq_ok.mp h
  obtain ⟨seen₃, hcheckpoint, h⟩ := bind_eq_ok.mp h
  obtain ⟨seen₄, himage, h⟩ := bind_eq_ok.mp h
  obtain ⟨_, -, h⟩ := bind_eq_ok.mp h
  obtain rfl := ok.inj h
  obtain ⟨splintIds, childPids⟩ := identified_seeIdentity hidentity
  obtain ⟨-, rfl⟩ := checked_eq_ok.mp hidentity
  obtain ⟨_, ptySlots, rfl⟩ := seePty_eq_ok hpty
  obtain ⟨_, checkpointSlots, rfl⟩ := seeCheckpoint_eq_ok hcheckpoint
  obtain ⟨_, imageSlots, rfl⟩ := seeImage_eq_ok himage
  exact ⟨⟨splintIds, childPids⟩, ptySlots, checkpointSlots, imageSlots⟩

theorem identified_seeExcluded {excluded : ManifestExcludedSplint} (h : seen.seeExcluded excluded = .ok seen') :
    Identified seen seen' excluded.splintId excluded.childPid := by
  obtain ⟨seen₁, hidentity, h⟩ := bind_eq_ok.mp h
  obtain ⟨_, -, h⟩ := bind_eq_ok.mp h
  obtain rfl := ok.inj h
  exact identified_seeIdentity hidentity

/-! ## Exclusive ownership -/

/-- What a descriptor may be for: a fixed global role, the PTY, the checkpoint or the image
body of a carried Splint, or the process or the continuation end of a Window. -/
inductive Purpose where
  | role (slot : HandoffDescriptorSlot)
  | pty (splint : ManifestSplint)
  | checkpoint (splint : ManifestSplint)
  | image (splint : ManifestSplint)
  | process (window : ManifestWindow)
  | continuation (window : ManifestWindow)

/-- The purpose is one of this manifest and has the slot. -/
def Owns (manifest : HandoffManifestV1) : Purpose → HandoffDescriptorSlot → Prop
  | .role role, slot => role ∈ globalSlots ∧ slot = role
  | .pty splint, slot => splint ∈ manifest.splints ∧ slot = .ptyMaster splint.pty.masterSlot
  | .checkpoint splint, slot => splint ∈ manifest.splints ∧ slot ∈ splint.terminalCheckpoint.slots .terminalCheckpoint
  | .image splint, slot => splint ∈ manifest.splints ∧ slot ∈ splint.imageState.slots .imageState
  | .process window, slot => window ∈ manifest.windows ∧ slot = .clientProcess window.index
  | .continuation window, slot => window ∈ manifest.windows ∧ slot = .continuation window.index

/-- Nothing in the manifest belongs to two records. -/
structure Exclusive (manifest : HandoffManifestV1) : Prop where
  descriptors : (manifest.descriptors.map (·.inheritedFd)).Nodup
  slots : (manifest.descriptors.map (·.slot)).Nodup
  purposes : ∀ entry ∈ manifest.descriptors, ∃! purpose, Owns manifest purpose entry.slot
  splintIds : (manifest.splints.map (·.splintId) ++ manifest.excludedSplints.map (·.splintId)).Nodup
  childPids : (manifest.splints.map (·.pty.childPid) ++ manifest.excludedSplints.map (·.childPid)).Nodup
  indices : (manifest.windows.map (·.index)).Nodup
  connections : (manifest.windows.flatMap (·.oldConnections)).Nodup
  leases : (manifest.splints.flatMap ManifestSplint.lease).Nodup

/-- What the checks of the lists leave. -/
structure Checked (manifest : HandoffManifestV1) : Prop where
  windows : validateWindows manifest = .ok ()
  descriptors : validateDescriptors manifest = .ok ()
  splints : validateSplints manifest = .ok ()

variable {manifest : HandoffManifestV1} {window window' : ManifestWindow}

theorem checked_of_validateManifest (h : validateManifest manifest = .ok ()) : Checked manifest := by
  simp only [validateManifest, bind_eq_ok] at h
  obtain ⟨_, -, _, -, _, -, _, -, _, -, _, -, _, -, _, -, _, hwindows, _, hdescriptors, _, hsplints, -⟩ := h
  exact ⟨hwindows, hdescriptors, hsplints⟩

theorem mem_bodySlots {role : UInt16 → HandoffDescriptorSlot} {body : BodyDisposition} :
    slot ∈ body.slots role ↔ ∃ n, body = .descriptor n ∧ slot = role n := by
  cases body <;> simp [BodyDisposition.slots]

/-- The kind of purpose a slot can serve. -/
def HandoffDescriptorSlot.kind : HandoffDescriptorSlot → Fin 6
  | ptyMaster _ => 1
  | terminalCheckpoint _ => 2
  | imageState _ => 3
  | clientProcess _ => 4
  | continuation _ => 5
  | _ => 0

def Purpose.kind : Purpose → Fin 6
  | role _ => 0
  | pty _ => 1
  | checkpoint _ => 2
  | image _ => 3
  | process _ => 4
  | continuation _ => 5

theorem Owns.kind {purpose : Purpose} (h : Owns manifest purpose slot) : slot.kind = purpose.kind := by
  cases purpose with
  | role role =>
    obtain ⟨hrole, rfl⟩ := h
    revert slot
    decide
  | pty | process | continuation =>
    obtain ⟨-, rfl⟩ := h
    rfl
  | checkpoint | image =>
    obtain ⟨n, -, rfl⟩ := mem_bodySlots.mp h.2
    rfl

namespace Checked

variable (h : Checked manifest)

include h

theorem indices : (manifest.windows.map (·.index)).Nodup := by
  obtain ⟨seen, hseen, -⟩ := bind_eq_ok.mp h.windows
  rw [map_eq_flatMap]
  exact (takes_seeWindow_index _).nodup hseen rfl

theorem connections : (manifest.windows.flatMap (·.oldConnections)).Nodup := by
  obtain ⟨seen, hseen, -⟩ := bind_eq_ok.mp h.windows
  exact (takes_seeWindow_connections _).nodup hseen rfl

theorem leases : (manifest.splints.flatMap ManifestSplint.lease).Nodup := by
  obtain ⟨_, -, hleases⟩ := bind_eq_ok.mp h.windows
  obtain ⟨seen, hseen, -⟩ := bind_eq_ok.mp hleases
  exact (takes_seeLease _).nodup hseen rfl

theorem slots : (manifest.descriptors.map (·.slot)).Nodup := by
  obtain ⟨seen, hseen, -⟩ := bind_eq_ok.mp h.descriptors
  rw [map_eq_flatMap]
  exact takes_seeDescriptor_slot.nodup hseen rfl

theorem fds : (manifest.descriptors.map (·.inheritedFd)).Nodup := by
  obtain ⟨seen, hseen, -⟩ := bind_eq_ok.mp h.descriptors
  rw [map_eq_flatMap]
  exact takes_seeDescriptor_fd.nodup hseen rfl

/-- Every listed slot is called for by a record. -/
theorem mem_expectedSlots {entry : ManifestDescriptor}
    (hentry : entry ∈ manifest.descriptors) : entry.slot ∈ expectedSlots manifest := by
  obtain ⟨seen, hseen, hsame⟩ := bind_eq_ok.mp h.descriptors
  rw [rejectIf_eq_ok, not_not] at hsame
  have hsubset : seen.slots ⊆ expectedSlots manifest := (of_decide_eq_true hsame).1
  obtain ⟨-, hperm⟩ := takes_seeDescriptor_slot.foldlM hseen nodup_nil
  apply hsubset
  rw [hperm.mem_iff, append_nil, ← map_eq_flatMap]
  exact mem_map_of_mem hentry

/-- The second loop goes on with the identities the first recorded. -/
theorem identities {κ : Type} {held : SplintsSeen → List κ}
    {carried : ManifestSplint → κ} {left : ManifestExcludedSplint → κ} (hempty : held {} = [])
    (hcarried : ∀ seen splint seen', Recorded seen seen' splint → Added (held seen) [carried splint] (held seen'))
    (hleft : ∀ seen excluded seen', Identified seen seen' excluded.splintId excluded.childPid →
      Added (held seen) [left excluded] (held seen')) :
    (manifest.splints.map carried ++ manifest.excludedSplints.map left).Nodup := by
  obtain ⟨seen, hseen, h⟩ := bind_eq_ok.mp h.splints
  obtain ⟨seen', hseen', -⟩ := bind_eq_ok.mp h
  have hfirst := Takes.foldlM (fun _ _ _ h => hcarried _ _ _ (recorded_seeSplint h)) hseen
  have hsecond := Takes.foldlM (fun _ _ _ h => hleft _ _ _ (identified_seeExcluded h)) hseen'
  obtain ⟨hnodup, hperm⟩ := hfirst (by rw [hempty]; exact nodup_nil)
  obtain ⟨hnodup', hperm'⟩ := hsecond hnodup
  rw [hempty, append_nil] at hperm
  rw [map_eq_flatMap, map_eq_flatMap]
  have hall := hperm'.trans ((hperm.append_left _).trans perm_append_comm)
  exact hall.nodup_iff.mp hnodup'

theorem owns_unique {slot : HandoffDescriptorSlot} {p q : Purpose}
    (hp : Owns manifest p slot) (hq : Owns manifest q slot) : p = q := by
  have hkind : p.kind = q.kind := hp.kind.symm.trans hq.kind
  obtain ⟨seen, hseen, -⟩ := bind_eq_ok.mp h.splints
  -- purposes of two kinds never share a slot, so only the diagonal is left
  cases p <;> cases q <;> simp [Purpose.kind] at hkind
  case role.role => exact congrArg Purpose.role (hp.2.symm.trans hq.2)
  case pty.pty =>
    obtain ⟨hmem, rfl⟩ := hp
    have hnodup := Takes.nodup (fun _ _ _ h => (recorded_seeSplint h).ptySlots) hseen rfl
    exact congrArg _ (eq_of_mem_names hnodup hmem hq.1 mem_cons_self (mem_singleton.mpr hq.2))
  case checkpoint.checkpoint =>
    have hnodup := Takes.nodup (fun _ _ _ h => (recorded_seeSplint h).checkpointSlots) hseen rfl
    exact congrArg _ (eq_of_mem_names hnodup hp.1 hq.1 hp.2 hq.2)
  case image.image =>
    have hnodup := Takes.nodup (fun _ _ _ h => (recorded_seeSplint h).imageSlots) hseen rfl
    exact congrArg _ (eq_of_mem_names hnodup hp.1 hq.1 hp.2 hq.2)
  case process.process =>
    obtain ⟨hmem, rfl⟩ := hp
    exact congrArg _ (inj_on_of_nodup_map h.indices hmem hq.1 (HandoffDescriptorSlot.clientProcess.inj hq.2))
  case continuation.continuation =>
    obtain ⟨hmem, rfl⟩ := hp
    exact congrArg _ (inj_on_of_nodup_map h.indices hmem hq.1 (HandoffDescriptorSlot.continuation.inj hq.2))

omit h in
theorem owns_exists {slot : HandoffDescriptorSlot} (h : slot ∈ expectedSlots manifest) :
    ∃ purpose, Owns manifest purpose slot := by
  rcases mem_append.mp h with h | h
  · rcases mem_append.mp h with h | h
    · exact ⟨.role slot, h, rfl⟩
    · obtain ⟨splint, hsplint, h⟩ := mem_flatMap.mp h
      rcases mem_cons.mp h with h | h
      · exact ⟨.pty splint, hsplint, h⟩
      · rcases mem_append.mp h with h | h
        · exact ⟨.checkpoint splint, hsplint, h⟩
        · exact ⟨.image splint, hsplint, h⟩
  · obtain ⟨window, hwindow, h⟩ := mem_flatMap.mp h
    rcases mem_cons.mp h with h | h
    · exact ⟨.process window, hwindow, h⟩
    · exact ⟨.continuation window, hwindow, mem_singleton.mp h⟩

theorem exclusive : Exclusive manifest where
  descriptors := h.fds
  slots := h.slots
  purposes entry hentry := by
    obtain ⟨purpose, howns⟩ := owns_exists (h.mem_expectedSlots hentry)
    exact ⟨purpose, howns, fun other hother => h.owns_unique hother howns⟩
  splintIds := h.identities rfl (fun _ _ _ hrec => hrec.splintIds) fun _ _ _ hid => hid.splintIds
  childPids := h.identities rfl (fun _ _ _ hrec => hrec.childPids) fun _ _ _ hid => hid.childPids
  indices := h.indices
  connections := h.connections
  leases := h.leases

end Checked

/-! ## The canonical form -/

/-- One Window, its connections in another order. -/
structure SameWindow (window window' : ManifestWindow) : Prop where
  connections : window.oldConnections.Perm window'.oldConnections
  rest : { window with oldConnections := window'.oldConnections } = window'

/-- One manifest, its lists and the connections of its Windows in another order. -/
structure Reordered (manifest manifest' : HandoffManifestV1) : Prop where
  splints : manifest.splints.Perm manifest'.splints
  excludedSplints : manifest.excludedSplints.Perm manifest'.excludedSplints
  windows : ∃ arranged, manifest.windows.Perm arranged ∧ arranged.Forall₂ SameWindow manifest'.windows
  descriptors : manifest.descriptors.Perm manifest'.descriptors
  rest : { manifest with
    splints := manifest'.splints
    excludedSplints := manifest'.excludedSplints
    windows := manifest'.windows
    descriptors := manifest'.descriptors } = manifest'

/-- Reading gives back what was written, and two identifiers have two texts. -/
structure Codec.Lawful (codec : Codec) : Prop where
  roundTrip : ∀ manifest bytes, codec.toVec manifest = some bytes → codec.fromSlice bytes = some manifest
  texts : Function.Injective codec.uuidText

theorem HandoffDescriptorSlot.order_injective : Function.Injective order := by
  intro slot slot' h
  -- the place tells the variants apart, the payload two slots of one variant
  cases slot <;> cases slot' <;> simp [order, UInt16.toNat_inj, UInt8.toNat_inj] at h ⊢ <;> exact h

theorem SameWindow.canonical (h : SameWindow window window') : canonicalWindow window = canonicalWindow window' := by
  have hsort : sortByKey UInt64.toNat window.oldConnections = sortByKey UInt64.toNat window'.oldConnections :=
    sortByKey_eq_of_perm h.connections fun _ _ _ _ heq => UInt64.toNat_inj.mp heq
  rw [← h.rest, canonicalWindow, canonicalWindow, hsort]

theorem canonicalWindows_eq (windows : List ManifestWindow) : canonicalWindows windows =
      sortByKey (fun window => window.index.toNat) (windows.map canonicalWindow) :=
  map_sortByKey (f := canonicalWindow) (fun _ => rfl) windows

theorem canonicalWindow_idem (window : ManifestWindow) :
    canonicalWindow (canonicalWindow window) = canonicalWindow window := by
  simp only [canonicalWindow, sortByKey_idem]

theorem canonicalWindows_idem (windows : List ManifestWindow) :
    canonicalWindows (canonicalWindows windows) = canonicalWindows windows := by
  rw [canonicalWindows_eq (canonicalWindows windows), canonicalWindows, map_map]
  have hmap : (canonicalWindow ∘ canonicalWindow) = canonicalWindow := funext canonicalWindow_idem
  rw [hmap, ← canonicalWindows, canonicalWindows_eq, sortByKey_idem]

namespace Codec

variable {codec : Codec}

theorem canonical_idem (manifest : HandoffManifestV1) :
    codec.canonical (codec.canonical manifest) = codec.canonical manifest := by
  simp only [canonical, sortByKey_idem, canonicalWindows_idem]

variable {manifest : HandoffManifestV1} {bytes : List UInt8}

theorem encodeManifest_eq_ok : codec.encodeManifest manifest = .ok bytes ↔
      validateManifest (codec.canonical manifest) = .ok () ∧
      codec.toVec (codec.canonical manifest) = some bytes ∧ bytes.length ≤ maxHandoffManifestBytes := by
  unfold encodeManifest
  simp only [bind_eq_ok]
  cases hvec : codec.toVec (codec.canonical manifest) with
  | none => simp
  | some vec =>
    simp only [bind_eq_ok, rejectIf_eq_ok, not_lt, pure, Except.pure, ok.injEq, Option.some.injEq]
    constructor
    · rintro ⟨_, hvalid, _, hlength, rfl⟩
      exact ⟨hvalid, rfl, hlength⟩
    · rintro ⟨hvalid, rfl, hlength⟩
      exact ⟨(), hvalid, (), hlength, rfl⟩

/-- The keys tell the Splints apart. -/
theorem splintId_of_sortKey (hlawful : codec.Lawful) {lairId lairId' : LairId} {dojoId dojoId' : DojoId}
    {splintId splintId' : SplintId}
    (h : codec.sortKey lairId dojoId splintId = codec.sortKey lairId' dojoId' splintId') : splintId = splintId' := by
  have hrest := congrArg Prod.snd (toLex.injective h)
  have htext : codec.uuidText splintId.uuid = codec.uuidText splintId'.uuid :=
    congrArg Prod.snd (toLex.injective hrest)
  have huuid := hlawful.texts htext
  exact congrArg SplintId.mk huuid

/-- Of two arrangements of a manifest, one of which passes the checks, the canonical forms
are equal. -/
theorem canonical_eq (hlawful : codec.Lawful) {manifest' : HandoffManifestV1}
    (h : Reordered manifest manifest') (hvalid : Exclusive (codec.canonical manifest)) :
    codec.canonical manifest = codec.canonical manifest' := by
  obtain ⟨arranged, hperm, hsame⟩ := h.windows
  have hids := (nodup_append.mp hvalid.splintIds)
  have hsplints : sortByKey codec.splintSortKey manifest.splints = sortByKey codec.splintSortKey manifest'.splints :=
    sortByKey_eq_of_nodup h.splints hids.1 fun _ _ => splintId_of_sortKey hlawful
  have hexcluded : sortByKey codec.excludedSplintSortKey manifest.excludedSplints =
      sortByKey codec.excludedSplintSortKey manifest'.excludedSplints :=
    sortByKey_eq_of_nodup h.excludedSplints hids.2.1 fun _ _ => splintId_of_sortKey hlawful
  have hdescriptors : sortByKey (fun entry : ManifestDescriptor => entry.slot.order)
      manifest.descriptors = sortByKey (fun entry => entry.slot.order) manifest'.descriptors :=
    sortByKey_eq_of_nodup h.descriptors hvalid.slots fun _ _ hab => HandoffDescriptorSlot.order_injective hab
  have hwindows : canonicalWindows manifest.windows = canonicalWindows manifest'.windows := by
    have harranged : arranged.map canonicalWindow = manifest'.windows.map canonicalWindow := forall₂_eq_eq_eq ▸
        (forall₂_map_left_iff.mpr (forall₂_map_right_iff.mpr (hsame.imp fun _ _ hab => hab.canonical)))
    have hnodup : ((canonicalWindows manifest.windows).map (·.index)).Nodup := hvalid.indices
    rw [canonicalWindows_eq] at hnodup
    rw [canonicalWindows_eq, canonicalWindows_eq, ← harranged]
    exact sortByKey_eq_of_nodup (hperm.map _) hnodup fun _ _ hab => UInt8.toNat_inj.mp hab
  rw [← h.rest]
  simp only [canonical, hsplints, hexcluded, hwindows, hdescriptors]

theorem exclusive_of_encode (h : codec.encodeManifest manifest = .ok bytes) : Exclusive (codec.canonical manifest) :=
  (checked_of_validateManifest (encodeManifest_eq_ok.mp h).1).exclusive

theorem encode_of_reordered (hlawful : codec.Lawful) {manifest' : HandoffManifestV1}
    (hreordered : Reordered manifest manifest') (h : codec.encodeManifest manifest = .ok bytes) :
    codec.encodeManifest manifest' = .ok bytes := by
  rw [encodeManifest_eq_ok, ← canonical_eq hlawful hreordered (exclusive_of_encode h)]
  exact encodeManifest_eq_ok.mp h

theorem decodeManifest_eq_ok : codec.decodeManifest bytes = .ok manifest ↔ bytes.length ≤ maxHandoffManifestBytes ∧
      codec.fromSlice bytes = some manifest ∧ codec.encodeManifest manifest = .ok bytes := by
  unfold decodeManifest
  simp only [bind_eq_ok, rejectIf_eq_ok, not_lt]
  cases hread : codec.fromSlice bytes with
  | none => simp
  | some read =>
    simp only [bind_eq_ok, rejectIf_eq_ok, not_not, pure, Except.pure, ok.injEq, Option.some.injEq]
    constructor
    · rintro ⟨_, hlength, again, hagain, _, rfl, rfl⟩
      exact ⟨hlength, rfl, hagain⟩
    · rintro ⟨hlength, rfl, hagain⟩
      exact ⟨(), hlength, bytes, hagain, (), rfl, rfl⟩

theorem decode_iff_encode (hlawful : codec.Lawful) : codec.decodeManifest bytes = .ok manifest ↔
      ∃ given, codec.encodeManifest given = .ok bytes ∧ manifest = codec.canonical given := by
  rw [decodeManifest_eq_ok]
  constructor
  · rintro ⟨-, hread, hencode⟩
    refine ⟨manifest, hencode, ?_⟩
    have hround := hlawful.roundTrip _ _ (encodeManifest_eq_ok.mp hencode).2.1
    exact Option.some.inj (hread.symm.trans hround)
  · rintro ⟨given, hencode, rfl⟩
    obtain ⟨hvalid, hvec, hlength⟩ := encodeManifest_eq_ok.mp hencode
    refine ⟨hlength, hlawful.roundTrip _ _ hvec, encodeManifest_eq_ok.mpr ?_⟩
    rw [canonical_idem]
    exact ⟨hvalid, hvec, hlength⟩

end Codec

theorem SameWindow.symm (h : SameWindow window window') : SameWindow window' window :=
  ⟨h.connections.symm, by rw [← h.rest]⟩

theorem Reordered.symm {manifest' : HandoffManifestV1} (h : Reordered manifest manifest') :
    Reordered manifest' manifest where
  splints := h.splints.symm
  excludedSplints := h.excludedSplints.symm
  windows := by
    obtain ⟨arranged, hperm, hsame⟩ := h.windows
    obtain ⟨arranged', hsame', hperm'⟩ := perm_comp_forall₂ hperm hsame
    exact ⟨arranged', hperm'.symm, (hsame'.imp fun _ _ hab => hab.symm).flip⟩
  descriptors := h.descriptors.symm
  rest := by rw [← h.rest]

/-- A manifest has one encoded form: the order of its lists does not reach the bytes, only
encoded forms decode, to the manifest in canonical order, and in what decodes nothing has two
owners. -/
theorem manifest_has_one_form (codec : Codec) (hlawful : codec.Lawful) :
    (∀ manifest manifest' bytes, Reordered manifest manifest' →
      (codec.encodeManifest manifest = .ok bytes ↔ codec.encodeManifest manifest' = .ok bytes)) ∧
    (∀ bytes manifest, codec.decodeManifest bytes = .ok manifest ↔
      ∃ given, codec.encodeManifest given = .ok bytes ∧ manifest = codec.canonical given) ∧
    ∀ bytes manifest, codec.decodeManifest bytes = .ok manifest → Exclusive manifest := by
  refine ⟨fun manifest manifest' bytes h => ⟨?_, ?_⟩, fun bytes manifest => ?_, fun bytes manifest h => ?_⟩
  · exact Codec.encode_of_reordered hlawful h
  · exact Codec.encode_of_reordered hlawful h.symm
  · exact Codec.decode_iff_encode hlawful
  · obtain ⟨given, hencode, rfl⟩ := (Codec.decode_iff_encode hlawful).mp h
    exact Codec.exclusive_of_encode hencode

/-! An operation that carries two Splints and two Windows. -/

def sampleGeneration (n : UInt8) : GenerationEvidence := ⟨.replicate 32 n, ⟨0, n.toUInt16, 0⟩⟩

def sampleImage (inode : UInt64) : ManifestExecutableImage :=
  ⟨1, inode, 0, 0o100755, 10, .replicate 32 3, 2, inode, 10, .replicate 32 3, 0xF⟩

def samplePair (n : UInt8) (inode : UInt64) : ManifestExecutablePair :=
  ⟨sampleImage inode, sampleImage (inode + 1), sampleGeneration n⟩

def sampleSplint (id : Nat) (pid : UInt32) (slot : UInt16) (controller : ControllerDisposition) : ManifestSplint :=
  ⟨⟨1⟩, ⟨2⟩, ⟨id⟩, 1, ⟨pid, pid, pid, slot⟩, ⟨80, 24, 0, 0⟩, none, 4, 1, .running,
    .descriptor slot, .notPresent, controller, .dropped⟩

/-- The lists as given; everything else is fixed. -/
def sampleOf (splints : List ManifestSplint) (windows : List ManifestWindow)
    (descriptors : List ManifestDescriptor) : HandoffManifestV1 :=
  ⟨1, .forward, .replicate 16 1, sampleGeneration 1, sampleGeneration 2, 1, 2, 5, 6, 1, 1, 2, 1,
    [0x2F, 0x61], ⟨samplePair 2 10, samplePair 1 20⟩, .rollbackManifest, splints, [], windows, descriptors⟩

def sampleDescriptors : List ManifestDescriptor :=
  [⟨.ptyMaster 0, 10⟩, ⟨.ptyMaster 1, 11⟩, ⟨.listener, 12⟩, ⟨.imageListener, 13⟩,
    ⟨.checkpointManifest, 14⟩, ⟨.rollbackManifest, 15⟩, ⟨.terminalCheckpoint 0, 16⟩,
    ⟨.terminalCheckpoint 1, 17⟩, ⟨.forwardClient, 18⟩, ⟨.rollbackDaemon, 19⟩,
    ⟨.rollbackClient, 20⟩, ⟨.clientProcess 0, 21⟩, ⟨.clientProcess 1, 22⟩, ⟨.continuation 0, 23⟩,
    ⟨.continuation 1, 24⟩]

def sampleCanonical : HandoffManifestV1 :=
  sampleOf [sampleSplint 3 100 0 (.heldBy 0 5), sampleSplint 4 101 1 .released]
    [⟨0, 200, 9, 1, 1, [5, 7]⟩, ⟨1, 201, 9, 1, 1, [6]⟩] sampleDescriptors

/-- The same operation, its lists in another order. -/
def sampleShuffled : HandoffManifestV1 :=
  sampleOf [sampleSplint 4 101 1 .released, sampleSplint 3 100 0 (.heldBy 0 5)]
    [⟨1, 201, 9, 1, 1, [6]⟩, ⟨0, 200, 9, 1, 1, [7, 5]⟩] sampleDescriptors.reverse

theorem sample_reordered : Reordered sampleCanonical sampleShuffled where
  splints := .swap _ _ _
  excludedSplints := .refl _
  windows := ⟨_, .swap _ _ _, .cons ⟨.refl _, rfl⟩ (.cons ⟨.swap _ _ _, rfl⟩ .nil)⟩
  descriptors := (reverse_perm _).symm
  rest := rfl

/-! Its text, with `'`, `<` and `>` in the place of quotation marks and braces. -/

/-- The text of an identifier below ten. -/
def smallUuid (n : Nat) : String := "00000000-0000-0000-0000-00000000000" ++ n.repr

def listText (items : List String) : String := "[" ++ ",".intercalate items ++ "]"

def bytesText (count n : Nat) : String := listText (.replicate count n.repr)

def generationText (n : Nat) : List String :=
  ["<'build_identity':", bytesText 32 n, s!",'build_version':<'major':0,'minor':{n},'patch':0>>"]

def imageText (inode : Nat) : List String :=
  [s!"<'source_device':1,'source_inode':{inode},'source_owner_uid':0,'source_mode':33261,'source_size':10,",
    "'source_sha256':", bytesText 32 3, s!",'snapshot_device':2,'snapshot_inode':{inode},'snapshot_size':10,",
    "'snapshot_sha256':", bytesText 32 3, ",'snapshot_seals':15>"]

def pairText (n inode : Nat) : List String :=
  ["<'daemon':"] ++ imageText inode ++ [",'client':"] ++ imageText (inode + 1) ++ [",'generation':"] ++
    generationText n ++ [">"]

def splintText (id pid slot : Nat) (controller : String) : List String :=
  ["<'lair_id':'", smallUuid 1, "','dojo_id':'", smallUuid 2, "','splint_id':'", smallUuid id, "','incarnation':1,",
    s!"'pty':<'child_pid':{pid},'process_group':{pid},'session_id':{pid},'master_slot':{slot}>,",
    "'size':<'columns':80,'rows':24,'pixel_width':0,'pixel_height':0>,'foreground_process_group':null,",
    "'terminal_revision':4,'history_generation':1,'exit':'running','terminal_checkpoint':",
    s!"<'disposition':'descriptor','slot':{slot}>,'image_state':<'disposition':'not_present'>,",
    s!"'controller':{controller},'subscriptions':'dropped'>"]

def windowText (index pid : Nat) (connections : String) : String :=
  s!"<'index':{index},'pid':{pid},'start_time':9,'client_device':1,'client_inode':1,'old_connections':{connections}>"

def descriptorText (role : String) (fd : Nat) : String := s!"<'slot':<'role':{role}>,'inherited_fd':{fd}>"

def sampleText : List String :=
  ["<'schema':1,'kind':'forward','handoff_id':", bytesText 16 1, ",'source_generation':"] ++ generationText 1 ++
  [",'target_generation':"] ++ generationText 2 ++
  [",'source_daemon_generation':1,'target_daemon_generation':2,'topology_revision':5,'durable_state_generation':6,",
    "'private_protocol':1,'handoff_protocol':1,'terminal_checkpoint_schema':2,'descriptor_manifest_schema':1,",
    "'install_prefix':'/a','executable_pairs':<'forward':"] ++ pairText 2 10 ++ [",'rollback':"] ++ pairText 1 20 ++
  [">,'counterpart_manifest_slot':<'role':'rollback_manifest'>,'splints':["] ++
  splintText 3 100 0 "<'held_by':<'window':0,'connection':5>>" ++ [","] ++ splintText 4 101 1 "'released'" ++
  ["],'windows':[", windowText 0 200 "[5,7]", ",", windowText 1 201 "[6]", "],'descriptors':",
    listText (zipWith descriptorText ["'pty_master','index':0", "'pty_master','index':1",
    "'listener'", "'image_listener'", "'checkpoint_manifest'", "'rollback_manifest'",
    "'terminal_checkpoint','index':0", "'terminal_checkpoint','index':1", "'forward_client'", "'rollback_daemon'",
    "'rollback_client'", "'client_process','index':0", "'client_process','index':1", "'continuation','index':0",
    "'continuation','index':1"] (range' 10 15)), ">"]

@[irreducible] def sampleJson : List UInt8 :=
  (sampleText.flatMap Json.utf8).map fun b => if b = 0x27 then 0x22 else if b = 0x3C then 0x7B else if b = 0x3E then 0x7D else b

/-- A writer that knows one manifest. -/
def sampleCodec : Codec where
  toVec manifest := if manifest = sampleCanonical then some sampleJson else none
  fromSlice bytes := if bytes = sampleJson then some sampleCanonical else none
  uuidText := smallUuid

theorem sampleCodec_lawful : sampleCodec.Lawful where
  roundTrip manifest bytes h := by
    obtain ⟨rfl, hbytes⟩ := Option.ite_none_right_eq_some.mp h
    obtain rfl := Option.some.inj hbytes
    exact if_pos rfl
  texts m n h := by
    have htext : m.repr = n.repr := (String.append_right_inj _).mp h
    have hdigits : Nat.toDigits 10 m = Nat.toDigits 10 n := by rw [← Nat.toList_repr, htext, Nat.toList_repr]
    rw [← @Nat.ofDigitChars_ten_toDigits m, hdigits, Nat.ofDigitChars_ten_toDigits]

theorem sample_has_one_form :
    sampleCanonical ≠ sampleShuffled ∧ sampleCodec.encodeManifest sampleCanonical = .ok sampleJson ∧
      sampleCodec.encodeManifest sampleShuffled = .ok sampleJson ∧
      sampleCodec.decodeManifest sampleJson = .ok sampleCanonical ∧ Exclusive sampleCanonical := by
  obtain ⟨horder, hdecode, hexclusive⟩ := manifest_has_one_form sampleCodec sampleCodec_lawful
  have hcanonical : sampleCodec.canonical sampleCanonical = sampleCanonical := by decide +kernel
  have hencode : sampleCodec.encodeManifest sampleCanonical = .ok sampleJson := by
    rw [Codec.encodeManifest_eq_ok, hcanonical]
    exact ⟨by decide +kernel, by simp [sampleCodec], by decide +kernel⟩
  have hread := (hdecode sampleJson sampleCanonical).mpr ⟨sampleCanonical, hencode, hcanonical.symm⟩
  exact ⟨by decide +kernel, hencode, (horder _ _ _ sample_reordered).mp hencode, hread, hexclusive _ _ hread⟩

end Splinterm.Handoff
