import Splinterm.Core.Run

/-!
# Durable metadata

`TopologyDocument::from_topology` keeps the persistent Lairs, marks their processes as
exited and validates the result. Its name check is stricter than the topology's own: a
name must already be trimmed. This module models the document and its validation, and
says when a topology can be refused because of a name.
-/

namespace Splinterm.Core

open Lib Hoare List LayoutNode

def topologySchemaVersion : Nat := 5
def maxPersistentLairs : Nat := 64
def maxDojosPerLair : Nat := 64
def maxSplints : Nat := 256
def maxLayoutDepth : Nat := 32
def maxArguments : Nat := 64
def maxArgumentBytes : Nat := 4096
def maxCommandBytes : Nat := 32 * 1024

structure TopologyDocument where
  schemaVersion : Nat
  revision : TopologyRevision
  lairs : List Lair

inductive PersistenceError where
  | documentTooLarge
  | unsupportedVersion (version : Nat)
  | decode (message : String)
  | encode (message : String)
  | collectionTooLarge (kind : String)
  | duplicateId (kind : String)
  | defaultDojoNameExhausted
  | duplicateLairName
  | invalidName (kind : String)
  | layoutTooDeep
  | unsafeWorkingDirectory
  | invalidCommand
  | invalidLaunchMetadata
  | invalidDojoDefaultFocus
  | liveProcessState
  | invalidLairLifecycle
deriving DecidableEq

namespace Persistence

def validateName (value : String) (kind : String) : Except PersistenceError Unit :=
  rejectIf (trim value = "" ∨ trim value ≠ value ∨ value.utf8ByteSize > maxNameBytes)
    (.invalidName kind)

/-- Of an absolute path's components only `..` is neither a root nor a normal one: empty and `.`
segments are dropped while iterating. -/
def validateCwd (path : PathBuf) : Except PersistenceError Unit :=
  rejectIf ((String.fromUTF8? ⟨path.toArray⟩).isNone ∨ path.head? ≠ some 0x2F ∨ [0x2E, 0x2E] ∈ path.splitOn 0x2F)
    .unsafeWorkingDirectory

/-- An argument or shell that is empty, too long or holds a NUL. -/
def badArgument (argument : String) : Bool :=
  argument.isEmpty || argument.utf8ByteSize > maxArgumentBytes || argument.toList.contains '\x00'

def validateCommand (command : List String) : Except PersistenceError Unit :=
  rejectIf (command.length > maxArguments ∨ command.any badArgument ∨
      (command.map (·.utf8ByteSize)).sum > maxCommandBytes)
    .invalidCommand

def validateLaunch (splint : Splint) : Except PersistenceError Unit :=
  rejectIf (splint.launch.shell.any badArgument ∨ splint.launch.scrollbackLines > 1000000 ∨
      ¬ (1 ≤ splint.launch.columns ∧ splint.launch.columns ≤ 4096) ∨
      ¬ (1 ≤ splint.launch.rows ∧ splint.launch.rows ≤ 4096) ∨ splint.lastIncarnation = some 0)
    .invalidLaunchMetadata

/-- The running leaf count and the leaf ids seen, which the source threads by `&mut`. -/
structure Seen where
  count : Nat
  ids : List SplintId

def validateTree : LayoutNode → Nat → Seen → Except PersistenceError Seen
  | .leaf splint, depth, seen => do
    rejectIf (depth > maxLayoutDepth) .layoutTooDeep
    rejectIf (seen.count + 1 > maxSplints) (.collectionTooLarge "Splints")
    rejectIf (splint.id ∈ seen.ids) (.duplicateId "Splint")
    validateName splint.title "Splint title"
    validateCwd splint.cwd
    validateCommand splint.command
    validateLaunch splint
    rejectIf (¬ splint.state.isExited) .liveProcessState
    return ⟨seen.count + 1, splint.id :: seen.ids⟩
  | .branch _ _ first second, depth, seen => do
    rejectIf (depth > maxLayoutDepth) .layoutTooDeep
    let seen ← validateTree first (depth + 1) seen
    validateTree second (depth + 1) seen

def validateDojos : List Dojo → List DojoId → Seen → Except PersistenceError (List DojoId × Seen)
  | [], dojoIds, seen => .ok (dojoIds, seen)
  | dojo :: dojos, dojoIds, seen => do
    validateName dojo.name "Dojo name"
    rejectIf (dojo.id ∈ dojoIds) (.duplicateId "Dojo")
    rejectIf (dojo.root.findSplint dojo.defaultFocus).isNone .invalidDojoDefaultFocus
    let seen ← validateTree dojo.root 1 seen
    validateDojos dojos (dojo.id :: dojoIds) seen

def validateProvenance (provenance : Option String) : Except PersistenceError Unit :=
  match provenance with
  | some label => validateName label "Lair provenance"
  | none => .ok ()

def validateLairs : List Lair → List LairId → List String → List DojoId → Seen → Except PersistenceError Unit
  | [], _, _, _, _ => .ok ()
  | lair :: lairs, lairIds, lairNames, dojoIds, seen => do
    validateName lair.name "Lair name"
    validateProvenance lair.provenance
    rejectIf (¬ lair.lifetime.isPersistent ∧ (lair.retention.isProtected ∨ lair.provenance.isSome))
      .invalidLairLifecycle
    rejectIf (lair.id ∈ lairIds) (.duplicateId "Lair")
    rejectIf (lair.name ∈ lairNames) .duplicateLairName
    rejectIf (lair.dojos.length > maxDojosPerLair) (.collectionTooLarge "Dojos")
    let (dojoIds, seen) ← validateDojos lair.dojos dojoIds seen
    validateLairs lairs (lair.id :: lairIds) (lair.name :: lairNames) dojoIds seen

end Persistence

namespace TopologyDocument

def validate (document : TopologyDocument) : Except PersistenceError Unit := do
  rejectIf (document.schemaVersion ≠ topologySchemaVersion)
    (.unsupportedVersion document.schemaVersion)
  rejectIf (document.lairs.length > maxPersistentLairs) (.collectionTooLarge "Lairs")
  Persistence.validateLairs document.lairs [] [] [] ⟨0, []⟩

end TopologyDocument

def markTreeRestorable : LayoutNode → LayoutNode
  | .leaf splint => .leaf (if splint.state.isExited then splint else { splint with state := .exited 0 })
  | .branch axis ratio first second => .branch axis ratio (markTreeRestorable first) (markTreeRestorable second)

/-- The persistent Lairs as they are written out. -/
def restorableLairs (t : Topology) : List Lair :=
  (t.lairs.values.filter (·.lifetime.isPersistent)).map fun lair =>
    { lair with dojos := lair.dojos.map fun dojo => { dojo with root := markTreeRestorable dojo.root } }

def TopologyDocument.fromTopology (t : Topology) : Except PersistenceError TopologyDocument := do
  let document : TopologyDocument := ⟨topologySchemaVersion, t.revision, restorableLairs t⟩
  document.validate
  return document

def TopologyDocument.intoTopology (document : TopologyDocument) : Except PersistenceError Topology := do
  document.validate
  return ⟨document.revision, (document.lairs.filter (·.lifetime.isPersistent)).foldl
    (fun lairs lair => lairs.insert lair.id lair) .empty⟩

/-! ## Names -/

/-- The normal form of names: trimmed, not empty, at most 128 bytes. -/
structure NormalName (value : String) : Prop where
  trimmed : trim value = value
  nonempty : value ≠ ""
  short : value.utf8ByteSize ≤ maxNameBytes

/-- Trimming the end of a list whose start is trimmed leaves the start trimmed. -/
private theorem dropWhile_trimmed (p : Char → Bool) (l : List Char) :
    ((l.dropWhile p).rdropWhile p).dropWhile p = (l.dropWhile p).rdropWhile p := by
  cases hm : (l.dropWhile p).rdropWhile p with
  | nil => rfl
  | cons x m =>
    obtain ⟨rest, hrest⟩ := List.rdropWhile_prefix p (l.dropWhile p)
    have hhead := dropWhile_eq_self_iff.mp (dropWhile_idempotent p l)
    rw [hm] at hrest
    rw [← hrest] at hhead
    have hx : p x = false := by simpa using hhead (by simp)
    simp [hx]

theorem trim_trim (value : String) : trim (trim value) = trim value := by
  simp only [trim, String.toList_ofList, dropWhile_trimmed, rdropWhile_idempotent]

theorem normalizedName_normal {value trimmed : String} (h : normalizedName value = .ok trimmed) :
    NormalName trimmed := by
  simp only [normalizedName] at h
  split at h
  · cases h
  · split at h
    · cases h
    next hne hlen =>
      cases h
      exact ⟨trim_trim value, hne, Nat.not_lt.mp hlen⟩

/-- Names, provenance labels and titles in normal form. -/
def Rule.normal : Rule where
  name := NormalName
  provenance := NormalName
  title := NormalName
  normalized h := ⟨normalizedName_normal h, normalizedName_normal h⟩
  firstDojo := ⟨by decide +kernel, by decide, by decide⟩
  shell := ⟨by decide +kernel, by decide, by decide⟩

/-- The refusals that are about a name. -/
inductive NameError : PersistenceError → Prop where
  | invalid (kind : String) : NameError (.invalidName kind)
  | duplicate : NameError .duplicateLairName

def PersistenceError.naming : PersistenceError → Bool
  | .invalidName _ | .duplicateLairName => true
  | _ => false

theorem not_nameError {e : PersistenceError} (h : e.naming = false) : ¬ NameError e := by
  intro hname
  cases hname with
  | invalid | duplicate => exact Bool.noConfusion h

namespace Persistence

theorem avoids_check {α : Type} {c : Prop} [Decidable c] {e : PersistenceError}
    {k : Unit → Except PersistenceError α} (he : e.naming = false) (hk : Avoids NameError (k ())) :
    Avoids NameError (rejectIf c e >>= k) :=
  .bind (avoids_rejectIf fun _ => not_nameError he) fun _ => hk

theorem validateName_avoids {value kind : String} (h : NormalName value) :
    Avoids NameError (validateName value kind) := by
  refine avoids_rejectIf fun hbad => ?_
  rw [h.trimmed] at hbad
  rcases hbad with hempty | hne | hlong
  · exact (h.nonempty hempty).elim
  · exact (hne rfl).elim
  · exact absurd h.short (Nat.not_le.mpr hlong)

theorem validateTree_avoids {node : LayoutNode} (depth : Nat) (seen : Seen)
    (h : ∀ splint ∈ node.splints, NormalName splint.title) : Avoids NameError (validateTree node depth seen) := by
  induction node generalizing depth seen with
  | leaf splint =>
    refine avoids_check rfl (avoids_check rfl (avoids_check rfl ?_))
    refine .bind (validateName_avoids (h splint (by simp [splints]))) fun _ => ?_
    exact avoids_check rfl (avoids_check rfl (avoids_check rfl (avoids_check rfl (avoids_ok _))))
  | branch axis ratio first second ih₁ ih₂ =>
    simp only [splints, mem_append] at h
    refine avoids_check rfl ?_
    exact .bind (ih₁ _ _ fun s hs => h s (.inl hs)) fun _ => ih₂ _ _ fun s hs => h s (.inr hs)

theorem validateDojos_avoids {dojos : List Dojo} (dojoIds : List DojoId) (seen : Seen)
    (h : ∀ dojo ∈ dojos, dojo.Meets Rule.normal) : Avoids NameError (validateDojos dojos dojoIds seen) := by
  induction dojos generalizing dojoIds seen with
  | nil => exact avoids_ok _
  | cons dojo dojos ih =>
    obtain ⟨hdojo, hdojos⟩ := forall_mem_cons.mp h
    refine .bind (validateName_avoids hdojo.1) fun _ => ?_
    refine avoids_check rfl (avoids_check rfl ?_)
    exact .bind (validateTree_avoids _ _ hdojo.2) fun _ => ih _ _ hdojos

theorem validateProvenance_avoids {provenance : Option String}
    (h : ∀ label, provenance = some label → NormalName label) : Avoids NameError (validateProvenance provenance) := by
  cases provenance with
  | none => exact avoids_ok _
  | some label => exact validateName_avoids (h label rfl)

theorem validateLairs_avoids {lairs : List Lair} (lairIds : List LairId) {lairNames : List String}
    (dojoIds : List DojoId) (seen : Seen) (h : ∀ lair ∈ lairs, lair.Meets Rule.normal)
    (hnames : (lairs.map (·.name)).Nodup) (hfresh : (lairs.map (·.name)).Disjoint lairNames) :
    Avoids NameError (validateLairs lairs lairIds lairNames dojoIds seen) := by
  induction lairs generalizing lairIds lairNames dojoIds seen with
  | nil => exact avoids_ok _
  | cons lair lairs ih =>
    obtain ⟨hlair, hlairs⟩ := forall_mem_cons.mp h
    obtain ⟨hnew, hnames⟩ := nodup_cons.mp hnames
    obtain ⟨hunseen, hfresh⟩ := disjoint_cons_left.mp hfresh
    refine .bind (validateName_avoids hlair.name) fun _ => ?_
    refine .bind (validateProvenance_avoids hlair.provenance) fun _ => ?_
    refine avoids_check rfl (avoids_check rfl ?_)
    refine .bind (avoids_rejectIf fun hseen => absurd hseen hunseen) fun _ => ?_
    refine avoids_check rfl ?_
    refine .bind (validateDojos_avoids _ _ hlair.dojos) fun _ => ?_
    exact ih _ _ _ hlairs hnames (disjoint_cons_right.mpr ⟨hnew, hfresh⟩)

end Persistence

theorem splints_markTreeRestorable {node : LayoutNode} {splint : Splint}
    (h : splint ∈ (markTreeRestorable node).splints) : ∃ original ∈ node.splints, splint.title = original.title := by
  induction node with
  | leaf original =>
    simp only [markTreeRestorable, splints, mem_singleton] at h ⊢
    exact ⟨original, rfl, by rw [h]; split <;> rfl⟩
  | branch axis ratio first second ih₁ ih₂ =>
    simp only [markTreeRestorable, splints, mem_append] at h ⊢
    rcases h with h | h
    · obtain ⟨o, ho, ht⟩ := ih₁ h
      exact ⟨o, .inl ho, ht⟩
    · obtain ⟨o, ho, ht⟩ := ih₂ h
      exact ⟨o, .inr ho, ht⟩

/-- Writing a Lair out changes neither its name nor any other text. -/
theorem restorableLairs_meets {rule : Rule} {t : Topology} (h : ∀ lair ∈ t.lairs.values, lair.Meets rule) :
    ∀ lair ∈ restorableLairs t, lair.Meets rule := by
  intro lair hl
  obtain ⟨original, ho, rfl⟩ := mem_map.mp hl
  have hmeets := h original (mem_filter.mp ho).1
  refine ⟨hmeets.name, hmeets.provenance, fun dojo hd => ?_⟩
  obtain ⟨source, hsource, rfl⟩ := mem_map.mp hd
  refine ⟨(hmeets.dojos source hsource).1, fun splint hs => ?_⟩
  obtain ⟨o, ho, ht⟩ := splints_markTreeRestorable hs
  exact ht ▸ (hmeets.dojos source hsource).2 o ho

/-- A topology whose texts are normal is never refused because of a name. -/
theorem fromTopology_avoids {t : Topology} (h : Invariant Rule.normal t.lairs) :
    Avoids NameError (TopologyDocument.fromTopology t) := by
  have hnames : ((restorableLairs t).map (·.name)).Nodup := by
    have hsub : ((restorableLairs t).map (·.name)).Sublist (t.lairs.values.map (·.name)) := by
      rw [restorableLairs, map_map]
      exact filter_sublist.map _
    exact h.names.sublist hsub
  refine .bind ?_ fun _ => avoids_ok _
  refine Persistence.avoids_check rfl (Persistence.avoids_check rfl ?_)
  exact Persistence.validateLairs_avoids _ _ _ (restorableLairs_meets h.meets) hnames
    (disjoint_nil_right _)

/-- In a run whose calls pass only normal names, labels and titles where they are stored as given,
every stored Lair and Dojo name is in normal form, Lair names differ even after trimming, and the
metadata document is never refused because of a name. -/
theorem names_stay_normal (ops : List Op) (h : ∀ op ∈ ops, op.Stores Rule.normal) :
    let t := runOps Topology.new ops
    (∀ lair ∈ t.lairs.values, NormalName lair.name ∧ ∀ dojo ∈ lair.dojos, NormalName dojo.name) ∧
      (t.lairs.values.map (fun lair => trim lair.name)).Nodup ∧
      Avoids NameError (TopologyDocument.fromTopology t) := by
  have hinv : Invariant Rule.normal (runOps Topology.new ops).lairs := runOps_invariant (invariant_empty _) h
  refine ⟨fun lair hl => ?_, ?_, fromTopology_avoids hinv⟩
  · exact ⟨(hinv.meets lair hl).name, fun dojo hd => ((hinv.meets lair hl).dojos dojo hd).1⟩
  · have htrim : (runOps Topology.new ops).lairs.values.map (fun lair => trim lair.name) =
        (runOps Topology.new ops).lairs.values.map (·.name) :=
      map_congr_left fun lair hl => (hinv.meets lair hl).name.trimmed
    exact htrim ▸ hinv.names

/-- A persistent Lair with one shell, named as given. -/
def namedLair (n : Nat) (name : String) : Lair := .new ⟨⟨n⟩, ⟨n⟩, ⟨n⟩⟩ name [0x2F]

/-- The condition of `names_stay_normal` can be met by a run that stores a Lair. -/
theorem names_stay_normal_main :
    let ops := [Op.insertLairAt 0 (namedLair 1 "main")]
    (∀ op ∈ ops, op.Stores Rule.normal) ∧ (runOps Topology.new ops).lairs.values.map (·.name) = ["main"] ∧
      Avoids NameError (TopologyDocument.fromTopology (runOps Topology.new ops)) := by
  have hstores : ∀ op ∈ [Op.insertLairAt 0 (namedLair 1 "main")], op.Stores Rule.normal := by
    intro op hop
    rw [mem_singleton] at hop
    subst hop
    exact Lair.new_meets ⟨by decide +kernel, by decide, by decide⟩
  exact ⟨hstores, by decide +kernel, (names_stay_normal _ hstores).2.2⟩

/-- A name with a leading blank is stored as it is, beside a Lair with the same trimmed name, and
makes the metadata document fail. -/
theorem untrimmed_name_stored :
    let t := runOps Topology.new
      [.insertLairAt 0 (namedLair 1 "main"), .insertLairAt 1 (namedLair 2 " main")]
    t.lairs.values.map (·.name) = ["main", " main"] ∧ trim " main" = "main" ∧
      (match TopologyDocument.fromTopology t with
        | .error e => some e
        | .ok _ => none) = some (.invalidName "Lair name") := by
  decide +kernel

end Splinterm.Core
