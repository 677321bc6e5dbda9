import Splinterm.Core.Document

/-!
# The metadata store

The daemon keeps its topology in one file with one previous generation beside it.
`save` writes the encoded document and moves the former file to the backup; `load`
reads the first file it can, and moves a file it cannot read out of the way. Every
call of the operating system is taken to succeed: a failed one makes `save` and
`load` return its error.
-/

namespace Splinterm.Daemon

open Lib Hoare Core List TopologyDocument

/-- A file of the state directory; `safe` says that it is a regular file of the daemon's user with
mode 0600. -/
structure MetadataFile where
  bytes : List UInt8
  safe : Bool

/-- The files `MetadataStore` names, and those it moved away as invalid. -/
structure MetadataFiles where
  primary : Option MetadataFile := none
  backup : Option MetadataFile := none
  legacyPrimary : Option MetadataFile := none
  legacyBackup : Option MetadataFile := none
  quarantined : List MetadataFile := []

inductive MetadataError where
  | unsafeFile
  | fileTooLarge
  | invalid (error : PersistenceError)
  | encode (error : PersistenceError)

abbrev MetadataM := EStateM MetadataError MetadataFiles

def readIfPresent (reader : Reader) (file : Option MetadataFile) : Except MetadataError (Option TopologyDocument) :=
  match file with
  | none => .ok none
  | some file => do
    rejectIf (file.safe = false) .unsafeFile
    rejectIf (file.bytes.length > maxTopologyDocumentBytes) .fileTooLarge
    let document ← (decode reader file.bytes).mapError .invalid
    pure (some document)

/-- The former primary becomes the backup, or is put aside when it is unsafe. -/
def writeTempAndCommit (encoded : List UInt8) (files : MetadataFiles) : MetadataFiles :=
  match files.primary with
  | none => { files with primary := some ⟨encoded, true⟩ }
  | some former =>
    if former.safe then { files with primary := some ⟨encoded, true⟩, backup := some former }
    else
      { files with
        primary := some ⟨encoded, true⟩
        quarantined := former :: files.quarantined }

def save (document : TopologyDocument) : MetadataM Unit := do
  let encoded ← fromResult (document.encode.mapError .encode)
  modify (writeTempAndCommit encoded)

/-- Reads one legacy file; a document found there is committed under the current name. -/
def loadLegacy (reader : Reader) (file : Option MetadataFile)
    (quarantine : MetadataFiles → MetadataFiles) : MetadataM (Option TopologyDocument) :=
  match readIfPresent reader file with
  | .ok (some document) => do
    save document
    pure (some document)
  | .ok none => pure none
  | .error _ => do
    modify quarantine
    pure none

def load (reader : Reader) : MetadataM (Option TopologyDocument) := do
  let files ← get
  match readIfPresent reader files.primary with
  | .ok (some document) => return some document
  | .ok none => pure ()
  | .error _ => modify fun files =>
      { files with primary := none, quarantined := files.primary.toList ++ files.quarantined }
  match readIfPresent reader files.backup with
  | .ok (some document) => return some document
  | .ok none => pure ()
  | .error error => do
    modify fun files => { files with backup := none, quarantined := files.backup.toList ++ files.quarantined }
    throw error
  let primary ← loadLegacy reader files.legacyPrimary fun files =>
    { files with
      legacyPrimary := none
      quarantined := files.legacyPrimary.toList ++ files.quarantined }
  if primary.isSome then return primary
  loadLegacy reader files.legacyBackup fun files =>
    { files with
      legacyBackup := none
      quarantined := files.legacyBackup.toList ++ files.quarantined }

/-! ## A saved document -/

theorem primary_writeTempAndCommit (encoded : List UInt8) (files : MetadataFiles) :
    (writeTempAndCommit encoded files).primary = some ⟨encoded, true⟩ := by
  unfold writeTempAndCommit
  cases files.primary with
  | none => rfl
  | some former => cases hsafe : former.safe <;> simp [hsafe]

variable {document : TopologyDocument} {reader : Reader}

/-- The file `save` left is read back when its text is not too long, and refused otherwise. -/
theorem readIfPresent_saved (hreader : reader.RoundTrips document) (hvalid : document.validate = .ok ()) :
    readIfPresent reader (some ⟨document.json, true⟩) =
      if document.jsonSize ≤ maxTopologyDocumentBytes then .ok (some document) else .error .fileTooLarge := by
  rw [readIfPresent, decode_json hreader hvalid, length_json]
  by_cases hsize : document.jsonSize ≤ maxTopologyDocumentBytes
  · rw [if_pos hsize, if_pos hsize, rejectIf, rejectIf, if_neg Bool.noConfusion, if_neg (by omega)]
    rfl
  · rw [if_neg hsize, if_neg hsize, rejectIf, rejectIf, if_neg Bool.noConfusion, if_pos (by omega)]
    rfl

theorem load_of_primary {files : MetadataFiles} (h : readIfPresent reader files.primary = .ok (some document)) :
    load reader files = .ok (some document) files := by
  have hget (next : MetadataFiles → MetadataM (Option TopologyDocument)) :
      (get >>= next) files = next files files := rfl
  unfold load
  rw [hget, h]
  rfl

def PutAside (files files' : MetadataFiles) : Prop :=
  files.quarantined.length < files'.quarantined.length

theorem quarantined_writeTempAndCommit (encoded : List UInt8) (files : MetadataFiles) :
    files.quarantined.length ≤ (writeTempAndCommit encoded files).quarantined.length := by
  unfold writeTempAndCommit
  cases files.primary with
  | none => exact Nat.le_refl _
  | some former => cases hsafe : former.safe <;> simp [hsafe]

theorem wp_loadLegacy {file : Option MetadataFile} {start files : MetadataFiles}
    {quarantine : MetadataFiles → MetadataFiles} (h : PutAside start files) (hquarantine : ∀ files : MetadataFiles,
      files.quarantined.length ≤ (quarantine files).quarantined.length) :
    wp (loadLegacy reader file quarantine) (fun _ => PutAside start) (fun _ => PutAside start) files := by
  unfold loadLegacy
  split
  · rw [wp_bind, save, wp_bind, wp_fromResult]
    refine ⟨fun encoded _ => ?_, fun _ _ => h⟩
    exact Nat.lt_of_lt_of_le h (quarantined_writeTempAndCommit encoded files)
  · exact h
  · exact Nat.lt_of_lt_of_le h (hquarantine files)

/-- A primary that is present and cannot be read is put aside, whatever else `load` finds. -/
theorem wp_load_of_unreadable {files : MetadataFiles} {error : MetadataError}
    (h : readIfPresent reader files.primary = .error error) :
    wp (load reader) (fun _ => PutAside files) (fun _ => PutAside files) files := by
  have hpresent : files.primary.toList.length = 1 := by
    cases hprimary : files.primary with
    | none =>
      rw [hprimary] at h
      cases h
    | some file => rfl
  have haside : PutAside files { files with
      primary := none, quarantined := files.primary.toList ++ files.quarantined } := by
    rw [PutAside, length_append]
    omega
  have hmore : ∀ (former : Option MetadataFile) (quarantined : List MetadataFile),
      quarantined.length ≤ (former.toList ++ quarantined).length := by
    intro former quarantined
    rw [length_append]
    omega
  rw [load, wp_bind, wp_get, h]
  simp only [wp_bind, wp_modify]
  split
  · exact haside
  · rw [wp_bind]
    refine wp_imp (wp_loadLegacy haside fun _ => hmore _ _) ?_
    intro found files' hfiles
    rw [wp_ite]
    refine ⟨fun _ => hfiles, fun _ => ?_⟩
    exact wp_loadLegacy hfiles fun _ => hmore _ _
  · exact Nat.lt_of_lt_of_le haside (hmore _ _)

/-- A document that `encode` accepts is decoded again, and found again by `load` after it was saved,
exactly when its text is within the limit. -/
theorem saved_document_loads (reader : Reader) (document : TopologyDocument)
    (files : MetadataFiles) (encoded : List UInt8) (hreader : reader.RoundTrips document)
    (hencode : document.encode = .ok encoded) : (decode reader encoded = .ok document ↔
      document.jsonSize ≤ maxTopologyDocumentBytes) ∧ ∃ saved, save document files = .ok () saved ∧
      (load reader saved = .ok (some document) saved ↔ document.jsonSize ≤ maxTopologyDocumentBytes) := by
  obtain ⟨hvalid, rfl⟩ := encode_eq_ok.mp hencode
  have hprimary := primary_writeTempAndCommit document.json files
  have hread := readIfPresent_saved hreader hvalid
  rw [← hprimary] at hread
  refine ⟨?_, writeTempAndCommit document.json files, by rw [save, hencode]; rfl, ?_⟩
  · rw [decode_json hreader hvalid]
    by_cases hsize : document.jsonSize ≤ maxTopologyDocumentBytes
    · simp [hsize]
    · simp [hsize]
  · by_cases hsize : document.jsonSize ≤ maxTopologyDocumentBytes
    · rw [if_pos hsize] at hread
      simp [hsize, load_of_primary hread]
    · rw [if_neg hsize] at hread
      refine iff_of_false ?_ hsize
      intro hload
      have haside := wp_of_ok (wp_load_of_unreadable hread) hload
      exact absurd haside (Nat.lt_irrefl _)

/-- One persistent Lair with an exited shell. -/
def shellDocument : TopologyDocument :=
  ⟨topologySchemaVersion, 1, restorableLairs (runOps Topology.new
    [.insertLairAt 0 (namedLair 1 "main")])⟩

def readerOf (document : TopologyDocument) : Reader where
  version := fun _ => .ok document.schemaVersion
  document := fun _ => .ok document
  legacyV4 := fun _ => .error "unexpected schema"
  legacyV3 := fun _ => .error "unexpected schema"
  legacyV2 := fun _ => .error "unexpected schema"

theorem validate_of_isOk (h : document.validate.isOk = true) : document.validate = .ok () := by
  cases hresult : document.validate with
  | ok u => rfl
  | error e =>
    rw [hresult] at h
    cases h

theorem shell_document_loads : shellDocument.encode = .ok shellDocument.json ∧
      decode (readerOf shellDocument) shellDocument.json = .ok shellDocument ∧
      ∃ saved, save shellDocument {} = .ok () saved ∧
        load (readerOf shellDocument) saved = .ok (some shellDocument) saved := by
  have hvalid : shellDocument.validate = .ok () := validate_of_isOk (by decide +kernel)
  have hencode := encode_eq_ok.mpr ⟨hvalid, rfl⟩
  have hsize : shellDocument.jsonSize ≤ maxTopologyDocumentBytes := by decide +kernel
  obtain ⟨hdecode, saved, hsave, hload⟩ := saved_document_loads (readerOf shellDocument)
    shellDocument {} shellDocument.json ⟨rfl, rfl⟩ hencode
  exact ⟨hencode, hdecode.mpr hsize, saved, hsave, hload.mpr hsize⟩

/-! ## A document that is saved and lost -/

/-- An argument of `n` characters that are written as six bytes each. -/
def repeated (n : Nat) : String := String.ofList (replicate n '\x01')

theorem utf8_repeated (n : Nat) : Json.utf8 (repeated n) = replicate n 1 := by
  have hchar : String.utf8EncodeChar '\x01' = [1] := by decide
  rw [repeated, Json.utf8_ofList, flatMap_replicate, hchar, flatten_replicate_singleton]

theorem utf8ByteSize_repeated (n : Nat) : (repeated n).utf8ByteSize = n := by
  rw [← Json.length_utf8, utf8_repeated, length_replicate]

theorem stringSize_repeated (n : Nat) : stringSize (repeated n) = 2 + n * 6 := by
  have hescape : Json.escapeSize 1 = 6 := by decide
  rw [stringSize, Json.textSize, utf8_repeated, map_replicate, hescape, sum_replicate_nat]

theorem badArgument_repeated {n : Nat} (hpos : 0 < n) (hle : n ≤ maxArgumentBytes) :
    Persistence.badArgument (repeated n) = false := by
  have hempty : (repeated n).isEmpty = false := by
    rw [String.isEmpty, utf8ByteSize_repeated]
    exact beq_false_of_ne (by omega)
  have hnul : (repeated n).toList.contains '\x00' = false := by
    rw [repeated]
    simp
  rw [Persistence.badArgument, hempty, utf8ByteSize_repeated, hnul]
  simp [hle]

/-- As many and as long arguments as the validation lets through. -/
def longCommand : List String := replicate 8 (repeated 4096)

theorem validateCommand_long : Persistence.validateCommand longCommand = .ok () := by
  have hbad := badArgument_repeated (n := 4096) (by decide) (by decide)
  rw [Persistence.validateCommand, longCommand]
  simp only [length_replicate, any_replicate, hbad, map_replicate, utf8ByteSize_repeated, sum_replicate_nat]
  decide

def longSplint (n : Nat) : Splint :=
  { Splint.shell ⟨n⟩ [0x2F] with command := longCommand, state := .exited 0 }

def longDojo (n : Nat) : Dojo where
  id := ⟨n⟩
  name := "Dojo"
  defaultFocus := ⟨n⟩
  root := .leaf (longSplint n)

def longLair : Lair :=
  { Lair.new ⟨⟨0⟩, ⟨0⟩, ⟨0⟩⟩ "main" [0x2F] with dojos := (range 6).map longDojo }

def longDocument : TopologyDocument := ⟨topologySchemaVersion, 1, [longLair]⟩

theorem validate_long : longDocument.validate = .ok () := by
  have hrange : range 6 = [0, 1, 2, 3, 4, 5] := rfl
  simp only [validate, longDocument, longLair, Persistence.validateLairs, hrange,
    map_cons, map_nil, Persistence.validateDojos, longDojo, Persistence.validateTree, longSplint,
    validateCommand_long]
  decide +kernel

/-- Each of the six Splints takes more than a sixth of what the decoder reads. -/
theorem jsonSize_long : maxTopologyDocumentBytes < longDocument.jsonSize := by
  simp only [jsonSize, longDocument, Lair.jsonSize, longLair, Dojo.jsonSize, map_cons,
    map_nil, map_map, Function.comp_def, longDojo, LayoutNode.jsonSize, Splint.jsonSize, longSplint,
    longCommand, map_replicate, stringSize_repeated]
  decide +kernel

/-- Six Splints with the longest commands that pass the validation: the topology is written out, and
no reader takes the text back. -/
theorem long_commands_are_lost : ∃ encoded,
      fromTopology (runOps Topology.new [.insertLairAt 0 longLair]) = .ok longDocument ∧
      longDocument.encode = .ok encoded ∧
      ∀ reader, decode reader encoded = .error .documentTooLarge := by
  refine ⟨longDocument.json, ?_, encode_eq_ok.mpr ⟨validate_long, rfl⟩, ?_⟩
  · have hlong : (⟨topologySchemaVersion, (runOps Topology.new [.insertLairAt 0 longLair]).revision,
        restorableLairs (runOps Topology.new [.insertLairAt 0 longLair])⟩ : TopologyDocument) =
        longDocument := rfl
    rw [fromTopology, hlong, validate_long]
    rfl
  · intro reader
    rw [decode, length_json, rejectIf, if_pos jsonSize_long]
    rfl

end Splinterm.Daemon
