import Splinterm.Lib.Json
import Splinterm.Core.Persistence

/-!
# The stored document

`TopologyDocument::encode` writes a validated document as compact JSON and `decode`
reads it back, after a look at the schema version and through the migrations of older
schemas. The reading half of the JSON library stays a parameter; the writing half is
spelled out, because how long the text gets is what `decode` checks first.
-/

namespace Splinterm.Core

open Lib Hoare Json List TopologyDocument LayoutNode Function

def maxTopologyDocumentBytes : Nat := 1024 * 1024
def legacyLairSchemaVersion : Nat := 2
def legacyTopologySchemaVersionV3 : Nat := 3
def legacyTopologySchemaVersionV4 : Nat := 4

/-! ## Writing -/

/-- `count` hexadecimal digits of `n` from the digit `from_` on, counted from the left of 32. -/
def uuidGroup (n from_ count : Nat) : List UInt8 :=
  (range count).map fun i => hexDigit (n / 16 ^ (31 - (from_ + i)) % 16)

/-- The hyphenated form of an identifier. -/
def uuidBytes (n : Nat) : List UInt8 :=
  uuidGroup n 0 8 ++ 0x2D :: uuidGroup n 8 4 ++ 0x2D :: uuidGroup n 12 4 ++
    0x2D :: uuidGroup n 16 4 ++ 0x2D :: uuidGroup n 20 12

def stringJson (s : String) : List UInt8 := text (utf8 s)

def stringSize (s : String) : Nat := textSize (utf8 s)

def optionJson {α : Type} (value : α → List UInt8) : Option α → List UInt8
  | none => null
  | some a => value a

def optionSize {α : Type} (size : α → Nat) : Option α → Nat
  | none => null.length
  | some a => size a

def naturalSize (n : Nat) : Nat := (natural n).length

def Axis.json : Axis → List UInt8
  | .horizontal => stringJson "Horizontal"
  | .vertical => stringJson "Vertical"

def SplintState.json : SplintState → List UInt8
  | .starting => stringJson "Starting"
  | .running => stringJson "Running"
  | .exited code => object [member "Exited" (integer code)]

def SplintLaunchMetadata.json (launch : SplintLaunchMetadata) : List UInt8 :=
  object
    [member "shell" (optionJson stringJson launch.shell), member "login_shell" (boolean launch.loginShell),
      member "scrollback_lines" (natural launch.scrollbackLines), member "columns" (natural launch.columns),
      member "rows" (natural launch.rows), member "relaunch_on_restore" (boolean launch.relaunchOnRestore)]

def Splint.json (splint : Splint) : List UInt8 :=
  object
    [member "id" (text (uuidBytes splint.id.uuid)), member "title" (stringJson splint.title),
      member "cwd" (text splint.cwd), member "command" (array (splint.command.map stringJson)),
      member "launch" splint.launch.json, member "last_incarnation" (optionJson natural splint.lastIncarnation),
      member "state" splint.state.json]

def LayoutNode.json : LayoutNode → List UInt8
  | .leaf splint => object [member "Leaf" splint.json]
  | .branch axis ratio first second =>
    object [member "Branch" (object
      [member "axis" axis.json, member "ratio" (natural ratio.value),
        member "first" first.json, member "second" second.json])]

def Dojo.json (dojo : Dojo) : List UInt8 :=
  object
    [member "id" (text (uuidBytes dojo.id.uuid)), member "name" (stringJson dojo.name),
      member "default_focus" (text (uuidBytes dojo.defaultFocus.uuid)), member "root" dojo.root.json]

def LairRetention.json : LairRetention → List UInt8
  | .disposable => stringJson "disposable"
  | .saved => stringJson "saved"
  | .pinned => stringJson "pinned"

/-- The lifetime is left out when it is the default one. -/
def LairLifetime.members : LairLifetime → List (List UInt8)
  | .persistent => []
  | .transient => [member "lifetime" (stringJson "transient")]

def Lair.json (lair : Lair) : List UInt8 :=
  object
    ([member "id" (text (uuidBytes lair.id.uuid)), member "name" (stringJson lair.name)] ++
      lair.lifetime.members ++ [member "retention" lair.retention.json] ++
      (lair.provenance.map fun label => member "provenance" (stringJson label)).toList ++
      [member "dojos" (array (lair.dojos.map Dojo.json))])

variable (document : TopologyDocument)

def TopologyDocument.json : List UInt8 :=
  object
    [member "schema_version" (natural document.schemaVersion), member "revision" (natural document.revision.toNat),
      member "lairs" (array (document.lairs.map Lair.json))]

/-- Every Splint of the document, in the order they are written. -/
def TopologyDocument.splints : List Splint :=
  document.lairs.flatMap fun lair => lair.dojos.flatMap fun dojo => dojo.root.splints

/-- A path that is not UTF-8 has no JSON form. -/
def TopologyDocument.toVec : Except String (List UInt8) :=
  if document.splints.any fun splint => (String.fromUTF8? ⟨splint.cwd.toArray⟩).isNone then
    .error "path contains invalid UTF-8 characters"
  else .ok document.json

/-- Serializes validated current-schema metadata. -/
def TopologyDocument.encode : Except PersistenceError (List UInt8) := do
  document.validate
  document.toVec.mapError .encode

/-! ## Older schemas -/

structure LegacyLairV3 where
  id : LairId
  name : String
  lifetime : LairLifetime
  dojos : List Dojo

structure LegacyTopologyDocumentV3 where
  schemaVersion : Nat
  revision : TopologyRevision
  lairs : List LegacyLairV3

structure LegacyTopologyDocumentV4 where
  schemaVersion : Nat
  revision : TopologyRevision
  lairs : List Lair

structure LegacyWindowV2 where
  id : Nat
  title : String
  defaultFocus : SplintId
  root : LayoutNode

structure LegacyDojoV2 where
  id : Nat
  name : String
  windows : List LegacyWindowV2

structure LegacyLairDocumentV2 where
  schemaVersion : Nat
  revision : TopologyRevision
  dojos : List LegacyDojoV2

def isDecimalDigits (value : List Char) : Bool := !value.isEmpty && value.all Char.isDigit

def stripPrefix (start : String) (value : String) : Option (List Char) :=
  if start.toList.isPrefixOf value.toList then some (value.toList.drop start.length) else none

def isLegacyDefaultDojoName (name : String) : Bool :=
  name == "terminal" ||
    match stripPrefix "terminal-" name with
    | none => false
    | some suffix =>
      match suffix.splitOn '-' with
      | [timestamp] => isDecimalDigits timestamp
      | [timestamp, processId] => isDecimalDigits timestamp && isDecimalDigits processId
      | _ => false

/-- `str::parse::<u64>`: one leading plus sign is allowed. -/
def parseU64 (value : List Char) : Option Nat :=
  let digits := match value with
    | '+' :: rest => rest
    | _ => value
  let number := digits.foldl (fun n c => n * 10 + (c.toNat - '0'.toNat)) 0
  if isDecimalDigits digits && number < 2 ^ 64 then some number else none

/-- The number of an implicit Dojo name in canonical form. -/
def defaultDojoNumber (name : String) : Option Nat := do
  let suffix ← stripPrefix "Dojo " name
  let number ← parseU64 suffix
  if 0 < number ∧ suffix = Nat.toDigits 10 number then some number else none

def nextDefaultDojoName (dojos : List Dojo) : Except PersistenceError String :=
  let highest := (dojos.filterMap fun dojo => defaultDojoNumber dojo.name).foldl max 0
  if highest + 1 < 2 ^ 64 then .ok (String.ofList ("Dojo ".toList ++ Nat.toDigits 10 (highest + 1)))
  else .error .defaultDojoNameExhausted

/-- One turn of the renaming loop, at `index`. -/
def normalizeDojoAt (dojos : List Dojo) (index : Nat) : Except PersistenceError (List Dojo) :=
  match dojos[index]? with
  | none => .ok dojos
  | some dojo =>
    if isLegacyDefaultDojoName dojo.name then do
      let name ← nextDefaultDojoName dojos
      pure (dojos.set index { dojo with name })
    else .ok dojos

def normalizeLegacyDefaultDojoNames (lairs : List Lair) : Except PersistenceError (List Lair) :=
  lairs.mapM fun lair => do
    let dojos ← (range lair.dojos.length).foldlM normalizeDojoAt lair.dojos
    pure { lair with dojos }

def currentDocument (revision : TopologyRevision) (lairs : List Lair) : Except PersistenceError TopologyDocument := do
  let lairs ← normalizeLegacyDefaultDojoNames lairs
  pure ⟨topologySchemaVersion, revision, lairs⟩

def LegacyTopologyDocumentV4.migrate (legacy : LegacyTopologyDocumentV4) : Except PersistenceError TopologyDocument :=
  currentDocument legacy.revision legacy.lairs

def LegacyTopologyDocumentV3.migrate (legacy : LegacyTopologyDocumentV3) : Except PersistenceError TopologyDocument :=
  currentDocument legacy.revision (legacy.lairs.map fun lair =>
    { id := lair.id
      name := lair.name
      lifetime := lair.lifetime
      retention := .disposable
      provenance := none
      dojos := lair.dojos })

def LegacyLairDocumentV2.migrate (legacy : LegacyLairDocumentV2) : Except PersistenceError TopologyDocument :=
  currentDocument legacy.revision (legacy.dojos.map fun legacyLair =>
    { id := ⟨legacyLair.id⟩
      name := legacyLair.name
      lifetime := .persistent
      retention := .disposable
      provenance := none
      dojos := legacyLair.windows.map fun window =>
        { id := ⟨window.id⟩
          name := window.title
          defaultFocus := window.defaultFocus
          root := window.root } })

/-! ## Reading -/

/-- `serde_json::from_slice` at the types `decode` asks for. -/
structure Reader where
  version : List UInt8 → Except String Nat
  document : List UInt8 → Except String TopologyDocument
  legacyV4 : List UInt8 → Except String LegacyTopologyDocumentV4
  legacyV3 : List UInt8 → Except String LegacyTopologyDocumentV3
  legacyV2 : List UInt8 → Except String LegacyLairDocumentV2

/-- What the writer wrote for `document` is read back: its version alone, and all of it. -/
structure Reader.RoundTrips (reader : Reader) (document : TopologyDocument) : Prop where
  version : reader.version document.json = .ok document.schemaVersion
  document : reader.document document.json = .ok document

/-- The document in the schema its version names, brought to the current one. -/
def Reader.readVersion (reader : Reader) (bytes : List UInt8) (version : Nat) :
    Except PersistenceError TopologyDocument :=
  if version = topologySchemaVersion then (reader.document bytes).mapError .decode
  else if version = legacyTopologySchemaVersionV4 then do
    let legacy ← (reader.legacyV4 bytes).mapError .decode
    rejectIf (legacy.schemaVersion ≠ legacyTopologySchemaVersionV4)
      (.unsupportedVersion legacy.schemaVersion)
    legacy.migrate
  else if version = legacyTopologySchemaVersionV3 then do
    let legacy ← (reader.legacyV3 bytes).mapError .decode
    rejectIf (legacy.schemaVersion ≠ legacyTopologySchemaVersionV3)
      (.unsupportedVersion legacy.schemaVersion)
    legacy.migrate
  else if version = legacyLairSchemaVersion then do
    let legacy ← (reader.legacyV2 bytes).mapError .decode
    rejectIf (legacy.schemaVersion ≠ legacyLairSchemaVersion)
      (.unsupportedVersion legacy.schemaVersion)
    legacy.migrate
  else .error (.unsupportedVersion version)

/-- Decodes and validates current metadata or migrates supported legacy schemas. -/
def TopologyDocument.decode (reader : Reader) (bytes : List UInt8) : Except PersistenceError TopologyDocument := do
  rejectIf (bytes.length > maxTopologyDocumentBytes) .documentTooLarge
  let version ← (reader.version bytes).mapError .decode
  let document ← reader.readVersion bytes version
  document.validate
  pure document

/-! ## How long the text is -/

def textOfUuidSize : Nat := 38

def Splint.jsonSize (splint : Splint) : Nat :=
  bracketSize
    [memberSize "id" textOfUuidSize, memberSize "title" (stringSize splint.title),
      memberSize "cwd" (textSize splint.cwd), memberSize "command" (bracketSize (splint.command.map stringSize)),
      memberSize "launch" (bracketSize
        [memberSize "shell" (optionSize stringSize splint.launch.shell),
          memberSize "login_shell" (boolean splint.launch.loginShell).length,
          memberSize "scrollback_lines" (naturalSize splint.launch.scrollbackLines),
          memberSize "columns" (naturalSize splint.launch.columns),
          memberSize "rows" (naturalSize splint.launch.rows),
          memberSize "relaunch_on_restore" (boolean splint.launch.relaunchOnRestore).length]),
      memberSize "last_incarnation" (optionSize naturalSize splint.lastIncarnation),
      memberSize "state" splint.state.json.length]

def LayoutNode.jsonSize : LayoutNode → Nat
  | .leaf splint => bracketSize [memberSize "Leaf" splint.jsonSize]
  | .branch axis ratio first second =>
    bracketSize [memberSize "Branch" (bracketSize
      [memberSize "axis" axis.json.length, memberSize "ratio" (naturalSize ratio.value),
        memberSize "first" first.jsonSize, memberSize "second" second.jsonSize])]

def Dojo.jsonSize (dojo : Dojo) : Nat :=
  bracketSize
    [memberSize "id" textOfUuidSize, memberSize "name" (stringSize dojo.name),
      memberSize "default_focus" textOfUuidSize, memberSize "root" dojo.root.jsonSize]

def Lair.jsonSize (lair : Lair) : Nat :=
  bracketSize
    ([memberSize "id" textOfUuidSize, memberSize "name" (stringSize lair.name)] ++
      lair.lifetime.members.map length ++ [memberSize "retention" lair.retention.json.length] ++
      (lair.provenance.map fun label => memberSize "provenance" (stringSize label)).toList ++
      [memberSize "dojos" (bracketSize (lair.dojos.map Dojo.jsonSize))])

/-- The size of the document's compact JSON text, from the sizes of its names, paths, arguments
(escapes included) and numbers. -/
def TopologyDocument.jsonSize : Nat :=
  bracketSize
    [memberSize "schema_version" (naturalSize document.schemaVersion),
      memberSize "revision" (naturalSize document.revision.toNat),
      memberSize "lairs" (bracketSize (document.lairs.map Lair.jsonSize))]

theorem length_stringJson (s : String) : (stringJson s).length = stringSize s := length_text _

theorem length_optionJson {α : Type} {value : α → List UInt8} {size : α → Nat}
    (h : ∀ a, (value a).length = size a) (o : Option α) : (optionJson value o).length = optionSize size o := by
  cases o with
  | none => rfl
  | some a => exact h a

theorem escapeSize_hexDigit : ∀ n, n < 16 → escapeSize (hexDigit n) = 1 := by
  decide

theorem map_escapeSize_uuidGroup (n start count : Nat) : ((uuidGroup n start count).map escapeSize).sum = count := by
  have hone : (uuidGroup n start count).map escapeSize = replicate count 1 := by
    rw [uuidGroup, map_map, eq_replicate_iff]
    refine ⟨by simp, ?_⟩
    intro size hsize
    obtain ⟨i, -, rfl⟩ := mem_map.mp hsize
    exact escapeSize_hexDigit _ (Nat.mod_lt _ (by decide))
  rw [hone, sum_replicate_nat, Nat.mul_one]

/-- Every identifier is written in the same number of bytes. -/
theorem textSize_uuidBytes (n : Nat) : textSize (uuidBytes n) = textOfUuidSize := by
  have hhyphen : escapeSize 0x2D = 1 := by decide
  rw [textSize, uuidBytes]
  simp only [map_append, map_cons, sum_append, sum_cons, map_escapeSize_uuidGroup, hhyphen]
  rfl

theorem Splint.length_json (splint : Splint) : splint.json.length = splint.jsonSize := by
  simp only [Splint.json, SplintLaunchMetadata.json, Splint.jsonSize, length_object, length_array,
    map_cons, map_nil, map_map, length_member, length_text, textSize_uuidBytes,
    length_stringJson, comp_def, naturalSize,
    length_optionJson length_stringJson, length_optionJson (fun n => rfl : ∀ n, _ = naturalSize n)]

theorem LayoutNode.length_json (node : LayoutNode) : node.json.length = node.jsonSize := by
  induction node with
  | leaf splint => simp only [json, jsonSize, length_object, map_cons, map_nil, length_member, Splint.length_json]
  | branch axis ratio first second ih₁ ih₂ =>
    simp only [json, jsonSize, length_object, map_cons, map_nil, length_member, naturalSize, ih₁, ih₂]

theorem Dojo.length_json (dojo : Dojo) : dojo.json.length = dojo.jsonSize := by
  simp only [Dojo.json, Dojo.jsonSize, length_object, map_cons, map_nil, length_member,
    length_text, textSize_uuidBytes, length_stringJson, LayoutNode.length_json]

theorem Lair.length_json (lair : Lair) : lair.json.length = lair.jsonSize := by
  have hprovenance : ((lair.provenance.map fun label =>
      member "provenance" (stringJson label)).toList).map length =
      (lair.provenance.map fun label => memberSize "provenance" (stringSize label)).toList := by
    cases lair.provenance with
    | none => rfl
    | some label =>
      simp only [Option.map_some, Option.toList_some, map_cons, map_nil, length_member, length_stringJson]
  simp only [Lair.json, Lair.jsonSize, length_object, length_array, map_append, map_cons,
    map_nil, map_map, comp_def, length_member, length_text, textSize_uuidBytes,
    length_stringJson, Dojo.length_json, hprovenance]

theorem TopologyDocument.length_json (document : TopologyDocument) : document.json.length = document.jsonSize := by
  simp only [json, jsonSize, length_object, length_array,
    map_cons, map_nil, map_map, comp_def, length_member, naturalSize, Lair.length_json]

/-! ## What is accepted -/

namespace Persistence

theorem validateTree_cwd {node : LayoutNode} {depth : Nat} {seen seen' : Seen}
    (h : validateTree node depth seen = .ok seen') : ∀ splint ∈ node.splints, validateCwd splint.cwd = .ok () := by
  induction node generalizing depth seen seen' with
  | leaf splint =>
    simp only [validateTree, bind_eq_ok] at h
    obtain ⟨_, -, _, -, _, -, _, -, _, hcwd, -⟩ := h
    exact forall_mem_singleton.mpr hcwd
  | branch axis ratio first second ih₁ ih₂ =>
    simp only [validateTree, bind_eq_ok] at h
    obtain ⟨_, -, middle, hfirst, hsecond⟩ := h
    exact forall_mem_append.mpr ⟨ih₁ hfirst, ih₂ hsecond⟩

theorem validateDojos_cwd {dojos : List Dojo} {ids : List DojoId} {seen : Seen}
    {result : List DojoId × Seen} (h : validateDojos dojos ids seen = .ok result) :
    ∀ dojo ∈ dojos, ∀ splint ∈ dojo.root.splints, validateCwd splint.cwd = .ok () := by
  induction dojos generalizing ids seen with
  | nil => exact forall_mem_nil _
  | cons dojo dojos ih =>
    simp only [validateDojos, bind_eq_ok] at h
    obtain ⟨_, -, _, -, _, -, middle, htree, hrest⟩ := h
    rw [forall_mem_cons]
    exact ⟨validateTree_cwd htree, ih hrest⟩

theorem validateLairs_spec {lairs : List Lair} {lairIds : List LairId} {names : List String}
    {dojoIds : List DojoId} {seen : Seen} (h : validateLairs lairs lairIds names dojoIds seen = .ok ()) :
    (∀ lair ∈ lairs, ∀ dojo ∈ lair.dojos, ∀ splint ∈ dojo.root.splints, validateCwd splint.cwd = .ok ()) ∧
      (lairs.map (·.id)).Nodup ∧ (lairs.map (·.id)).Disjoint lairIds := by
  induction lairs generalizing lairIds names dojoIds seen with
  | nil => exact ⟨forall_mem_nil _, .nil, disjoint_nil_left _⟩
  | cons lair lairs ih =>
    simp only [validateLairs, bind_eq_ok] at h
    obtain ⟨_, -, _, -, _, -, _, hunseen, _, -, _, -, result, hdojos, hrest⟩ := h
    obtain ⟨hcwd, hnodup, hdisjoint⟩ := ih hrest
    obtain ⟨hnew, hdisjoint⟩ := disjoint_cons_right.mp hdisjoint
    exact ⟨forall_mem_cons.mpr ⟨validateDojos_cwd hdojos, hcwd⟩, nodup_cons.mpr ⟨hnew, hnodup⟩,
      disjoint_cons_left.mpr ⟨rejectIf_eq_ok.mp hunseen, hdisjoint⟩⟩

end Persistence

variable {document : TopologyDocument}

theorem TopologyDocument.toVec_of_validate (h : document.validate = .ok ()) : document.toVec = .ok document.json := by
  simp only [validate, bind_eq_ok] at h
  obtain ⟨_, -, _, -, hlairs⟩ := h
  rw [toVec, if_neg]
  intro hbad
  obtain ⟨splint, hsplint, hnone⟩ := any_eq_true.mp hbad
  obtain ⟨lair, hlair, hsplint⟩ := mem_flatMap.mp hsplint
  obtain ⟨dojo, hdojo, hsplint⟩ := mem_flatMap.mp hsplint
  have hcwd := (Persistence.validateLairs_spec hlairs).1 lair hlair dojo hdojo splint hsplint
  rw [Persistence.validateCwd, rejectIf_eq_ok] at hcwd
  exact hcwd (.inl hnone)

theorem TopologyDocument.encode_eq_ok {bytes : List UInt8} :
    document.encode = .ok bytes ↔ document.validate = .ok () ∧ bytes = document.json := by
  rw [encode, bind_eq_ok]
  constructor
  · rintro ⟨_, hvalid, hbytes⟩
    rw [toVec_of_validate hvalid] at hbytes
    exact ⟨hvalid, (Except.ok.inj hbytes).symm⟩
  · rintro ⟨hvalid, rfl⟩
    refine ⟨(), hvalid, ?_⟩
    rw [toVec_of_validate hvalid]
    rfl

/-- What `decode` makes of the text of a valid document: only its length can be refused. -/
theorem TopologyDocument.decode_json {reader : Reader}
    (hreader : reader.RoundTrips document) (hvalid : document.validate = .ok ()) :
    TopologyDocument.decode reader document.json = if document.jsonSize ≤ maxTopologyDocumentBytes then .ok document
      else .error .documentTooLarge := by
  have hversion : document.schemaVersion = topologySchemaVersion := by
    simp only [validate, bind_eq_ok, rejectIf_eq_ok] at hvalid
    obtain ⟨_, hversion, -⟩ := hvalid
    exact not_not.mp hversion
  rw [decode, length_json]
  by_cases hsize : document.jsonSize ≤ maxTopologyDocumentBytes
  · have hread : reader.readVersion document.json document.schemaVersion = .ok document := by
      rw [Reader.readVersion, if_pos hversion, hreader.document]
      rfl
    rw [if_pos hsize, rejectIf, if_neg (by omega), hreader.version]
    show (do
      let read ← reader.readVersion document.json document.schemaVersion
      read.validate
      pure read) = Except.ok document
    rw [hread]
    show (do
      document.validate
      pure document) = Except.ok document
    rw [hvalid]
    rfl
  · rw [if_neg hsize, rejectIf, if_pos (by omega)]
    rfl

end Splinterm.Core
