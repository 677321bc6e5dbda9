import Mathlib.Data.List.DropRight
import Splinterm.Lib.Hoare
import Splinterm.Core.Layout

/-!
# The topology and its operations

The daemon owns one `Topology`: Lairs keyed by id, each with its Dojos, each with a
layout tree. Every mutation is a computation in `EStateM Stop Topology`, written in
the order of the source's statements: a refusal or a panic keeps the state reached
so far. Identifiers the source draws at random are arguments here, so a statement
about an operation holds for every draw, collisions included.
-/

namespace Splinterm.Core

open Lib Hoare

def maxNameBytes : Nat := 128

abbrev TopologyRevision := UInt64

structure LairId where
  uuid : Nat
deriving DecidableEq

instance : LinearOrder LairId :=
  LinearOrder.lift' LairId.uuid fun a b h => by cases a; cases b; simpa using h

structure DojoId where
  uuid : Nat
deriving DecidableEq

/-- One persistent terminal layout within a Lair. -/
structure Dojo where
  id : DojoId
  name : String
  defaultFocus : SplintId
  root : LayoutNode
deriving DecidableEq

/-- `Dojo::with_shell`, with the two fresh identifiers passed in. -/
def Dojo.withShell (id : DojoId) (splintId : SplintId) (name : String) (cwd : PathBuf) : Dojo where
  id
  name
  defaultFocus := splintId
  root := .leaf (.shell splintId cwd)

inductive LairLifetime where
  | persistent
  | transient
deriving DecidableEq

def LairLifetime.isPersistent : LairLifetime → Bool
  | .persistent => true
  | .transient => false

inductive LairRetention where
  | disposable
  | saved
  | pinned
deriving DecidableEq

def LairRetention.isProtected : LairRetention → Bool
  | .disposable => false
  | .saved | .pinned => true

/-- A named session containing Dojos. -/
structure Lair where
  id : LairId
  name : String
  lifetime : LairLifetime
  retention : LairRetention
  provenance : Option String
  dojos : List Dojo
deriving DecidableEq

/-- The identifiers `Lair::new` draws. -/
structure FreshIds where
  lair : LairId
  dojo : DojoId
  splint : SplintId

def Lair.new (ids : FreshIds) (name : String) (cwd : PathBuf) : Lair where
  id := ids.lair
  name
  lifetime := .persistent
  retention := .disposable
  provenance := none
  dojos := [.withShell ids.dojo ids.splint "Dojo 1" cwd]

inductive TopologyError where
  | emptyName
  | nameTooLong
  | duplicateLairName (name : String)
  | lairNotFound (id : LairId)
  | duplicateLairId (id : LairId)
  | transientLairRetention (id : LairId)
  | dojoNotFound (id : DojoId)
  | emptyDojoSet
  | duplicateDojoId (id : DojoId)
  | dojoStillLive (id : DojoId)
  | invalidDojoDefaultFocus (dojoId : DojoId) (splintId : SplintId)
  | splintNotFound (id : SplintId)
  | duplicateSplintId (id : SplintId)
  | splintStillLive (id : SplintId)
  | splintHasNoParent (id : SplintId)
  | staleTopology (expected current : TopologyRevision)

/-- How an operation can end without returning: with an error value, or by unwinding. -/
inductive Stop where
  | err (error : TopologyError)
  | panic

abbrev Lairs := OrdMap LairId Lair

/-- The daemon-owned collection of live Lairs. -/
structure Topology where
  revision : TopologyRevision
  lairs : Lairs

abbrev TopologyM := EStateM Stop Topology

/-! ## Names -/

/-- `char::is_whitespace`: the Unicode `White_Space` property. -/
def isWhitespace (c : Char) : Bool :=
  let n := c.toNat
  (9 ≤ n && n ≤ 13) || n == 0x20 || n == 0x85 || n == 0xA0 || n == 0x1680 ||
    (0x2000 ≤ n && n ≤ 0x200A) || n == 0x2028 || n == 0x2029 || n == 0x202F || n == 0x205F || n == 0x3000

def trim (value : String) : String :=
  String.ofList ((value.toList.dropWhile isWhitespace).rdropWhile isWhitespace)

def normalizedName (value : String) : Except TopologyError String :=
  let trimmed := trim value
  if trimmed = "" then .error .emptyName
  else if trimmed.utf8ByteSize > maxNameBytes then .error .nameTooLong
  else .ok trimmed

def validateName (value : String) : Except TopologyError Unit :=
  (normalizedName value).map fun _ => ()

/-- A pure check inside an operation. -/
def check {α : Type} (result : Except TopologyError α) : TopologyM α :=
  fromResult (result.mapError .err)

def refuse {α : Type} (error : TopologyError) : TopologyM α := throw (.err error)

/-- `if c { return Err(error) }`. -/
def refuseIf (c : Prop) [Decidable c] (error : TopologyError) : TopologyM Unit :=
  if c then refuse error else pure ()

/-! ## Lookups -/

def allDojos (lairs : Lairs) : List Dojo := lairs.values.flatMap (·.dojos)

namespace Topology

def new : Topology := ⟨0, .empty⟩

def findLair (t : Topology) (id : LairId) : Option Lair := t.lairs.get? id

def findDojo (t : Topology) (id : DojoId) : Option Dojo :=
  (allDojos t.lairs).find? (·.id = id)

def findSplint (t : Topology) (id : SplintId) : Option Splint :=
  (allDojos t.lairs).findSome? (·.root.findSplint id)

end Topology

/-- A Lair found while iterating mutably: its key, and its Dojos around the one that matched. -/
structure DojoPlace where
  key : LairId
  lair : Lair
  before : List Dojo
  dojo : Dojo
  after : List Dojo

/-- The first Dojo satisfying `p`, in the order of `values_mut().flat_map(dojos)`. -/
def findPlace (p : Dojo → Bool) : List (LairId × Lair) → Option DojoPlace
  | [] => none
  | (key, lair) :: rest =>
    match splitFirst p lair.dojos with
    | some (before, dojo, after) => some ⟨key, lair, before, dojo, after⟩
    | none => findPlace p rest

/-- The Lair of the place with other Dojos in place of the one found. -/
def DojoPlace.withDojos (place : DojoPlace) (dojos : List Dojo) : Lair :=
  { place.lair with dojos := place.before ++ dojos ++ place.after }

/-- The write through a `&mut Lair` stored under `key`. -/
def putLair (key : LairId) (lair : Lair) : TopologyM Unit :=
  modify fun t => { t with lairs := t.lairs.insert key lair }

def eraseLair (key : LairId) : TopologyM Unit :=
  modify fun t => { t with lairs := t.lairs.erase key }

/-! ## Checks shared by the operations -/

def collectNewSplintIds (t : Topology) : LayoutNode → List SplintId → Except TopologyError (List SplintId)
  | .leaf splint, ids =>
    if (t.findSplint splint.id).isSome ∨ splint.id ∈ ids then
      .error (.duplicateSplintId splint.id)
    else .ok (splint.id :: ids)
  | .branch _ _ first second, ids => do
    let ids ← collectNewSplintIds t first ids
    collectNewSplintIds t second ids

/-- The loop of `validate_new_dojos` with the two id sets collected so far. -/
def validateDojosFrom (t : Topology) : List Dojo → List DojoId → List SplintId → Except TopologyError Unit
  | [], _, _ => .ok ()
  | dojo :: dojos, dojoIds, splintIds => do
    validateName dojo.name
    rejectIf ((t.findDojo dojo.id).isSome ∨ dojo.id ∈ dojoIds) (.duplicateDojoId dojo.id)
    rejectIf (dojo.root.findSplint dojo.defaultFocus).isNone
      (.invalidDojoDefaultFocus dojo.id dojo.defaultFocus)
    let splintIds ← collectNewSplintIds t dojo.root splintIds
    validateDojosFrom t dojos (dojo.id :: dojoIds) splintIds

def validateNewDojos (dojos : List Dojo) : TopologyM Unit := do
  check (validateDojosFrom (← get) dojos [] [])

variable (expected : TopologyRevision) (lairId : LairId)

def checkRevision : TopologyM Unit := do
  let t ← get
  refuseIf (expected ≠ t.revision) (.staleTopology expected t.revision)

/-- `checked_add(1).expect(..)`. -/
def advanceRevision : TopologyM TopologyRevision := do
  let t ← get
  if t.revision.toNat + 1 < 2 ^ 64 then
    set { t with revision := t.revision + 1 }
    return t.revision + 1
  else throw .panic

/-! ## Operations -/

def insertLairAt (lair : Lair) : TopologyM TopologyRevision := do
  checkRevision expected
  check (validateName lair.name)
  let t ← get
  refuseIf (t.lairs.contains lair.id) (.duplicateLairId lair.id)
  refuseIf (t.lairs.values.any (fun current => current.name = lair.name))
    (.duplicateLairName lair.name)
  validateNewDojos lair.dojos
  putLair lair.id lair
  advanceRevision

def createLairAt (ids : FreshIds) (name : String) (cwd : PathBuf) : TopologyM Lair := do
  checkRevision expected
  let name ← check (normalizedName name)
  refuseIf ((← get).lairs.values.any (fun lair => lair.name = name)) (.duplicateLairName name)
  let lair := Lair.new ids name cwd
  let _ ← insertLairAt expected lair
  okOr .panic ((← get).lairs.get? lair.id)

def createLair (ids : FreshIds) (name : String) (cwd : PathBuf) : TopologyM Lair := do
  createLairAt (← get).revision ids name cwd

def removeLair (id : LairId) : TopologyM (Option Lair) := do
  let removed := (← get).lairs.get? id
  eraseLair id
  if removed.isSome then
    let _ ← advanceRevision
  return removed

def replaceLairAt (removedId : LairId) (inserted : Lair) : TopologyM TopologyRevision := do
  checkRevision expected
  check (validateName inserted.name)
  let t ← get
  refuseIf (removedId = inserted.id ∨ ¬ t.lairs.contains removedId) (.lairNotFound removedId)
  refuseIf (t.lairs.contains inserted.id) (.duplicateLairId inserted.id)
  refuseIf (t.lairs.values.any (fun current => current.id ≠ removedId ∧ current.name = inserted.name))
    (.duplicateLairName inserted.name)
  validateNewDojos inserted.dojos
  eraseLair removedId
  putLair inserted.id inserted
  advanceRevision

def splitSplintAt (target : SplintId) (newSplint : Splint)
    (axis : Axis) (side : SplitSide) (ratio : SplitRatio) : TopologyM TopologyRevision := do
  checkRevision expected
  let t ← get
  refuseIf ((t.findSplint newSplint.id).isSome) (.duplicateSplintId newSplint.id)
  let place ← okOr (.err (.splintNotFound target))
    (findPlace (fun dojo => (dojo.root.findSplint target).isSome) t.lairs.entries)
  let root ← okOr (.err (.splintNotFound target))
    (place.dojo.root.split target newSplint axis side ratio)
  putLair place.key (place.withDojos [{ place.dojo with root }])
  advanceRevision

def splitSplint (target : SplintId) (newSplint : Splint) (axis : Axis) (side : SplitSide)
    (ratio : SplitRatio) : TopologyM TopologyRevision := do
  splitSplintAt (← get).revision target newSplint axis side ratio

/-- The body of the nested loops of `close_splint_at`, at the Dojo that holds the leaf. -/
def closeSplintIn (id : SplintId) (place : DojoPlace) : TopologyM Unit :=
  match place.dojo.root.remove id with
  | .ok (some root) =>
    let focus := if place.dojo.defaultFocus = id then root.firstSplintId else place.dojo.defaultFocus
    putLair place.key (place.withDojos [{ place.dojo with root, defaultFocus := focus }])
  | .ok none => putLair place.key (place.withDojos [])
  | .error _ => refuse (.splintNotFound id)

def closeSplintAt (id : SplintId) : TopologyM TopologyRevision := do
  checkRevision expected
  let t ← get
  let splint ← okOr (.err (.splintNotFound id)) (t.findSplint id)
  refuseIf (¬ splint.state.isExited) (.splintStillLive id)
  match findPlace (fun dojo => (dojo.root.findSplint id).isSome) t.lairs.entries with
  | some place => closeSplintIn id place
  | none => pure ()
  advanceRevision

def closeSplint (id : SplintId) : TopologyM TopologyRevision := do
  closeSplintAt (← get).revision id

def setSplitRatioAt (target : SplintId) (ancestor : Nat) (ratio : SplitRatio) : TopologyM TopologyRevision := do
  checkRevision expected
  let place ← okOr (.err (.splintNotFound target))
    (findPlace (fun dojo => (dojo.root.findSplint target).isSome) (← get).lairs.entries)
  let root ← okOr (.err (.splintHasNoParent target))
    (place.dojo.root.setAncestorRatio target ancestor ratio)
  putLair place.key (place.withDojos [{ place.dojo with root }])
  advanceRevision

def newDojoWithPromotionAt (dojo : Dojo) (promoteTransientLair : Bool) : TopologyM (TopologyRevision × Bool) := do
  checkRevision expected
  validateNewDojos [dojo]
  let lair ← okOr (.err (.lairNotFound lairId)) ((← get).lairs.get? lairId)
  let promoted := promoteTransientLair && lair.lifetime = .transient
  let lifetime := if promoted then .persistent else lair.lifetime
  putLair lairId { lair with lifetime, dojos := lair.dojos ++ [dojo] }
  return (← advanceRevision, promoted)

def newDojoAt (dojo : Dojo) : TopologyM TopologyRevision := do
  return (← newDojoWithPromotionAt expected lairId dojo false).1

def materializeDojosAt (rename : Option String) (dojos : List Dojo) : TopologyM TopologyRevision := do
  checkRevision expected
  refuseIf (dojos = []) .emptyDojoSet
  validateNewDojos dojos
  let rename ← check (rename.mapM normalizedName)
  let t ← get
  match rename with
  | some name =>
    refuseIf (t.lairs.values.any (fun lair => lair.id ≠ lairId ∧ lair.name = name))
      (.duplicateLairName name)
  | none => pure ()
  let lair ← okOr (.err (.lairNotFound lairId)) (t.lairs.get? lairId)
  putLair lairId { lair with name := rename.getD lair.name, dojos := lair.dojos ++ dojos }
  advanceRevision

def materializeLairWithProvenanceAt (name : String)
    (dojos : List Dojo) (provenance : Option String) : TopologyM (LairId × TopologyRevision) := do
  checkRevision expected
  refuseIf (dojos = []) .emptyDojoSet
  let name ← check (normalizedName name)
  refuseIf ((← get).lairs.values.any (fun lair => lair.name = name)) (.duplicateLairName name)
  validateNewDojos dojos
  putLair lairId ⟨lairId, name, .persistent, .disposable, provenance, dojos⟩
  return (lairId, ← advanceRevision)

def materializeLairAt (name : String) (dojos : List Dojo) : TopologyM (LairId × TopologyRevision) :=
  materializeLairWithProvenanceAt expected lairId name dojos none

variable (dojoId : DojoId)

def removeDojoAt (allowLive : Bool) : TopologyM TopologyRevision := do
  checkRevision expected
  let place ← okOr (.err (.dojoNotFound dojoId))
    (findPlace (fun dojo => dojo.id = dojoId) (← get).lairs.entries)
  refuseIf (¬ allowLive ∧ ¬ place.dojo.root.allExited) (.dojoStillLive dojoId)
  putLair place.key (place.withDojos [])
  advanceRevision

def closeDojoAt : TopologyM TopologyRevision :=
  removeDojoAt expected dojoId false

def terminateDojoAt : TopologyM TopologyRevision :=
  removeDojoAt expected dojoId true

def terminateLairAt : TopologyM TopologyRevision := do
  checkRevision expected
  let _ ← okOr (.err (.lairNotFound lairId)) ((← get).lairs.get? lairId)
  eraseLair lairId
  advanceRevision

def setLairRetentionAt (retention : LairRetention) : TopologyM TopologyRevision := do
  checkRevision expected
  let lair ← okOr (.err (.lairNotFound lairId)) ((← get).lairs.get? lairId)
  refuseIf (¬ lair.lifetime.isPersistent) (.transientLairRetention lairId)
  putLair lairId { lair with retention }
  advanceRevision

def renameLairAt (name : String) : TopologyM TopologyRevision := do
  checkRevision expected
  let name ← check (normalizedName name)
  let t ← get
  refuseIf (t.lairs.values.any (fun lair => lair.id ≠ lairId ∧ lair.name = name))
    (.duplicateLairName name)
  let lair ← okOr (.err (.lairNotFound lairId)) (t.lairs.get? lairId)
  putLair lairId { lair with name }
  advanceRevision

def renameDojoWithPromotionAt (name : String) (promoteTransientLair : Bool) : TopologyM (TopologyRevision × Bool) := do
  checkRevision expected
  let name ← check (normalizedName name)
  let place ← okOr (.err (.dojoNotFound dojoId))
    (findPlace (fun dojo => dojo.id = dojoId) (← get).lairs.entries)
  let promoted := promoteTransientLair && place.lair.lifetime = .transient
  let lifetime := if promoted then .persistent else place.lair.lifetime
  putLair place.key
    { place.withDojos [{ place.dojo with name }] with lifetime }
  return (← advanceRevision, promoted)

def renameDojoAt (name : String) : TopologyM TopologyRevision := do
  return (← renameDojoWithPromotionAt expected dojoId name false).1

def setDojoDefaultFocusAt (splintId : SplintId) : TopologyM TopologyRevision := do
  checkRevision expected
  let place ← okOr (.err (.dojoNotFound dojoId))
    (findPlace (fun dojo => dojo.id = dojoId) (← get).lairs.entries)
  refuseIf ((place.dojo.root.findSplint splintId).isNone) (.invalidDojoDefaultFocus dojoId splintId)
  putLair place.key (place.withDojos [{ place.dojo with defaultFocus := splintId }])
  advanceRevision

/-- A write through the topology's `find_splint_mut`; `none` when no leaf has the id. -/
def updateSplint (id : SplintId) (f : Splint → Splint) : TopologyM (Option Splint) := do
  match findPlace (fun dojo => (dojo.root.findSplint id).isSome) (← get).lairs.entries with
  | none => return none
  | some place =>
    let root := place.dojo.root.updateSplint id f
    putLair place.key (place.withDojos [{ place.dojo with root }])
    return place.dojo.root.findSplint id

def renameSplintAt (splintId : SplintId) (title : String) : TopologyM TopologyRevision := do
  checkRevision expected
  let title ← check (normalizedName title)
  let _ ← okOr (.err (.splintNotFound splintId))
    (← updateSplint splintId fun splint => { splint with title })
  advanceRevision

/-- Not a topology edit: the revision stays. -/
def commitRelaunch (id : SplintId) (cwd : PathBuf) (command : List String) : TopologyM Unit := do
  let splint ← okOr (.err (.splintNotFound id)) ((← get).findSplint id)
  refuseIf (¬ splint.state.isExited) (.splintStillLive id)
  let _ ← updateSplint id fun splint => { splint with cwd, command, state := .running }

def setSplintLaunchMetadata (id : SplintId) (launch : SplintLaunchMetadata) : TopologyM Bool := do
  return (← updateSplint id fun splint => { splint with launch }).isSome

def setSplintLastIncarnation (id : SplintId) (incarnation : Nat) : TopologyM Bool := do
  return (← updateSplint id fun splint => { splint with lastIncarnation := some incarnation }).isSome

def setSplintDimensions (id : SplintId) (columns rows : Nat) : TopologyM Bool := do
  let found ← updateSplint id fun splint =>
    { splint with launch := { splint.launch with columns, rows } }
  return found.any fun splint => splint.launch.columns ≠ columns || splint.launch.rows ≠ rows

def setSplintState (id : SplintId) (state : SplintState) : TopologyM Bool := do
  return (← updateSplint id fun splint => { splint with state }).isSome

/-! ## Runs -/

/-- One call of a mutating operation, with all its arguments. -/
inductive Op where
  | createLair (ids : FreshIds) (name : String) (cwd : PathBuf)
  | createLairAt (expected : TopologyRevision) (ids : FreshIds) (name : String) (cwd : PathBuf)
  | insertLairAt (expected : TopologyRevision) (lair : Lair)
  | removeLair (id : LairId)
  | replaceLairAt (expected : TopologyRevision) (removedId : LairId) (inserted : Lair)
  | splitSplint (target : SplintId) (newSplint : Splint) (axis : Axis) (side : SplitSide)
      (ratio : SplitRatio)
  | splitSplintAt (expected : TopologyRevision) (target : SplintId) (newSplint : Splint)
      (axis : Axis) (side : SplitSide) (ratio : SplitRatio)
  | closeSplint (id : SplintId)
  | closeSplintAt (expected : TopologyRevision) (id : SplintId)
  | setSplitRatioAt (expected : TopologyRevision) (target : SplintId) (ancestor : Nat)
      (ratio : SplitRatio)
  | newDojoAt (expected : TopologyRevision) (lairId : LairId) (dojo : Dojo)
  | newDojoWithPromotionAt (expected : TopologyRevision) (lairId : LairId) (dojo : Dojo)
      (promoteTransientLair : Bool)
  | materializeDojosAt (expected : TopologyRevision) (lairId : LairId) (rename : Option String)
      (dojos : List Dojo)
  | materializeLairAt (expected : TopologyRevision) (lairId : LairId) (name : String)
      (dojos : List Dojo)
  | materializeLairWithProvenanceAt (expected : TopologyRevision) (lairId : LairId) (name : String)
      (dojos : List Dojo) (provenance : Option String)
  | closeDojoAt (expected : TopologyRevision) (dojoId : DojoId)
  | terminateDojoAt (expected : TopologyRevision) (dojoId : DojoId)
  | terminateLairAt (expected : TopologyRevision) (lairId : LairId)
  | setLairRetentionAt (expected : TopologyRevision) (lairId : LairId) (retention : LairRetention)
  | renameLairAt (expected : TopologyRevision) (lairId : LairId) (name : String)
  | renameDojoAt (expected : TopologyRevision) (dojoId : DojoId) (name : String)
  | renameDojoWithPromotionAt (expected : TopologyRevision) (dojoId : DojoId) (name : String)
      (promoteTransientLair : Bool)
  | setDojoDefaultFocusAt (expected : TopologyRevision) (dojoId : DojoId) (splintId : SplintId)
  | renameSplintAt (expected : TopologyRevision) (splintId : SplintId) (title : String)
  | commitRelaunch (id : SplintId) (cwd : PathBuf) (command : List String)
  | setSplintLaunchMetadata (id : SplintId) (launch : SplintLaunchMetadata)
  | setSplintLastIncarnation (id : SplintId) (incarnation : Nat)
  | setSplintDimensions (id : SplintId) (columns rows : Nat)
  | setSplintState (id : SplintId) (state : SplintState)

/-- Runs the operation; what it returns beside success or failure is dropped. -/
def Op.exec : Op → TopologyM Unit
  | .createLair ids name cwd => do let _ ← Core.createLair ids name cwd
  | .createLairAt expected ids name cwd => do let _ ← Core.createLairAt expected ids name cwd
  | .insertLairAt expected lair => do let _ ← Core.insertLairAt expected lair
  | .removeLair id => do let _ ← Core.removeLair id
  | .replaceLairAt expected removedId inserted => do
    let _ ← Core.replaceLairAt expected removedId inserted
  | .splitSplint target newSplint axis side ratio => do
    let _ ← Core.splitSplint target newSplint axis side ratio
  | .splitSplintAt expected target newSplint axis side ratio => do
    let _ ← Core.splitSplintAt expected target newSplint axis side ratio
  | .closeSplint id => do let _ ← Core.closeSplint id
  | .closeSplintAt expected id => do let _ ← Core.closeSplintAt expected id
  | .setSplitRatioAt expected target ancestor ratio => do
    let _ ← Core.setSplitRatioAt expected target ancestor ratio
  | .newDojoAt expected lairId dojo => do let _ ← Core.newDojoAt expected lairId dojo
  | .newDojoWithPromotionAt expected lairId dojo promote => do
    let _ ← Core.newDojoWithPromotionAt expected lairId dojo promote
  | .materializeDojosAt expected lairId rename dojos => do
    let _ ← Core.materializeDojosAt expected lairId rename dojos
  | .materializeLairAt expected lairId name dojos => do
    let _ ← Core.materializeLairAt expected lairId name dojos
  | .materializeLairWithProvenanceAt expected lairId name dojos provenance => do
    let _ ← Core.materializeLairWithProvenanceAt expected lairId name dojos provenance
  | .closeDojoAt expected dojoId => do let _ ← Core.closeDojoAt expected dojoId
  | .terminateDojoAt expected dojoId => do let _ ← Core.terminateDojoAt expected dojoId
  | .terminateLairAt expected lairId => do let _ ← Core.terminateLairAt expected lairId
  | .setLairRetentionAt expected lairId retention => do
    let _ ← Core.setLairRetentionAt expected lairId retention
  | .renameLairAt expected lairId name => do let _ ← Core.renameLairAt expected lairId name
  | .renameDojoAt expected dojoId name => do let _ ← Core.renameDojoAt expected dojoId name
  | .renameDojoWithPromotionAt expected dojoId name promote => do
    let _ ← Core.renameDojoWithPromotionAt expected dojoId name promote
  | .setDojoDefaultFocusAt expected dojoId splintId => do
    let _ ← Core.setDojoDefaultFocusAt expected dojoId splintId
  | .renameSplintAt expected splintId title => do
    let _ ← Core.renameSplintAt expected splintId title
  | .commitRelaunch id cwd command => Core.commitRelaunch id cwd command
  | .setSplintLaunchMetadata id launch => do let _ ← Core.setSplintLaunchMetadata id launch
  | .setSplintLastIncarnation id incarnation => do
    let _ ← Core.setSplintLastIncarnation id incarnation
  | .setSplintDimensions id columns rows => do let _ ← Core.setSplintDimensions id columns rows
  | .setSplintState id state => do let _ ← Core.setSplintState id state

/-- The state an operation leaves behind, however it ends. -/
def Op.after (op : Op) (t : Topology) : Topology :=
  match op.exec t with
  | .ok _ t' => t'
  | .error _ t' => t'

/-- The state after a sequence of calls; a refused or unwound call does not end it. -/
def runOps (t : Topology) (ops : List Op) : Topology := ops.foldl (fun t op => op.after t) t

end Splinterm.Core
