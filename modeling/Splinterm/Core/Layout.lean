import Splinterm.Lib.OrdMap

/-!
# Layout trees

A Dojo arranges its Splints in a binary tree. The leaf ids in left-to-right order,
`LayoutNode.splintIds`, are what the topology's invariants speak about; the lemmas
here say what each tree edit does to them.
-/

namespace Splinterm.Core

open Option

/-- Stable identity of a terminal surface; the identifier is a UUID. -/
structure SplintId where
  uuid : Nat
deriving DecidableEq

inductive Axis where
  | horizontal
  | vertical
deriving DecidableEq

inductive SplitSide where
  | first
  | second

/-- The share of the first child of a branch, in thousandths. -/
structure SplitRatio where
  value : Nat
  min_le : 1 ≤ value
  le_max : value ≤ 999
deriving DecidableEq

inductive SplintState where
  | starting
  | running
  | exited (code : Int)
deriving DecidableEq

/-- `matches!(state, SplintState::Exited(_))`. -/
def SplintState.isExited : SplintState → Bool
  | .exited _ => true
  | _ => false

/-- Durable launch policy and last known terminal geometry. -/
structure SplintLaunchMetadata where
  shell : Option String
  loginShell : Bool
  scrollbackLines : Nat
  columns : Nat
  rows : Nat
  relaunchOnRestore : Bool
deriving DecidableEq

def SplintLaunchMetadata.default : SplintLaunchMetadata where
  shell := none
  loginShell := false
  scrollbackLines := 10000
  columns := 80
  rows := 24
  relaunchOnRestore := false

/-- A path is its bytes; nothing promises that they are UTF-8. -/
abbrev PathBuf := List UInt8

structure Splint where
  id : SplintId
  title : String
  cwd : PathBuf
  command : List String
  launch : SplintLaunchMetadata
  lastIncarnation : Option Nat
  state : SplintState
deriving DecidableEq

/-- `Splint::shell`, with the fresh identifier passed in. -/
def Splint.shell (id : SplintId) (cwd : PathBuf) : Splint where
  id
  title := "shell"
  cwd
  command := []
  launch := .default
  lastIncarnation := none
  state := .starting

inductive LayoutNode where
  | leaf (splint : Splint)
  | branch (axis : Axis) (ratio : SplitRatio) (first second : LayoutNode)
deriving DecidableEq

namespace LayoutNode

def splintCount : LayoutNode → Nat
  | leaf _ => 1
  | branch _ _ first second => first.splintCount + second.splintCount

def findSplint (id : SplintId) : LayoutNode → Option Splint
  | leaf splint => if splint.id = id then some splint else none
  | branch _ _ first second => (first.findSplint id).or (second.findSplint id)

/-- A write through `find_splint_mut`: the leaf that `findSplint` returns is replaced by `f` of it. -/
def updateSplint (id : SplintId) (f : Splint → Splint) : LayoutNode → LayoutNode
  | leaf splint => if splint.id = id then leaf (f splint) else leaf splint
  | branch axis ratio first second =>
    if (first.findSplint id).isSome then branch axis ratio (first.updateSplint id f) second
    else branch axis ratio first (second.updateSplint id f)

def firstSplintId : LayoutNode → SplintId
  | leaf splint => splint.id
  | branch _ _ first _ => first.firstSplintId

/-- `none` stands for the returned `false`, which leaves the tree as it was. -/
def split (target : SplintId) (newSplint : Splint) (axis : Axis) (side : SplitSide)
    (ratio : SplitRatio) : LayoutNode → Option LayoutNode
  | leaf splint =>
    if splint.id = target then
      match side with
      | .first => some (branch axis ratio (leaf newSplint) (leaf splint))
      | .second => some (branch axis ratio (leaf splint) (leaf newSplint))
    else none
  | branch axis' ratio' first second =>
    if (first.findSplint target).isSome then
      (first.split target newSplint axis side ratio).map (branch axis' ratio' · second)
    else
      (second.split target newSplint axis side ratio).map (branch axis' ratio' first ·)

/-- The turns (`true` for the second child) from the root to the first leaf with this id. -/
def pathToTarget (target : SplintId) : LayoutNode → Option (List Bool)
  | leaf splint => if splint.id = target then some [] else none
  | branch _ _ first second =>
    ((first.pathToTarget target).map (false :: ·)).or ((second.pathToTarget target).map (true :: ·))

/-- Sets the ratio of the branch the turns lead to; `none` when they do not lead to a branch. -/
def setRatioAlong (ratio : SplitRatio) : List Bool → LayoutNode → Option LayoutNode
  | _, leaf _ => none
  | [], branch axis _ first second => some (branch axis ratio first second)
  | false :: path, branch axis r first second => (first.setRatioAlong ratio path).map (branch axis r · second)
  | true :: path, branch axis r first second => (second.setRatioAlong ratio path).map (branch axis r first ·)

/-- `ancestor` counts branches upwards from the target's parent. -/
def setAncestorRatio (target : SplintId) (ancestor : Nat) (ratio : SplitRatio)
    (node : LayoutNode) : Option LayoutNode :=
  match node.pathToTarget target with
  | none => none
  | some path =>
    if path.length ≤ ancestor then none
    else node.setRatioAlong ratio (path.take (path.length - 1 - ancestor))

def allExited : LayoutNode → Bool
  | leaf splint => splint.state.isExited
  | branch _ _ first second => first.allExited && second.allExited

/-- `Err` gives the unchanged tree back, `Ok(None)` says that the last leaf went. -/
def remove (target : SplintId) : LayoutNode → Except LayoutNode (Option LayoutNode)
  | leaf splint => if splint.id = target then .ok none else .error (leaf splint)
  | branch axis ratio first second =>
    match first.remove target with
    | .ok none => .ok (some second)
    | .ok (some first) => .ok (some (branch axis ratio first second))
    | .error first =>
      match second.remove target with
      | .ok none => .ok (some first)
      | .ok (some second) => .ok (some (branch axis ratio first second))
      | .error second => .error (branch axis ratio first second)

/-! ## Leaf ids -/

/-- The leaves from left to right. -/
def splints : LayoutNode → List Splint
  | leaf splint => [splint]
  | branch _ _ first second => first.splints ++ second.splints

def splintIds (node : LayoutNode) : List SplintId := node.splints.map (·.id)

@[simp] theorem splintIds_leaf (splint : Splint) : (leaf splint).splintIds = [splint.id] := rfl

@[simp] theorem splintIds_branch (axis : Axis) (ratio : SplitRatio) (first second : LayoutNode) :
    (branch axis ratio first second).splintIds = first.splintIds ++ second.splintIds :=
  List.map_append

variable {id : SplintId} {node : LayoutNode}

theorem findSplint_isSome : (node.findSplint id).isSome ↔ id ∈ node.splintIds := by
  induction node with
  | leaf splint =>
    by_cases h : splint.id = id
    · simp [findSplint, h]
    · simp [findSplint, h, Ne.symm h]
  | branch axis ratio first second ih₁ ih₂ => simp [findSplint, ih₁, ih₂]

theorem findSplint_eq_none : node.findSplint id = none ↔ id ∉ node.splintIds := by
  rw [← findSplint_isSome, Bool.not_eq_true, isSome_eq_false_iff, isNone_iff_eq_none]

theorem firstSplintId_mem (node : LayoutNode) : node.firstSplintId ∈ node.splintIds := by
  induction node with
  | leaf splint => simp [firstSplintId]
  | branch axis ratio first second ih₁ ih₂ => simp [firstSplintId, ih₁]

/-- What every leaf update that keeps the id does to the leaves: one of them is replaced. -/
theorem splints_updateSplint (id : SplintId) (f : Splint → Splint) (node : LayoutNode) :
    ∀ s ∈ (node.updateSplint id f).splints, s ∈ node.splints ∨ ∃ s₀ ∈ node.splints, s = f s₀ := by
  induction node with
  | leaf splint =>
    intro s hs
    unfold updateSplint at hs
    split at hs <;> simp_all [splints]
  | branch axis ratio first second ih₁ ih₂ =>
    intro s hs
    unfold updateSplint at hs
    split at hs <;> simp only [splints, List.mem_append] at hs ⊢ <;> grind

theorem splintIds_updateSplint {f : Splint → Splint} (hf : ∀ s, (f s).id = s.id)
    (node : LayoutNode) : (node.updateSplint id f).splintIds = node.splintIds := by
  fun_induction updateSplint id f node <;> simp [*]

variable {target : SplintId} {ratio : SplitRatio} {node' : LayoutNode}

theorem splints_setRatioAlong {path : List Bool}
    (h : node.setRatioAlong ratio path = some node') : node'.splints = node.splints := by
  fun_induction setRatioAlong ratio path node generalizing node' with
  | case1 => cases h
  | case2 =>
    cases h
    rfl
  | case3 _ _ _ _ _ ih =>
    obtain ⟨first', hfirst, rfl⟩ := map_eq_some_iff.mp h
    rw [splints, ih hfirst, splints]
  | case4 _ _ _ _ _ ih =>
    obtain ⟨second', hsecond, rfl⟩ := map_eq_some_iff.mp h
    rw [splints, ih hsecond, splints]

theorem splints_setAncestorRatio {ancestor : Nat} (h : node.setAncestorRatio target ancestor ratio = some node') :
    node'.splints = node.splints := by
  unfold setAncestorRatio at h
  split at h
  · cases h
  · split at h
    · cases h
    · exact splints_setRatioAlong h

end LayoutNode

end Splinterm.Core
