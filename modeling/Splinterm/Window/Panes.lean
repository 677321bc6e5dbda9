import Splinterm.Core.LayoutLaws
import Splinterm.Window.Geometry

/-!
# Panes

A client derives the rectangles of the panes from the layout tree: each branch cuts its area into the
first child, a lane and the second child. The boundary it leaves for dragging names the branch by a
leaf and a number of ancestors, and the preview and the daemon follow that address back to the branch.
-/

namespace Splinterm.Window

open Core Lib Hoare LayoutNode

/-- The divider lines between the panes, or the frames around them. -/
inductive PaneChrome where
  | none
  | line (verticalWidth horizontalHeight : Nat)
  | frame (verticalWidth horizontalHeight : Nat)

structure PaneGeometry where
  splintId : SplintId
  rect : Rect
  allocation : Rect
  extent : Rect

structure PaneDivider where
  axis : Axis
  rect : Rect

structure PaneSplit where
  axis : Axis
  area : Rect
  boundary : Nat
  separator : Nat
  target : SplintId
  ancestor : Nat

/-- How far the edges of an area are from the divider lines that bound it. -/
structure Reach where
  left : Nat := 0
  right : Nat := 0
  top : Nat := 0
  bottom : Nat := 0

/-- The lists `visit` pushes to. -/
structure Drawn where
  panes : List PaneGeometry
  separators : List PaneDivider
  splits : List PaneSplit

structure PaneLayout extends Drawn where
  chrome : PaneChrome
  gap : Nat
  area : Rect

/-! ## Areas -/

/-- Children of a horizontal branch stand left to right, those of a vertical one top to bottom. -/
def Rect.start : Axis → Rect → Nat
  | .horizontal, area => area.x
  | .vertical, area => area.y

def Rect.size : Axis → Rect → Nat
  | .horizontal, area => area.width
  | .vertical, area => area.height

/-- The part of an area between two lines across it. -/
def Rect.slice (start size : Nat) : Axis → Rect → Rect
  | .horizontal, area => { area with x := start, width := size }
  | .vertical, area => { area with y := start, height := size }

def grow (area : Rect) (reach : Reach) : Except String Rect := do
  rejectIf (area.x < reach.left) "pane extent overflow"
  rejectIf (area.y < reach.top) "pane extent overflow"
  let width ← u32 (area.width + reach.left + reach.right) "pane extent overflow"
  let height ← u32 (area.height + reach.top + reach.bottom) "pane extent overflow"
  return ⟨area.x - reach.left, area.y - reach.top, width, height⟩

def dividerLine (axis : Axis) (lane : Rect) (thickness lead : Nat) (reach : Reach) : Except String Rect := do
  let start ← u32 (lane.start axis + lead) "pane divider overflow"
  let grown ← grow lane (match axis with
    | .horizontal => { reach with left := 0, right := 0 }
    | .vertical => { reach with top := 0, bottom := 0 })
  return grown.slice start thickness axis

def drawDivider (axis : Axis) (lane : Rect) (line lead : Nat) (reach : Reach) : Except String (List PaneDivider) :=
  if 0 < line then (fun rect => [⟨axis, rect⟩]) <$> dividerLine axis lane line lead reach else .ok []

def insetByGap (area : Rect) (gap : Nat) : Except String Rect := do
  let margins ← u32 (gap * 2) "pane gap overflow"
  rejectIf (area.width ≤ margins ∨ area.height ≤ margins) "surface cannot fit the outer pane gap"
  let x ← u32 (area.x + gap) "pane gap x overflow"
  let y ← u32 (area.y + gap) "pane gap y overflow"
  return ⟨x, y, area.width - margins, area.height - margins⟩

def insetFrame (area : Rect) (verticalWidth horizontalHeight : Nat) : Except String Rect := do
  rejectIf (verticalWidth = 0 ∨ horizontalHeight = 0) "frame edges must be nonzero"
  let horizontalChrome ← u32 (verticalWidth * 2) "frame width overflow"
  let verticalChrome ← u32 (horizontalHeight * 2) "frame height overflow"
  let x ← u32 (area.x + verticalWidth) "frame x overflow"
  let y ← u32 (area.y + horizontalHeight) "frame y overflow"
  rejectIf (area.width < horizontalChrome) "surface cannot fit pane frame width"
  rejectIf (area.height < verticalChrome) "surface cannot fit pane frame height"
  return ⟨x, y, area.width - horizontalChrome, area.height - verticalChrome⟩

def PaneChrome.lineWidth : PaneChrome → Axis → Nat
  | .line verticalWidth _, .horizontal => verticalWidth
  | .line _ horizontalHeight, .vertical => horizontalHeight
  | _, _ => 0

/-- Frames stand inside the allocation of a leaf. -/
def PaneChrome.content (area : Rect) : PaneChrome → Except String Rect
  | .frame verticalWidth horizontalHeight => insetFrame area verticalWidth horizontalHeight
  | _ => .ok area

/-- The first child's area, the lane and the second child's area. -/
def partition (axis : Axis) (ratio : SplitRatio) (separator : Nat) (area : Rect) :
    Except String (Rect × Rect × Rect) := do
  let (exceeds, overflow) := match axis with
    | .horizontal => ("separator exceeds pane width", "pane x coordinate overflow")
    | .vertical => ("separator exceeds pane height", "pane y coordinate overflow")
  rejectIf (area.size axis < separator) exceeds
  let available := area.size axis - separator
  -- at most `available`, so the conversion back to `u32` succeeds
  let firstSize := available * ratio.value / 1000
  let boundary ← u32 (area.start axis + firstSize) overflow
  let second ← u32 (boundary + separator) overflow
  return (area.slice (area.start axis) firstSize axis, area.slice boundary separator axis,
    area.slice second (available - firstSize) axis)

def Reach.first (lead : Nat) : Axis → Reach → Reach
  | .horizontal, reach => { reach with right := lead }
  | .vertical, reach => { reach with bottom := lead }

def Reach.second (trail : Nat) : Axis → Reach → Reach
  | .horizontal, reach => { reach with left := trail }
  | .vertical, reach => { reach with top := trail }

/-- A `u16`, which a deeper leaf does not have. -/
def ancestorDistance (target : SplintId) : LayoutNode → Option Nat
  | .leaf splint => if splint.id = target then some 0 else none
  | .branch _ _ first second => ((ancestorDistance target first).or (ancestorDistance target second)).bind
      fun distance => if distance + 1 < 2 ^ 16 then some (distance + 1) else none

section

variable (chrome : PaneChrome) (gap minimumWidth minimumHeight : Nat)

def visit : LayoutNode → Rect → Reach → Except String Drawn
  | .leaf splint, area, reach => do
    let content ← chrome.content area
    rejectIf (content.width < minimumWidth ∨ content.height < minimumHeight)
      "surface cannot fit every pane at its minimum dimensions"
    let extent ← grow area reach
    return ⟨[⟨splint.id, content, area, extent⟩], [], []⟩
  | .branch axis ratio first second, area, reach => do
    let line := chrome.lineWidth axis
    let separator ← u32 (line + gap) "pane gap overflow"
    let lead := gap / 2
    let (firstRect, lane, secondRect) ← partition axis ratio separator area
    let dividers ← drawDivider axis lane line lead reach
    let target := first.firstSplintId
    let ancestor ← (ancestorDistance target first).elim (throw "split target is absent") pure
    let before ← visit first firstRect (reach.first lead axis)
    let after ← visit second secondRect (reach.second (gap - lead) axis)
    return ⟨before.panes ++ after.panes, dividers ++ before.separators ++ after.separators,
      ⟨axis, area, lane.start axis, separator, target, ancestor⟩ :: (before.splits ++ after.splits)⟩

def PaneLayout.computeWithGap (root : LayoutNode) (area : Rect) : Except String PaneLayout := do
  rejectIf (area.width = 0 ∨ area.height = 0) "pane area must be nonempty"
  rejectIf (minimumWidth = 0 ∨ minimumHeight = 0) "minimum pane dimensions must be nonzero"
  let inner ← insetByGap area gap
  let drawn ← visit chrome gap minimumWidth minimumHeight root inner {}
  return { drawn with chrome, gap, area }

end

/-! ## Previews -/

/-- `path_to_target` of the preview: whether the target was found, and the turns pushed so far. -/
def previewPath (target : SplintId) : LayoutNode → List Bool → Bool × List Bool
  | .leaf splint, path => (splint.id = target, path)
  | .branch _ _ first second, path =>
    let (found, path) := previewPath target first (path ++ [false])
    if found then (true, path)
    else
      let (found, path) := previewPath target second (path.dropLast ++ [true])
      if found then (true, path) else (false, path.dropLast)

/-- `none` stands for the returned `false`, which leaves the tree as it was. -/
def applyPreviewRatio (target : SplintId) (ancestor : Nat) (ratio : SplitRatio) (root : LayoutNode) :
    Option LayoutNode :=
  let (found, path) := previewPath target root []
  if ¬ found ∨ path.length ≤ ancestor then none
  else root.setRatioAlong ratio (path.take (path.length - 1 - ancestor))

theorem previewPath_eq (target : SplintId) (node : LayoutNode) (path : List Bool) : previewPath target node path =
      ((node.pathToTarget target).isSome, path ++ (node.pathToTarget target).getD []) := by
  induction node generalizing path with
  | leaf splint => by_cases h : splint.id = target <;> simp [previewPath, pathToTarget, h]
  | branch axis ratio first second ih₁ ih₂ =>
    rw [previewPath, pathToTarget, ih₁]
    cases first.pathToTarget target with
    | some turns => simp
    | none =>
      simp only [ih₂]
      cases second.pathToTarget target <;> simp

/-- The preview and the daemon edit the same branch. -/
theorem applyPreviewRatio_eq (target : SplintId) (ancestor : Nat) (ratio : SplitRatio) (root : LayoutNode) :
    applyPreviewRatio target ancestor ratio root = root.setAncestorRatio target ancestor ratio := by
  rw [applyPreviewRatio, previewPath_eq, setAncestorRatio]
  cases root.pathToTarget target <;> simp

/-! ## Boundaries -/

section

variable {chrome : PaneChrome} {gap width height n : Nat} {target : SplintId} {axis : Axis} {ratio : SplitRatio}
  {node first second node' : LayoutNode} {area : Rect} {reach : Reach} {drawn : Drawn}

/-- What a branch adds to what its children push. -/
theorem visit_branch (h : visit chrome gap width height (.branch axis ratio first second) area reach = .ok drawn) :
    ∃ firstRect lane secondRect ancestor before after,
      partition axis ratio (chrome.lineWidth axis + gap) area = .ok (firstRect, lane, secondRect) ∧
      ancestorDistance first.firstSplintId first = some ancestor ∧
      visit chrome gap width height first firstRect (reach.first (gap / 2) axis) = .ok before ∧
      visit chrome gap width height second secondRect (reach.second (gap - gap / 2) axis) = .ok after ∧
      drawn.panes = before.panes ++ after.panes ∧
      drawn.splits = ⟨axis, area, lane.start axis, chrome.lineWidth axis + gap, first.firstSplintId, ancestor⟩ ::
        (before.splits ++ after.splits) := by
  simp only [visit, bind_eq_ok, u32_eq_ok] at h
  obtain ⟨_, ⟨-, rfl⟩, ⟨firstRect, lane, secondRect⟩, hparts, _, -, ancestor, hancestor, before, hbefore, after, hafter,
    h⟩ := h
  obtain rfl := Except.ok.inj h
  cases hdistance : ancestorDistance first.firstSplintId first with
  | none => rw [hdistance] at hancestor; cases hancestor
  | some distance =>
    rw [hdistance] at hancestor
    cases hancestor
    exact ⟨firstRect, lane, secondRect, _, before, after, hparts, rfl, hbefore, hafter, rfl, rfl⟩

theorem pathToTarget_isSome : (node.pathToTarget target).isSome ↔ target ∈ node.splintIds := by
  induction node with
  | leaf splint => simp [pathToTarget, @eq_comm _ target]
  | branch axis ratio first second ih₁ ih₂ => simp [pathToTarget, ih₁, ih₂]

theorem pathToTarget_first {path : List Bool} (hpath : first.pathToTarget target = some path) :
    (LayoutNode.branch axis ratio first second).pathToTarget target = some (false :: path) := by
  rw [pathToTarget, hpath]
  rfl

/-- In a tree of distinct leaves the turns to a leaf of the second child are not found in the first. -/
theorem pathToTarget_second {path : List Bool} (hdistinct : (LayoutNode.branch axis ratio first second).splintIds.Nodup)
    (hpath : second.pathToTarget target = some path) :
    (LayoutNode.branch axis ratio first second).pathToTarget target = some (true :: path) := by
  rw [splintIds_branch] at hdistinct
  have hfirst := mt pathToTarget_isSome.mp fun hmem =>
    List.disjoint_of_nodup_append hdistinct hmem (pathToTarget_isSome.mp (by rw [hpath]; rfl))
  rw [pathToTarget, Option.not_isSome_iff_eq_none.mp hfirst, hpath]
  rfl

theorem length_pathToTarget (hdistinct : node.splintIds.Nodup) (h : ancestorDistance target node = some n) :
    ∃ path, node.pathToTarget target = some path ∧ path.length = n := by
  induction node generalizing n with
  | leaf splint => by_cases hid : splint.id = target <;> simp_all [ancestorDistance, pathToTarget]
  | branch axis ratio first second ih₁ ih₂ =>
    obtain ⟨m, hm, hn⟩ := Option.bind_eq_some_iff.mp h
    have hparts := splintIds_branch .. ▸ hdistinct
    split at hn <;> cases hn
    rcases Option.or_eq_some_iff.mp hm with hfirst | ⟨-, hsecond⟩
    · obtain ⟨path, hpath, rfl⟩ := ih₁ hparts.of_append_left hfirst
      exact ⟨false :: path, pathToTarget_first hpath, rfl⟩
    · obtain ⟨path, hpath, rfl⟩ := ih₂ hparts.of_append_right hsecond
      exact ⟨true :: path, pathToTarget_second hdistinct hpath, rfl⟩

theorem setAncestorRatio_eq_some : node.setAncestorRatio target n ratio = some node' ↔
    ∃ path, node.pathToTarget target = some path ∧ n < path.length ∧
      node.setRatioAlong ratio (path.take (path.length - 1 - n)) = some node' := by
  rw [setAncestorRatio]
  cases node.pathToTarget target <;> simp

/-- An edit inside a child is one of the tree. -/
theorem setAncestorRatio_inside {tree : LayoutNode} {turn : Bool} (around : LayoutNode → LayoutNode)
    (h : node.setAncestorRatio target n ratio = some node')
    (hpath : ∀ path, node.pathToTarget target = some path → tree.pathToTarget target = some (turn :: path))
    (hset : ∀ path, tree.setRatioAlong ratio (turn :: path) = (node.setRatioAlong ratio path).map around) :
    tree.setAncestorRatio target n ratio = some (around node') := by
  obtain ⟨path, hfound, hlt, hnode⟩ := setAncestorRatio_eq_some.mp h
  refine setAncestorRatio_eq_some.mpr ⟨turn :: path, hpath path hfound, by simp; omega, ?_⟩
  rw [List.length_cons, show path.length + 1 - 1 - n = path.length - 1 - n + 1 by omega, List.take_succ_cons, hset, hnode]
  rfl

/-- The boundary is the one that a visit of the branch leaves for the branch itself. -/
def DrawnFor (chrome : PaneChrome) (gap width height : Nat) (branch : LayoutNode) (split : PaneSplit) : Prop :=
  ∃ area reach drawn, visit chrome gap width height branch area reach = .ok drawn ∧ drawn.splits.head? = some split

theorem visit_splits (hdistinct : node.splintIds.Nodup) (h : visit chrome gap width height node area reach = .ok drawn) :
    ∀ split ∈ drawn.splits, ∃ passed axis old first second, node = .under passed (.branch axis old first second) ∧
      DrawnFor chrome gap width height (.branch axis old first second) split ∧
      ∀ ratio, node.setAncestorRatio split.target split.ancestor ratio =
        some (.under passed (.branch axis ratio first second)) := by
  induction node generalizing area reach drawn with
  | leaf splint =>
    simp only [visit, bind_eq_ok] at h
    obtain ⟨_, -, _, -, _, -, h⟩ := h
    obtain rfl := Except.ok.inj h
    exact fun _ => by simp
  | branch axis old first second ih₁ ih₂ =>
    obtain ⟨_, _, _, ancestor, before, after, -, hancestor, hbefore, hafter, -, hsplits⟩ := visit_branch h
    have hparts := splintIds_branch .. ▸ hdistinct
    simp only [hsplits, List.mem_cons, List.mem_append]
    rintro split (rfl | hmem | hmem)
    · refine ⟨[], axis, old, first, second, rfl, ⟨area, reach, drawn, h, by rw [hsplits]; rfl⟩,
        fun ratio => setAncestorRatio_eq_some.mpr ?_⟩
      obtain ⟨path, hpath, rfl⟩ := length_pathToTarget hparts.of_append_left hancestor
      exact ⟨false :: path, pathToTarget_first hpath, by simp, by simp [setRatioAlong, under]⟩
    · obtain ⟨passed, axis', old', first', second', rfl, hdrawn, hset⟩ := ih₁ hparts.of_append_left hbefore split hmem
      exact ⟨.first axis old second :: passed, axis', old', first', second', rfl, hdrawn, fun ratio =>
        setAncestorRatio_inside (.branch axis old · second) (hset ratio) (fun _ => pathToTarget_first) fun _ => rfl⟩
    · obtain ⟨passed, axis', old', first', second', rfl, hdrawn, hset⟩ := ih₂ hparts.of_append_right hafter split hmem
      exact ⟨.second axis old first :: passed, axis', old', first', second', rfl, hdrawn, fun ratio =>
        setAncestorRatio_inside (.branch axis old first ·) (hset ratio) (fun _ => pathToTarget_second hdistinct) fun _ => rfl⟩

end

/-- Every boundary was drawn for one branch of the tree, and a new ratio sent to its Splint and ancestor changes the
ratio of that branch and nothing else, in the preview as in the daemon. -/
theorem boundary_addresses_its_branch (root : LayoutNode) (hdistinct : root.splintIds.Nodup) (area : Rect)
    (chrome : PaneChrome) (gap minimumWidth minimumHeight : Nat) (layout : PaneLayout)
    (h : PaneLayout.computeWithGap chrome gap minimumWidth minimumHeight root area = .ok layout) :
    ∀ split ∈ layout.splits, ∃ passed axis old first second, root = .under passed (.branch axis old first second) ∧
      DrawnFor chrome gap minimumWidth minimumHeight (.branch axis old first second) split ∧
      ∀ ratio, applyPreviewRatio split.target split.ancestor ratio root =
          some (.under passed (.branch axis ratio first second)) ∧
        root.setAncestorRatio split.target split.ancestor ratio =
          some (.under passed (.branch axis ratio first second)) := by
  simp only [PaneLayout.computeWithGap, bind_eq_ok] at h
  obtain ⟨_, -, _, -, inner, -, drawn, hdrawn, h⟩ := h
  obtain rfl := Except.ok.inj h
  intro split hmem
  obtain ⟨passed, axis, old, first, second, hroot, hfor, hset⟩ := visit_splits hdistinct hdrawn split hmem
  exact ⟨passed, axis, old, first, second, hroot, hfor,
    fun ratio => ⟨(applyPreviewRatio_eq ..).trans (hset ratio), hset ratio⟩⟩

def twoPanes : LayoutNode :=
  .branch .horizontal ⟨500, by decide, by decide⟩ (.leaf (.shell ⟨1⟩ [])) (.leaf (.shell ⟨2⟩ []))

theorem two_panes_share_a_boundary :
    ∃ layout, PaneLayout.computeWithGap (.line 1 1) 2 1 1 twoPanes ⟨0, 0, 12, 8⟩ = .ok layout ∧
      layout.splits.length = 1 ∧ ∀ split ∈ layout.splits, ∀ ratio, ∃ tree,
        applyPreviewRatio split.target split.ancestor ratio twoPanes = some tree ∧
        twoPanes.setAncestorRatio split.target split.ancestor ratio = some tree := by
  refine ⟨_, rfl, rfl, fun split hmem ratio => ?_⟩
  obtain ⟨_, _, _, _, _, -, -, hset⟩ :=
    boundary_addresses_its_branch twoPanes (by decide) ⟨0, 0, 12, 8⟩ (.line 1 1) 2 1 1 _ rfl split hmem
  exact ⟨_, hset ratio⟩

end Splinterm.Window
