import Mathlib.Data.List.Count
import Splinterm.Window.Panes

/-!
# Panes partition the window

Each branch cuts its area into the first child, a lane and the second child, so that the allocations
of the leaves and the lanes of the branches cover the area inside the outer gap, each pixel once.
-/

namespace Splinterm.Window

open Core Lib Hoare LayoutNode List


/-- The rectangle has the pixel at `x`, `y`. -/
def Rect.covers (x y : Nat) (r : Rect) : Bool := r.x ≤ x ∧ x < r.x + r.width ∧ r.y ≤ y ∧ y < r.y + r.height

/-- `r` lies inside `area`. -/
def Rect.Within (r area : Rect) : Prop :=
  area.x ≤ r.x ∧ r.x + r.width ≤ area.x + area.width ∧ area.y ≤ r.y ∧ r.y + r.height ≤ area.y + area.height

/-- Line and gap between the children of a branch. -/
def PaneSplit.lane (split : PaneSplit) : Rect := split.area.slice split.boundary split.separator split.axis

def Drawn.tiles (drawn : Drawn) : List Rect := drawn.panes.map (·.allocation) ++ drawn.splits.map (·.lane)

/-- Every pixel of the area lies in one of the parts, and no other pixel lies in any. -/
def Tiles (parts : List Rect) (area : Rect) : Prop :=
  ∀ x y, parts.countP (Rect.covers x y) = if area.covers x y then 1 else 0

structure Partitions (chrome : PaneChrome) (gap width height : Nat) (node : LayoutNode) (area : Rect) (drawn : Drawn) :
    Prop where
  ids : drawn.panes.map (·.splintId) = node.splintIds
  content : ∀ pane ∈ drawn.panes, pane.rect.Within pane.allocation ∧ width ≤ pane.rect.width ∧ height ≤ pane.rect.height
  lanes : drawn.splits.length + 1 = node.splintCount ∧
    ∀ split ∈ drawn.splits, split.separator = chrome.lineWidth split.axis + gap
  tiles : Tiles drawn.tiles area

section

variable {chrome : PaneChrome} {gap width height : Nat} {axis : Axis} {ratio : SplitRatio} {separator : Nat}
  {node : LayoutNode} {area firstRect lane secondRect content : Rect} {reach : Reach} {drawn : Drawn}

/-- The second child takes what the first and the lane leave. -/
theorem partition_eq_ok : partition axis ratio separator area = .ok (firstRect, lane, secondRect) ↔
    let size := (area.size axis - separator) * ratio.value / 1000
    separator ≤ area.size axis ∧ area.start axis + size + separator < 2 ^ 32 ∧
      firstRect = area.slice (area.start axis) size axis ∧ lane = area.slice (area.start axis + size) separator axis ∧
      secondRect = area.slice (area.start axis + size + separator) (area.size axis - separator - size) axis := by
  simp only [partition, bind_eq_ok, rejectIf_eq_ok, u32_eq_ok]
  constructor
  · rintro ⟨_, hfits, _, ⟨-, rfl⟩, _, ⟨hend, rfl⟩, h⟩
    obtain ⟨⟩ := Except.ok.inj h
    exact ⟨Nat.not_lt.mp hfits, hend, rfl, rfl, rfl⟩
  · rintro ⟨hfits, hend, rfl, rfl, rfl⟩
    exact ⟨(), Nat.not_lt.mpr hfits, _, ⟨by omega, rfl⟩, _, ⟨hend, rfl⟩, rfl⟩

theorem first_le (available : Nat) (ratio : SplitRatio) : available * ratio.value / 1000 ≤ available := by
  have hratio := Nat.mul_le_mul_left available ratio.le_max
  omega

theorem tiles_partition (h : partition axis ratio separator area = .ok (firstRect, lane, secondRect)) :
    Tiles [firstRect, lane, secondRect] area := by
  obtain ⟨hfits, -, rfl, rfl, rfl⟩ := partition_eq_ok.mp h
  have hsize := first_le (area.size axis - separator) ratio
  intro x y
  cases axis <;> simp only [Rect.size, Rect.start, Rect.slice, Rect.covers, countP_cons, countP_nil,
    decide_eq_true_eq] at hfits hsize ⊢ <;> split_ifs <;> omega

theorem content_within (h : chrome.content area = .ok content) : content.Within area := by
  cases chrome with
  | frame verticalWidth horizontalHeight =>
    simp only [PaneChrome.content, insetFrame, bind_eq_ok, rejectIf_eq_ok, u32_eq_ok] at h
    obtain ⟨_, -, _, ⟨-, rfl⟩, _, ⟨-, rfl⟩, _, ⟨-, rfl⟩, _, ⟨-, rfl⟩, _, hwidth, _, hheight, h⟩ := h
    obtain rfl := Except.ok.inj h
    simp only [Rect.Within]
    omega
  | none | line =>
    obtain rfl := Except.ok.inj h
    simp [Rect.Within]

theorem visit_partitions (h : visit chrome gap width height node area reach = .ok drawn) :
    Partitions chrome gap width height node area drawn := by
  induction node generalizing area reach drawn with
  | leaf splint =>
    simp only [visit, bind_eq_ok, rejectIf_eq_ok] at h
    obtain ⟨content, hcontent, _, hsize, extent, -, h⟩ := h
    obtain rfl := Except.ok.inj h
    exact {
      ids := rfl
      content := forall_mem_singleton.mpr ⟨content_within hcontent, by dsimp only; omega⟩
      lanes := by simp [splintCount]
      tiles := fun x y => by simp [Drawn.tiles, countP_cons] }
  | branch axis ratio first second ih₁ ih₂ =>
    obtain ⟨_, lane, _, ancestor, before, after, hparts, -, hbefore, hafter, hpanes, hsplits⟩ := visit_branch h
    have hb := ih₁ hbefore
    have ha := ih₂ hafter
    have hlane : lane = area.slice (lane.start axis) (chrome.lineWidth axis + gap) axis := by
      obtain ⟨-, -, -, rfl, -⟩ := partition_eq_ok.mp hparts
      cases axis <;> rfl
    refine { ids := by rw [hpanes, map_append, hb.ids, ha.ids, splintIds_branch],
             content := ?_, lanes := ⟨?_, ?_⟩, tiles := fun x y => ?_ }
    · rw [hpanes]
      exact forall_mem_append.mpr ⟨hb.content, ha.content⟩
    · have := hb.lanes.1
      have := ha.lanes.1
      simp only [hsplits, splintCount, length_cons, length_append]
      omega
    · rw [hsplits]
      exact forall_mem_cons.mpr ⟨rfl, forall_mem_append.mpr ⟨hb.lanes.2, ha.lanes.2⟩⟩
    · have hcut := tiles_partition hparts x y
      have hfirst := hb.tiles x y
      have hsecond := ha.tiles x y
      simp only [Drawn.tiles, hpanes, hsplits, PaneSplit.lane, ← hlane, map_append, map_cons,
        countP_append, countP_cons, countP_nil] at hcut hfirst hsecond ⊢
      omega

end

/-- Parts that share no pixel. -/
def Rect.Apart (r r' : Rect) : Prop := ∀ x y, ¬ (r.covers x y ∧ r'.covers x y)

theorem Tiles.pairwise {parts : List Rect} {area : Rect} (h : Tiles parts area) : parts.Pairwise Rect.Apart := by
  have hle : ∀ x y, parts.countP (Rect.covers x y) ≤ 1 := fun x y => by rw [h x y]; split <;> omega
  clear h
  induction parts with
  | nil => exact .nil
  | cons r parts ih =>
    simp only [countP_cons] at hle
    refine .cons (fun r' hr' x y hboth => ?_) (ih fun x y => (Nat.le_add_right ..).trans (hle x y))
    have hcount := hle x y
    rw [if_pos hboth.1] at hcount
    exact countP_eq_zero.mp (Nat.le_zero.mp (Nat.le_of_succ_le_succ hcount)) r' hr' hboth.2

theorem computeWithGap_partitions {root : LayoutNode} {area : Rect} {chrome : PaneChrome} {gap width height : Nat}
    {layout : PaneLayout} (h : PaneLayout.computeWithGap chrome gap width height root area = .ok layout) :
    0 < width ∧ 0 < height ∧ Partitions chrome gap width height root
      ⟨area.x + gap, area.y + gap, area.width - gap * 2, area.height - gap * 2⟩ layout.toDrawn := by
  simp only [PaneLayout.computeWithGap, insetByGap, bind_eq_ok, rejectIf_eq_ok, u32_eq_ok] at h
  obtain ⟨_, -, _, hpos, _, ⟨_, ⟨-, rfl⟩, _, -, _, ⟨-, rfl⟩, _, ⟨-, rfl⟩, hinner⟩, drawn, hdrawn, h⟩ := h
  obtain rfl := Except.ok.inj hinner
  obtain rfl := Except.ok.inj h
  exact ⟨by omega, by omega, visit_partitions hdrawn⟩

/-- A computed layout has one pane for each leaf, from left to right, with disjoint allocations and the content inside
them at no less than the minimum size; and the allocations and the lanes of all branches, each as wide as its line
and the gap, cover the area inside the outer gap exactly. -/
theorem layout_partitions_area (root : LayoutNode) (area : Rect) (chrome : PaneChrome)
    (gap minimumWidth minimumHeight : Nat) (layout : PaneLayout)
    (h : PaneLayout.computeWithGap chrome gap minimumWidth minimumHeight root area = .ok layout) :
    layout.panes.map (·.splintId) = root.splintIds ∧
    (layout.panes.map (·.allocation)).Pairwise Rect.Apart ∧
    (∀ pane ∈ layout.panes, pane.rect.Within pane.allocation ∧ minimumWidth ≤ pane.rect.width ∧
      minimumHeight ≤ pane.rect.height) ∧
    (layout.splits.length + 1 = root.splintCount ∧
      ∀ split ∈ layout.splits, split.separator = chrome.lineWidth split.axis + gap) ∧
    Tiles (layout.panes.map (·.allocation) ++ layout.splits.map (·.lane))
      ⟨area.x + gap, area.y + gap, area.width - gap * 2, area.height - gap * 2⟩ := by
  obtain ⟨-, -, hparts⟩ := computeWithGap_partitions h
  exact ⟨hparts.ids, (pairwise_append.mp hparts.tiles.pairwise).1, hparts.content, hparts.lanes, hparts.tiles⟩

theorem two_panes_partition_their_window : ∃ layout,
    PaneLayout.computeWithGap (.line 1 1) 2 1 1 twoPanes ⟨0, 0, 12, 8⟩ = .ok layout ∧
      (layout.panes.map (·.allocation)).Pairwise Rect.Apart :=
  ⟨_, rfl, (layout_partitions_area twoPanes ⟨0, 0, 12, 8⟩ (.line 1 1) 2 1 1 _ rfl).2.1⟩

end Splinterm.Window
