import Splinterm.Core.Layout

/-!
# Laws of layout edits

A split or a removal changes a tree at one place and leaves everything around it as it was. What is
around a place is the list of branches passed on the way to it, so both edits are stated as the
replacement of a subtree under the same branches.
-/

namespace Splinterm.Core.LayoutNode

open List

/-- A branch passed on the way to a subtree, with the child that was not entered. -/
inductive Passed where
  | first (axis : Axis) (ratio : SplitRatio) (second : LayoutNode)
  | second (axis : Axis) (ratio : SplitRatio) (first : LayoutNode)

/-- The tree with `node` below the passed branches, the root's first. -/
def under : List Passed → LayoutNode → LayoutNode
  | [], node => node
  | .first axis ratio second :: passed, node => branch axis ratio (under passed node) second
  | .second axis ratio first :: passed, node => branch axis ratio first (under passed node)

variable {target : SplintId} {node : LayoutNode}

/-- The leaves beside a subtree do not depend on it. -/
theorem splints_under (passed : List Passed) :
    ∃ before after, ∀ node, (under passed node).splints = before ++ (node.splints ++ after) := by
  induction passed with
  | nil => exact ⟨[], [], fun node => by simp [under]⟩
  | cons step passed ih =>
    obtain ⟨before, after, h⟩ := ih
    cases step with
    | first axis ratio second => exact ⟨before, after ++ second.splints, fun node => by simp [under, splints, h]⟩
    | second axis ratio first => exact ⟨first.splints ++ before, after, fun node => by simp [under, splints, h]⟩

/-! ## Splitting -/

/-- The branch a split puts in the place of a leaf. -/
def parted (splint newSplint : Splint) (axis : Axis) (ratio : SplitRatio) : SplitSide → LayoutNode
  | .first => branch axis ratio (leaf newSplint) (leaf splint)
  | .second => branch axis ratio (leaf splint) (leaf newSplint)

/-- A split happens in the place of one leaf. -/
theorem split_spec (target : SplintId) (newSplint : Splint) (axis : Axis) (side : SplitSide) (ratio : SplitRatio)
    (node : LayoutNode) :
    match node.split target newSplint axis side ratio with
    | none => target ∉ node.splintIds
    | some node' => ∃ passed splint, splint.id = target ∧ node = under passed (leaf splint) ∧
        node' = under passed (parted splint newSplint axis ratio side) := by
  fun_induction split with
  | case1 splint hid hside | case2 splint hid hside =>
    subst hside
    exact ⟨[], splint, hid, rfl, rfl⟩
  | case3 splint hne => exact fun hmem => hne (mem_singleton.mp hmem).symm
  | case4 axis' ratio' first second hfirst ih =>
    cases hsplit : first.split target newSplint axis side ratio with
    | none =>
      rw [hsplit] at ih
      exact absurd (findSplint_isSome.mp hfirst) ih
    | some first' =>
      rw [hsplit] at ih
      obtain ⟨passed, splint, hid, rfl, rfl⟩ := ih
      exact ⟨.first axis' ratio' second :: passed, splint, hid, rfl, rfl⟩
  | case5 axis' ratio' first second hfirst ih =>
    cases hsplit : second.split target newSplint axis side ratio with
    | none =>
      rw [hsplit] at ih
      rw [splintIds_branch, mem_append]
      exact not_or.mpr ⟨mt findSplint_isSome.mpr hfirst, ih⟩
    | some second' =>
      rw [hsplit] at ih
      obtain ⟨passed, splint, hid, rfl, rfl⟩ := ih
      exact ⟨.second axis' ratio' first :: passed, splint, hid, rfl, rfl⟩

theorem splints_split {newSplint : Splint} {axis : Axis} {side : SplitSide} {ratio : SplitRatio} {node' : LayoutNode}
    (h : node.split target newSplint axis side ratio = some node') :
    node'.splints.Perm (newSplint :: node.splints) := by
  have hspec := split_spec target newSplint axis side ratio node
  rw [h] at hspec
  obtain ⟨passed, splint, -, rfl, rfl⟩ := hspec
  obtain ⟨before, after, hsplints⟩ := splints_under passed
  rw [hsplints, hsplints]
  cases side with
  | first => exact perm_middle
  | second => exact ((Perm.swap _ _ _).append_left before).trans perm_middle

/-! ## Removing -/

theorem remove_of_not_mem (h : target ∉ node.splintIds) : node.remove target = .error node := by
  induction node with
  | leaf splint => exact if_neg fun hid => h (mem_singleton.mpr hid.symm)
  | branch axis ratio first second ih₁ ih₂ =>
    rw [splintIds_branch, mem_append, not_or] at h
    simp only [remove, ih₁ h.1, ih₂ h.2]

theorem remove_under {passed : List Passed} {old node' : LayoutNode}
    (habsent : target ∉ (under passed old).splintIds) (h : node.remove target = .ok (some node')) :
    (under passed node).remove target = .ok (some (under passed node')) := by
  induction passed with
  | nil => exact h
  | cons step passed ih =>
    cases step with
    | first axis ratio second =>
      rw [under, splintIds_branch, mem_append, not_or] at habsent
      simp only [under, remove, ih habsent.1]
    | second axis ratio first =>
      rw [under, splintIds_branch, mem_append, not_or] at habsent
      simp only [under, remove, remove_of_not_mem habsent.1, ih habsent.2]

/-- A refused removal hands the tree back. A removed leaf takes its parent along, and its sibling takes the
parent's place. -/
theorem remove_spec (target : SplintId) (node : LayoutNode) :
    match node.remove target with
    | .error node' => node' = node ∧ target ∉ node.splintIds
    | .ok none => ∃ splint, splint.id = target ∧ node = leaf splint
    | .ok (some node') => ∃ passed axis ratio splint sibling, splint.id = target ∧
        (node = under passed (branch axis ratio (leaf splint) sibling) ∨
          node = under passed (branch axis ratio sibling (leaf splint))) ∧ node' = under passed sibling := by
  fun_induction remove with
  | case1 splint hid => exact ⟨splint, hid, rfl⟩
  | case2 splint hne => exact ⟨rfl, fun hmem => hne (mem_singleton.mp hmem).symm⟩
  | case3 axis ratio _ second hfirst ih =>
    rw [hfirst] at ih
    obtain ⟨splint, hid, rfl⟩ := ih
    exact ⟨[], axis, ratio, splint, second, hid, .inl rfl, rfl⟩
  | case4 axis ratio _ second _ hfirst ih =>
    rw [hfirst] at ih
    obtain ⟨passed, axis', ratio', splint, sibling, hid, hunder, rfl⟩ := ih
    refine ⟨.first axis ratio second :: passed, axis', ratio', splint, sibling, hid, ?_, rfl⟩
    exact hunder.imp (congrArg (branch axis ratio · second)) (congrArg (branch axis ratio · second))
  | case5 axis ratio first _ _ hfirst hsecond ih₁ ih₂ =>
    rw [hfirst] at ih₁
    rw [hsecond] at ih₂
    obtain ⟨splint, hid, rfl⟩ := ih₂
    exact ⟨[], axis, ratio, splint, first, hid, .inr rfl, ih₁.1⟩
  | case6 axis ratio first _ _ hfirst _ hsecond ih₁ ih₂ =>
    rw [hfirst] at ih₁
    rw [hsecond] at ih₂
    obtain ⟨passed, axis', ratio', splint, sibling, hid, hunder, rfl⟩ := ih₂
    refine ⟨.second axis ratio first :: passed, axis', ratio', splint, sibling, hid, ?_, by rw [ih₁.1]; rfl⟩
    exact hunder.imp (congrArg (branch axis ratio first)) (congrArg (branch axis ratio first))
  | case7 axis ratio _ _ _ hfirst _ hsecond ih₁ ih₂ =>
    rw [hfirst] at ih₁
    rw [hsecond] at ih₂
    refine ⟨congrArg₂ (branch axis ratio) ih₁.1 ih₂.1, ?_⟩
    rw [splintIds_branch, mem_append]
    exact not_or.mpr ⟨ih₁.2, ih₂.2⟩

theorem splints_remove_some {node' : LayoutNode} (h : node.remove target = .ok (some node')) :
    ∃ s, s.id = target ∧ node.splints.Perm (s :: node'.splints) := by
  have hspec := remove_spec target node
  rw [h] at hspec
  obtain ⟨passed, axis, ratio, splint, sibling, hid, hunder, rfl⟩ := hspec
  obtain ⟨before, after, hsplints⟩ := splints_under passed
  refine ⟨splint, hid, ?_⟩
  rcases hunder with rfl | rfl
  · rw [hsplints, hsplints]
    exact perm_middle
  · rw [hsplints, hsplints]
    exact ((perm_append_comm.append_right _).append_left _).trans perm_middle

/-! ## The laws -/

theorem remove_parted {splint newSplint : Splint} (axis : Axis) (ratio : SplitRatio) (side : SplitSide)
    (hne : splint.id ≠ newSplint.id) :
    (parted splint newSplint axis ratio side).remove newSplint.id = .ok (some (leaf splint)) := by
  cases side <;> simp [parted, remove, hne]

theorem filter_around {before after : List Splint} {splint : Splint} (hid : splint.id = target)
    (hdistinct : ((before ++ (splint :: after)).map (·.id)).Nodup) :
    (before ++ (splint :: after)).filter (·.id ≠ target) = before ++ after := by
  subst hid
  rw [map_append, map_cons, nodup_middle, nodup_cons, ← map_append] at hdistinct
  have hkept : (before ++ after).filter (·.id ≠ splint.id) = before ++ after := filter_eq_self.mpr fun other hother =>
      decide_eq_true fun hsame => hdistinct.1 (mem_map.mpr ⟨other, hother, hsame⟩)
  rw [← hkept, filter_append, filter_append, filter_cons_of_neg (by simp)]

/-- In a tree of distinct leaves a split puts the new leaf beside the target, on the side asked for, under the
branches that led to the target, and its removal restores the tree. A removal from two leaves on keeps the
other leaves in order and puts the sibling of the removed leaf in the place of their parent. -/
theorem layout_edit_laws (node : LayoutNode) (hdistinct : node.splintIds.Nodup) :
    (∀ target ∈ node.splintIds, ∀ newSplint : Splint, newSplint.id ∉ node.splintIds → ∀ axis side ratio,
      ∃ passed splint node', splint.id = target ∧ node = under passed (leaf splint) ∧
        node.split target newSplint axis side ratio = some node' ∧
        node' = under passed (parted splint newSplint axis ratio side) ∧
        (∃ before after, node.splints = before ++ splint :: after ∧ node'.splints = before ++ (match side with
            | .first => [newSplint, splint]
            | .second => [splint, newSplint]) ++ after) ∧ node'.remove newSplint.id = .ok (some node)) ∧
    ∀ target ∈ node.splintIds, 2 ≤ node.splintCount → ∃ passed axis ratio splint sibling, splint.id = target ∧
        (node = under passed (branch axis ratio (leaf splint) sibling) ∨
          node = under passed (branch axis ratio sibling (leaf splint))) ∧
        node.remove target = .ok (some (under passed sibling)) ∧
        (under passed sibling).splints = node.splints.filter (·.id ≠ target) := by
  refine ⟨fun target hmem newSplint hfresh axis side ratio => ?_, fun target hmem hmany => ?_⟩
  · have hspec := split_spec target newSplint axis side ratio node
    split at hspec
    · exact absurd hmem hspec
    next hsplit =>
    obtain ⟨passed, splint, hid, hunder, rfl⟩ := hspec
    refine ⟨passed, splint, _, hid, hunder, hsplit, rfl, ?_, ?_⟩
    · obtain ⟨before, after, hsplints⟩ := splints_under passed
      refine ⟨before, after, by rw [hunder, hsplints]; rfl, ?_⟩
      rw [hsplints, ← append_assoc]
      cases side <;> rfl
    · have hne : splint.id ≠ newSplint.id := fun hsame => hfresh (by rwa [← hsame, hid])
      rw [hunder]
      exact remove_under (hunder ▸ hfresh) (remove_parted axis ratio side hne)
  · have hspec := remove_spec target node
    split at hspec
    · exact absurd hmem hspec.2
    · obtain ⟨splint, -, rfl⟩ := hspec
      exact absurd hmany (Nat.not_succ_le_self 1)
    next hremove =>
    obtain ⟨passed, axis, ratio, splint, sibling, hid, hunder, rfl⟩ := hspec
    refine ⟨passed, axis, ratio, splint, sibling, hid, hunder, hremove, ?_⟩
    obtain ⟨before, after, hsplints⟩ := splints_under passed
    rcases hunder with rfl | rfl
    · rw [splintIds, hsplints] at hdistinct
      rw [hsplints, hsplints]
      exact (filter_around hid hdistinct).symm
    · have hleaves : (under passed (branch axis ratio sibling (leaf splint))).splints =
          (before ++ sibling.splints) ++ splint :: after := by
        rw [hsplints, splints, splints, append_assoc, append_assoc, singleton_append]
      rw [splintIds, hleaves] at hdistinct
      rw [hsplints, hleaves, ← append_assoc, filter_around hid hdistinct]

/-- The second of two leaves is split on its first side and restored, and the first leaf is removed. -/
theorem two_leaves_edit_laws :
    ((branch .horizontal ⟨500, by decide, by decide⟩ (leaf (.shell ⟨1⟩ [])) (leaf (.shell ⟨2⟩ []))).split ⟨2⟩
      (.shell ⟨3⟩ []) .vertical .first ⟨300, by decide, by decide⟩).map (·.splintIds) = some [⟨1⟩, ⟨3⟩, ⟨2⟩] ∧
    ∃ node', (branch .horizontal ⟨500, by decide, by decide⟩ (leaf (.shell ⟨1⟩ []))
      (leaf (.shell ⟨2⟩ []))).remove ⟨1⟩ = .ok (some node') ∧ node'.splints = [.shell ⟨2⟩ []] := by
  obtain ⟨hsplit, hremove⟩ := layout_edit_laws
    (branch .horizontal ⟨500, by decide, by decide⟩ (leaf (.shell ⟨1⟩ [])) (leaf (.shell ⟨2⟩ []))) (by decide)
  refine ⟨?_, ?_⟩
  · obtain ⟨_, _, node', -, -, hok, -, -, -⟩ := hsplit ⟨2⟩ (by decide) (.shell ⟨3⟩ []) (by decide) .vertical .first
      ⟨300, by decide, by decide⟩
    rw [hok]
    cases hok
    rfl
  · obtain ⟨passed, _, _, _, sibling, -, -, hremoved, hkept⟩ := hremove ⟨1⟩ (by decide) (by decide)
    exact ⟨_, hremoved, hkept.trans (by decide)⟩

end Splinterm.Core.LayoutNode
