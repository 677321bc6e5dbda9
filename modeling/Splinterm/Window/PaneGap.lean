import Splinterm.Window.PaneTiling

/-!
# Preferred gaps

A layout takes the largest gap up to a preferred one that fits, found by a binary search. The search
relies on every smaller gap to fit where a larger one does. That holds in an area that ends inside the
32-bit coordinates along the axes the tree divides; past their end less gap can put the edge of a pane
where no coordinate is.
-/

namespace Splinterm.Window

open Core Lib Hoare LayoutNode

/-- The binary search: `fits` is the layout for `low`, and `high` does not fit. -/
def searchGap (compute : Nat → Except String PaneLayout) (fits : PaneLayout) (low high : Nat) : PaneLayout :=
  if 1 < high - low then
    match compute (low + (high - low) / 2) with
    | .ok layout => searchGap compute layout (low + (high - low) / 2) high
    | .error _ => searchGap compute fits low (low + (high - low) / 2)
  else fits
termination_by high - low

def PaneLayout.computeWithPreferredGap (chrome : PaneChrome) (preferredGap minimumWidth minimumHeight : Nat)
    (root : LayoutNode) (area : Rect) : Except String PaneLayout := do
  let compute gap := computeWithGap chrome gap minimumWidth minimumHeight root area
  let preferred := compute preferredGap
  if preferred.isOk ∨ preferredGap = 0 then preferred
  else
    let fits ← compute 0
    return searchGap compute fits 0 preferredGap

def FitsWith (compute : Nat → Except String PaneLayout) (gap : Nat) : Prop := ∃ layout, compute gap = .ok layout

/-- The search ends with a gap that fits and whose successor does not. -/
theorem searchGap_eq {compute : Nat → Except String PaneLayout} {fits : PaneLayout} {low high : Nat}
    (hlow : compute low = .ok fits) (hhigh : ¬ FitsWith compute high) (hlt : low < high) :
    ∃ gap < high, compute gap = .ok (searchGap compute fits low high) ∧ ¬ FitsWith compute (gap + 1) := by
  fun_induction searchGap with
  | case1 fits low high hwide layout hmiddle ih => exact ih hmiddle hhigh (by omega)
  | case2 fits low high hwide e hmiddle ih =>
    obtain ⟨gap, hgap, hfound⟩ := ih hlow (by rintro ⟨layout, hok⟩; cases hmiddle.symm.trans hok) (by omega)
    exact ⟨gap, by omega, hfound⟩
  | case3 fits low high hclose =>
    obtain rfl : high = low + 1 := by omega
    exact ⟨low, hlt, hlow, hhigh⟩

section

variable {chrome : PaneChrome} {gap gap' width height : Nat} {node : LayoutNode} {area area' : Rect}
  {reach reach' : Reach} {drawn : Drawn}

/-- A branch of the tree divides its area along the axis. -/
def Divides (axis : Axis) : LayoutNode → Prop
  | .leaf _ => False
  | .branch own _ first second => own = axis ∨ Divides axis first ∨ Divides axis second

variable {along : Axis → Prop}

def Growable (area : Rect) (reach : Reach) : Prop :=
  (reach.left ≤ area.x ∧ area.width + reach.left + reach.right < 2 ^ 32) ∧
    reach.top ≤ area.y ∧ area.height + reach.top + reach.bottom < 2 ^ 32

def Reach.past : Axis → Reach → Nat
  | .horizontal, reach => reach.right
  | .vertical, reach => reach.bottom

/-- What surrounds the area has 32-bit sizes, and 32-bit coordinates along the chosen axes. -/
structure Roomy (along : Axis → Prop) (area : Rect) (reach : Reach) : Prop where
  sized : Growable area reach
  inside : ∀ axis, along axis → area.start axis + area.size axis + reach.past axis < 2 ^ 32

theorem exists_grow (h : Growable area reach) : ∃ rect, grow area reach = .ok rect := by
  simp only [Growable] at h
  simp only [grow, bind_eq_ok, rejectIf_eq_ok, u32_eq_ok]
  exact ⟨_, (), by omega, (), by omega, _, ⟨by omega, rfl⟩, _, ⟨by omega, rfl⟩, rfl⟩

/-- Both children get at least as much of a larger area. -/
theorem shares_mono (ratio : SplitRatio) {available available' : Nat} (h : available ≤ available') :
    available * ratio.value / 1000 ≤ available' * ratio.value / 1000 ∧
      available - available * ratio.value / 1000 ≤ available' - available' * ratio.value / 1000 := by
  obtain ⟨more, rfl⟩ := Nat.exists_eq_add_of_le h
  have hmore := Nat.mul_le_mul_left more ratio.le_max
  rw [Nat.add_mul]
  omega

variable {axis : Axis} {ratio : SplitRatio} {separator separator' : Nat}
  {firstRect lane secondRect firstRect' lane' secondRect' : Rect}

theorem partition_mono (halong : along axis)
    (h : partition axis ratio separator area = .ok (firstRect, lane, secondRect))
    (h' : partition axis ratio separator' area' = .ok (firstRect', lane', secondRect')) (hgap : separator' ≤ separator)
    (hsize : ∀ axis, area.size axis ≤ area'.size axis)
    (hstart : ∀ axis, ¬ along axis → area'.start axis ≤ area.start axis) :
    ((∀ axis, firstRect.size axis ≤ firstRect'.size axis) ∧
      ∀ axis, ¬ along axis → firstRect'.start axis ≤ firstRect.start axis) ∧
    (∀ axis, secondRect.size axis ≤ secondRect'.size axis) ∧
      ∀ axis, ¬ along axis → secondRect'.start axis ≤ secondRect.start axis := by
  obtain ⟨-, -, rfl, rfl, rfl⟩ := partition_eq_ok.mp h
  obtain ⟨-, -, rfl, rfl, rfl⟩ := partition_eq_ok.mp h'
  obtain ⟨hfirst, hsecond⟩ := shares_mono ratio (show area.size axis - separator ≤ area'.size axis - separator' by
    have := hsize axis; omega)
  refine ⟨⟨fun other => ?_, fun other hother => ?_⟩, fun other => ?_, fun other hother => ?_⟩
  case refine_1 | refine_3 =>
    have := hsize other
    cases axis <;> cases other <;> assumption
  all_goals
    have := hstart other hother
    cases axis <;> cases other <;> first | exact absurd halong hother | assumption

theorem exists_divider {lead : Nat} (hroom : Growable lane reach) (hlead : lane.start axis + lead < 2 ^ 32)
    (line : Nat) : ∃ dividers, drawDivider axis lane line lead reach = .ok dividers := by
  obtain ⟨rect, hrect⟩ : ∃ rect, dividerLine axis lane line lead reach = .ok rect := by
    simp only [dividerLine, bind_eq_ok, u32_eq_ok]
    refine (exists_grow ?_).elim fun rect hrect => ⟨_, _, ⟨hlead, rfl⟩, rect, hrect, rfl⟩
    cases axis <;> simp only [Growable] at * <;> omega
  rw [drawDivider, hrect]
  split <;> exact ⟨_, rfl⟩

/-- The children of a roomy area and the divider between them are inside it. -/
theorem Roomy.partition (hroom : Roomy along area reach) (halong : along axis) (hgap : gap ≤ separator)
    (h : Window.partition axis ratio separator area = .ok (firstRect, lane, secondRect)) (line : Nat) :
    Roomy along firstRect (reach.first (gap / 2) axis) ∧ Roomy along secondRect (reach.second (gap - gap / 2) axis) ∧
      ∃ dividers, drawDivider axis lane line (gap / 2) reach = .ok dividers := by
  obtain ⟨hfits, hend, rfl, rfl, rfl⟩ := partition_eq_ok.mp h
  obtain ⟨hsized, hinside⟩ := hroom
  have hsize := first_le (area.size axis - separator) ratio
  refine ⟨⟨?_, fun other hother => ?_⟩, ⟨?_, fun other hother => ?_⟩, exists_divider ?_ ?_ line⟩
  case refine_2 | refine_4 =>
    have hother := hinside other hother
    cases axis <;> cases other <;>
      simp only [Growable, Rect.size, Rect.start, Rect.slice, Reach.first, Reach.second, Reach.past] at * <;> omega
  all_goals
    cases axis <;>
      simp only [Growable, Rect.size, Rect.start, Rect.slice, Reach.first, Reach.second, Reach.past] at * <;> omega

/-- A larger area that starts no later along the undivided axes and a smaller gap leave every pane at least as
much room. -/
theorem visit_of_larger (h : visit chrome gap width height node area reach = .ok drawn) (hgap : gap' ≤ gap)
    (hsize : ∀ axis, area.size axis ≤ area'.size axis)
    (hstart : ∀ axis, ¬ along axis → area'.start axis ≤ area.start axis) (hroom : Roomy along area' reach')
    (halong : ∀ axis, Divides axis node → along axis) :
    ∃ drawn', visit chrome gap' width height node area' reach' = .ok drawn' := by
  induction node generalizing area area' reach reach' drawn with
  | leaf splint =>
    simp only [visit, bind_eq_ok, rejectIf_eq_ok] at h ⊢
    obtain ⟨content, hcontent, _, hminimum, -⟩ := h
    obtain ⟨extent, hextent⟩ := exists_grow hroom.sized
    have hwidth := hsize .horizontal
    have hheight := hsize .vertical
    simp only [Rect.size] at hwidth hheight
    cases chrome with
    | frame verticalWidth horizontalHeight =>
      simp only [PaneChrome.content, insetFrame, bind_eq_ok, rejectIf_eq_ok, u32_eq_ok] at hcontent ⊢
      obtain ⟨_, hedges, _, ⟨hw, rfl⟩, _, ⟨hh, rfl⟩, _, ⟨hx, rfl⟩, _, ⟨hy, rfl⟩, _, hfw, _, hfh, hcontent⟩ := hcontent
      obtain rfl := Except.ok.inj hcontent
      have hinside : ∀ axis edge, area.start axis + edge < 2 ^ 32 → edge ≤ area'.size axis →
          area'.start axis + edge < 2 ^ 32 := by
        intro axis edge hedge hfits
        by_cases ha : along axis
        · have := hroom.inside axis ha
          omega
        · have := hstart axis ha
          omega
      have hx' := hinside .horizontal _ hx (by simp only [Rect.size]; omega)
      have hy' := hinside .vertical _ hy (by simp only [Rect.size]; omega)
      exact ⟨_, _, ⟨(), hedges, _, ⟨hw, rfl⟩, _, ⟨hh, rfl⟩, _, ⟨hx', rfl⟩, _, ⟨hy', rfl⟩, (), by omega, (), by omega, rfl⟩,
        (), by dsimp only at hminimum ⊢; omega, extent, hextent, rfl⟩
    | none | line =>
      obtain rfl := Except.ok.inj hcontent
      exact ⟨_, _, rfl, (), by omega, extent, hextent, rfl⟩
  | branch axis ratio first second ih₁ ih₂ =>
    obtain ⟨_, _, _, ancestor, before, after, hparts, hancestor, hbefore, hafter, -, -⟩ := visit_branch h
    have hown : along axis := halong axis (.inl rfl)
    obtain ⟨hfits, -⟩ := partition_eq_ok.mp hparts
    have hlarger := hsize axis
    have hend := hroom.inside axis hown
    have hfirst := first_le (area'.size axis - (chrome.lineWidth axis + gap')) ratio
    have hparts' : partition axis ratio (chrome.lineWidth axis + gap') area' = .ok (_, _, _) :=
      partition_eq_ok.mpr ⟨by omega, by omega, rfl, rfl, rfl⟩
    obtain ⟨hroom₁, hroom₂, dividers, hdividers⟩ := hroom.partition hown (Nat.le_add_left gap' _) hparts'
      (chrome.lineWidth axis)
    obtain ⟨⟨hsize₁, hstart₁⟩, hsize₂, hstart₂⟩ := partition_mono hown hparts hparts' (by omega) hsize hstart
    obtain ⟨before', hbefore'⟩ := ih₁ hbefore hsize₁ hstart₁ hroom₁ fun axis h => halong axis (.inr (.inl h))
    obtain ⟨after', hafter'⟩ := ih₂ hafter hsize₂ hstart₂ hroom₂ fun axis h => halong axis (.inr (.inr h))
    simp only [visit, bind_eq_ok, u32_eq_ok]
    exact ⟨_, _, ⟨by omega, rfl⟩, _, hparts', dividers, hdividers, ancestor, by rw [hancestor]; rfl, before', hbefore',
      after', hafter', rfl⟩

theorem computeWithGap_of_larger {root : LayoutNode} {layout : PaneLayout}
    (hwidth : area.width < 2 ^ 32) (hheight : area.height < 2 ^ 32)
    (hinside : ∀ axis, Divides axis root → area.start axis + area.size axis < 2 ^ 32)
    (h : PaneLayout.computeWithGap chrome gap width height root area = .ok layout) (hgap : gap' ≤ gap) :
    ∃ layout', PaneLayout.computeWithGap chrome gap' width height root area = .ok layout' := by
  simp only [PaneLayout.computeWithGap, insetByGap, bind_eq_ok, rejectIf_eq_ok, u32_eq_ok] at h ⊢
  obtain ⟨_, harea, _, hmin, _, ⟨_, ⟨hmargins, rfl⟩, _, hfits, _, ⟨hx, rfl⟩, _, ⟨hy, rfl⟩, hinner⟩, drawn, hdrawn, -⟩ := h
  obtain rfl := Except.ok.inj hinner
  obtain ⟨drawn', hdrawn'⟩ : ∃ drawn', visit chrome gap' width height root
      ⟨area.x + gap', area.y + gap', area.width - gap' * 2, area.height - gap' * 2⟩ {} = .ok drawn' := by
    refine visit_of_larger hdrawn hgap (fun axis => ?_) (fun axis _ => ?_)
      ⟨by simp only [Growable]; omega, fun axis hdivides => ?_⟩ fun axis hdivides => hdivides
    · cases axis <;> simp only [Rect.size] <;> omega
    · cases axis <;> simp only [Rect.start] <;> omega
    · have := hinside axis hdivides
      cases axis <;> simp only [Rect.start, Rect.size, Reach.past] at * <;> omega
  exact ⟨_, (), harea, (), hmin, _, ⟨_, ⟨by omega, rfl⟩, (), by omega, _, ⟨by omega, rfl⟩, _, ⟨by omega, rfl⟩, rfl⟩,
    drawn', hdrawn', rfl⟩

end

/-- Two panes side by side in nine to one. -/
def unevenPanes : LayoutNode :=
  .branch .horizontal ⟨900, by decide, by decide⟩ (.leaf (.shell ⟨1⟩ [])) (.leaf (.shell ⟨2⟩ []))

end Splinterm.Window
