import Splinterm.Lib.Run
import Splinterm.Terminal.ImagePlane

/-!
# The image plane's accounts

The counters of the plane are updated by hand beside the catalogues they count. Every operation
keeps them exact, wherever it ends, and keeps the limits on contents. The limit on placements is
checked where a placement is made, but not where the resolution of overlaps puts one back. So it is
kept as long as there is room for all the pieces into which the resolution may cut the placements.
-/

namespace Splinterm.Terminal

open Lib Hoare List Nat OrdMap

namespace ImagePlane

variable {α β : Type} {plane plane' plane'' : ImagePlane} {screen other : ActiveScreen} {owed : Int}
  {ids ids' : List Nat} {id : Nat}

/-! ## Where an operation ends -/

/-- What holds where `m` ends. It returns or is rejected: no counter goes below zero and nothing
that has to be there is missing. -/
def Ends (P : ImagePlane → Prop) (m : PlaneM α) (plane : ImagePlane) : Prop :=
  wp m (fun _ => P) (fun stop plane' => (∃ e, stop = .rejected e) ∧ P plane') plane

/-- The plane an operation leaves, rejected or not. -/
def after (m : PlaneM α) (plane : ImagePlane) : ImagePlane :=
  match m plane with
  | .ok _ plane' => plane'
  | .error _ plane' => plane'

variable {m : PlaneM α}

theorem wp_after {P : ImagePlane → Prop} (h : wp m (fun _ => P) (fun _ => P) plane) : P (after m plane) := by
  rw [wp] at h
  rw [after]
  cases hrun : m plane with
  | ok | error => rwa [hrun] at h

variable {fail : ImageStop → ImagePlane → Prop}

theorem wp_check_bind {post : β → ImagePlane → Prop} {k : α → PlaneM β}
    {r : Except ImageError α} (hfail : ∀ e, fail (.rejected e) plane) (hk : ∀ a, wp (k a) post fail plane) :
    wp (check r >>= k) post fail plane := by
  cases r with
  | ok a => exact hk a
  | error e => exact hfail e

namespace Ends

variable {P Q : ImagePlane → Prop} {m : PlaneM α} {k : α → PlaneM β} {fail : ImageStop → ImagePlane → Prop}

theorem of_wp (h : wp m (fun _ => P) (fun _ _ => False) plane) : Ends P m plane :=
  wp_mono h (fun _ _ hp => hp) fun _ _ => False.elim

theorem mono (h : Ends Q m plane) (hq : ∀ plane', Q plane' → P plane') : Ends P m plane :=
  wp_mono h (fun _ => hq) fun _ _ => And.imp_right (hq _)

theorem bind (hm : Ends P m plane) (hk : ∀ a plane', P plane' → Ends P (k a) plane') : Ends P (m >>= k) plane := by
  rw [Ends, wp_bind]
  exact wp_imp hm hk

theorem get_bind {k : ImagePlane → PlaneM β} (h : Ends P (k plane) plane) : Ends P (get >>= k) plane := h

theorem check_bind {r : Except ImageError α} (hp : P plane) (hk : ∀ a, Ends P (k a) plane) :
    Ends P (check r >>= k) plane :=
  wp_check_bind (fun e => ⟨⟨e, rfl⟩, hp⟩) hk

theorem rejectWhen_bind {c : Prop} [Decidable c] {e : ImageError} {k : Unit → PlaneM β} (hp : P plane)
    (hk : ¬ c → Ends P (k ()) plane) : Ends P (rejectWhen c e >>= k) plane := by
  rw [rejectWhen, rejectIf]
  by_cases hc : c
  · rw [if_pos hc]
    exact ⟨⟨e, rfl⟩, hp⟩
  · rw [if_neg hc]
    exact hk hc

theorem whenever {c : Prop} [Decidable c] {m : PlaneM Unit} (hp : P plane) (h : Ends P m plane) :
    Ends P (Hoare.whenever c m) plane := by
  rw [Hoare.whenever]
  split
  · exact h
  · exact hp

/-- Catching a rejection leaves the plane where it was. -/
theorem attempt (h : Ends P m plane) : wp (ImagePlane.attempt m) (fun _ => P) fail plane := by
  simp only [Ends, wp, ImagePlane.attempt] at h ⊢
  split at h
  · rename_i hrun
    rw [hrun]
    exact h
  · rename_i hrun
    obtain ⟨⟨e, rfl⟩, hp⟩ := h
    rw [hrun]
    exact hp

theorem after (h : Ends P m plane) : P (after m plane) :=
  wp_after (wp_mono h (fun _ _ hp => hp) fun _ _ hp => hp.2)

end Ends

theorem wp_expecting {P : α → ImagePlane → Prop}
    (h : wp m P (fun _ _ => False) plane) : wp (expecting m) P fail plane := by
  simp only [wp, expecting] at h ⊢
  split at h
  · rename_i hrun
    rw [hrun]
    exact h
  · exact h.elim

/-! ## The invariant -/

/-- A measure summed over both screens. -/
def total (size : ImageCatalog → Nat) (plane : ImagePlane) : Nat :=
  size plane.normal + size plane.alternate

/-- The counters are the sums over both screens, but for the bytes `owed` while a content is being
replaced. Identities in use are below the next ones. -/
structure Books (owed : Int) (plane : ImagePlane) : Prop where
  contentCount : plane.metrics.contentCount = plane.total fun c => c.contents.weigh fun _ => 1
  contentBytes : (plane.metrics.contentBytes : Int) =
    plane.total (fun c => c.contents.weigh (·.metadata.byteCharge)) + owed
  placementCount : plane.metrics.placementCount = plane.total fun c => c.placements.weigh fun _ => 1
  le : plane.metrics.contentCount ≤ plane.limits.contentsPerTerminal ∧
    plane.metrics.contentBytes ≤ plane.limits.bytesPerTerminal
  contentId : ∀ screen id content, (plane.catalog screen).contents.get? id = some content →
    content.metadata.id = id ∧ id < plane.nextContentId
  placementId : ∀ screen id placement, (plane.catalog screen).placements.get? id = some placement →
    placement.id = id ∧ id < plane.nextPlacementId

def Within (plane : ImagePlane) : Prop :=
  plane.metrics.placementCount ≤ plane.limits.placementsPerTerminal

/-- The books are kept, no placement that was there is touched but those in `ids`, and at most `grown` are added. -/
structure Kept (owed : Int) (screen : ActiveScreen) (ids : List Nat) (grown : Nat) (plane plane' : ImagePlane) :
    Prop where
  books : plane'.Books owed
  limits : plane'.limits = plane.limits
  within : plane.Within → plane'.Within
  next : plane.nextPlacementId ≤ plane'.nextPlacementId
  spared : ∀ id, id < plane.nextPlacementId → id ∉ ids →
    (plane'.catalog screen).placements.get? id = (plane.catalog screen).placements.get? id
  count : plane'.metrics.placementCount ≤ plane.metrics.placementCount + grown

variable {grown grown' : Nat}

theorem Books.kept (h : plane.Books owed) : Kept owed screen ids grown plane plane :=
  ⟨h, rfl, fun hw => hw, le_rfl, fun _ _ _ => rfl, Nat.le_add_right ..⟩

theorem Kept.trans {owed' : Int} (h : Kept owed screen ids grown plane plane')
    (h' : Kept owed' screen ids' grown' plane' plane'') :
    Kept owed' screen (ids ++ ids') (grown + grown') plane plane'' where
  books := h'.books
  limits := h'.limits.trans h.limits
  within hw := h'.within (h.within hw)
  next := h.next.trans h'.next
  spared id hid hnot := by
    rw [mem_append, not_or] at hnot
    rw [h'.spared id (hid.trans_le h.next) hnot.2, h.spared id hid hnot.1]
  count := by
    have hfirst := h.count
    have hsecond := h'.count
    omega

/-- What follows without touching a placement adds nothing to the list. -/
theorem Kept.then (h : Kept owed screen ids grown plane plane') (h' : Kept owed screen [] 0 plane' plane'') :
    Kept owed screen ids grown plane plane'' := by
  simpa using h.trans h'

/-! ## One entry -/

/-- One catalogue replaced, with the counters and the next identities. -/
def commit (plane : ImagePlane) (screen : ActiveScreen) (catalog : ImageCatalog) (metrics : ImageMetrics)
    (nextContentId nextPlacementId nextGeneration nextCreationOrder : Nat) : ImagePlane :=
  { plane.setCatalog screen catalog with
    metrics, nextContentId, nextPlacementId, nextGeneration, nextCreationOrder }

section

variable {c : ImageCatalog} {m : ImageMetrics} {i j g o : Nat}

theorem catalog_commit (other : ActiveScreen) : (commit plane screen c m i j g o).catalog other =
    if other = screen then c else plane.catalog other := by
  cases screen <;> cases other <;> rfl

theorem limits_commit : (commit plane screen c m i j g o).limits = plane.limits := by cases screen <;> rfl

theorem setCatalog_rest : (plane.setCatalog screen c).metrics = plane.metrics ∧
    (plane.setCatalog screen c).nextContentId = plane.nextContentId ∧
    (plane.setCatalog screen c).nextPlacementId = plane.nextPlacementId ∧
    (plane.setCatalog screen c).nextGeneration = plane.nextGeneration ∧
    (plane.setCatalog screen c).nextCreationOrder = plane.nextCreationOrder := by
  cases screen <;> exact ⟨rfl, rfl, rfl, rfl, rfl⟩

theorem setCatalog_eq_commit : plane.setCatalog screen c = commit plane screen c plane.metrics plane.nextContentId
    plane.nextPlacementId plane.nextGeneration plane.nextCreationOrder := by cases screen <;> rfl

theorem total_commit (size : ImageCatalog → Nat) :
    (commit plane screen c m i j g o).total size + size (plane.catalog screen) = plane.total size + size c := by
  cases screen
  · show size c + size plane.alternate + size plane.normal = size plane.normal + size plane.alternate + size c
    omega
  · show size plane.normal + size c + size plane.alternate = size plane.normal + size plane.alternate + size c
    omega

theorem le_total (size : ImageCatalog → Nat) (plane : ImagePlane) (screen : ActiveScreen) :
    size (plane.catalog screen) ≤ plane.total size := by
  cases screen
  · exact Nat.le_add_right ..
  · exact Nat.le_add_left ..

theorem Books.committed {owed' : Int} (h : plane.Books owed)
    (hcount : m.contentCount + (plane.catalog screen).contents.weigh (fun _ => 1) =
      plane.metrics.contentCount + c.contents.weigh fun _ => 1)
    (hbytes : m.contentBytes + owed + ((plane.catalog screen).contents.weigh (·.metadata.byteCharge) : Nat) =
      plane.metrics.contentBytes + owed' + (c.contents.weigh (·.metadata.byteCharge) : Nat))
    (hplaced : m.placementCount + (plane.catalog screen).placements.weigh (fun _ => 1) =
      plane.metrics.placementCount + c.placements.weigh fun _ => 1)
    (hle : m.contentCount ≤ plane.limits.contentsPerTerminal ∧ m.contentBytes ≤ plane.limits.bytesPerTerminal)
    (hnext : plane.nextContentId ≤ i ∧ plane.nextPlacementId ≤ j)
    (hcontent : ∀ id content, c.contents.get? id = some content → content.metadata.id = id ∧ id < i)
    (hplacement : ∀ id placement, c.placements.get? id = some placement → placement.id = id ∧ id < j) :
    (commit plane screen c m i j g o).Books owed' where
  contentCount := by
    have htotal := @total_commit plane screen c m i j g o fun c => c.contents.weigh fun _ => 1
    have hold := h.contentCount
    rw [show (commit plane screen c m i j g o).metrics = m from rfl]
    omega
  contentBytes := by
    have htotal := @total_commit plane screen c m i j g o fun c => c.contents.weigh (·.metadata.byteCharge)
    have hold := h.contentBytes
    rw [show (commit plane screen c m i j g o).metrics = m from rfl]
    omega
  placementCount := by
    have htotal := @total_commit plane screen c m i j g o fun c => c.placements.weigh fun _ => 1
    have hold := h.placementCount
    rw [show (commit plane screen c m i j g o).metrics = m from rfl]
    omega
  le := limits_commit.symm ▸ hle
  contentId := by
    intro other id content hget
    rw [catalog_commit] at hget
    split at hget
    · exact hcontent id content hget
    · have hold := h.contentId other id content hget
      exact ⟨hold.1, hold.2.trans_le hnext.1⟩
  placementId := by
    intro other id placement hget
    rw [catalog_commit] at hget
    split at hget
    · exact hplacement id placement hget
    · have hold := h.placementId other id placement hget
      exact ⟨hold.1, hold.2.trans_le hnext.2⟩

theorem kept_commit (h : (commit plane screen c m i j g o).Books owed)
    (hwithin : plane.Within → m.placementCount ≤ plane.limits.placementsPerTerminal)
    (hcount : m.placementCount ≤ plane.metrics.placementCount + grown)
    (hnext : plane.nextPlacementId ≤ j) (hspared : ∀ id, id < plane.nextPlacementId → id ∉ ids →
      c.placements.get? id = (plane.catalog screen).placements.get? id) :
    Kept owed other ids grown plane (commit plane screen c m i j g o) where
  books := h
  limits := limits_commit
  within hw := by
    rw [Within, limits_commit]
    exact hwithin hw
  next := hnext
  spared := by
    intro id hlt hnot
    rw [catalog_commit]
    split
    · rename_i heq
      rw [heq]
      exact hspared id hlt hnot
    · rfl
  count := hcount

/-- A change of the contents of one screen. -/
theorem Books.store {contents : OrdMap Nat ImageContent} {reservations : OrdMap Nat Nat} {bytes count : Nat}
    {owed' : Int} (h : plane.Books owed)
    (hcount : count + (plane.catalog screen).contents.weigh (fun _ => 1) =
      plane.metrics.contentCount + contents.weigh fun _ => 1)
    (hbytes : bytes + owed + ((plane.catalog screen).contents.weigh (·.metadata.byteCharge) : Nat) =
      plane.metrics.contentBytes + owed' + (contents.weigh (·.metadata.byteCharge) : Nat))
    (hle : count ≤ plane.limits.contentsPerTerminal ∧ bytes ≤ plane.limits.bytesPerTerminal)
    (hnext : plane.nextContentId ≤ i)
    (hid : ∀ id content, contents.get? id = some content → content.metadata.id = id ∧ id < i) :
    Kept owed' other ids grown plane (commit plane screen { plane.catalog screen with contents, reservations }
      { plane.metrics with contentBytes := bytes, contentCount := count } i plane.nextPlacementId g
      plane.nextCreationOrder) :=
  kept_commit (h.committed hcount hbytes rfl hle ⟨hnext, le_rfl⟩ hid (h.placementId screen)) id
    (Nat.le_add_right ..) le_rfl fun _ _ _ => rfl

end

variable {placement : ImagePlacement}

/-- A placement that is there can be dropped, and no counter goes below zero. -/
theorem wp_dropPlacement (h : plane.Books owed) (hget : (plane.catalog screen).placements.get? id = some placement) :
    wp (dropPlacement screen id) (fun _ plane' => Kept owed screen [id] 0 plane plane' ∧
      (plane'.catalog screen).placements.get? id = none ∧
      plane'.metrics.placementCount + 1 = plane.metrics.placementCount) fail plane := by
  have hweigh := weigh_erase hget fun _ => 1
  have hle := le_total (fun c => c.placements.weigh fun _ => 1) plane screen
  have hcount := h.placementCount
  simp only [dropPlacement, wp_bind, wp_get, wp_ensure, wp_set, setCatalog_rest]
  refine ⟨fun _ => ⟨kept_commit (h.committed rfl rfl ?_ h.le ⟨le_rfl, le_rfl⟩
    (h.contentId screen) fun k p hkept => h.placementId screen k p (get?_of_erase hkept))
    (sub_le _ _).trans (sub_le _ _) le_rfl ?_, ?_, ?_⟩, fun hzero => absurd hzero (by omega)⟩
  · dsimp only
    omega
  · intro k _ hnot
    rw [get?_erase, if_neg (by simpa using hnot)]
  · cases screen <;> exact (get?_erase ..).trans (if_pos rfl)
  · omega

theorem Books.free (h : plane.Books owed) : (plane.catalog screen).placements.get? plane.nextPlacementId = none :=
  Option.eq_none_iff_forall_ne_some.mpr fun p hget => lt_irrefl _ (h.placementId screen _ p hget).2

/-- Storing a placement under an identity that is free. -/
theorem Books.insert {j o : Nat} (h : plane.Books owed) (hid : placement.id = id)
    (hfree : (plane.catalog screen).placements.get? id = none) (hlt : id < j) (hnext : plane.nextPlacementId ≤ j) :
    (commit plane screen
      { plane.catalog screen with placements := (plane.catalog screen).placements.insert id placement }
      { plane.metrics with placementCount := plane.metrics.placementCount + 1 } plane.nextContentId j
      plane.nextGeneration o).Books owed := by
  have hweigh := weigh_insert (fun _ => 1) (plane.catalog screen).placements id placement
  rw [erase_of_none hfree] at hweigh
  refine h.committed rfl rfl ?_ h.le ⟨le_rfl, hnext⟩ (h.contentId screen) ?_
  · dsimp only
    omega
  · exact forall_get?_insert ⟨hid, hlt⟩ fun k p hget => (h.placementId screen k p hget).imp_right hnext.trans_lt'

theorem Kept.updateHighWater (h : Kept owed screen ids grown plane plane') :
    Kept owed screen ids grown plane plane'.updateHighWater :=
  { h with books := { h.books with } }

theorem ends_insertPlacement (h : plane.Books owed) (input : NewImagePlacement) :
    Ends (Kept owed other [] 1 plane) (insertPlacement screen input) plane := by
  refine .get_bind (.rejectWhen_bind h.kept fun _ => .rejectWhen_bind h.kept fun _ => .check_bind h.kept fun _ =>
    .check_bind h.kept fun _ => .check_bind h.kept fun _ => .rejectWhen_bind h.kept fun hroom =>
    .rejectWhen_bind h.kept fun _ => ?_)
  simp only [Ends, wp_bind, wp_set, wp_modify, wp_pure, setCatalog_rest]
  refine Kept.updateHighWater (kept_commit (h.insert rfl h.free (lt_succ_self _) (le_succ _))
    (fun _ => Nat.lt_of_not_le hroom) le_rfl (le_succ _) fun k hk _ => ?_)
  rw [get?_insert, if_neg hk.ne]

/-- A content that is there can be removed, and no counter goes below zero. -/
theorem wp_removeContentOnly (other : ActiveScreen) (h : plane.Books 0) {content : ImageContent}
    (hget : (plane.catalog screen).contents.get? id = some content) :
    wp (removeContentOnly screen id) (fun _ plane' => Kept 0 other [] 0 plane plane' ∧
      (plane'.catalog screen).contents = (plane.catalog screen).contents.erase id) fail plane := by
  have hone := weigh_erase hget fun _ => 1
  have hcharge := weigh_erase hget (·.metadata.byteCharge)
  have hcount := le_total (fun c => c.contents.weigh fun _ => 1) plane screen
  have hbytes := le_total (fun c => c.contents.weigh (·.metadata.byteCharge)) plane screen
  have hcount' := h.contentCount
  have hbytes' := h.contentBytes
  simp only [removeContentOnly, wp_bind, wp_get, hget, orReject, check, wp_pure, wp_ensure, wp_set, setCatalog_rest]
  refine ⟨fun _ => ⟨h.store ?_ ?_ ?_ le_rfl fun k c hkept => h.contentId screen k c (get?_of_erase hkept),
    by cases screen <;> rfl⟩, fun hbad => absurd hbad (by omega)⟩
  · omega
  · omega
  · exact h.le.imp (sub_le _ _).trans (sub_le _ _).trans

theorem ends_removeContentOnly (h : plane.Books 0) (id : Nat) :
    Ends (Kept 0 other [] 0 plane) (removeContentOnly screen id) plane := by
  cases hget : (plane.catalog screen).contents.get? id with
  | none =>
    simp only [Ends, removeContentOnly, wp_bind, wp_get, hget]
    exact ⟨⟨_, rfl⟩, h.kept⟩
  | some content => exact .of_wp (wp_imp (wp_removeContentOnly other h hget) (fun _ _ hkept => hkept.1))

/-- What is reclaimed is there until its turn comes. -/
theorem wp_reclaimScreen (h : plane.Books 0) :
    wp (reclaimScreen screen) (fun _ => Kept 0 other [] 0 plane) fail plane := by
  have hloop : ∀ (ids : List Nat) (plane' : ImagePlane), Kept 0 other [] 0 plane plane' → ids.Nodup →
      (∀ id ∈ ids, ∃ content, (plane'.catalog screen).contents.get? id = some content) →
      wp (ids.forM fun id => expecting (removeContentOnly screen id)) (fun _ => Kept 0 other [] 0 plane) fail plane' := by
    intro ids
    induction ids with
    | nil => exact fun _ hkept _ _ => hkept
    | cons id ids ih =>
      intro plane' hkept hnodup hthere
      obtain ⟨hnot, hnodup⟩ := nodup_cons.mp hnodup
      obtain ⟨content, hget⟩ := hthere id mem_cons_self
      rw [wp_forM_cons]
      refine wp_imp (wp_expecting (wp_removeContentOnly other hkept.books hget)) ?_
      rintro _ plane'' ⟨hlater, hcontents⟩
      refine ih plane'' (hkept.then hlater) hnodup fun k hk => ?_
      rw [hcontents, get?_erase, if_neg fun heq : k = id => hnot (heq ▸ hk)]
      exact hthere k (mem_cons_of_mem id hk)
  refine hloop _ plane h.kept ?_ fun id hid => ?_
  · exact pairwise_map.mpr ((pairwise_values fun k c hget => (h.contentId screen k c hget).1).filter _)
  · obtain ⟨content, hmem, rfl⟩ := mem_map.mp hid
    obtain ⟨k, hget⟩ := mem_values.mp (mem_of_mem_filter hmem)
    exact ⟨content, (h.contentId screen k content hget).1 ▸ hget⟩

theorem ends_reclaim (h : plane.Books 0) : Ends (Kept 0 other [] 0 plane) reclaimUnplacedWhilePlaced plane :=
  .bind (wp_reclaimScreen h) fun _ _ hkept => wp_imp (wp_reclaimScreen hkept.books) (fun _ _ => hkept.then)

/-- A removal reclaims the contents it left unplaced. -/
theorem ends_reclaimWhenever {c : Prop} [Decidable c] (hkept : Kept 0 screen ids grown plane plane') (b : Bool) :
    Ends (Kept 0 screen ids grown plane) (do whenever c reclaimUnplacedWhilePlaced; pure b) plane' :=
  .bind (.whenever hkept ((ends_reclaim hkept.books).mono fun _ => hkept.then)) fun _ _ hlater => hlater

/-! ## Several placements -/

theorem get?_of_mem_placements (h : plane.Books owed) (hmem : placement ∈ plane.placements screen) :
    (plane.catalog screen).placements.get? placement.id = some placement := by
  obtain ⟨k, hget⟩ := mem_values.mp hmem
  rw [(h.placementId screen k placement hget).1]
  exact hget

theorem distinct_placements (h : plane.Books owed) : (plane.placements screen).Pairwise fun p q => p.id ≠ q.id :=
  pairwise_values fun k p hget => (h.placementId screen k p hget).1

/-- One turn of a loop takes away the placement `id` of the plane it finds, adds at most `grown` and stops only as it
`may`. -/
def Takes (may : ImageStop → Prop) (owed : Int) (screen : ActiveScreen) (grown id : Nat) (body : PlaneM PUnit) : Prop :=
  ∀ plane placement, plane.Books owed → (plane.catalog screen).placements.get? id = some placement →
    wp body (fun _ plane' => Kept owed screen [id] grown plane plane' ∧
      (plane'.catalog screen).placements.get? id = none)
      (fun stop plane' => may stop ∧ Kept owed screen [id] grown plane plane') plane

/-- Turns that take away different placements of the plane they start from. -/
theorem wp_forM_taking {may : ImageStop → Prop} {key : β → Nat} {body : β → PlaneM PUnit} {l : List β}
    (hbody : ∀ b, Takes may owed screen grown (key b) (body b)) (h : plane.Books owed)
    (hdistinct : l.Pairwise fun a b => key a ≠ key b)
    (hthere : ∀ b ∈ l, ∃ p ∈ plane.placements screen, p.id = key b) :
    wp (l.forM body) (fun _ plane' => Kept owed screen (l.map key) (grown * l.length) plane plane' ∧
        ∀ b ∈ l, (plane'.catalog screen).placements.get? (key b) = none)
      (fun stop plane' => may stop ∧ Kept owed screen (l.map key) (grown * l.length) plane plane') plane := by
  induction l generalizing plane with
  | nil => exact ⟨h.kept, fun b hb => nomatch hb⟩
  | cons b l ih =>
    obtain ⟨hne, hrest⟩ := pairwise_cons.mp hdistinct
    have hget {b' : β} (hb' : b' ∈ b :: l) :
        ∃ p, p.id = key b' ∧ (plane.catalog screen).placements.get? (key b') = some p := by
      obtain ⟨p, hp, hid⟩ := hthere b' hb'
      exact ⟨p, hid, hid ▸ get?_of_mem_placements h hp⟩
    obtain ⟨placement, -, hfirst⟩ := hget mem_cons_self
    rw [wp_forM_cons, length_cons, mul_succ, add_comm _ grown]
    refine wp_mono (hbody b plane placement h hfirst) ?_ ?_
    · rintro _ plane' ⟨hkept, hgone⟩
      have hlater : ∀ b' ∈ l, ∃ p ∈ plane'.placements screen, p.id = key b' := by
        intro b' hb'
        obtain ⟨p, hid, hp⟩ := hget (mem_cons_of_mem b hb')
        refine ⟨p, mem_values.mpr ⟨key b', ?_⟩, hid⟩
        rw [hkept.spared _ (h.placementId screen _ _ hp).2 (by simpa using (hne b' hb').symm)]
        exact hp
      refine wp_mono (ih hkept.books hrest hlater) ?_ ?_
      · rintro _ plane'' ⟨hkept', hgone'⟩
        refine ⟨hkept.trans hkept', forall_mem_cons.mpr ⟨?_, hgone'⟩⟩
        rw [hkept'.spared _ ((h.placementId screen _ _ hfirst).2.trans_le hkept.next), hgone]
        intro hmem
        obtain ⟨b', hb', heq⟩ := mem_map.mp hmem
        exact hne b' hb' heq.symm
      · exact fun _ _ hkept' => ⟨hkept'.1, hkept.trans hkept'.2⟩
    · intro _ plane' hkept
      have hsame : Kept owed screen (l.map key) (grown * l.length) plane' plane' := hkept.2.books.kept
      exact ⟨hkept.1, hkept.2.trans hsame⟩

theorem takes_dropPlacement (may : ImageStop → Prop) : Takes may owed screen 0 id (dropPlacement screen id) :=
  fun _ _ hbooks hget => wp_imp (wp_dropPlacement hbooks hget) (fun _ _ hdropped => ⟨hdropped.1, hdropped.2.1⟩)

/-- Dropping those of the placements that `pick` selects. -/
theorem wp_forM_picked (h : plane.Books owed) (pick : ImagePlacement → Bool) :
    wp ((((plane.placements screen).filter pick).map (·.id)).forM fun id => dropPlacement screen id)
      (fun _ => Kept owed screen (((plane.placements screen).filter pick).map (·.id)) 0 plane) (fun _ _ => False)
      plane := by
  refine wp_mono (wp_forM_taking (fun _ => takes_dropPlacement fun _ => False) h
    (pairwise_map.mpr ((distinct_placements h).filter pick)) ?_)
    (fun _ _ hkept => by simpa only [map_id', zero_mul] using hkept.1) fun _ _ hstop => hstop.1
  intro id hid
  obtain ⟨p, hp, rfl⟩ := mem_map.mp hid
  exact ⟨p, mem_of_mem_filter hp, rfl⟩

theorem ends_forM_picked (h : plane.Books owed) (pick : ImagePlacement → Bool) :
    Ends (Kept owed screen (((plane.placements screen).filter pick).map (·.id)) 0 plane)
      ((((plane.placements screen).filter pick).map (·.id)).forM fun id => dropPlacement screen id) plane :=
  .of_wp (wp_forM_picked h pick)

/-! ## Text overwrites -/

section

variable {rowOrder : List Nat} {rect : CellRect}

theorem textOverlapTargets_eq (plane : ImagePlane) (screen : ActiveScreen) (rowOrder : List Nat) (rect : CellRect) :
    ∃ f : ImagePlacement → Option (ImagePlacement × Nat), (∀ p target, f p = some target → target.1 = p) ∧
      plane.textOverlapTargets screen rowOrder rect = (plane.placements screen).filterMap f := by
  rw [textOverlapTargets]
  split
  · exact ⟨fun _ => none, by simp, by simp⟩
  · refine ⟨_, ?_, rfl⟩
    intro p target hsome
    split at hsome
    · cases hsome
    · obtain ⟨anchorRow, -, hsome⟩ := Option.bind_eq_some_iff.mp hsome
      split at hsome
      · cases hsome
        rfl
      · cases hsome

/-- The placements a rectangle takes away, whole or in part. -/
def targetIds (screen : ActiveScreen) (rowOrder : List Nat) (rect : CellRect) (plane : ImagePlane) : List Nat :=
  (plane.textOverlapTargets screen rowOrder rect).map (·.1.id)

theorem mem_textOverlapTargets {target : ImagePlacement × Nat}
    (hmem : target ∈ plane.textOverlapTargets screen rowOrder rect) : target.1 ∈ plane.placements screen := by
  obtain ⟨f, hf, heq⟩ := textOverlapTargets_eq plane screen rowOrder rect
  rw [heq] at hmem
  obtain ⟨p, hp, hsome⟩ := mem_filterMap.mp hmem
  rwa [hf p target hsome]

theorem length_textOverlapTargets (h : plane.Books owed) (screen : ActiveScreen) (rowOrder : List Nat)
    (rect : CellRect) :
    (plane.textOverlapTargets screen rowOrder rect).length ≤ plane.metrics.placementCount := by
  obtain ⟨f, -, heq⟩ := textOverlapTargets_eq plane screen rowOrder rect
  have hscreen := le_total (fun c => c.placements.weigh fun _ => 1) plane screen
  rw [← h.placementCount, weigh_one] at hscreen
  rw [heq]
  exact (length_filterMap_le ..).trans (by simpa [placements, values] using hscreen)

/-- A loop over the targets that takes away each of them. -/
theorem ends_forM_targets {body : ImagePlacement × Nat → PlaneM PUnit} (h : plane.Books 0)
    (hbody : ∀ target, Takes (fun stop => ∃ e, stop = .rejected e) 0 screen grown target.1.id (body target)) :
    Ends (Kept 0 screen (plane.targetIds screen rowOrder rect)
        (grown * (plane.textOverlapTargets screen rowOrder rect).length) plane)
      ((plane.textOverlapTargets screen rowOrder rect).forM body) plane := by
  obtain ⟨f, hf, heq⟩ := textOverlapTargets_eq plane screen rowOrder rect
  refine wp_imp (wp_forM_taking hbody h ?_ fun target hmem => ⟨_, mem_textOverlapTargets hmem, rfl⟩)
    (fun _ _ hkept => hkept.1)
  rw [heq]
  refine (distinct_placements h).filterMap f fun p q hne a ha b hb => ?_
  rwa [hf p a ha, hf q b hb]

theorem length_placementFragment {placement : ImagePlacement} {cellSize : PixelSize} {anchorRow x y columns rows : Nat}
    {fs : List NewImagePlacement}
    (h : placementFragment placement cellSize anchorRow rowOrder x y columns rows = .ok fs) : fs.length ≤ 1 := by
  rw [placementFragment] at h
  split at h
  · cases h
    exact zero_le _
  · simp only [bind_eq_ok] at h
    obtain ⟨_, -, _, -, _, -, _, -, _, -, _, -, _, -, _, -, h⟩ := h
    cases h
    exact le_rfl

/-- A rectangle leaves of a placement what is above, below, before and behind it. -/
theorem length_placementFragments {placement : ImagePlacement} {anchorRow : Nat} {fs : List NewImagePlacement}
    (h : placementFragments placement anchorRow rowOrder rect = .ok fs) : fs.length ≤ 4 := by
  rw [placementFragments] at h
  split at h
  · cases h
    exact zero_le _
  · simp only [bind_eq_ok] at h
    obtain ⟨_, -, above, habove, below, hbelow, before, hbefore, after, hafter, h⟩ := h
    cases h
    have h₁ := length_placementFragment habove
    have h₂ := length_placementFragment hbelow
    have h₃ := length_placementFragment hbefore
    have h₄ := length_placementFragment hafter
    simp only [length_append]
    omega

/-- One placement makes way for its pieces. -/
theorem takes_split (placement : ImagePlacement) {fragments : Except ImageError (List NewImagePlacement)}
    (hlength : ∀ fs, fragments = .ok fs → fs.length ≤ 4) :
    Takes (fun stop => ∃ e, stop = .rejected e) 0 screen 3 placement.id (do
      let fragments ← check fragments
      dropPlacement screen placement.id
      fragments.forM fun fragment => do
        let _ ← insertPlacement screen fragment
        pure ()) := by
  intro plane found h hget
  cases fragments with
  | error e => exact ⟨⟨e, rfl⟩, h.kept⟩
  | ok fragments =>
    show wp (dropPlacement screen placement.id >>= fun _ => _) _ _ plane
    rw [wp_bind]
    refine wp_imp (wp_dropPlacement h hget) ?_
    rintro _ dropped ⟨hdropped, hnone, hcount⟩
    have hkept : Kept 0 screen [placement.id] 3 plane dropped := { hdropped with count := by omega }
    have hroom : dropped.metrics.placementCount + fragments.length ≤ plane.metrics.placementCount + 3 := by
      have hfour := hlength fragments rfl
      omega
    clear hcount hlength hdropped
    induction fragments generalizing dropped with
    | nil => exact ⟨hkept, hnone⟩
    | cons fragment fragments ih =>
      rw [length_cons] at hroom
      rw [wp_forM_cons, wp_bind]
      have hnext {plane' : ImagePlane} (hlater : Kept 0 screen [] 1 dropped plane') :
          Kept 0 screen [placement.id] 3 plane plane' ∧
            plane'.metrics.placementCount + fragments.length ≤ plane.metrics.placementCount + 3 := by
        have hcount := hlater.count
        exact ⟨{ hkept.trans hlater with count := by omega }, by omega⟩
      refine wp_mono (ends_insertPlacement hkept.books fragment) (fun _ plane' hlater => ?_) fun _ plane' hlater =>
        ⟨hlater.1, (hnext hlater.2).1⟩
      refine ih plane' ?_ (hnext hlater).1 (hnext hlater).2
      rw [hlater.spared _ ((h.placementId screen _ _ hget).2.trans_le hkept.next) not_mem_nil, hnone]

theorem ends_splitTextOverlaps (h : plane.Books 0) :
    Ends (Kept 0 screen (plane.targetIds screen rowOrder rect)
        (3 * (plane.textOverlapTargets screen rowOrder rect).length) plane)
      (splitTextOverlaps screen rowOrder rect) plane :=
  .get_bind (.bind (ends_forM_targets h fun _ => takes_split _ fun _ => length_placementFragments)
    fun _ _ hkept => ends_reclaimWhenever hkept _)

theorem ends_removeTextOverlapsWhole (h : plane.Books 0) :
    Ends (Kept 0 screen (plane.targetIds screen rowOrder rect) 0 plane)
      (removeTextOverlapsWhole screen rowOrder rect) plane := by
  have hloop : Ends (Kept 0 screen (plane.targetIds screen rowOrder rect) (0 * _) plane) _ plane :=
    ends_forM_targets h fun _ => takes_dropPlacement _
  rw [zero_mul] at hloop
  exact .get_bind (.bind hloop fun _ _ hkept => ends_reclaimWhenever hkept _)

/-! ## Overlaps resolved -/

/-- A step of the resolution: the books are kept, identities that are free stay free but for `id`, and there are at
most `most` placements. -/
structure Resolves (screen : ActiveScreen) (id : Option Nat) (most : Nat) (plane plane' : ImagePlane) : Prop where
  books : plane'.Books 0
  limits : plane'.limits = plane.limits
  next : plane.nextPlacementId ≤ plane'.nextPlacementId
  free : ∀ k, k < plane.nextPlacementId → (plane.catalog screen).placements.get? k = none → some k ≠ id →
    (plane'.catalog screen).placements.get? k = none
  count : plane'.metrics.placementCount ≤ most

variable {most most' : Nat}

theorem Resolves.trans {freed : Option Nat} (h : Resolves screen none most plane plane')
    (h' : Resolves screen freed most' plane' plane'') : Resolves screen freed most' plane plane'' :=
  ⟨h'.books, h'.limits.trans h.limits, h.next.trans h'.next, fun k hk hnone hne =>
    h'.free k (hk.trans_le h.next) (h.free k hk hnone (by simp)) hne, h'.count⟩

theorem Kept.resolves (hbooks : plane.Books 0)
    (h : Kept 0 screen (plane.targetIds screen rowOrder rect) grown plane plane')
    (hmost : plane.metrics.placementCount + grown ≤ most) : Resolves screen none most plane plane' := by
  refine ⟨h.books, h.limits, h.next, fun k hk hnone _ => ?_, h.count.trans hmost⟩
  rw [h.spared k hk, hnone]
  intro hmem
  obtain ⟨target, htarget, rfl⟩ := mem_map.mp hmem
  rw [get?_of_mem_placements hbooks (mem_textOverlapTargets htarget)] at hnone
  cases hnone

theorem resolves_reinsertPlacement {placement : ImagePlacement} (h : plane.Books 0)
    (hid : placement.id < plane.nextPlacementId)
    (hfree : (plane.catalog screen).placements.get? placement.id = none) :
    Resolves screen (some placement.id) (plane.metrics.placementCount + 1) plane
      (reinsertPlacement screen placement plane) := by
  have heq : reinsertPlacement screen placement plane = commit plane screen
      { plane.catalog screen with placements := (plane.catalog screen).placements.insert placement.id placement }
      { plane.metrics with placementCount := plane.metrics.placementCount + 1 } plane.nextContentId
      plane.nextPlacementId plane.nextGeneration plane.nextCreationOrder := by cases screen <;> rfl
  rw [heq]
  refine ⟨h.insert rfl hfree hid le_rfl, limits_commit, le_rfl, fun k _ hnone hne => ?_, le_rfl⟩
  rw [catalog_commit, if_pos rfl, get?_insert, if_neg (by simpa using hne), hnone]

/-- A placement that is away is put back, and no placement is in more than four pieces for it. -/
theorem ends_replayPlacement {placement : ImagePlacement} (rowOrder : List Nat) (h : plane.Books 0)
    (hid : placement.id < plane.nextPlacementId)
    (hfree : (plane.catalog screen).placements.get? placement.id = none) :
    Ends (Resolves screen (some placement.id) (4 * plane.metrics.placementCount + 1) plane)
      (replayPlacement screen rowOrder placement) plane := by
  set most := 4 * plane.metrics.placementCount with hmost
  have hstop {middle : ImagePlane} (hm : Resolves screen none most plane middle) :
      Resolves screen (some placement.id) (most + 1) plane middle :=
    ⟨hm.books, hm.limits, hm.next, fun k hk hnone _ => hm.free k hk hnone (by simp), hm.count.trans (le_succ _)⟩
  have hback {middle : ImagePlane} (hm : Resolves screen none most plane middle) :
      Ends (Resolves screen (some placement.id) (most + 1) plane) (modify (reinsertPlacement screen placement))
        middle := by
    have hput := hm.trans (resolves_reinsertPlacement hm.books (hid.trans_le hm.next) (hm.free _ hid hfree (by simp)))
    exact { hput with count := hput.count.trans (succ_le_succ hm.count) }
  rw [replayPlacement]
  split
  · exact hstop ⟨h, rfl, le_rfl, fun _ _ hnone _ => hnone, by omega⟩
  · have hsplit {rect : CellRect} : Ends (Resolves screen none most plane) (splitTextOverlaps screen rowOrder rect)
        plane := by
      have htargets := length_textOverlapTargets h screen rowOrder rect
      exact (ends_splitTextOverlaps h).mono fun _ hkept => hkept.resolves h (by omega)
    rw [Ends, wp_bind]
    refine wp_imp hsplit.attempt ?_
    intro result middle hm
    cases result with
    | ok _ => exact hback hm
    | error _ =>
      rw [wp_bind]
      exact wp_mono (ends_removeTextOverlapsWhole hm.books)
        (fun _ _ hkept => hback (hm.trans (hkept.resolves hm.books hm.count)))
        fun _ _ hkept => ⟨hkept.1, hstop (hm.trans (hkept.2.resolves hm.books hm.count))⟩

/-- The placements that overlap another, oldest first. -/
def participants (plane : ImagePlane) (screen : ActiveScreen) (rowOrder : List Nat) : List ImagePlacement :=
  let placements := ((plane.placements screen).filter (·.erasePolicy = .textOverwrite)).mergeSort
    fun a b => decide (a.creationOrder ≤ b.creationOrder)
  placements.filter fun p =>
    placements.any fun other => decide (p.id ≠ other.id) && placementsOverlap rowOrder p other

/-- The most placements there can be once `n` more have been put back: each of them cuts every other into at most
four pieces. -/
def mostAfter : (n placed : Nat) → Nat
  | 0, placed => placed
  | n + 1, placed => mostAfter n (4 * placed + 1)

theorem le_mostAfter (n placed : Nat) : placed ≤ mostAfter n placed := by
  induction n generalizing placed with
  | zero => exact le_rfl
  | succ n ih => exact Nat.le_trans (by omega) (ih (4 * placed + 1))

theorem mostAfter_mono (n : Nat) {few many : Nat} (h : few ≤ many) : mostAfter n few ≤ mostAfter n many := by
  induction n generalizing few many with
  | zero => exact h
  | succ n ih => exact ih (by omega)

/-- The limit has room for every piece the placements may be in once the participants, which are taken away first,
have been put back. -/
def HasRoom (screen : ActiveScreen) (rowOrder : List Nat) (plane : ImagePlane) : Prop :=
  let n := (plane.participants screen rowOrder).length
  mostAfter n (plane.metrics.placementCount - n) ≤ plane.limits.placementsPerTerminal

/-- What an operation leaves of the invariant; the limit on placements is kept given `room`. -/
structure Sound (room : Prop) (plane plane' : ImagePlane) : Prop where
  books : plane'.Books 0
  limits : plane'.limits = plane.limits
  within : room → plane.Within → plane'.Within

variable {room : Prop}

theorem Kept.sound (h : Kept 0 screen ids grown plane plane') : Sound room plane plane' :=
  ⟨h.books, h.limits, fun _ => h.within⟩

theorem sound_commit {c : ImageCatalog} {m : ImageMetrics} {i j g o : Nat}
    (h : (commit plane screen c m i j g o).Books 0)
    (hw : plane.Within → m.placementCount ≤ plane.limits.placementsPerTerminal) :
    Sound True plane (commit plane screen c m i j g o) :=
  ⟨h, limits_commit, fun _ hold => by rw [Within, limits_commit]; exact hw hold⟩

theorem Books.sound (h : plane.Books 0) : Sound room plane plane := ⟨h, rfl, fun _ hw => hw⟩

theorem Sound.trans (h : Sound room plane plane') (h' : Sound True plane' plane'') : Sound room plane plane'' :=
  ⟨h'.books, h'.limits.trans h.limits, fun hroom hw => h'.within trivial (h.within hroom hw)⟩

theorem Sound.ends {m : PlaneM α} (h : Sound room plane plane')
    (hm : Ends (Kept 0 .normal [] grown plane') m plane') : Ends (Sound room plane) m plane' :=
  hm.mono fun _ hkept => h.trans hkept.sound

theorem ends_forM_replay {ps : List ImagePlacement} (h : plane.Books 0) (hdistinct : ps.Pairwise fun p q => p.id ≠ q.id)
    (haway : ∀ p ∈ ps, p.id < plane.nextPlacementId ∧ (plane.catalog screen).placements.get? p.id = none) :
    Ends (Sound (mostAfter ps.length plane.metrics.placementCount ≤ plane.limits.placementsPerTerminal) plane)
      (ps.forM (replayPlacement screen rowOrder)) plane := by
  induction ps generalizing plane with
  | nil => exact h.sound
  | cons p ps ih =>
    obtain ⟨hne, hrest⟩ := pairwise_cons.mp hdistinct
    have hp := haway p mem_cons_self
    rw [Ends, wp_forM_cons, length_cons, mostAfter]
    have hwithin {plane' : ImagePlane}
        (hfirst : Resolves screen (some p.id) (4 * plane.metrics.placementCount + 1) plane plane')
        (hroom : mostAfter ps.length (4 * plane.metrics.placementCount + 1) ≤ plane.limits.placementsPerTerminal) :
        plane'.Within := by
      rw [Within, hfirst.limits]
      exact hfirst.count.trans ((le_mostAfter ..).trans hroom)
    refine wp_mono (ends_replayPlacement rowOrder h hp.1 hp.2) (fun _ plane' hfirst => ?_) fun _ plane' hstop =>
      ⟨hstop.1, hstop.2.books, hstop.2.limits, fun hroom _ => hwithin hstop.2 hroom⟩
    refine (ih hfirst.books hrest fun q hq => ?_).mono fun plane'' hlater => ⟨hlater.books,
      hlater.limits.trans hfirst.limits, fun hroom _ => hlater.within ?_ (hwithin hfirst hroom)⟩
    · have hq' := haway q (mem_cons_of_mem p hq)
      exact ⟨hq'.1.trans_le hfirst.next, hfirst.free _ hq'.1 hq'.2 (by simpa using (hne q hq).symm)⟩
    · rw [hfirst.limits]
      exact (mostAfter_mono _ hfirst.count).trans hroom

/-- Dropping placements leaves the contents alone. -/
theorem wp_forM_drop (ids : List Nat) :
    wp (ids.forM fun id => dropPlacement screen id) (fun _ plane' =>
      (plane'.catalog screen).contents = (plane.catalog screen).contents ∧
        plane'.metrics.placementCount + ids.length = plane.metrics.placementCount) (fun _ _ => True) plane := by
  induction ids generalizing plane with
  | nil => exact ⟨rfl, rfl⟩
  | cons id ids ih =>
    rw [wp_forM_cons]
    simp only [dropPlacement, wp_bind, wp_get, wp_ensure, wp_set, implies_true, and_true]
    intro hpos
    refine wp_imp ih fun _ plane' hlater => ⟨hlater.1.trans (by cases screen <;> rfl), ?_⟩
    have hcount := hlater.2
    rw [length_cons]
    simp only [setCatalog_rest] at hcount
    omega

theorem ends_resolveTextOverlaps (rowOrder : List Nat) (h : plane.Books 0) :
    Ends (Sound (plane.HasRoom screen rowOrder) plane) (resolveTextOverlaps screen rowOrder) plane := by
  have hdistinct : (plane.participants screen rowOrder).Pairwise fun p q => p.id ≠ q.id :=
    (((mergeSort_perm _ _).pairwise_iff fun hne => hne.symm).mpr ((distinct_placements h).filter _)).filter _
  have hthere : ∀ p ∈ plane.participants screen rowOrder, p ∈ plane.placements screen := fun p hp =>
    mem_of_mem_filter ((mergeSort_perm _ _).mem_iff.mp (mem_of_mem_filter hp))
  refine .get_bind (.bind (.whenever h.sound ?_) fun _ _ hsound => hsound)
  show Ends _ ((plane.participants screen rowOrder).forM (fun p => dropPlacement screen p.id) >>= fun _ =>
    (plane.participants screen rowOrder).forM (replayPlacement screen rowOrder) >>= fun _ =>
      reclaimUnplacedWhilePlaced) plane
  have hmap : (plane.participants screen rowOrder).forM (fun p => dropPlacement screen p.id) =
      ((plane.participants screen rowOrder).map (·.id)).forM fun id => dropPlacement screen id := forM_map.symm
  have hdrop := wp_forM_taking (fun _ => takes_dropPlacement fun _ => False) h hdistinct
    fun p hp => ⟨p, hthere p hp, rfl⟩
  rw [hmap] at hdrop
  rw [Ends, wp_bind, hmap]
  refine wp_mono (wp_and hdrop (wp_forM_drop _)) ?_ fun _ _ hstop => hstop.1.1.elim
  rintro _ dropped ⟨⟨hkept, hgone⟩, -, hcount⟩
  rw [length_map] at hcount
  refine Ends.bind ((ends_forM_replay hkept.books hdistinct fun p hp => ⟨?_, hgone p hp⟩).mono fun _ hlater =>
    ⟨hlater.books, hlater.limits.trans hkept.limits, fun hroom hw => hlater.within ?_ (hkept.within hw)⟩) ?_
  · exact (h.placementId screen _ _ (get?_of_mem_placements h (hthere p hp))).2.trans_le hkept.next
  · rw [HasRoom, ← hcount, Nat.add_sub_cancel] at hroom
    rwa [hkept.limits]
  · exact fun _ _ hsound => hsound.ends (ends_reclaim hsound.books)

end

/-! ## Contents -/

theorem Books.admissions (h : plane.Books owed) (n : Nat) : Books owed { plane with admissions := n } :=
  { h with }

theorem Kept.admissions (h : Kept owed screen ids grown plane plane') (n : Nat) :
    Kept owed screen ids grown plane { plane' with admissions := n } :=
  { h with books := h.books.admissions n }

theorem ends_reserve {P : ImagePlane → Prop} (bytes : Nat) (hp : P { plane with admissions := plane.admissions + 1 }) :
    Ends P (reserve bytes) plane := by
  show Ends P (rejectWhen _ _) _
  rw [rejectWhen, rejectIf]
  split
  · exact ⟨⟨_, rfl⟩, hp⟩
  · exact hp

variable {sha256 : List UInt8 → List UInt8}

variable (h : plane.Books 0)

include h

theorem ends_insertContent (input : NewImageContent) :
    Ends (Kept 0 other [] 0 plane) (insertContent sha256 screen input) plane := by
  refine .get_bind (.check_bind h.kept fun expected => .bind (ends_reclaim h) fun _ middle hm => .get_bind
    (.rejectWhen_bind hm fun hcount => .rejectWhen_bind hm fun hbytes => .rejectWhen_bind hm fun _ => ?_))
  rw [Ends, wp_bind]
  have hasked : Ends (fun p => Kept 0 other [] 0 plane p ∧ p.metrics = middle.metrics ∧ p.limits = middle.limits)
      (whenever (middle.sharedBudget.isSome = true) (reserve expected)) middle :=
    .whenever ⟨hm, rfl, rfl⟩ (ends_reserve _ ⟨hm.admissions _, rfl, rfl⟩)
  apply wp_mono hasked ?_ fun _ _ hasked => ⟨hasked.1, hasked.2.1⟩
  rintro _ asked ⟨hkept, hmetrics, hlimits⟩
  have hfree : (asked.catalog screen).contents.get? asked.nextContentId = none :=
    Option.eq_none_iff_forall_ne_some.mpr fun c hget => lt_irrefl _ (hkept.books.contentId screen _ c hget).2
  rw [← hmetrics, ← hlimits] at hcount hbytes
  simp only [wp_bind, wp_get, wp_set, wp_modify, wp_pure, setCatalog_rest, ← hmetrics]
  refine Kept.updateHighWater (hkept.then (hkept.books.store ?_ ?_ ⟨Nat.lt_of_not_le hcount, Nat.le_of_not_lt hbytes⟩
    (le_succ _) ?_))
  · rw [weigh_insert, erase_of_none hfree]
    omega
  · rw [weigh_insert, erase_of_none hfree, makeContent]
    push_cast
    omega
  · exact forall_get?_insert ⟨rfl, lt_succ_self _⟩ fun k c hget =>
      (hkept.books.contentId screen k c hget).imp_right lt_succ_of_lt

theorem ends_resizeReservation (bytes : Nat) :
    Ends (fun p => Kept 0 screen [] 0 plane p ∧ p.metrics = plane.metrics ∧
      (p.catalog screen).contents = (plane.catalog screen).contents ∧
      (p.catalog screen).placements = (plane.catalog screen).placements) (resizeReservation screen id bytes) plane := by
  refine .get_bind ?_
  split
  · exact ⟨h.kept, rfl, rfl, rfl⟩
  · refine .bind (.whenever ⟨h.kept, rfl, rfl, rfl⟩ (ends_reserve _ ⟨h.kept.admissions _, rfl, rfl, rfl⟩)) ?_
    rintro _ asked ⟨hkept, hmetrics, hcontents, hplacements⟩
    rw [Ends, wp_modify, setCatalog_eq_commit, catalog_commit, if_pos rfl]
    exact ⟨hkept.then (hkept.books.store rfl rfl hkept.books.le le_rfl
      (hkept.books.contentId screen)), hmetrics, hcontents, hplacements⟩

/-- The bytes are counted before the content they belong to is stored. -/
theorem ends_replaceContent (id : Nat) (input : NewImageContent) :
    Ends (Sound True plane) (replaceContent sha256 screen id input) plane := by
  refine .get_bind (.check_bind h.sound fun expected => ?_)
  cases hget : (plane.catalog screen).contents.get? id with
  | none => exact ⟨⟨_, rfl⟩, h.sound⟩
  | some previous =>
    refine .rejectWhen_bind h.sound fun hcharge => .rejectWhen_bind h.sound fun hbytes =>
      .rejectWhen_bind h.sound fun _ => ?_
    rw [Ends, wp_bind]
    apply wp_mono (ends_resizeReservation h expected) ?_ fun _ _ hsame => ⟨hsame.1, hsame.2.1.sound⟩
    rintro _ resized ⟨hkept, hmetrics, hcontents, hplacements⟩
    have hids : placementIdsOf plane screen id =
        ((resized.placements screen).filter (·.contentId = id)).map (·.id) := by
      rw [placementIdsOf, placements, placements, hplacements]
    rw [wp_bind, wp_modify, wp_bind, hids]
    have hold := hkept.books.contentBytes
    have hlimits := hkept.limits
    rw [hmetrics] at hold
    have hcounted : Books (expected - previous.metadata.byteCharge) { resized with
        nextGeneration := plane.nextGeneration + 1
        metrics := { resized.metrics with
          contentBytes := plane.metrics.contentBytes - previous.metadata.byteCharge + expected } } := by
      refine ⟨hkept.books.contentCount, ?_, hkept.books.placementCount, ⟨hkept.books.le.1, ?_⟩,
        hkept.books.contentId, hkept.books.placementId⟩
      · dsimp only [total] at hold ⊢
        omega
      · rw [hlimits]
        exact Nat.le_of_not_lt hbytes
    apply wp_mono (wp_and (wp_forM_picked hcounted _) (wp_forM_drop _)) ?_ fun _ _ hfail => hfail.1.elim
    rintro _ dropped ⟨hdropped, hsame, -⟩
    have hprevious : (dropped.catalog screen).contents.get? id = some previous :=
      (congrArg (·.get? id) (hsame.trans hcontents)).trans hget
    have hone := weigh_erase hprevious fun _ => 1
    have hcharged := weigh_erase hprevious (·.metadata.byteCharge)
    have hback {final : ImagePlane} (hstored : Sound True dropped final) : Sound True plane final :=
      ⟨hstored.books, hstored.limits.trans (hdropped.limits.trans hlimits),
        fun _ hw => hstored.within trivial (hdropped.within (hkept.within hw))⟩
    simp only [wp_bind, wp_modify, wp_pure, setCatalog_eq_commit]
    refine hback (sound_commit (hdropped.books.committed ?_ ?_ rfl
      hdropped.books.le ⟨le_rfl, le_rfl⟩ ?_
      (hdropped.books.placementId screen)) fun hw => hw)
    · rw [weigh_insert]
      omega
    · rw [weigh_insert, makeContent]
      push_cast
      omega
    · exact forall_get?_insert ⟨rfl, (hdropped.books.contentId screen id previous hprevious).2⟩
        (hdropped.books.contentId screen)

theorem ends_removeContent (id : Nat) : Ends (Sound True plane) (removeContent screen id) plane :=
  .get_bind (.bind ((ends_forM_picked h _).mono fun _ => Kept.sound) fun _ _ hsound =>
    hsound.ends (ends_removeContentOnly hsound.books id))

theorem ends_clearScreen : Ends (Sound True plane) (clearScreen screen) plane := by
  have hcount := le_total (fun c => c.contents.weigh fun _ => 1) plane screen
  have hbytes := le_total (fun c => c.contents.weigh (·.metadata.byteCharge)) plane screen
  have hplaced := le_total (fun c => c.placements.weigh fun _ => 1) plane screen
  have hbooks := And.intro h.contentCount (And.intro h.contentBytes h.placementCount)
  simp only [Ends, clearScreen, wp_bind, wp_get, wp_ensure, wp_set, setCatalog_rest, ← weigh_one, ← weigh.eq_1]
  refine ⟨fun _ => sound_commit (h.committed ?_ ?_ ?_ ?_ ⟨le_rfl, le_rfl⟩ ?_ ?_) (sub_le _ _).trans, ?_⟩
  · show plane.metrics.contentCount - _ + _ = _ + 0
    omega
  · show ((plane.metrics.contentBytes - weigh _ _ : Nat) : Int) + 0 + _ = _ + 0 + ((0 : Nat) : Int)
    omega
  · show plane.metrics.placementCount - _ + _ = _ + 0
    omega
  · exact h.le.imp (sub_le _ _).trans (sub_le _ _).trans
  · rintro _ _ ⟨⟩
  · rintro _ _ ⟨⟩
  · intro hbad
    exact absurd hbad (by omega)

theorem ends_remapAnchors (replacements : OrdMap Nat Nat) :
    Ends (Sound True plane) (remapAnchors screen replacements) plane := by
  simp only [Ends, remapAnchors, wp_bind, wp_get, wp_set, wp_pure, setCatalog_eq_commit]
  refine sound_commit (h.committed rfl rfl ?_ h.le ⟨le_rfl, le_rfl⟩ (h.contentId screen) ?_) fun hw => hw
  · simp [weigh_one, mapValues]
  · intro k placement hget
    rw [get?_mapValues] at hget
    obtain ⟨old, hold, rfl⟩ := Option.map_eq_some_iff.mp hget
    exact h.placementId screen k old hold

theorem ends_retainAnchors (rowIds : List Nat) : Ends (Sound True plane) (retainAnchors screen rowIds) plane :=
  .get_bind (.bind ((ends_forM_picked h _).mono fun _ => Kept.sound) fun _ _ hsound =>
    hsound.ends (ends_reclaim hsound.books))

theorem ends_removeTextPlacementsOutsideColumns (columns : Nat) :
    Ends (Sound True plane) (removeTextPlacementsOutsideColumns screen columns) plane :=
  .get_bind (.bind ((ends_forM_picked h _).mono fun _ => Kept.sound) fun _ _ hsound =>
    .bind (.whenever hsound (hsound.ends (ends_reclaim hsound.books))) fun _ _ hlater => hlater)

theorem ends_removePlacement (id : Nat) : Ends (Sound True plane) (removePlacement screen id) plane := by
  refine .get_bind ?_
  cases hget : (plane.catalog screen).placements.get? id with
  | none => exact ⟨⟨_, rfl⟩, h.sound⟩
  | some placement =>
    show Ends _ (dropPlacement screen id >>= fun _ => reclaimUnplacedWhilePlaced) plane
    exact .bind (wp_imp (wp_dropPlacement h hget) (fun _ _ hkept => hkept.1.sound))
      fun _ _ hsound => hsound.ends (ends_reclaim hsound.books)

theorem ends_onCandidate {keep : Except ImageError α → Bool}
    (hm : Ends (Sound True plane) m plane) : Ends (Sound True plane) (onCandidate m keep) plane := by
  refine .get_bind (.bind hm.attempt fun result candidate hsound => ?_)
  split
  · exact hsound
  · exact ⟨h.admissions _, rfl, fun _ hw => hw⟩

theorem ends_insertContentAndPlacement (content : NewImageContent) (rowId : Nat)
    (placement : NewImagePlacementOptions) :
    Ends (Sound True plane) (insertContentAndPlacement sha256 screen content rowId placement) plane := by
  refine .get_bind (.check_bind h.sound fun _ => .rejectWhen_bind h.sound fun _ => .rejectWhen_bind h.sound fun _ =>
    .check_bind h.sound fun _ => .check_bind h.sound fun _ => .rejectWhen_bind h.sound fun _ =>
    .rejectWhen_bind h.sound fun _ => .bind (h.sound.ends (ends_insertContent h content)) fun contentId _ hstored =>
    .bind (hstored.ends (ends_insertPlacement hstored.books _)).attempt fun result _ hplaced => ?_)
  cases result with
  | ok _ => exact hplaced
  | error e =>
    exact .bind (hplaced.ends (ends_removeContentOnly hplaced.books _)).attempt fun _ _ hsound => ⟨⟨e, rfl⟩, hsound⟩

theorem ends_removeTextOverlaps (rowOrder : List Nat) (rect : CellRect) :
    Ends (Sound True plane) (removeTextOverlaps screen rowOrder rect) plane := by
  refine .bind (ends_onCandidate h ((ends_splitTextOverlaps h).mono fun _ => Kept.sound)) fun result _ hsound => ?_
  cases result with
  | ok _ => exact hsound
  | error _ => exact (ends_removeTextOverlapsWhole hsound.books).mono fun _ hkept => hsound.trans hkept.sound

/-- A sixel whose pixels cannot be composed changes nothing. -/
theorem wp_insertSixelContentAndPlacement (content : NewImageContent) (rowOrder : List Nat)
    (rowId : Nat) (placement : NewImagePlacementOptions) :
    wp (insertSixelContentAndPlacement sha256 screen content rowOrder rowId placement) (fun _ => Sound True plane)
      (fun _ => Sound True plane) plane := by
  have hsame (_ : ImageError) : Sound True plane plane := h.sound
  refine wp_check_bind hsame fun _ => wp_check_bind hsame fun _ => wp_check_bind hsame fun anchorRow => ?_
  dsimp only
  generalize prepareSixelOverlap plane screen rowOrder _ placement content = prepared
  cases prepared with
  | error stop => exact h.sound
  | ok prepared =>
    simp only [fromResult, pure_bind]
    have hinsert {base placed : ImagePlane} {placement : NewImagePlacementOptions} (hsound : Sound True base placed) :
        Ends (Sound True base) (insertContentAndPlacement sha256 screen prepared rowId placement) placed :=
      (ends_insertContentAndPlacement hsound.books prepared rowId placement).mono fun _ => hsound.trans
    refine wp_mono (Ends.bind (ends_onCandidate h (.bind ((ends_splitTextOverlaps h).mono fun _ => Kept.sound)
      fun _ _ hsound => hinsert hsound)) fun result first hfirst => ?_) (fun _ _ hsound => hsound) fun _ _ hstop => hstop.2
    cases result with
    | ok _ => exact hfirst
    | error _ =>
      refine .bind ((ends_onCandidate hfirst.books (.bind ((ends_removeTextOverlapsWhole hfirst.books).mono
        fun _ => Kept.sound) fun _ _ hsound => hinsert hsound)).mono fun _ => hfirst.trans)
        fun result second hsecond => ?_
      cases result with
      | ok _ => exact hsecond
      | error _ => exact hinsert hsecond

end ImagePlane

/-! ## Runs -/

/-- The operations that change a plane. -/
inductive PlaneOp where
  | insertContent (screen : ActiveScreen) (input : NewImageContent)
  | replaceContent (screen : ActiveScreen) (id : Nat) (input : NewImageContent)
  | insertPlacement (screen : ActiveScreen) (input : NewImagePlacement)
  | insertContentAndPlacement (screen : ActiveScreen) (content : NewImageContent) (rowId : Nat)
      (placement : NewImagePlacementOptions)
  | insertSixelContentAndPlacement (screen : ActiveScreen) (content : NewImageContent) (rowOrder : List Nat)
      (rowId : Nat) (placement : NewImagePlacementOptions)
  | removePlacement (screen : ActiveScreen) (id : Nat)
  | removeContent (screen : ActiveScreen) (id : Nat)
  | clearScreen (screen : ActiveScreen)
  | retainAnchors (screen : ActiveScreen) (rowIds : List Nat)
  | remapAnchors (screen : ActiveScreen) (replacements : OrdMap Nat Nat)
  | removeTextOverlaps (screen : ActiveScreen) (rowOrder : List Nat) (rect : CellRect)
  | removeTextPlacementsOutsideColumns (screen : ActiveScreen) (columns : Nat)
  | resolveTextOverlaps (screen : ActiveScreen) (rowOrder : List Nat)

namespace ImagePlane

variable {plane : ImagePlane} (sha256 : List UInt8 → List UInt8)

/-- The plane after an operation, whether it was carried out or rejected. -/
def apply (plane : ImagePlane) : PlaneOp → ImagePlane
  | .insertContent screen input => after (insertContent sha256 screen input) plane
  | .replaceContent screen id input => after (replaceContent sha256 screen id input) plane
  | .insertPlacement screen input => after (insertPlacement screen input) plane
  | .insertContentAndPlacement screen content rowId placement =>
    after (insertContentAndPlacement sha256 screen content rowId placement) plane
  | .insertSixelContentAndPlacement screen content rowOrder rowId placement =>
    after (insertSixelContentAndPlacement sha256 screen content rowOrder rowId placement) plane
  | .removePlacement screen id => after (removePlacement screen id) plane
  | .removeContent screen id => after (removeContent screen id) plane
  | .clearScreen screen => after (clearScreen screen) plane
  | .retainAnchors screen rowIds => after (retainAnchors screen rowIds) plane
  | .remapAnchors screen replacements => after (remapAnchors screen replacements) plane
  | .removeTextOverlaps screen rowOrder rect => after (removeTextOverlaps screen rowOrder rect) plane
  | .removeTextPlacementsOutsideColumns screen columns =>
    after (removeTextPlacementsOutsideColumns screen columns) plane
  | .resolveTextOverlaps screen rowOrder => after (resolveTextOverlaps screen rowOrder) plane

/-- Only the resolution of overlaps can run out of room. -/
def HasRoomFor (plane : ImagePlane) : PlaneOp → Prop
  | .resolveTextOverlaps screen rowOrder => plane.HasRoom screen rowOrder
  | _ => True

theorem sound_apply (h : plane.Books 0) (op : PlaneOp) : Sound (plane.HasRoomFor op) plane (apply sha256 plane op) := by
  cases op with
  | insertContent => exact (h.sound.ends (ends_insertContent h _)).after
  | replaceContent => exact (ends_replaceContent h ..).after
  | insertPlacement => exact (h.sound.ends (ends_insertPlacement h _)).after
  | insertContentAndPlacement => exact (ends_insertContentAndPlacement h ..).after
  | insertSixelContentAndPlacement => exact wp_after (wp_insertSixelContentAndPlacement h ..)
  | removePlacement => exact (ends_removePlacement h _).after
  | removeContent => exact (ends_removeContent h _).after
  | clearScreen => exact (ends_clearScreen h).after
  | retainAnchors => exact (ends_retainAnchors h _).after
  | remapAnchors => exact (ends_remapAnchors h _).after
  | removeTextOverlaps => exact (ends_removeTextOverlaps h ..).after
  | removeTextPlacementsOutsideColumns => exact (ends_removeTextPlacementsOutsideColumns h _).after
  | resolveTextOverlaps => exact (ends_resolveTextOverlaps _ h).after

theorem sound_run (h : plane.Books 0) (ops : List PlaneOp) :
    Sound (Along (apply sha256) HasRoomFor ops plane) plane (ops.foldl (apply sha256) plane) := by
  induction ops generalizing plane with
  | nil => exact h.sound
  | cons op ops ih =>
    have hstep := sound_apply sha256 h op
    have hrest := ih hstep.books
    exact ⟨hrest.books, hrest.limits.trans hstep.limits, fun hroom hw => hrest.within hroom.2 (hstep.within hroom.1 hw)⟩

theorem books_new (limits : ImageLimits) (sharedBudget : Option SharedBudget) : (new limits sharedBudget).Books 0 where
  contentCount := rfl
  contentBytes := rfl
  placementCount := rfl
  le := ⟨zero_le _, zero_le _⟩
  contentId screen _ _ hget := by cases screen <;> cases hget
  placementId screen _ _ hget := by cases screen <;> cases hget

/-- From an empty plane, after every run: the counters are the sums over both catalogues, contents
stay within their limits, and so do placements if every resolution of overlaps had room for the
pieces its participants may cut the others into. -/
theorem accounts_exact_and_within_limits (limits : ImageLimits) (sharedBudget : Option SharedBudget)
    (ops : List PlaneOp) :
    let plane := ops.foldl (apply sha256) (new limits sharedBudget)
    plane.limits = limits ∧
      plane.metrics.contentCount = plane.normal.contents.entries.length + plane.alternate.contents.entries.length ∧
      plane.metrics.contentBytes = (plane.normal.contents.values.map (·.metadata.byteCharge)).sum +
        (plane.alternate.contents.values.map (·.metadata.byteCharge)).sum ∧ plane.metrics.placementCount =
        plane.normal.placements.entries.length + plane.alternate.placements.entries.length ∧
      plane.metrics.contentCount ≤ limits.contentsPerTerminal ∧
      plane.metrics.contentBytes ≤ limits.bytesPerTerminal ∧
      (Along (apply sha256) HasRoomFor ops (new limits sharedBudget) →
        plane.metrics.placementCount ≤ limits.placementsPerTerminal) := by
  intro plane
  have hsound : Sound _ _ plane := sound_run sha256 (books_new limits sharedBudget) ops
  have hlimits : plane.limits = limits := hsound.limits
  have hbytes := hsound.books.contentBytes
  rw [add_zero, Int.natCast_inj] at hbytes
  refine ⟨hlimits, ?_, hbytes, ?_, hlimits ▸ hsound.books.le.1, hlimits ▸ hsound.books.le.2,
    fun hroom => hlimits ▸ hsound.within hroom (zero_le _)⟩
  · simpa only [total, weigh_one] using hsound.books.contentCount
  · simpa only [total, weigh_one] using hsound.books.placementCount

/-- A solid sixel of one pixel a cell. -/
def sixelOp (rowId column columns rows : Nat) : PlaneOp :=
  .insertSixelContentAndPlacement .normal
    { width := columns, height := rows, sourceFormat := .sixel, alphaMode := .opaqueAlpha
      pixels := replicate (columns * rows * 4) 255, retention := .whilePlaced }
    [1, 2, 3] rowId
    { column, source := ⟨0, 0, columns, rows⟩, destination := ⟨columns, rows⟩, sourceCellSize := some ⟨1, 1⟩
      xOffset := 0, yOffset := 0, zIndex := 0, applicationImageId := none, applicationPlacementId := none
      erasePolicy := .textOverwrite }

/-- A resolution run on the participants it finds. -/
theorem after_resolveTextOverlaps {screen : ActiveScreen} {rowOrder : List Nat} {ps : List ImagePlacement}
    (h : plane.participants screen rowOrder = ps) :
    after (resolveTextOverlaps screen rowOrder) plane = after (do
      whenever (ps ≠ []) do
        ps.forM fun p => dropPlacement screen p.id
        ps.forM (replayPlacement screen rowOrder)
        reclaimUnplacedWhilePlaced
      pure (decide (ps ≠ []))) plane := by
  subst h
  rfl

instance : Decidable plane.Within := inferInstanceAs (Decidable (_ ≤ _))

/-- Two images that do not touch while a row lies between them. -/
def apart (limit : Nat) : ImagePlane :=
  [sixelOp 1 0 3 2, sixelOp 3 1 1 1].foldl (apply fun _ => []) (new { placementsPerTerminal := limit } none)

theorem participants_apart {limit : Nat} (h : limit = 2 ∨ limit = 5) :
    (apart limit).participants .normal [1, 3] = (apart limit).placements .normal := by
  rcases h with rfl | rfl <;> rw [participants, mergeSort_of_pairwise (by decide +kernel)] <;> decide +kernel

/-- With the row between them gone, a limit of five has room for the upper image and four pieces of
the lower one. -/
theorem meeting_sixels_within_five :
    let run := [sixelOp 1 0 3 2, sixelOp 3 1 1 1, .resolveTextOverlaps .normal [1, 3]]
    Along (apply fun _ => []) HasRoomFor run (new { placementsPerTerminal := 5 } none) ∧
      (run.foldl (apply fun _ => []) (new { placementsPerTerminal := 5 } none)).metrics.placementCount ≤ 5 := by
  intro run
  have hroom : (apart 5).HasRoom .normal [1, 3] := by
    rw [HasRoom, participants_apart (.inr rfl)]
    decide +kernel
  have halong : Along (apply fun _ => []) HasRoomFor run (new { placementsPerTerminal := 5 } none) :=
    ⟨trivial, trivial, hroom, trivial⟩
  exact ⟨halong, (accounts_exact_and_within_limits (fun _ => []) { placementsPerTerminal := 5 } none
    run).2.2.2.2.2.2 halong⟩

/-- Under a limit of two the third piece is refused, and the upper image is put back as a third
placement. -/
theorem meeting_sixels_past_two :
    ([sixelOp 1 0 3 2, sixelOp 3 1 1 1, .resolveTextOverlaps .normal [1, 3]].foldl (apply fun _ => [])
      (new { placementsPerTerminal := 2 } none)).metrics.placementCount = 3 := by
  show (after (resolveTextOverlaps .normal [1, 3]) (apart 2)).metrics.placementCount = 3
  rw [after_resolveTextOverlaps (participants_apart (.inl rfl))]
  decide +kernel

end ImagePlane

end Splinterm.Terminal
