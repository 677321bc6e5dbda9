import Splinterm.Core.Refinement

/-!
# Runs of topology operations

A run is any finite sequence of calls with any arguments. Calls that are refused or
that unwind leave a state behind and the run goes on from it, so what is proved here
holds at every point a caller can observe.
-/

namespace Splinterm.Core

open Lib Hoare

variable {rule : Rule}

/-- The texts an operation stores as they were passed, without normalizing them, meet the rule. -/
def Op.Stores (rule : Rule) : Op → Prop
  | .insertLairAt _ lair => lair.Meets rule
  | .replaceLairAt _ _ inserted => inserted.Meets rule
  | .splitSplint _ newSplint _ _ _ => rule.title newSplint.title
  | .splitSplintAt _ _ newSplint _ _ _ => rule.title newSplint.title
  | .newDojoAt _ _ dojo => dojo.Meets rule
  | .newDojoWithPromotionAt _ _ dojo _ => dojo.Meets rule
  | .materializeDojosAt _ _ _ dojos => ∀ dojo ∈ dojos, dojo.Meets rule
  | .materializeLairAt _ _ _ dojos => ∀ dojo ∈ dojos, dojo.Meets rule
  | .materializeLairWithProvenanceAt _ _ _ dojos provenance =>
    (∀ dojo ∈ dojos, dojo.Meets rule) ∧ ∀ label, provenance = some label → rule.provenance label
  | _ => True

/-- The revision a call is issued against: the one it names, or the current one for the
convenience forms; `none` for calls outside the revision scheme. -/
def Op.expectedAt (t : Topology) : Op → Option TopologyRevision
  | .createLair .. | .splitSplint .. | .closeSplint .. => some t.revision
  | .createLairAt expected .. | .insertLairAt expected .. | .replaceLairAt expected ..
  | .splitSplintAt expected .. | .closeSplintAt expected .. | .setSplitRatioAt expected ..
  | .newDojoAt expected .. | .newDojoWithPromotionAt expected .. | .materializeDojosAt expected ..
  | .materializeLairAt expected .. | .materializeLairWithProvenanceAt expected ..
  | .closeDojoAt expected .. | .terminateDojoAt expected .. | .terminateLairAt expected ..
  | .setLairRetentionAt expected .. | .renameLairAt expected .. | .renameDojoAt expected ..
  | .renameDojoWithPromotionAt expected .. | .setDojoDefaultFocusAt expected ..
  | .renameSplintAt expected .. => some expected
  | .removeLair .. | .commitRelaunch .. | .setSplintLaunchMetadata ..
  | .setSplintLastIncarnation .. | .setSplintDimensions .. | .setSplintState .. => none

/-! ## One call -/

variable {expected : TopologyRevision}

theorem Commits.void {α : Type} {m : TopologyM α}
    (h : Commits rule expected m) : Commits rule expected (do let _ ← m) :=
  fun t => (wp_bind ..).mpr (h t)

theorem Keeps.void {α : Type} {m : TopologyM α} (h : Keeps rule m) : Keeps rule (do let _ ← m) :=
  fun t => (wp_bind ..).mpr (h t)

variable {op : Op} {t : Topology}

/-- A revisioned call refuses, commits one edit, or unwinds at the last revision. -/
theorem Op.wp_exec (hstores : op.Stores rule) (hexpected : op.expectedAt t = some expected) :
    wp op.exec (fun _ => Committed rule expected t) (Stopped rule expected t) t := by
  cases op <;> simp only [Op.expectedAt, Option.some.injEq, reduceCtorEq] at hexpected <;>
    subst hexpected
  case createLair | createLairAt => exact commits_createLairAt.void t
  case insertLairAt => exact (commits_insertLairAt hstores).void t
  case replaceLairAt => exact (commits_replaceLairAt hstores).void t
  case splitSplint | splitSplintAt => exact (commits_splitSplintAt hstores).void t
  case closeSplint | closeSplintAt => exact commits_closeSplintAt.void t
  case setSplitRatioAt => exact commits_setSplitRatioAt.void t
  case newDojoAt => exact (commits_newDojoAt hstores).void t
  case newDojoWithPromotionAt => exact (commits_newDojoWithPromotionAt hstores).void t
  case materializeDojosAt => exact (commits_materializeDojosAt hstores).void t
  case materializeLairAt => exact (commits_materializeLairWithProvenanceAt hstores (by simp)).void t
  case materializeLairWithProvenanceAt => exact (commits_materializeLairWithProvenanceAt hstores.1 hstores.2).void t
  case closeDojoAt | terminateDojoAt => exact commits_removeDojoAt.void t
  case terminateLairAt => exact commits_terminateLairAt.void t
  case setLairRetentionAt => exact commits_setLairRetentionAt.void t
  case renameLairAt => exact commits_renameLairAt.void t
  case renameDojoAt => exact commits_renameDojoAt.void t
  case renameDojoWithPromotionAt => exact commits_renameDojoWithPromotionAt.void t
  case setDojoDefaultFocusAt => exact commits_setDojoDefaultFocusAt.void t
  case renameSplintAt => exact commits_renameSplintAt.void t

/-- What every call may leave behind: at most one edit, at no earlier revision. -/
def Allowed (rule : Rule) (t t' : Topology) : Prop :=
  t.revision.toNat ≤ t'.revision.toNat ∧ Edit rule t.lairs t'.lairs

theorem allowed_of_committed {α : Type} {m : TopologyM α} {post : α → Topology → Prop} {t₀ : Topology}
    (h : wp m post (Stopped rule expected t) t₀) (hpost : ∀ a t', post a t' → Committed rule expected t t') :
    wp m (fun _ => Allowed rule t) (fun _ => Allowed rule t) t₀ := by
  refine wp_mono h (fun a t' ha => ?_) (fun stop t' hs => ?_)
  · have hc := hpost a t' ha
    exact ⟨by rw [hc.advanced]; omega, hc.edit⟩
  · cases stop with
    | err e => exact hs ▸ ⟨le_rfl, .keep⟩
    | panic => exact ⟨hs.2.2.1 ▸ le_rfl, hs.2.2.2⟩

/-- `remove_lair` names no revision, but it counts an actual removal. -/
theorem wp_removeLair {id : LairId} : wp (removeLair id) (fun _ => Allowed rule t) (fun _ => Allowed rule t) t := by
  have hedit : Edit rule t.lairs (t.lairs.erase id) := .erase id
  simp only [removeLair, wp_bind, wp_get, eraseLair, wp_modify]
  by_cases hsome : (t.lairs.get? id).isSome
  · simp only [hsome, if_true, wp_bind]
    exact allowed_of_committed (advance_after rfl hedit) fun _ _ hc => hc.1
  · simp only [hsome]
    exact ⟨le_rfl, hedit⟩

theorem Keeps.allowed {m : TopologyM Unit} (h : Keeps rule m) (t : Topology) :
    wp m (fun _ => Allowed rule t) (fun _ => Allowed rule t) t :=
  wp_mono (h t) (fun _ _ hk => ⟨hk.1 ▸ le_rfl, hk.2⟩) (fun _ _ he => he ▸ ⟨le_rfl, .keep⟩)

/-- Whatever a call does and however it ends, it makes at most one edit and never goes back
to an earlier revision. -/
theorem Op.after_edit (t : Topology) (hstores : op.Stores rule) : Allowed rule t (op.after t) := by
  have hallowed : wp op.exec (fun _ => Allowed rule t) (fun _ => Allowed rule t) t := by
    cases hexpected : op.expectedAt t with
    | some expected => exact allowed_of_committed (op.wp_exec hstores hexpected) fun _ _ hc => hc
    | none =>
      cases op <;> simp only [Op.expectedAt, reduceCtorEq] at hexpected
      case removeLair => exact (wp_bind ..).mpr wp_removeLair
      case commitRelaunch => exact keeps_commitRelaunch.allowed t
      -- the rest set a field of one leaf other than its id and its title
      all_goals
        refine Keeps.allowed (Keeps.void (Keeps.andThen (keeps_updateSplint ?_ ?_) _)) t
        · exact fun _ => rfl
        · exact fun _ => rfl
  cases hexec : op.exec t with
  | ok _ t' => simpa only [Op.after, hexec] using wp_of_ok hallowed hexec
  | error stop t' => simpa only [Op.after, hexec] using wp_of_error hallowed hexec

/-! ## Whole runs -/

theorem runOps_invariant {ops : List Op} (h : Invariant rule t.lairs)
    (hstores : ∀ op ∈ ops, op.Stores rule) : Invariant rule (runOps t ops).lairs := by
  induction ops generalizing t with
  | nil => exact h
  | cons op ops ih =>
    obtain ⟨hop, hops⟩ := List.forall_mem_cons.mp hstores
    exact ih (h.edit (op.after_edit t hop).2) hops

theorem Op.stores_any (op : Op) : op.Stores Rule.any := by
  have hdojo : ∀ dojo : Dojo, dojo.Meets Rule.any := fun _ => ⟨trivial, fun _ _ => trivial⟩
  have hlair : ∀ lair : Lair, lair.Meets Rule.any := fun _ => ⟨trivial, fun _ _ => trivial, fun dojo _ => hdojo dojo⟩
  cases op <;> simp [Op.Stores, hdojo, hlair] <;> simp [Rule.any]

/-- In every state a run from the empty topology passes through, ids are unique across the whole
topology, each Lair is stored under its own id and each default focus is a leaf of its Dojo. -/
theorem topology_structure (ops : List Op) :
    let lairs := (runOps Topology.new ops).lairs
    (∀ e ∈ lairs.entries, e.2.id = e.1) ∧ (lairs.values.map (·.id)).Nodup ∧
      ((allDojos lairs).map (·.id)).Nodup ∧ ((allDojos lairs).flatMap (·.root.splintIds)).Nodup ∧
      ∀ dojo ∈ allDojos lairs, dojo.defaultFocus ∈ dojo.root.splintIds := by
  have h : Invariant Rule.any (runOps Topology.new ops).lairs :=
    runOps_invariant (invariant_empty _) fun op _ => op.stores_any
  exact ⟨h.keyed, h.lairIds, h.distinct.dojoIds, h.distinct.splintIds, h.distinct.focus⟩

/-! ## Optimistic concurrency -/

def Op.succeeds (op : Op) (t : Topology) : Bool :=
  match op.exec t with
  | .ok _ _ => true
  | .error _ _ => false

/-- How many calls of a run that are issued against `revision` succeed. -/
def successesAgainst (revision : TopologyRevision) : Topology → List Op → Nat
  | _, [] => 0
  | t, op :: ops =>
    (if op.expectedAt t = some revision ∧ op.succeeds t then 1 else 0) + successesAgainst revision (op.after t) ops

theorem Op.succeeds_advances (hexpected : op.expectedAt t = some expected) (hs : op.succeeds t = true) :
    t.revision = expected ∧ (op.after t).revision.toNat = t.revision.toNat + 1 := by
  have h := op.wp_exec op.stores_any hexpected
  cases hexec : op.exec t with
  | ok _ t' =>
    have hcommitted := wp_of_ok h hexec
    rw [show op.after t = t' by simp only [Op.after, hexec]]
    exact ⟨hcommitted.current, hcommitted.advanced⟩
  | error stop t' => simp [Op.succeeds, hexec] at hs

/-- Once the topology has passed a revision, nothing issued against it succeeds. -/
theorem successesAgainst_of_lt {revision : TopologyRevision} {ops : List Op}
    (h : revision.toNat < t.revision.toNat) : successesAgainst revision t ops = 0 := by
  induction ops generalizing t with
  | nil => rfl
  | cons op ops ih =>
    have hmono := (op.after_edit t op.stores_any).1
    have hnot : ¬ (op.expectedAt t = some revision ∧ op.succeeds t = true) := by
      rintro ⟨hexpected, hs⟩
      have hcurrent := (op.succeeds_advances hexpected hs).1
      rw [hcurrent] at h
      exact lt_irrefl _ h
    simp only [successesAgainst, if_neg hnot, Nat.zero_add]
    exact ih (by omega)

theorem successesAgainst_le_one (revision : TopologyRevision) (t : Topology) (ops : List Op) :
    successesAgainst revision t ops ≤ 1 := by
  induction ops generalizing t with
  | nil => exact Nat.zero_le _
  | cons op ops ih =>
    by_cases hwins : op.expectedAt t = some revision ∧ op.succeeds t = true
    · obtain ⟨hcurrent, hadvanced⟩ := op.succeeds_advances hwins.1 hwins.2
      have hrest : successesAgainst revision (op.after t) ops = 0 :=
        successesAgainst_of_lt (by rw [hadvanced, hcurrent]; omega)
      simp [successesAgainst, hwins, hrest]
    · simpa [successesAgainst, hwins] using ih (op.after t)

/-- A revisioned call is refused and changes nothing, or succeeds against the revision it names
and advances it by one, or finds that it is the last 64-bit revision and unwinds with its edit made
and the revision as it was; and of all calls of a run issued against one revision at most one
succeeds. -/
theorem revisioned_calls (t : Topology) :
    (∀ (op : Op) (expected : TopologyRevision), op.expectedAt t = some expected →
      (∃ error, op.exec t = .error (.err error) t) ∨ (∃ t', op.exec t = .ok () t' ∧ t.revision = expected ∧
        t'.revision.toNat = t.revision.toNat + 1) ∨
      (t.revision = expected ∧ t.revision.toNat = 2 ^ 64 - 1 ∧ ∃ t', op.exec t = .error .panic t' ∧
        t'.revision = t.revision ∧ Edit .any t.lairs t'.lairs)) ∧
    ∀ (ops : List Op) (revision : TopologyRevision), successesAgainst revision t ops ≤ 1 := by
  refine ⟨fun op expected hexpected => ?_, fun ops revision => successesAgainst_le_one _ _ _⟩
  have h := op.wp_exec op.stores_any hexpected
  cases hexec : op.exec t with
  | ok _ t' =>
    have hcommitted := wp_of_ok h hexec
    exact .inr (.inl ⟨t', rfl, hcommitted.current, hcommitted.advanced⟩)
  | error stop t' =>
    have hstopped := wp_of_error h hexec
    cases stop with
    | err error =>
      cases hstopped
      exact .inl ⟨error, rfl⟩
    | panic =>
      obtain ⟨hcurrent, hlast, hrevision, hedit⟩ := hstopped
      exact .inr (.inr ⟨hcurrent, by omega, t', rfl, hrevision, hedit⟩)

/-- The last revision, with nothing stored. -/
def exhausted : Topology := ⟨UInt64.ofNat (2 ^ 64 - 1), .empty⟩

/-- At the last revision an accepted insertion has already stored its Lair when it unwinds: the
call neither returned an error nor succeeded, and the topology is not the one before it. -/
theorem exhausted_insertion_unwinds :
    (match (Op.insertLairAt exhausted.revision (.new ⟨⟨1⟩, ⟨2⟩, ⟨3⟩⟩ "main" [])).exec exhausted with
      | .error .panic t' => some (t'.lairs.values.map (·.name))
      | _ => none) = some ["main"] ∧ exhausted.lairs.values = [] := by
  decide +kernel

end Splinterm.Core
