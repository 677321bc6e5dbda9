import Splinterm.Core.Document

/-!
# Restarting from durable metadata

What is written out at the end of a daemon's life and read back at the next start: the persistent
Lairs as they were, with every process ended.
-/

namespace Splinterm.Core

open Lib Hoare List TopologyDocument

/-! ## What a restart changes -/

/-- Only the state of a Splint that was not exited changes. -/
inductive LayoutNode.Restarted : LayoutNode → LayoutNode → Prop where
  | exited {splint : Splint} (h : splint.state.isExited = true) : Restarted (.leaf splint) (.leaf splint)
  | ended {splint : Splint} (h : splint.state.isExited = false) :
      Restarted (.leaf splint) (.leaf { splint with state := .exited 0 })
  | branch {axis : Axis} {ratio : SplitRatio} {first second first' second' : LayoutNode}
      (hfirst : Restarted first first') (hsecond : Restarted second second') :
      Restarted (.branch axis ratio first second) (.branch axis ratio first' second')

def Dojo.Restarted (dojo dojo' : Dojo) : Prop := ∃ root, dojo.root.Restarted root ∧ dojo' = { dojo with root }

def Lair.Restarted (lair lair' : Lair) : Prop :=
  ∃ dojos, List.Forall₂ Dojo.Restarted lair.dojos dojos ∧ lair' = { lair with dojos }

theorem restarted_markTreeRestorable (node : LayoutNode) : node.Restarted (markTreeRestorable node) := by
  induction node with
  | leaf splint =>
    rw [markTreeRestorable]
    split
    · rename_i hexited
      exact .exited hexited
    · rename_i hlive
      exact .ended (Bool.eq_false_of_not_eq_true hlive)
  | branch axis ratio first second ih₁ ih₂ => exact .branch ih₁ ih₂

theorem restarted_restorableLairs (t : Topology) :
    List.Forall₂ Lair.Restarted (t.lairs.values.filter (·.lifetime.isPersistent)) (restorableLairs t) := by
  rw [restorableLairs, forall₂_map_right_iff, forall₂_same]
  intro lair _
  refine ⟨_, ?_, rfl⟩
  rw [forall₂_map_right_iff, forall₂_same]
  exact fun dojo _ => ⟨_, restarted_markTreeRestorable dojo.root, rfl⟩

/-! ## What is read back -/

/-- A topology that can be written out and whose text fits the limit is read back as a topology of the
same revision that holds, under their own identities, exactly its persistent Lairs, restarted. -/
theorem restart_keeps_persistent_lairs (reader : Reader) (t : Topology) (document : TopologyDocument)
    (hdocument : TopologyDocument.fromTopology t = .ok document) (hreader : reader.RoundTrips document) :
    ∃ bytes, document.encode = .ok bytes ∧ (bytes.length ≤ maxTopologyDocumentBytes →
      ∃ t' lairs, (TopologyDocument.decode reader bytes >>= TopologyDocument.intoTopology) = .ok t' ∧
        t'.revision = t.revision ∧
        List.Forall₂ Lair.Restarted (t.lairs.values.filter (·.lifetime.isPersistent)) lairs ∧
        (lairs.map (·.id)).Nodup ∧ ∀ id lair, t'.lairs.get? id = some lair ↔ lair ∈ lairs ∧ lair.id = id) := by
  obtain ⟨_, hvalid, hpure⟩ := bind_eq_ok.mp hdocument
  cases hpure
  refine ⟨_, encode_eq_ok.mpr ⟨hvalid, rfl⟩, fun hsize => ?_⟩
  rw [length_json] at hsize
  have hids : ((restorableLairs t).map (·.id)).Nodup := by
    obtain ⟨_, -, hvalid⟩ := bind_eq_ok.mp hvalid
    obtain ⟨_, -, hlairs⟩ := bind_eq_ok.mp hvalid
    exact (Persistence.validateLairs_spec hlairs).2.1
  -- every Lair of the document is persistent
  have hall : (restorableLairs t).filter (·.lifetime.isPersistent) = restorableLairs t := by
    rw [filter_eq_self, restorableLairs, forall_mem_map]
    exact fun lair hlair => (mem_filter.mp hlair).2
  have hdecode := decode_json hreader hvalid
  rw [if_pos hsize] at hdecode
  refine ⟨_, restorableLairs t, bind_eq_ok.mpr ⟨_, hdecode, bind_eq_ok.mpr ⟨(), hvalid, rfl⟩⟩, rfl,
    restarted_restorableLairs t, hids, fun id lair => ?_⟩
  rw [hall, OrdMap.get?_foldl_insert hids]
  constructor
  · rintro ⟨_, hmem, hid, rfl⟩
    exact ⟨hmem, hid⟩
  · rintro ⟨hmem, hid⟩
    exact ⟨lair, hmem, hid, rfl⟩

/-- A running shell comes back exited. -/
theorem main_restarts :
    let t := runOps Topology.new [.insertLairAt 0 (namedLair 1 "main")]
    let document : TopologyDocument := ⟨topologySchemaVersion, t.revision, restorableLairs t⟩
    let reader : Reader := ⟨fun _ => .ok topologySchemaVersion, fun _ => .ok document, fun _ => .error "",
      fun _ => .error "", fun _ => .error ""⟩
    fromTopology t = .ok document ∧ ∃ t' lair, (decode reader document.json >>= intoTopology) = .ok t' ∧
        t'.lairs.get? ⟨1⟩ = some lair ∧ (namedLair 1 "main").Restarted lair := by
  intro t document reader
  have hvalid : document.validate = .ok () := by
    have hchecks : document.validate.isOk = true := by decide +kernel
    revert hchecks
    cases document.validate with
    | ok _ => exact fun _ => rfl
    | error e => rintro ⟨⟩
  have hdocument : fromTopology t = .ok document := bind_eq_ok.mpr ⟨(), hvalid, rfl⟩
  obtain ⟨bytes, hbytes, hrestart⟩ := restart_keeps_persistent_lairs reader t document hdocument ⟨rfl, rfl⟩
  obtain ⟨-, rfl⟩ := encode_eq_ok.mp hbytes
  obtain ⟨t', lairs, hread, -, hsame, -, hget⟩ := hrestart (by
    rw [length_json]
    decide +kernel)
  have hfirst : t.lairs.values.filter (·.lifetime.isPersistent) = [namedLair 1 "main"] := by decide +kernel
  rw [hfirst] at hsame
  obtain ⟨lair, _, hlair, -, rfl⟩ := forall₂_cons_left_iff.mp hsame
  obtain ⟨dojos, hdojos, rfl⟩ := hlair
  exact ⟨hdocument, t', _, hread, (hget _ _).mpr ⟨mem_cons_self, rfl⟩, dojos, hdojos, rfl⟩

end Splinterm.Core
