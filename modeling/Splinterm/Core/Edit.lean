import Mathlib.Data.List.Flatten
import Mathlib.Data.List.Perm.Subperm
import Splinterm.Core.Model

/-!
# What a topology edit can do

`Edit rule lairs lairs'` lists the ways the collection of Lairs can change in one
operation, with the checks that guarded the change. It says what the operations are
for, independently of how they walk the maps and trees; the operations are shown to
stay within it, and the invariants are then proved once, for `Edit`.

The `Rule` parameter is a condition on the texts an operation stores as it was given
them; the structural invariant takes the trivial one.
-/

namespace Splinterm.Core

open Lib List OrdMap

/-! ## Texts -/

/-- A condition on stored names, provenance labels and titles that every normalized
name and the two built-in texts meet. -/
structure Rule where
  name : String → Prop
  provenance : String → Prop
  title : String → Prop
  normalized : ∀ {value trimmed : String}, normalizedName value = .ok trimmed → name trimmed ∧ title trimmed
  firstDojo : name "Dojo 1"
  shell : title "shell"

/-- No condition at all. -/
def Rule.any : Rule where
  name _ := True
  provenance _ := True
  title _ := True
  normalized _ := ⟨trivial, trivial⟩
  firstDojo := trivial
  shell := trivial

def Dojo.Meets (rule : Rule) (dojo : Dojo) : Prop :=
  rule.name dojo.name ∧ ∀ splint ∈ dojo.root.splints, rule.title splint.title

structure Lair.Meets (rule : Rule) (lair : Lair) : Prop where
  name : rule.name lair.name
  provenance : ∀ label, lair.provenance = some label → rule.provenance label
  dojos : ∀ dojo ∈ lair.dojos, dojo.Meets rule

/-! ## Edits -/

def Dojo.FocusOk (dojo : Dojo) : Prop := dojo.defaultFocus ∈ dojo.root.splintIds

def allSplintIds (dojos : List Dojo) : List SplintId := dojos.flatMap (·.root.splintIds)

/-- What `validate_new_dojos` establishes about Dojos that are to be added. -/
structure NewDojos (lairs : Lairs) (dojos : List Dojo) : Prop where
  dojoIds : (dojos.map (·.id)).Nodup
  dojosFresh : (dojos.map (·.id)).Disjoint ((allDojos lairs).map (·.id))
  splintIds : (allSplintIds dojos).Nodup
  splintsFresh : (allSplintIds dojos).Disjoint (allSplintIds (allDojos lairs))
  focus : ∀ dojo ∈ dojos, dojo.FocusOk

/-- One Dojo changed in place: it keeps its id and gains only leaves unknown to the topology. -/
structure DojoEdit (rule : Rule) (lairs : Lairs) (dojo dojo' : Dojo) : Prop where
  id : dojo'.id = dojo.id
  splints : ∃ fresh, fresh.Nodup ∧ fresh.Disjoint (allSplintIds (allDojos lairs)) ∧
    dojo'.root.splintIds.Subperm (fresh ++ dojo.root.splintIds)
  focus : dojo.FocusOk → dojo'.FocusOk
  meets : dojo.Meets rule → dojo'.Meets rule

inductive DojosEdit (rule : Rule) (lairs : Lairs) : List Dojo → List Dojo → Prop where
  | keep (dojos) : DojosEdit rule lairs dojos dojos
  | append (dojos) {new : List Dojo} (fresh : NewDojos lairs new)
      (meets : ∀ dojo ∈ new, dojo.Meets rule) : DojosEdit rule lairs dojos (dojos ++ new)
  | change (before after) {dojo dojo' : Dojo} (edit : DojoEdit rule lairs dojo dojo') :
      DojosEdit rule lairs (before ++ dojo :: after) (before ++ dojo' :: after)
  | remove (before after) (dojo : Dojo) :
      DojosEdit rule lairs (before ++ dojo :: after) (before ++ after)

theorem DojosEdit.meets {rule : Rule} {lairs : Lairs} {dojos dojos' : List Dojo}
    (he : DojosEdit rule lairs dojos dojos') (h : ∀ dojo ∈ dojos, dojo.Meets rule) :
    ∀ dojo ∈ dojos', dojo.Meets rule := by
  cases he with
  | keep => exact h
  | append _ _ hnew => exact forall_mem_append.mpr ⟨h, hnew⟩
  | @change before after dojo dojo' edit =>
    have hdojo := edit.meets (h dojo (by simp))
    intro d hd
    simp only [mem_append, mem_cons] at hd h
    rcases hd with hd | rfl | hd
    · exact h d (.inl hd)
    · exact hdojo
    · exact h d (.inr (.inr hd))
  | remove before after dojo => exact fun d hd => h d (((sublist_cons_self ..).append_left _).subset hd)

/-- One operation's change to the collection of Lairs. -/
inductive Edit (rule : Rule) (lairs : Lairs) : Lairs → Prop where
  | insert {lair : Lair} (fresh : NewDojos lairs lair.dojos)
      (name : ∀ other ∈ lairs.values, other.name ≠ lair.name) (meets : lair.Meets rule) :
      Edit rule lairs (lairs.insert lair.id lair)
  | replace {removed : LairId} {lair : Lair} (fresh : NewDojos lairs lair.dojos)
      (name : ∀ other ∈ lairs.values, other.id ≠ removed → other.name ≠ lair.name)
      (meets : lair.Meets rule) : Edit rule lairs ((lairs.erase removed).insert lair.id lair)
  | erase (id : LairId) : Edit rule lairs (lairs.erase id)
  | put {key : LairId} {lair lair' : Lair} (mem : (key, lair) ∈ lairs.entries)
      (id : lair'.id = lair.id) (provenance : lair'.provenance = lair.provenance)
      (dojos : DojosEdit rule lairs lair.dojos lair'.dojos)
      (name : lair'.name = lair.name ∨ rule.name lair'.name ∧
        ∀ other ∈ lairs.values, other.id ≠ key → other.name ≠ lair'.name) :
      Edit rule lairs (lairs.insert key lair')
  | keep : Edit rule lairs lairs

/-! ## The invariant -/

/-- Dojo ids and leaf ids are pairwise distinct and every focus is a leaf of its own tree. -/
structure Distinct (dojos : List Dojo) : Prop where
  dojoIds : (dojos.map (·.id)).Nodup
  splintIds : (allSplintIds dojos).Nodup
  focus : ∀ dojo ∈ dojos, dojo.FocusOk

/-- The Dojos of the whole topology are distinct, Lairs sit under their own id, Lair names
differ and every stored text meets the rule. -/
structure Invariant (rule : Rule) (lairs : Lairs) : Prop where
  keyed : ∀ e ∈ lairs.entries, e.2.id = e.1
  distinct : Distinct (allDojos lairs)
  names : (lairs.values.map (·.name)).Nodup
  meets : ∀ lair ∈ lairs.values, lair.Meets rule

theorem invariant_empty (rule : Rule) : Invariant rule (OrdMap.empty : Lairs) := by
  refine ⟨?_, ⟨?_, ?_, ?_⟩, ?_, ?_⟩ <;>
    simp [empty, values, allDojos, allSplintIds]

/-- A Lair stored under its own id is the only one with that id. -/
theorem Invariant.lairIds {rule : Rule} {lairs : Lairs} (h : Invariant rule lairs) :
    (lairs.values.map (·.id)).Nodup := by
  have hkeys : lairs.values.map (·.id) = lairs.entries.map (·.1) := by
    rw [values, map_map]
    exact map_congr_left fun e he => h.keyed e he
  exact hkeys ▸ lairs.keys_nodup

namespace Distinct

variable {dojos dojos' : List Dojo} {lairs : Lairs} {rule : Rule}

theorem perm (h : Distinct dojos) (hp : dojos.Perm dojos') : Distinct dojos' where
  dojoIds := (hp.map _).nodup_iff.mp h.dojoIds
  splintIds := (hp.flatMap_right _).nodup_iff.mp h.splintIds
  focus dojo hd := h.focus dojo (hp.mem_iff.mpr hd)

theorem sublist (h : Distinct dojos) (hs : dojos'.Sublist dojos) : Distinct dojos' where
  dojoIds := h.dojoIds.sublist (hs.map _)
  splintIds := h.splintIds.sublist (hs.flatMap _)
  focus dojo hd := h.focus dojo (hs.subset hd)

/-- Dojos that passed `validate_new_dojos` can join any part of the topology. -/
theorem append_new (h : Distinct dojos) (hs : dojos.Subset (allDojos lairs))
    (hn : NewDojos lairs dojos') : Distinct (dojos' ++ dojos) where
  dojoIds := by
    rw [map_append]
    refine List.Nodup.append hn.dojoIds h.dojoIds fun id hnew hold => ?_
    exact hn.dojosFresh hnew (map_subset _ hs hold)
  splintIds := by
    rw [allSplintIds, flatMap_append]
    refine List.Nodup.append hn.splintIds h.splintIds fun id hnew hold => ?_
    obtain ⟨dojo, hd, hid⟩ := mem_flatMap.mp hold
    exact hn.splintsFresh hnew (mem_flatMap.mpr ⟨dojo, hs hd, hid⟩)
  focus := forall_mem_append.mpr ⟨hn.focus, h.focus⟩

theorem change {dojo dojo' : Dojo} {rest : List Dojo} (h : Distinct (dojo :: rest))
    (hp : (allDojos lairs).Perm (dojo :: rest)) (he : DojoEdit rule lairs dojo dojo') : Distinct (dojo' :: rest) where
  dojoIds := by simpa [he.id] using h.dojoIds
  splintIds := by
    obtain ⟨fresh, hnodup, hfresh, kept, hkept, hsub⟩ := he.splints
    have hall : (fresh ++ allSplintIds (dojo :: rest)).Nodup := List.Nodup.append hnodup h.splintIds fun id hf hold =>
        hfresh hf ((hp.flatMap_right _).mem_iff.mpr hold)
    have hkeep : (kept ++ allSplintIds rest).Sublist (fresh ++ allSplintIds (dojo :: rest)) := by
      simpa [allSplintIds] using hsub.append_right (allSplintIds rest)
    exact (hkept.append_right _).nodup_iff.mp (hall.sublist hkeep)
  focus :=
    have hfocus := forall_mem_cons.mp h.focus
    forall_mem_cons.mpr ⟨he.focus hfocus.1, hfocus.2⟩

/-- The Dojos of one Lair, edited beside those of the others. -/
theorem edit {rest : List Dojo} (h : Distinct (dojos ++ rest))
    (hp : (allDojos lairs).Perm (dojos ++ rest)) (he : DojosEdit rule lairs dojos dojos') :
    Distinct (dojos' ++ rest) := by
  cases he with
  | keep => exact h
  | append _ hn _ =>
    refine (h.append_new (fun d hd => hp.mem_iff.mpr hd) hn).perm ?_
    rw [append_assoc]
    exact (perm_append_comm_assoc ..)
  | change before after he =>
    have hmove : ∀ d : Dojo, ((before ++ d :: after) ++ rest).Perm (d :: (before ++ after ++ rest)) :=
      fun d => by simp
    exact ((h.perm (hmove _)).change (hp.trans (hmove _)) he).perm (hmove _).symm
  | remove before after dojo => exact h.sublist (((sublist_cons_self ..).append_left _).append_right _)

end Distinct

section Maps

variable {lairs : Lairs} {key : LairId} {lair : Lair}

theorem allDojos_insert (lairs : Lairs) (key : LairId) (lair : Lair) :
    (allDojos (lairs.insert key lair)).Perm (lair.dojos ++ allDojos (lairs.erase key)) :=
  (lairs.values_insert_perm key lair).flatMap_right _

theorem allDojos_of_mem (h : (key, lair) ∈ lairs.entries) :
    (allDojos lairs).Perm (lair.dojos ++ allDojos (lairs.erase key)) :=
  (values_perm h).flatMap_right _

theorem allDojos_erase_sublist (lairs : Lairs) (key : LairId) : (allDojos (lairs.erase key)).Sublist (allDojos lairs) :=
  (lairs.values_erase_sublist key).flatMap _

end Maps

namespace Invariant

variable {rule : Rule} {lairs lairs' : Lairs}

theorem erase (h : Invariant rule lairs) (key : LairId) : Invariant rule (lairs.erase key) where
  keyed e he := h.keyed e (mem_erase.mp he).1
  distinct := h.distinct.sublist (allDojos_erase_sublist lairs key)
  names := h.names.sublist ((lairs.values_erase_sublist key).map _)
  meets lair hl := h.meets lair ((lairs.values_erase_sublist key).subset hl)

theorem insert (h : Invariant rule lairs) {key : LairId} {lair : Lair} (hid : lair.id = key)
    (hd : Distinct (lair.dojos ++ allDojos (lairs.erase key)))
    (hname : ∀ other ∈ (lairs.erase key).values, other.name ≠ lair.name)
    (hmeets : lair.Meets rule) : Invariant rule (lairs.insert key lair) where
  keyed e he := by
    rcases mem_cons.mp ((lairs.insert_perm key lair).mem_iff.mp he) with rfl | he
    · exact hid
    · exact (h.erase key).keyed e he
  distinct := hd.perm (allDojos_insert lairs key lair).symm
  names := by
    refine ((lairs.values_insert_perm key lair).map _).nodup_iff.mpr ?_
    refine nodup_cons.mpr ⟨fun hmem => ?_, (h.erase key).names⟩
    obtain ⟨other, ho, heq⟩ := mem_map.mp hmem
    exact hname other ho heq
  meets other ho := by
    rcases mem_cons.mp ((lairs.values_insert_perm key lair).mem_iff.mp ho) with rfl | ho
    · exact hmeets
    · exact (h.erase key).meets other ho

theorem id_ne_of_mem_erase (h : Invariant rule lairs) {key : LairId} {other : Lair}
    (ho : other ∈ (lairs.erase key).values) : other.id ≠ key := by
  obtain ⟨e, he, rfl⟩ := mem_map.mp ho
  obtain ⟨hmem, hne⟩ := mem_erase.mp he
  rw [h.keyed e hmem]
  exact hne

theorem edit (h : Invariant rule lairs) (he : Edit rule lairs lairs') : Invariant rule lairs' := by
  cases he with
  | keep => exact h
  | erase id => exact h.erase id
  | insert hfresh hname hmeets =>
    refine h.insert rfl ?_ (fun o ho => hname o ((values_erase_sublist ..).subset ho)) hmeets
    exact (h.erase _).distinct.append_new (allDojos_erase_sublist ..).subset hfresh
  | @replace removed lair hfresh hname hmeets =>
    refine (h.erase removed).insert rfl ?_ (fun o ho => ?_) hmeets
    · refine ((h.erase removed).erase lair.id).distinct.append_new ?_ hfresh
      exact ((allDojos_erase_sublist ..).trans (allDojos_erase_sublist ..)).subset
    · have hmem := ((lairs.erase removed).values_erase_sublist lair.id).subset ho
      exact hname o ((values_erase_sublist ..).subset hmem) (h.id_ne_of_mem_erase hmem)
  | @put key lair lair' hmem hid hprov hdojos hname =>
    have hlair := h.meets lair (mem_map.mpr ⟨_, hmem, rfl⟩)
    refine h.insert (hid.trans (h.keyed _ hmem)) ?_ (fun o ho => ?_) ⟨?_, ?_, ?_⟩
    · exact (h.distinct.perm (allDojos_of_mem hmem)).edit (allDojos_of_mem hmem) hdojos
    · rcases hname with hsame | ⟨-, hother⟩
      · have hnodup := ((values_perm hmem).map (·.name)).nodup_iff.mp h.names
        rw [hsame]
        exact fun heq => (nodup_cons.mp hnodup).1 (mem_map.mpr ⟨o, ho, heq⟩)
      · exact hother o ((values_erase_sublist ..).subset ho) (h.id_ne_of_mem_erase ho)
    · rcases hname with hsame | ⟨hrule, -⟩
      · exact hsame ▸ hlair.name
      · exact hrule
    · exact hprov ▸ hlair.provenance
    · exact hdojos.meets hlair.dojos

end Invariant

end Splinterm.Core
