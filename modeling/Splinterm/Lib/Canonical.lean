import Mathlib.Data.List.Pairwise
import Mathlib.Data.List.Sort
import Splinterm.Lib.Hoare

/-!
# Canonical order and exclusive ownership

`sortByKey` is a stable sort. Two arrangements of the same entries sort to the same
list as soon as the key tells the entries apart, so a sorted list is a normal form.

`Takes` describes one turn of a loop that records names in a set and refuses a name
recorded before. A loop that ends has met every name once.
-/

namespace Splinterm.Lib

open Hoare List

section SortByKey

variable {α κ : Type} [LinearOrder κ] {key : α → κ} {l l' : List α}

/-- `slice::sort_by_key`: entries of one key keep their order. -/
def sortByKey (key : α → κ) (l : List α) : List α := l.insertionSort fun a b => key a ≤ key b

theorem perm_sortByKey (key : α → κ) (l : List α) : (sortByKey key l).Perm l :=
  perm_insertionSort _ l

theorem pairwise_sortByKey (key : α → κ) (l : List α) : (sortByKey key l).Pairwise fun a b => key a ≤ key b := by
  exact pairwise_insertionSort _ l

theorem sortByKey_of_pairwise (h : l.Pairwise fun a b => key a ≤ key b) : sortByKey key l = l :=
  h.insertionSort_eq

theorem sortByKey_idem (key : α → κ) (l : List α) : sortByKey key (sortByKey key l) = sortByKey key l :=
  sortByKey_of_pairwise (pairwise_sortByKey key l)

/-- Where the key tells the entries apart, their first arrangement does not matter. -/
theorem sortByKey_eq_of_perm (hperm : l.Perm l')
    (hkey : ∀ a ∈ l, ∀ b ∈ l, key a = key b → a = b) : sortByKey key l = sortByKey key l' := by
  refine List.Perm.eq_of_pairwise (fun a b ha hb hab hba => ?_) (pairwise_sortByKey key l)
    (pairwise_sortByKey key l') ?_
  · have hb' : b ∈ l := hperm.mem_iff.mpr ((perm_sortByKey key l').mem_iff.mp hb)
    exact hkey a ((perm_sortByKey key l).mem_iff.mp ha) b hb' (le_antisymm hab hba)
  · exact (perm_sortByKey key l).trans (hperm.trans (perm_sortByKey key l').symm)

/-- So it is where the key tells what no two of them share. -/
theorem sortByKey_eq_of_nodup {β : Type} {name : α → β} (hperm : l.Perm l')
    (hnodup : ((sortByKey key l).map name).Nodup) (hkey : ∀ a b, key a = key b → name a = name b) :
    sortByKey key l = sortByKey key l' :=
  sortByKey_eq_of_perm hperm fun a ha b hb hab =>
    inj_on_of_nodup_map (((perm_sortByKey key l).map name).nodup_iff.mp hnodup) ha hb (hkey a b hab)

theorem map_sortByKey {f : α → α} (hf : ∀ a, key (f a) = key a) (l : List α) :
    (sortByKey key l).map f = sortByKey key (l.map f) :=
  map_insertionSort _ _ f l fun a _ b _ => by rw [hf, hf]

end SortByKey

section Takes

variable {ε σ α κ : Type} {held : σ → List κ} {names : α → List κ}
  {step : σ → α → Except ε σ} {s s' : σ} {l : List α}

/-- The names are added to those held, and none was held before. -/
def Added (before names after : List κ) : Prop :=
  before.Nodup → after.Nodup ∧ after.Perm (names ++ before)

theorem Added.nothing (before : List κ) : Added before [] before := fun h => ⟨h, .refl _⟩

theorem Added.one {before : List κ} {name : κ} (h : name ∉ before) : Added before [name] (name :: before) :=
  fun hbefore => ⟨nodup_cons.mpr ⟨h, hbefore⟩, .refl _⟩

/-- A turn adds the names of its entry. -/
def Takes (held : σ → List κ) (names : α → List κ) (step : σ → α → Except ε σ) : Prop :=
  ∀ s a s', step s a = .ok s' → Added (held s) (names a) (held s')

theorem Takes.foldlM (hstep : Takes held names step) (h : l.foldlM step s = .ok s') :
    Added (held s) (l.flatMap names) (held s') := by
  intro hs
  induction l generalizing s with
  | nil =>
    obtain rfl : s = s' := Except.ok.inj h
    exact ⟨hs, .refl _⟩
  | cons a l ih =>
    obtain ⟨mid, hmid, h⟩ := bind_eq_ok.mp h
    obtain ⟨hnodup, hperm⟩ := hstep s a mid hmid hs
    obtain ⟨hnodup', hperm'⟩ := ih h hnodup
    refine ⟨hnodup', hperm'.trans ?_⟩
    have hmiddle := (hperm.append_left (l.flatMap names)).trans (perm_append_comm_assoc _ _ _)
    rwa [flatMap_cons, append_assoc]

/-- A loop that starts with nothing held has met every name once. -/
theorem Takes.nodup (hstep : Takes held names step) (h : l.foldlM step s = .ok s')
    (hs : held s = []) : (l.flatMap names).Nodup := by
  obtain ⟨hnodup, hperm⟩ := hstep.foldlM h (by simp [hs])
  rw [hs, append_nil] at hperm
  exact hperm.nodup_iff.mp hnodup

/-- A record is told by a name no other record of the list has. -/
theorem eq_of_mem_names {name : κ} {a b : α} (h : (l.flatMap names).Nodup) (ha : a ∈ l)
    (hb : b ∈ l) (hna : name ∈ names a) (hnb : name ∈ names b) : a = b := by
  by_contra hne
  have hsymm : Std.Symm (Function.onFun List.Disjoint names) := ⟨fun _ _ hab _ hb ha => hab ha hb⟩
  exact (nodup_flatMap.mp h).2.forall ha hb hne hna hnb

end Takes

end Splinterm.Lib
