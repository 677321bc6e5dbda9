import Mathlib.Algebra.GroupWithZero.Nat
import Mathlib.Data.List.Induction
import Mathlib.Data.List.Perm.Basic
import Mathlib.Data.List.Nodup
import Mathlib.Order.Lattice

/-!
# Ordered maps

An ordered map is its list of entries, strictly increasing in the key, so two
maps with the same entries are equal and iteration order is list order. Every
update is an `insert` or an `erase`; `insert_perm` and `entries_perm` say what
they do to the entries as a multiset, which is what invariants over all values
need.
-/

namespace Splinterm.Lib

open List Option Prod

variable {κ α β : Type}

/-- Entries strictly increasing in the key. -/
structure OrdMap (κ α : Type) [LinearOrder κ] where
  entries : List (κ × α)
  sorted : entries.Pairwise (fun a b => a.1 < b.1)

/-- The first element satisfying `p`, with what stands before and after it. -/
def splitFirst (p : α → Bool) : List α → Option (List α × α × List α)
  | [] => none
  | a :: l =>
    if p a then some ([], a, l)
    else (splitFirst p l).map fun (pre, x, post) => (a :: pre, x, post)

variable {p : α → Bool} {l pre post : List α} {a : α}

theorem splitFirst_eq_some (h : splitFirst p l = some (pre, a, post)) :
    l = pre ++ a :: post ∧ p a = true ∧ ∀ b ∈ pre, p b = false := by
  fun_induction splitFirst generalizing pre with
  | case1 => cases h
  | case2 _ _ hx =>
    cases h
    exact ⟨rfl, hx, forall_mem_nil _⟩
  | case3 x l hx ih =>
    obtain ⟨⟨pre', a', post'⟩, hl, hr⟩ := map_eq_some_iff.mp h
    cases hr
    obtain ⟨rfl, ha, hpre⟩ := ih hl
    exact ⟨rfl, ha, forall_mem_cons.mpr ⟨Bool.eq_false_iff.mpr hx, hpre⟩⟩

theorem splitFirst_eq_none : splitFirst p l = none ↔ ∀ a ∈ l, p a = false := by
  induction l with
  | nil => simp [splitFirst]
  | cons x l ih =>
    by_cases hx : p x = true
    · simp [splitFirst, hx]
    · simp [splitFirst, hx, ih]

/-- The last element satisfying `p`, with what stands before and after it. -/
def splitLast (p : α → Bool) : List α → Option (List α × α × List α)
  | [] => none
  | a :: l =>
    match splitLast p l with
    | some (pre, x, post) => some (a :: pre, x, post)
    | none => if p a then some ([], a, l) else none

theorem splitLast_eq_some (h : splitLast p l = some (pre, a, post)) : l = pre ++ a :: post ∧ p a = true := by
  fun_induction splitLast generalizing pre with
  | case1 | case4 => cases h
  | case2 _ _ _ _ _ hl ih =>
    cases h
    exact (ih hl).imp_left (congrArg _)
  | case3 _ _ _ hx =>
    cases h
    exact ⟨rfl, hx⟩

theorem mem_around {b : α} : b ∈ pre ++ a :: post ↔ b = a ∨ b ∈ pre ++ post :=
  perm_middle.mem_iff.trans mem_cons

namespace OrdMap

variable [LinearOrder κ]

variable {m m' : OrdMap κ α}

@[ext] theorem ext (h : m.entries = m'.entries) : m = m' := by
  cases m; cases m'; cases h; rfl

instance [DecidableEq α] : DecidableEq (OrdMap κ α) := fun m m' =>
  decidable_of_iff (m.entries = m'.entries) ⟨OrdMap.ext, fun h => h ▸ rfl⟩

def empty : OrdMap κ α := ⟨[], .nil⟩

def values (m : OrdMap κ α) : List α := m.entries.map (·.2)

def get? (m : OrdMap κ α) (k : κ) : Option α := (m.entries.find? (·.1 = k)).map (·.2)

def contains (m : OrdMap κ α) (k : κ) : Bool := (m.get? k).isSome

/-- The entries with `k` bound to `v`, at the place the order gives it. -/
def insertEntry (k : κ) (v : α) : List (κ × α) → List (κ × α)
  | [] => [(k, v)]
  | e :: es =>
    if k < e.1 then (k, v) :: e :: es
    else if k = e.1 then (k, v) :: es
    else e :: insertEntry k v es

variable {es : List (κ × α)}

theorem insertEntry_perm (k : κ) (v : α) (hs : es.Pairwise (fun a b => a.1 < b.1)) :
    (insertEntry k v es).Perm ((k, v) :: es.filter (fun e => !decide (e.1 = k))) := by
  induction es with
  | nil => exact .refl _
  | cons e es ih =>
    obtain ⟨he, hs⟩ := pairwise_cons.mp hs
    -- below a smaller or equal head nothing else can carry the key `k`
    have hrest : k ≤ e.1 → es.filter (fun x => !decide (x.1 = k)) = es := fun hle =>
      filter_eq_self.mpr fun x hx => by simpa using (hle.trans_lt (he x hx)).ne'
    rcases lt_trichotomy k e.1 with hk | hk | hk
    · simp [insertEntry, hk, hk.ne', hrest hk.le]
    · have hr := hrest hk.le
      subst hk
      simp [insertEntry, hr]
    · simp only [insertEntry, not_lt.mpr hk.le, hk.ne', if_false, filter_cons, hk.ne,
        decide_false, Bool.not_false, if_true]
      exact ((ih hs).cons e).trans (.swap _ _ _)

variable {k : κ} {v : α}

theorem mem_insertEntry {x : κ × α} (hs : es.Pairwise (fun a b => a.1 < b.1)) :
    x ∈ insertEntry k v es ↔ x = (k, v) ∨ (x ∈ es ∧ x.1 ≠ k) := by
  rw [(insertEntry_perm k v hs).mem_iff]
  simp

theorem insertEntry_sorted (k : κ) (v : α) (hs : es.Pairwise (fun a b => a.1 < b.1)) :
    (insertEntry k v es).Pairwise (fun a b => a.1 < b.1) := by
  fun_induction insertEntry with
  | case1 => exact pairwise_singleton _ _
  | case2 e es hk =>
    have he := (pairwise_cons.mp hs).1
    exact .cons (forall_mem_cons.mpr ⟨hk, fun x hx => hk.trans (he x hx)⟩) hs
  | case3 e es _ hk =>
    obtain ⟨he, hs⟩ := pairwise_cons.mp hs
    exact .cons (fun x hx => hk.trans_lt (he x hx)) hs
  | case4 e es hle hne ih =>
    obtain ⟨he, hs⟩ := pairwise_cons.mp hs
    refine .cons (fun x hx => ?_) (ih hs)
    rcases (mem_insertEntry hs).mp hx with rfl | ⟨hx, -⟩
    · exact lt_of_le_of_ne (not_lt.mp hle) (Ne.symm hne)
    · exact he x hx

def insert (m : OrdMap κ α) (k : κ) (v : α) : OrdMap κ α :=
  ⟨insertEntry k v m.entries, insertEntry_sorted k v m.sorted⟩

def erase (m : OrdMap κ α) (k : κ) : OrdMap κ α :=
  ⟨m.entries.filter (fun e => !decide (e.1 = k)), m.sorted.filter _⟩

/-- The same keys with every value changed. -/
def mapValues (f : α → α) (m : OrdMap κ α) : OrdMap κ α :=
  ⟨m.entries.map fun e => (e.1, f e.2), List.pairwise_map.mpr m.sorted⟩

/-- An insertion replaces whatever the key was bound to. -/
theorem insert_perm (m : OrdMap κ α) (k : κ) (v : α) : (m.insert k v).entries.Perm ((k, v) :: (m.erase k).entries) :=
  insertEntry_perm k v m.sorted

theorem mem_erase {x : κ × α} : x ∈ (m.erase k).entries ↔ x ∈ m.entries ∧ x.1 ≠ k := by
  simp [erase]

theorem keys_nodup (m : OrdMap κ α) : (m.entries.map (·.1)).Nodup :=
  pairwise_map.mpr (m.sorted.imp fun h => h.ne)

theorem key_unique {w : α} (hv : (k, v) ∈ m.entries) (hw : (k, w) ∈ m.entries) : v = w :=
  congrArg snd (inj_on_of_nodup_map m.keys_nodup hv hw rfl)

theorem get?_eq_some : m.get? k = some v ↔ (k, v) ∈ m.entries := by
  constructor
  · intro h
    obtain ⟨⟨k', v'⟩, hf, rfl⟩ := map_eq_some_iff.mp h
    have hk := find?_some hf
    simp only [decide_eq_true_eq] at hk
    exact hk ▸ mem_of_find?_eq_some hf
  · intro h
    cases hf : m.entries.find? (·.1 = k) with
    | none => simpa using find?_eq_none.mp hf _ h
    | some e =>
      have hk := find?_some hf
      simp only [decide_eq_true_eq] at hk
      have he : (k, e.2) ∈ m.entries := hk ▸ mem_of_find?_eq_some hf
      simp [get?, hf, key_unique he h]

theorem get?_eq_none : m.get? k = none ↔ ∀ e ∈ m.entries, e.1 ≠ k := by
  simp [get?, find?_eq_none]

theorem get?_eq_none_of_not_contains (h : ¬ m.contains k = true) : m.get? k = none :=
  not_isSome_iff_eq_none.mp h

theorem entries_perm (h : (k, v) ∈ m.entries) : m.entries.Perm ((k, v) :: (m.erase k).entries) := by
  obtain ⟨pre, post, hsplit⟩ := append_of_mem h
  have hkeys : ∀ e ∈ pre ++ post, e.1 ≠ k := by
    have hnd := m.keys_nodup
    rw [hsplit, map_append] at hnd
    have hnot := (nodup_cons.mp (nodup_middle.mp hnd)).1
    intro e he hk
    exact hnot (by rw [← map_append]; exact mem_map.mpr ⟨e, he, hk⟩)
  have herase : (m.erase k).entries = pre ++ post := by
    have hself : (pre ++ post).filter (fun e => !decide (e.1 = k)) = pre ++ post :=
      filter_eq_self.mpr fun e he => by simpa using hkeys e he
    rw [filter_append] at hself
    simp [erase, hsplit, hself]
  rw [herase, hsplit]
  exact perm_middle

theorem get?_insert_self (m : OrdMap κ α) (k : κ) (v : α) : (m.insert k v).get? k = some v :=
  get?_eq_some.mpr ((m.insert_perm k v).mem_iff.mpr (mem_cons_self ..))

theorem values_insert_perm (m : OrdMap κ α) (k : κ) (v : α) : (m.insert k v).values.Perm (v :: (m.erase k).values) :=
  (m.insert_perm k v).map snd

theorem values_perm (h : (k, v) ∈ m.entries) : m.values.Perm (v :: (m.erase k).values) :=
  (entries_perm h).map snd

/-- A measure summed over the values. -/
def weigh (size : α → Nat) (m : OrdMap κ α) : Nat := (m.values.map size).sum

theorem weigh_insert (size : α → Nat) (m : OrdMap κ α) (k : κ) (v : α) :
    (m.insert k v).weigh size = size v + (m.erase k).weigh size :=
  ((m.values_insert_perm k v).map size).sum_nat

theorem weigh_erase (h : m.get? k = some v) (size : α → Nat) : m.weigh size = size v + (m.erase k).weigh size :=
  ((values_perm (get?_eq_some.mp h)).map size).sum_nat

theorem weigh_one (m : OrdMap κ α) : m.weigh (fun _ => 1) = m.entries.length := by
  rw [weigh, map_const', sum_replicate_nat, Nat.mul_one, values, length_map]

theorem values_erase_sublist (m : OrdMap κ α) (k : κ) : (m.erase k).values.Sublist m.values :=
  filter_sublist.map snd

/-! ## Reading after an update -/

@[simp] theorem get?_empty (k : κ) : (empty : OrdMap κ α).get? k = none := rfl

theorem get?_erase (m : OrdMap κ α) (k k' : κ) : (m.erase k).get? k' = if k' = k then none else m.get? k' := by
  split
  · rename_i h
    rw [get?_eq_none]
    intro e he
    exact h ▸ (mem_erase.mp he).2
  · rename_i h
    apply Option.ext
    intro v
    rw [get?_eq_some, get?_eq_some, mem_erase]
    exact and_iff_left h

theorem get?_insert (m : OrdMap κ α) (k : κ) (v : α) (k' : κ) :
    (m.insert k v).get? k' = if k' = k then some v else m.get? k' := by
  split
  · rename_i h
    rw [h, get?_insert_self]
  · rename_i h
    apply Option.ext
    intro w
    rw [get?_eq_some, get?_eq_some, (m.insert_perm k v).mem_iff, mem_cons, mem_erase]
    constructor
    · rintro (heq | hmem)
      · exact absurd (congrArg fst heq) h
      · exact hmem.1
    · intro hmem
      exact .inr ⟨hmem, h⟩

theorem get?_of_erase {k' : κ} (h : (m.erase k).get? k' = some v) : m.get? k' = some v := by
  rw [get?_erase] at h
  split at h
  · cases h
  · exact h

theorem forall_get?_insert {P : κ → α → Prop} (hnew : P k v) (hold : ∀ k v, m.get? k = some v → P k v) (k' : κ)
    (w : α) (h : (m.insert k v).get? k' = some w) : P k' w := by
  rw [get?_insert] at h
  split at h
  · rename_i heq
    cases h
    exact heq ▸ hnew
  · exact hold k' w h

theorem erase_of_none (h : m.get? k = none) : m.erase k = m := by
  apply ext
  rw [erase, filter_eq_self]
  intro e he
  simpa using get?_eq_none.mp h e he

theorem get?_mapValues (f : α → α) (m : OrdMap κ α) (k : κ) : (m.mapValues f).get? k = (m.get? k).map f := by
  simp only [get?, mapValues, find?_map, Option.map_map]
  rfl

theorem mem_values : v ∈ m.values ↔ ∃ k, m.get? k = some v := by
  simp only [values, List.mem_map, get?_eq_some]
  constructor
  · rintro ⟨⟨k, w⟩, hmem, rfl⟩
    exact ⟨k, hmem⟩
  · rintro ⟨k, hmem⟩
    exact ⟨(k, v), hmem, rfl⟩

/-- Values that carry their own key carry different ones. -/
theorem pairwise_values {key : α → κ} (h : ∀ k v, m.get? k = some v → key v = k) :
    m.values.Pairwise fun v w => key v ≠ key w := by
  rw [values, pairwise_map]
  apply (pairwise_map.mp m.keys_nodup).imp_of_mem
  intro a b ha hb hne
  rwa [h _ _ (get?_eq_some.mpr ha), h _ _ (get?_eq_some.mpr hb)]

theorem get?_foldl_insert {β : Type} {key : β → κ} {value : β → α} {l : List β} (h : (l.map key).Nodup) :
    (l.foldl (fun m b => m.insert (key b) (value b)) empty).get? k = some v ↔ ∃ b ∈ l, key b = k ∧ value b = v := by
  induction l using List.reverseRecOn with
  | nil => simp
  | append_singleton l b ih =>
    rw [map_append, nodup_append] at h
    simp only [foldl_concat, get?_insert, mem_append, mem_singleton, or_and_right, exists_or, exists_eq_left]
    split
    · rename_i hk
      have hout : ¬ ∃ c ∈ l, key c = k ∧ value c = v := fun ⟨c, hc, heq, _⟩ =>
        h.2.2 _ (mem_map_of_mem hc) _ (mem_singleton_self _) (heq.trans hk)
      rw [or_iff_right hout, some_inj, and_iff_right hk.symm]
    · rename_i hk
      rw [ih h.1, or_iff_left fun hb => hk hb.1.symm]

theorem subperm_of_submap (h : ∀ k v, m'.get? k = some v → m.get? k = some v) : m'.entries.Subperm m.entries := by
  apply subperm_of_subset (List.Nodup.of_map _ m'.keys_nodup)
  rintro ⟨k, v⟩ hmem
  exact get?_eq_some.mp (h k v (get?_eq_some.mpr hmem))

theorem length_le_of_submap (h : ∀ k v, m'.get? k = some v → m.get? k = some v) :
    m'.entries.length ≤ m.entries.length :=
  (subperm_of_submap h).length_le

theorem eq_of_submap (h : ∀ k v, m'.get? k = some v → m.get? k = some v)
    (hlength : m'.entries.length = m.entries.length) : m' = m := by
  have hperm : m'.entries.Perm m.entries := (subperm_of_submap h).perm_of_length_le (Nat.le_of_eq hlength.symm)
  apply OrdMap.ext
  exact hperm.eq_of_pairwise (fun a b _ _ hab hba => absurd hab (lt_asymm hba)) m'.sorted m.sorted

theorem ext_get? (h : ∀ k, m.get? k = m'.get? k) : m = m' := by
  apply eq_of_submap fun k v hv => (h k).symm.trans hv
  exact Nat.le_antisymm (length_le_of_submap fun k v hv => (h k).symm.trans hv)
    (length_le_of_submap fun k v hv => (h k).trans hv)

@[simp] theorem insert_insert (m : OrdMap κ α) (k : κ) (v w : α) : (m.insert k v).insert k w = m.insert k w := by
  apply ext_get?
  intro k'
  rw [get?_insert, get?_insert, get?_insert]
  split
  · rfl
  · rfl

/-! ## A second map over the same entries -/

section Index

variable {γ : Type} [LinearOrder γ]

/-- `index` finds every entry of `m` by its `key`, and finds nothing else. -/
def Indexes (m : OrdMap κ α) (key : α → γ) (index : OrdMap γ κ) : Prop :=
  ∀ b k, index.get? b = some k ↔ ∃ a, m.get? k = some a ∧ key a = b

variable {m : OrdMap κ α} {key : α → γ} {index : OrdMap γ κ}

theorem indexes_empty : Indexes (empty : OrdMap κ α) key empty := by
  intro b k
  simp

variable {k : κ} {a : α}

/-- No two entries share a key. -/
theorem Indexes.unique (h : Indexes m key index) {k' : κ} {a' : α} (ha : m.get? k = some a)
    (ha' : m.get? k' = some a') (hkey : key a = key a') : k = k' := by
  have hk := (h (key a) k).mpr ⟨a, ha, rfl⟩
  have hk' := (h (key a) k').mpr ⟨a', ha', hkey.symm⟩
  exact some.inj (hk.symm.trans hk')

theorem Indexes.absent (h : Indexes m key index) {b : γ} (hb : index.get? b = none)
    (ha : m.get? k = some a) : key a ≠ b := by
  intro hkey
  have hk := (h b k).mpr ⟨a, ha, hkey⟩
  rw [hb] at hk
  cases hk

theorem Indexes.insert (h : Indexes m key index) (hk : m.get? k = none)
    (hb : index.get? (key a) = none) : Indexes (m.insert k a) key (index.insert (key a) k) := by
  intro b k'
  rw [get?_insert]
  constructor
  · intro hget
    by_cases hbk : b = key a
    · rw [if_pos hbk] at hget
      cases hget
      exact ⟨a, get?_insert_self .., hbk.symm⟩
    · rw [if_neg hbk] at hget
      obtain ⟨a', ha', hkey⟩ := (h b k').mp hget
      have hne : k' ≠ k := by
        rintro rfl
        cases hk.symm.trans ha'
      exact ⟨a', by rw [get?_insert, if_neg hne]; exact ha', hkey⟩
  · rintro ⟨a', ha', hkey⟩
    rw [get?_insert] at ha'
    by_cases hk' : k' = k
    · rw [if_pos hk'] at ha'
      cases ha'
      rw [if_pos hkey.symm, hk']
    · rw [if_neg hk'] at ha'
      have hne : b ≠ key a := fun heq => h.absent hb ha' (hkey.trans heq)
      rw [if_neg hne]
      exact (h b k').mpr ⟨a', ha', hkey⟩

theorem Indexes.erase (h : Indexes m key index) (hk : m.get? k = some a) :
    Indexes (m.erase k) key (index.erase (key a)) := by
  intro b k'
  rw [get?_erase, get?_erase]
  constructor
  · intro hget
    obtain ⟨hbk, hget⟩ := ite_none_left_eq_some.mp hget
    obtain ⟨a', ha', hkey⟩ := (h b k').mp hget
    have hne : k' ≠ k := by
      rintro rfl
      cases hk.symm.trans ha'
      exact hbk hkey.symm
    exact ⟨a', by rw [if_neg hne]; exact ha', hkey⟩
  · rintro ⟨a', ha', hkey⟩
    obtain ⟨hne, ha'⟩ := ite_none_left_eq_some.mp ha'
    rw [if_neg fun hbk => hne (h.unique ha' hk (hkey.trans hbk))]
    exact (h b k').mpr ⟨a', ha', hkey⟩

end Index

end OrdMap

end Splinterm.Lib
