import Mathlib.Data.List.Perm.Basic
import Mathlib.Data.List.Nodup
import Mathlib.Data.List.Range
import Mathlib.Tactic.Linarith

/-!
# Circular buffers

A circular buffer is a nonempty list read and written at any integer position:
position `i` is slot `i mod size`. Reading relative to a moving origin is then
plain integer arithmetic, and two positions of one window of `size` consecutive
integers name the same slot only when they are equal.
-/

namespace Splinterm.Lib

open List Nat Int

variable {α β : Type}

/-- A nonempty list of slots, addressed modulo its length. -/
structure RingBuffer (α : Type) where
  items : List α
  pos : 0 < items.length

namespace RingBuffer

instance [DecidableEq α] : DecidableEq (RingBuffer α) := fun r r' =>
  decidable_of_iff (r.items = r'.items) ⟨fun h => by cases r; cases r'; cases h; rfl, fun h => h ▸ rfl⟩

def size (r : RingBuffer α) : Nat := r.items.length

/-- The slot that position `i` names. -/
def index (r : RingBuffer α) (i : Int) : Nat := (i % (r.size : Int)).toNat

theorem index_lt (r : RingBuffer α) (i : Int) : r.index i < r.size := by
  have hpos : (0 : Int) < r.size := natCast_pos.mpr r.pos
  have hlt := emod_lt_of_pos i hpos
  have hnn := emod_nonneg i hpos.ne'
  rw [index]
  omega

def get (r : RingBuffer α) (i : Int) : α := r.items.get ⟨r.index i, r.index_lt i⟩

def set (r : RingBuffer α) (i : Int) (a : α) : RingBuffer α :=
  ⟨r.items.set (r.index i) a, by simpa using r.pos⟩

/-- `rows.swap`: exchanges the contents of two positions. -/
def swap (r : RingBuffer α) (i j : Int) : RingBuffer α := (r.set i (r.get j)).set j (r.get i)

/-- `n` slots with the same content. -/
def replicate (n : Nat) (h : 0 < n) (a : α) : RingBuffer α := ⟨List.replicate n a, by simpa using h⟩

/-- Maps every slot with its index. -/
def mapIdx (f : Nat → α → β) (r : RingBuffer α) : RingBuffer β :=
  ⟨r.items.mapIdx f, by simpa using r.pos⟩

variable {r : RingBuffer α} {i j : Int} {a : α} {p : α → Prop} {n count : Nat}

@[simp] theorem size_set : (r.set i a).size = r.size := by simp [set, size]

@[simp] theorem size_swap : (r.swap i j).size = r.size := by simp [swap]

@[simp] theorem size_mapIdx {f : Nat → α → β} : (r.mapIdx f).size = r.size := by simp [mapIdx, size]

theorem index_congr {β : Type} {r : RingBuffer α} {r' : RingBuffer β} (h : r.size = r'.size)
    (i : Int) : r.index i = r'.index i := by
  rw [index, index, h]

@[simp] theorem index_set (k : Int) : (r.set i a).index k = r.index k := index_congr size_set k

@[simp] theorem index_swap (k : Int) : (r.swap i j).index k = r.index k := index_congr size_swap k

theorem index_cast (r : RingBuffer α) (i : Int) : (r.index i : Int) = i % (r.size : Int) :=
  toNat_of_nonneg (emod_nonneg i (natCast_pos.mpr r.pos).ne')

theorem index_eq_iff : r.index i = r.index j ↔ (i - j) % (r.size : Int) = 0 := by
  rw [← emod_eq_emod_iff_emod_sub_eq_zero, ← r.index_cast, ← r.index_cast, natCast_inj]

/-- A slot number names itself. -/
theorem index_of_lt {n : Nat} (h : n < r.size) : r.index n = n := by
  rw [index, ← natCast_emod, toNat_natCast, mod_eq_of_lt h]

theorem index_add_congr (k : Int) : r.index (i + k) = r.index (j + k) ↔ r.index i = r.index j := by
  rw [index_eq_iff, index_eq_iff, add_sub_add_right_eq_sub]

theorem index_index_add (k : Int) : r.index ((r.index i : Int) + k) = r.index (i + k) := by
  rw [index_add_congr, index, index_cast, emod_emod, ← index]

@[simp] theorem index_add_size : r.index (i + r.size) = r.index i := by
  rw [index_eq_iff]
  simp

theorem index_inj {w : Int} (hi : w ≤ i) (hi' : i < w + r.size) (hj : w ≤ j)
    (hj' : j < w + r.size) : r.index i = r.index j ↔ i = j := by
  rw [index_eq_iff]
  constructor
  · intro h
    obtain ⟨k, hk⟩ := dvd_of_emod_eq_zero h
    have hlt : -(r.size : Int) < r.size * k ∧ r.size * k < r.size := by omega
    have hk0 : k = 0 := by
      have hpos : (0 : Int) < r.size := natCast_pos.mpr r.pos
      have h1 : k < 1 := by nlinarith [hlt.2]
      have h2 : -1 < k := by nlinarith [hlt.1]
      omega
    rw [hk0, mul_zero] at hk
    omega
  · rintro rfl
    simp

theorem get_congr (h : r.index i = r.index j) : r.get i = r.get j := by
  simp only [get, h]

theorem get_add_size (r : RingBuffer α) (i j : Int) : r.get (i + (j + r.size)) = r.get (i + j) :=
  get_congr (by rw [← add_assoc, index_add_size])

theorem get_set (r : RingBuffer α) (i j : Int) (a : α) :
    (r.set i a).get j = if r.index i = r.index j then a else r.get j := by
  simp only [get, index_set]
  simp [set, getElem_set]

@[simp] theorem get_set_self : (r.set i a).get i = a := by rw [get_set, if_pos rfl]

theorem set_set (b : α) : (r.set i a).set i b = r.set i b := by
  simp only [set, index, size, List.length_set, List.set_set]

theorem get_swap (r : RingBuffer α) (i j k : Int) : (r.swap i j).get k =
      if r.index j = r.index k then r.get i else if r.index i = r.index k then r.get j else r.get k := by
  rw [swap, get_set, index_set, index_set, get_set]

@[simp] theorem get_mapIdx (f : Nat → α → β) (r : RingBuffer α) (i : Int) :
    (r.mapIdx f).get i = f (r.index i) (r.get i) := by
  have hindex : (r.mapIdx f).index i = r.index i := index_congr size_mapIdx i
  simp only [get, get_eq_getElem, hindex]
  exact getElem_mapIdx

@[simp] theorem get_replicate {n : Nat} {h : 0 < n} : (replicate n h a).get i = a := by simp [get, replicate]

theorem get_mem (r : RingBuffer α) (i : Int) : r.get i ∈ r.items := List.get_mem ..

theorem exists_get_of_mem (h : a ∈ r.items) : ∃ n : Nat, n < r.size ∧ r.get n = a := by
  obtain ⟨n, hn, rfl⟩ := getElem_of_mem h
  refine ⟨n, hn, ?_⟩
  simp only [get, index_of_lt hn, get_eq_getElem]

theorem forall_mem_iff : (∀ a ∈ r.items, p a) ↔ ∀ i : Int, p (r.get i) := by
  constructor
  · intro h i
    exact h _ (r.get_mem i)
  · intro h a ha
    obtain ⟨n, -, rfl⟩ := exists_get_of_mem ha
    exact h n

theorem ext_get {r r' : RingBuffer α} (hsize : r.size = r'.size) (h : ∀ i : Int, r.get i = r'.get i) : r = r' := by
  have hitems : r.items = r'.items := by
    refine ext_getElem hsize fun n hn hn' => ?_
    have := h n
    simpa only [get, index_of_lt (r := r) hn, index_of_lt (r := r') hn', get_eq_getElem] using this
  cases r
  cases r'
  cases hitems
  rfl

/-- `n` consecutive slots from position `i` on. -/
def window (r : RingBuffer α) (i : Int) (n : Nat) : List α :=
  (List.range n).map fun k : Nat => r.get (i + k)

@[simp] theorem length_window (n : Nat) : (r.window i n).length = n := by simp [window]

theorem mem_window {n : Nat} : a ∈ r.window i n ↔ ∃ k : Nat, k < n ∧ r.get (i + k) = a := by
  simp [window]

/-! ## Shifting a range by swaps -/

variable (base : Int)

/-- Moves the `count` slots below `base + count - n` up by `n`, last one first. -/
def shiftUp (n count : Nat) (r : RingBuffer α) : RingBuffer α :=
  (List.range count).foldr (fun j r => r.swap (base + j - n) (base + j)) r

/-- Moves the `count` slots above `base + n` down by `n`, first one first. -/
def shiftDown (n count : Nat) (r : RingBuffer α) : RingBuffer α :=
  (List.range count).foldl (fun r j => r.swap (base + n + j) (base + j)) r

theorem shiftUp_succ (n count : Nat) (r : RingBuffer α) : r.shiftUp base n (count + 1) =
      (r.swap (base + count - n) (base + count)).shiftUp base n count := by
  simp [shiftUp, range_succ]

theorem shiftDown_succ (n count : Nat) (r : RingBuffer α) : r.shiftDown base n (count + 1) =
      (r.shiftDown base n count).swap (base + n + count) (base + count) := by
  simp [shiftDown, range_succ]

@[simp] theorem size_shiftUp (n count : Nat) (r : RingBuffer α) : (r.shiftUp base n count).size = r.size := by
  induction count generalizing r with
  | zero => rfl
  | succ count ih => rw [shiftUp_succ, ih, size_swap]

@[simp] theorem size_shiftDown (n count : Nat) (r : RingBuffer α) : (r.shiftDown base n count).size = r.size := by
  induction count with
  | zero => rfl
  | succ count ih => rw [shiftDown_succ, size_swap, ih]

/-- A swap is not seen at a third position of a window that holds all three. -/
theorem get_swap_of_ne {w k : Int} (hi : w ≤ i ∧ i < w + r.size) (hj : w ≤ j ∧ j < w + r.size)
    (hk : w ≤ k ∧ k < w + r.size) (hki : k ≠ i) (hkj : k ≠ j) : (r.swap i j).get k = r.get k := by
  rw [get_swap, if_neg, if_neg]
  · rw [index_inj hi.1 hi.2 hk.1 hk.2]
    exact hki.symm
  · rw [index_inj hj.1 hj.2 hk.1 hk.2]
    exact hkj.symm

theorem get_swap_right : (r.swap i j).get j = r.get i := by
  rw [get_swap, if_pos rfl]

theorem get_swap_left : (r.swap i j).get i = r.get j := by
  rw [get_swap]
  split
  · rename_i h
    exact get_congr h.symm
  · rw [if_pos rfl]

theorem forall_get_swap (h : ∀ k, p (r.get k)) (i j k : Int) : p ((r.swap i j).get k) := by
  rw [get_swap]
  split
  · exact h _
  · split
    · exact h _
    · exact h _

theorem forall_get_shiftUp (h : ∀ k, p (r.get k)) (base : Int) (n count : Nat)
    (k : Int) : p ((r.shiftUp base n count).get k) := by
  induction count generalizing r with
  | zero => exact h k
  | succ count ih =>
    rw [shiftUp_succ]
    exact ih fun k => forall_get_swap h _ _ k

theorem forall_get_shiftDown (h : ∀ k, p (r.get k)) (base : Int) (n count : Nat)
    (k : Int) : p ((r.shiftDown base n count).get k) := by
  induction count generalizing k with
  | zero => exact h k
  | succ count ih =>
    rw [shiftDown_succ]
    exact forall_get_swap ih _ _ k

/-- The shifted slots, and the slots outside the window the shift works in. -/
theorem get_shiftUp (h : n + count ≤ r.size) :
    (∀ j : Nat, j < count → (r.shiftUp base n count).get (base + j) = r.get (base + j - n)) ∧
      ∀ p : Int, base + count ≤ p → p < base - n + r.size → (r.shiftUp base n count).get p = r.get p := by
  induction count generalizing r with
  | zero => exact ⟨fun j hj => absurd hj (not_lt_zero j), fun p _ _ => rfl⟩
  | succ count ih =>
    obtain ⟨hin, hout⟩ := ih (r := r.swap (base + count - n) (base + count))
      (by rw [size_swap]; omega)
    rw [size_swap] at hout
    rw [shiftUp_succ]
    constructor
    · intro j hj
      rcases Nat.lt_succ_iff_lt_or_eq.mp hj with hlt | rfl
      · rw [hin j hlt]
        -- the slot read for `j` lies below both slots of the swap already made
        apply get_swap_of_ne (w := base - n) <;> omega
      · rw [hout (base + j) (by omega) (by omega), get_swap_right]
    · intro p hlow hhigh
      rw [hout p (by omega) hhigh]
      apply get_swap_of_ne (w := base - n) <;> omega

/-- The slots an upward shift passes over end below the shifted ones, each at the place of its
own remainder: the run comes out rotated. -/
theorem get_shiftUp_passed (h : n + count ≤ r.size) {x : Nat} (hlow : count ≤ x) (hhigh : x < count + n) :
    (r.shiftUp base n count).get (base + (x % n : Nat) - n) = r.get (base + x - n) := by
  induction count generalizing r x with
  | zero => rw [mod_eq_of_lt (by omega)]; rfl
  | succ count ih =>
    rw [shiftUp_succ]
    by_cases hlast : x = count + n
    · -- the slot at `count` was swapped to where the shift of the rest looks for it
      have hcount := ih (r := r.swap (base + count - n) (base + count)) (x := count)
        (by rw [size_swap]; omega) le_rfl (by omega)
      rw [hlast, add_mod_right, hcount, get_swap_left]
      congr 1
      omega
    · rw [ih (by rw [size_swap]; omega) (by omega) (by omega)]
      apply get_swap_of_ne (w := base - n) <;> omega

theorem get_shiftDown (h : n + count ≤ r.size) :
    (∀ j : Nat, j < count → (r.shiftDown base n count).get (base + j) = r.get (base + n + j)) ∧
      ∀ p : Int, base + n + count ≤ p → p < base + r.size → (r.shiftDown base n count).get p = r.get p := by
  induction count with
  | zero => exact ⟨fun j hj => absurd hj (not_lt_zero j), fun p _ _ => rfl⟩
  | succ count ih =>
    obtain ⟨hin, hout⟩ := ih (by omega)
    have hsize := size_shiftDown base n count r
    rw [shiftDown_succ]
    constructor
    · intro j hj
      rcases Nat.lt_succ_iff_lt_or_eq.mp hj with hlt | rfl
      · rw [get_swap_of_ne (w := base), hin j hlt] <;> omega
      · rw [get_swap_right, hout (base + n + j) (by omega) (by omega)]
    · intro p hlow hhigh
      rw [get_swap_of_ne (w := base), hout p (by omega) hhigh] <;> omega

theorem get_shiftDown_passed (h : n + count ≤ r.size) (k : Nat) (hk : k < n) : ∃ m : Nat, m < n ∧
      (r.shiftDown base n count).get (base + count + k) = r.get (base + m) := by
  induction count generalizing k with
  | zero => exact ⟨k, hk, by simp [shiftDown]⟩
  | succ count ih =>
    have hsize := size_shiftDown base n count r
    rw [shiftDown_succ]
    by_cases hlast : k + 1 = n
    · obtain ⟨m, hm, heq⟩ := ih (by omega) 0 (by omega)
      refine ⟨m, hm, ?_⟩
      rw [show base + ((count + 1 : Nat) : Int) + k = base + n + count by omega, get_swap_left, ← heq]
      simp
    · obtain ⟨m, hm, heq⟩ := ih (by omega) (k + 1) (by omega)
      refine ⟨m, hm, ?_⟩
      rw [get_swap_of_ne (w := base) (by omega) (by omega) (by omega) (by omega) (by omega), ← heq]
      congr 1
      omega

end RingBuffer

end Splinterm.Lib
