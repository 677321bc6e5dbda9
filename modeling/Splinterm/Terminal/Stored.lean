import Splinterm.Terminal.RowShape

/-!
# Stored rows

What holds of the ring of row slots alone: every slot is empty or holds a row of
the grid's width under an identity that was handed out, and no identity is held
twice. Each way the grid writes a slot keeps this.
-/

namespace Splinterm.Terminal

open Lib RingBuffer

/-- An empty slot has identity zero; an allocated one a row of the right shape and
an identity below the next one. -/
def Slot.Ok (policy : Policy) (columns next : Nat) (slot : Slot) : Prop :=
  (slot.row = none ∧ slot.id = 0) ∨
    ∃ row, slot.row = some row ∧ row.Shaped policy columns ∧ 0 < slot.id ∧ slot.id < next

/-- No identity is held by two slots. -/
def Distinct (slots : RingBuffer Slot) : Prop :=
  ∀ p q : Int, (slots.get p).row.isSome = true → (slots.get q).row.isSome = true →
    (slots.get p).id = (slots.get q).id → slots.index p = slots.index q

structure Stored (policy : Policy) (columns next : Nat) (slots : RingBuffer Slot) : Prop where
  ok : ∀ p : Int, (slots.get p).Ok policy columns next
  distinct : Distinct slots

namespace Slot.Ok

variable {policy : Policy} {columns next : Nat} {slot : Slot}

theorem empty : ({} : Slot).Ok policy columns next := .inl ⟨rfl, rfl⟩

variable (h : slot.Ok policy columns next)

include h

theorem shaped {row : Row} (hr : slot.row = some row) : row.Shaped policy columns := by
  rcases h with ⟨hnone, -⟩ | ⟨row', hrow, hs, -, -⟩
  · rw [hr] at hnone
    cases hnone
  · rw [hr] at hrow
    cases hrow
    exact hs

theorem id_pos (hr : slot.row.isSome = true) : 0 < slot.id := by
  rcases h with ⟨hnone, -⟩ | ⟨_, -, -, hpos, -⟩
  · simp [hnone] at hr
  · exact hpos

theorem id_lt (hr : slot.row.isSome = true) : slot.id < next := by
  rcases h with ⟨hnone, -⟩ | ⟨_, -, -, -, hlt⟩
  · simp [hnone] at hr
  · exact hlt

theorem mono {next' : Nat} (hle : next ≤ next') : slot.Ok policy columns next' := by
  rcases h with hnone | ⟨row, hrow, hs, hpos, hlt⟩
  · exact .inl hnone
  · exact .inr ⟨row, hrow, hs, hpos, hlt.trans_le hle⟩

/-- The row of an allocated slot may be replaced by another of the same width. -/
theorem withRow (hsome : slot.row.isSome = true) {row : Row}
    (hr : row.Shaped policy columns) : ({ slot with row := some row } : Slot).Ok policy columns next :=
  .inr ⟨row, rfl, hr, h.id_pos hsome, h.id_lt hsome⟩

end Slot.Ok

namespace Stored

variable {policy : Policy} {columns next : Nat} {slots : RingBuffer Slot}

variable (h : Stored policy columns next slots)

include h

theorem mono {next' : Nat} (hle : next ≤ next') : Stored policy columns next' slots :=
  ⟨fun p => (h.ok p).mono hle, h.distinct⟩

theorem eq_empty {i : Int} (hi : (slots.get i).row = none) : slots.get i = {} := by
  rcases h.ok i with ⟨hrow, hid⟩ | ⟨row, hrow, -⟩
  · cases hslot : slots.get i
    rw [hslot] at hrow hid
    simp only at hrow hid
    rw [hrow, hid]
  · rw [hi] at hrow
    cases hrow

/-- Writing a slot keeps the ring when no other slot holds the new identity. -/
theorem set {i : Int} {slot : Slot} (hok : slot.Ok policy columns next)
    (hfresh : slot.row.isSome = true → ∀ p : Int, slots.index p ≠ slots.index i →
      (slots.get p).row.isSome = true → (slots.get p).id ≠ slot.id) :
    Stored policy columns next (slots.set i slot) := by
  constructor
  · intro p
    rw [get_set]
    split
    · exact hok
    · exact h.ok p
  · intro p q hp hq hid
    rw [get_set] at hp hq
    rw [get_set, get_set] at hid
    rw [index_set, index_set]
    by_cases hpi : slots.index i = slots.index p
    · by_cases hqi : slots.index i = slots.index q
      · rw [← hpi, hqi]
      · rw [if_pos hpi] at hp hid
        rw [if_neg hqi] at hq hid
        exact absurd hid.symm (hfresh hp q (Ne.symm hqi) hq)
    · by_cases hqi : slots.index i = slots.index q
      · rw [if_neg hpi] at hp hid
        rw [if_pos hqi] at hq hid
        exact absurd hid (hfresh hq p (Ne.symm hpi) hp)
      · rw [if_neg hpi] at hp hid
        rw [if_neg hqi] at hq hid
        exact h.distinct p q hp hq hid

theorem thinned {slots' : RingBuffer Slot}
    (hsize : slots'.size = slots.size) (hslot : ∀ i : Int, slots'.get i = slots.get i ∨ slots'.get i = {}) :
    Stored policy columns next slots' := by
  have hkept : ∀ i : Int, (slots'.get i).row.isSome = true → slots'.get i = slots.get i := by
    intro i hi
    rcases hslot i with hs | hs
    · exact hs
    · rw [hs] at hi
      cases hi
  constructor
  · intro i
    rcases hslot i with hs | hs
    · rw [hs]
      exact h.ok i
    · rw [hs]
      exact Slot.Ok.empty
  · intro i j hi hj hid
    have hi' := hkept i hi
    have hj' := hkept j hj
    rw [hi'] at hi hid
    rw [hj'] at hj hid
    rw [index_congr hsize, index_congr hsize]
    exact h.distinct i j hi hj hid

theorem set_row {i : Int} (hsome : (slots.get i).row.isSome = true) {row : Row} (hr : row.Shaped policy columns) :
    Stored policy columns next (slots.set i { slots.get i with row := some row }) := by
  apply h.set ((h.ok i).withRow hsome hr)
  intro _ p hne hp hid
  exact hne (h.distinct p i hp hsome hid)

theorem set_fresh {row : Row} (i : Int) (hr : row.Shaped policy columns) (hpos : 0 < next) :
    Stored policy columns (next + 1) (slots.set i { row := some row, id := next }) := by
  apply (h.mono (Nat.le_succ next)).set
  · exact .inr ⟨row, rfl, hr, hpos, Nat.lt_succ_self next⟩
  · intro _ p _ hp hid
    have hlt := (h.ok p).id_lt hp
    rw [hid] at hlt
    exact Nat.lt_irrefl _ hlt

theorem swap (i j : Int) : Stored policy columns next (slots.swap i j) := by
  -- a swap reads position `p` at the position it exchanges it with
  have hread : ∀ p : Int, ∃ q : Int, (slots.swap i j).get p = slots.get q ∧ ((slots.index j = slots.index p ∧ q = i) ∨
        (slots.index j ≠ slots.index p ∧ slots.index i = slots.index p ∧ q = j) ∨
        (slots.index j ≠ slots.index p ∧ slots.index i ≠ slots.index p ∧ q = p)) := by
    intro p
    rw [get_swap]
    by_cases hj : slots.index j = slots.index p
    · exact ⟨i, by rw [if_pos hj], .inl ⟨hj, rfl⟩⟩
    · by_cases hi : slots.index i = slots.index p
      · exact ⟨j, by rw [if_neg hj, if_pos hi], .inr (.inl ⟨hj, hi, rfl⟩)⟩
      · exact ⟨p, by rw [if_neg hj, if_neg hi], .inr (.inr ⟨hj, hi, rfl⟩)⟩
  constructor
  · intro p
    obtain ⟨q, hq, -⟩ := hread p
    rw [hq]
    exact h.ok q
  · intro p p' hp hp' hid
    obtain ⟨q, hq, hcase⟩ := hread p
    obtain ⟨q', hq', hcase'⟩ := hread p'
    rw [hq] at hp hid
    rw [hq'] at hp' hid
    have hindex := h.distinct q q' hp hp' hid
    rw [index_swap, index_swap]
    rcases hcase with ⟨h1, rfl⟩ | ⟨h1, h2, rfl⟩ | ⟨h1, h2, rfl⟩ <;>
      rcases hcase' with ⟨h1', rfl⟩ | ⟨h1', h2', rfl⟩ | ⟨h1', h2', rfl⟩ <;> omega

theorem shiftUp (base : Int) (n count : Nat) : Stored policy columns next (slots.shiftUp base n count) := by
  induction count generalizing slots with
  | zero => exact h
  | succ count ih =>
    rw [shiftUp_succ]
    exact ih (h.swap _ _)

theorem shiftDown (base : Int) (n count : Nat) : Stored policy columns next (slots.shiftDown base n count) := by
  induction count with
  | zero => exact h
  | succ count ih =>
    rw [shiftDown_succ]
    exact ih.swap _ _

end Stored

end Splinterm.Terminal
