import Mathlib.Data.List.Induction

/-!
# Filling rows with indivisible pieces

A line of pieces broken into rows: a piece goes onto the open row when its cells still fit
there, and onto a new row otherwise. A piece wider than a row stands alone on one.
-/

namespace Splinterm.Lib

open List

variable {α β : Type}

/-- The rows left behind and the one still open. -/
structure Fill (α : Type) where
  full : List (List α) := []
  current : List α := []

namespace Fill

def push (cells : α → List β) (columns : Nat) (f : Fill α) (a : α) : Fill α :=
  if 0 < f.current.length ∧ columns < (f.current.flatMap cells).length + (cells a).length then
    { full := f.full ++ [f.current], current := [a] }
  else { f with current := f.current ++ [a] }

def ofList (cells : α → List β) (columns : Nat) (line : List α) : Fill α :=
  line.foldl (push cells columns) {}

def rows (f : Fill α) : List (List α) := f.full ++ [f.current]

variable {cells : α → List β} {columns : Nat} {f : Fill α} {a : α}

@[simp] theorem ofList_nil : ofList cells columns ([] : List α) = {} := rfl

@[simp] theorem ofList_concat (line : List α) (a : α) :
    ofList cells columns (line ++ [a]) = (ofList cells columns line).push cells columns a := by
  simp [ofList]

@[simp] theorem length_rows (f : Fill α) : f.rows.length = f.full.length + 1 := by simp [rows]

/-- What a piece finds before it on its row. -/
theorem current_push (cells : α → List β) (columns : Nat) (f : Fill α) (a : α) :
    ∃ before, (f.push cells columns a).current = before ++ [a] ∧
      ((before = f.current ∧ (f.push cells columns a).full = f.full) ∨
        (before = [] ∧ (f.push cells columns a).full = f.full ++ [f.current])) := by
  rw [push]
  split
  · exact ⟨[], rfl, .inr ⟨rfl, rfl⟩⟩
  · exact ⟨f.current, rfl, .inl ⟨rfl, rfl⟩⟩

theorem flatten_rows_push : (f.push cells columns a).rows.flatten = f.rows.flatten ++ [a] := by
  obtain ⟨before, hcurrent, ⟨rfl, hfull⟩ | ⟨rfl, hfull⟩⟩ := current_push cells columns f a
  · simp [rows, hcurrent, hfull]
  · simp [rows, hcurrent, hfull]

@[simp] theorem flatten_rows_ofList (line : List α) : (ofList cells columns line).rows.flatten = line := by
  induction line using reverseRecOn with
  | nil => rfl
  | append_singleton line a ih => rw [ofList_concat, flatten_rows_push, ih]

theorem width_push (ha : (cells a).length ≤ columns) :
    ((f.push cells columns a).current.flatMap cells).length ≤ columns := by
  rw [push]
  split
  · simpa using ha
  · rename_i hroom
    rw [flatMap_append, length_append, flatMap_singleton]
    cases hnil : f.current with
    | nil => simpa using ha
    | cons b row =>
      rw [hnil] at hroom
      have := not_and.mp hroom (by simp)
      omega

theorem width_ofList {line : List α} (h : ∀ a ∈ line, (cells a).length ≤ columns) :
    ∀ row ∈ (ofList cells columns line).rows, (row.flatMap cells).length ≤ columns := by
  induction line using reverseRecOn with
  | nil => simp [rows]
  | append_singleton line a ih =>
    rw [ofList_concat]
    specialize ih fun b hb => h b (mem_append_left _ hb)
    obtain ⟨before, -, ⟨-, hfull⟩ | ⟨-, hfull⟩⟩ := current_push cells columns
      (ofList cells columns line) a
    all_goals
      rw [rows, hfull]
      refine forall_mem_append.mpr ⟨?_, forall_mem_singleton.mpr (width_push (h a (by simp)))⟩
    · exact (forall_mem_append.mp ih).1
    · exact ih

end Fill

/-! ## Growing rows -/

/-- Every row stays where it is and at most gets longer. -/
def Grows (rows rows' : List (List α)) : Prop :=
  ∀ (r : Nat) (row : List α), rows[r]? = some row → ∃ more, rows'[r]? = some (row ++ more)

namespace Grows

theorem append (rows more : List (List α)) : Grows rows (rows ++ more) := by
  intro r row h
  refine ⟨[], ?_⟩
  rw [getElem?_append_left (List.getElem?_eq_some_iff.mp h).1, append_nil]
  exact h

theorem append_left (first : List (List α)) {rows rows' : List (List α)} (h : Grows rows rows') :
    Grows (first ++ rows) (first ++ rows') := by
  intro r row hr
  rcases Nat.lt_or_ge r first.length with hlt | hge
  · rw [getElem?_append_left hlt] at hr
    exact ⟨[], by rw [getElem?_append_left hlt, append_nil]; exact hr⟩
  · rw [getElem?_append_right hge] at hr ⊢
    exact h _ _ hr

theorem push (cells : α → List β) (columns : Nat) (f : Fill α) (a : α) :
    Grows f.rows (f.push cells columns a).rows := by
  obtain ⟨before, hcurrent, ⟨rfl, hfull⟩ | ⟨rfl, hfull⟩⟩ := Fill.current_push cells columns f a
  · -- the open row gets the piece
    rw [Fill.rows, Fill.rows, hfull, hcurrent]
    apply append_left
    intro r row hr
    obtain ⟨hlt, rfl⟩ := List.getElem?_eq_some_iff.mp hr
    obtain rfl : r = 0 := by simpa using hlt
    exact ⟨[a], rfl⟩
  · rw [Fill.rows, Fill.rows, hfull]
    exact append _ _

end Grows

/-! ## Positions -/

/-- Two places that hold pieces unrelated by a relation every earlier piece has to every later
one are the same place. -/
theorem place_unique {R : α → α → Prop} {rows : List (List α)} (h : rows.flatten.Pairwise R)
    {r r' : Nat} {before after before' after' : List α} {a b : α}
    (hr : rows[r]? = some (before ++ a :: after)) (hr' : rows[r']? = some (before' ++ b :: after'))
    (hab : ¬ R a b) (hba : ¬ R b a) : r = r' ∧ before = before' ∧ a = b := by
  obtain ⟨hwithin, hacross⟩ := pairwise_flatten.mp h
  rw [pairwise_iff_getElem] at hacross
  obtain ⟨hlt, heq⟩ := List.getElem?_eq_some_iff.mp hr
  obtain ⟨hlt', heq'⟩ := List.getElem?_eq_some_iff.mp hr'
  rcases Nat.lt_trichotomy r r' with hrr | rfl | hrr
  · exact absurd (hacross r r' hlt hlt' hrr a (by simp [heq]) b (by simp [heq'])) hab
  · have hrow : (before ++ a :: after).Pairwise R := hwithin _ (heq ▸ getElem_mem hlt)
    have hsame : before ++ a :: after = before' ++ b :: after' := heq.symm.trans heq'
    rcases append_eq_append_iff.mp hsame with ⟨mid, hbefore, hmid⟩ | ⟨mid, hbefore, hmid⟩
    · cases mid with
      | nil => simp_all
      | cons c mid =>
        obtain ⟨rfl, -⟩ := cons_eq_cons.mp hmid
        rw [hsame, hbefore] at hrow
        exact absurd ((pairwise_append.mp hrow).2.2 a (by simp) b (by simp)) hab
    · cases mid with
      | nil => simp_all
      | cons c mid =>
        obtain ⟨rfl, -⟩ := cons_eq_cons.mp hmid
        rw [hbefore] at hrow
        exact absurd ((pairwise_append.mp hrow).2.2 b (by simp) a (by simp)) hba
  · exact absurd (hacross r' r hlt' hlt hrr b (by simp [heq']) a (by simp [heq])) hba

end Splinterm.Lib
