import Mathlib.Algebra.GroupWithZero.Nat
import Mathlib.Algebra.BigOperators.Group.Multiset.Basic
import Mathlib.Algebra.Order.Sub.Basic

/-!
# Counters shared by concurrent reservations

Tokens charge shared 64-bit counters. An operation takes tokens, reserves by compare-and-swap under
a limit, releases by subtraction, and gives tokens back; between two of its accesses any other
operation may run. An operation is balanced when each of its ways to the end gives back what it
holds; then every counter is what the live tokens charge and the unfinished operations hold.
-/

namespace Splinterm.Lib

open Function Multiset

/-- The rest of an operation, from its next access on. A reservation has `observed` nothing yet, or
the value its next exchange expects. -/
inductive Task (κ τ : Type) where
  | done (tokens : List τ)
  | reserve (counter : κ) (amount : Nat) (observed : Option Nat) (granted refused : Task κ τ)
  | release (counter : κ) (amount : Nat) (next : Task κ τ)
deriving DecidableEq

structure Counters (κ τ : Type) where
  count : κ → Nat := fun _ => 0
  live : Multiset τ := 0
  tasks : Multiset (Task κ τ) := 0

variable {κ τ : Type} [DecidableEq κ]

def charged (counter : κ) (amount : Nat) (k : κ) : Nat := if k = counter then amount else 0

namespace Task

/-- What an unfinished operation holds of a counter: what it gives back if nothing more is granted. -/
def held (charge : τ → κ → Nat) : Task κ τ → κ → Nat
  | done tokens, k => (tokens.map (charge · k)).sum
  | reserve _ _ _ _ refused, k => refused.held charge k
  | release counter amount next, k => next.held charge k + charged counter amount k

/-- A grant leads to an end that holds as much more as was granted. -/
def Balanced (charge : τ → κ → Nat) : Task κ τ → Prop
  | done _ => True
  | reserve counter amount _ granted refused => granted.Balanced charge ∧ refused.Balanced charge ∧
      ∀ k, granted.held charge k = refused.held charge k + charged counter amount k
  | release _ _ next => next.Balanced charge

end Task

namespace Counters

/-- What the live tokens charge and the unfinished operations hold. -/
def total (charge : τ → κ → Nat) (s : Counters κ τ) (k : κ) : Nat :=
  (s.live.map (charge · k)).sum + (s.tasks.map (·.held charge k)).sum

structure Exact (limit : κ → Nat) (charge : τ → κ → Nat) (s : Counters κ τ) : Prop where
  balanced : ∀ task ∈ s.tasks, task.Balanced charge
  count : ∀ k, s.count k = s.total charge k
  within : ∀ k, s.count k ≤ limit k
  word : ∀ k, s.count k < 2 ^ 64

variable {limit : κ → Nat} {charge : τ → κ → Nat}

theorem exact_init : Exact limit charge ({} : Counters κ τ) where
  balanced _ hmem := absurd hmem (notMem_zero _)
  count _ := rfl
  within _ := Nat.zero_le _
  word _ := Nat.two_pow_pos 64

variable [DecidableEq τ]

def replace (s : Counters κ τ) (task next : Task κ τ) : Counters κ τ :=
  { s with tasks := next ::ₘ s.tasks.erase task }

/-- One access of an unfinished operation. An exchange fails when the counter has changed, and
may fail without a reason; the sum is checked against 64 bits and the limit. -/
def access (limit : κ → Nat) (s : Counters κ τ) (task : Task κ τ) (spurious : Bool) : Counters κ τ :=
  if task ∈ s.tasks then
    match task with
    | .done tokens => { s with live := s.live + tokens, tasks := s.tasks.erase task }
    | .reserve counter amount none granted refused =>
      s.replace task (.reserve counter amount (some (s.count counter)) granted refused)
    | .reserve counter amount (some current) granted refused =>
      if current + amount < 2 ^ 64 ∧ current + amount ≤ limit counter then
        if s.count counter = current ∧ spurious = false then
          { s.replace task granted with count := Function.update s.count counter (current + amount) }
        else s.replace task (.reserve counter amount (some (s.count counter)) granted refused)
      else s.replace task refused
    | .release counter amount next =>
      { s.replace task next with
        count := Function.update s.count counter ((s.count counter + (2 ^ 64 - amount)) % 2 ^ 64) }
  else s

/-- An operation takes its tokens, if they are there. -/
def start (s : Counters κ τ) (taken : List τ) (task : Task κ τ) : Counters κ τ :=
  if (taken : Multiset τ) ≤ s.live then { s with live := s.live - taken, tasks := task ::ₘ s.tasks } else s

variable {s : Counters κ τ} {task next : Task κ τ}

variable (h : Exact limit charge s)

include h

theorem Exact.held_le (hmem : task ∈ s.tasks) (k : κ) : task.held charge k ≤ s.count k := by
  have hsum := sum_map_erase (f := (·.held charge k)) hmem
  rw [h.count k, total]
  omega

/-- One unfinished operation goes on, and the counters follow what it holds. -/
theorem Exact.replace (hmem : task ∈ s.tasks) (hnext : next.Balanced charge)
    {count : κ → Nat} (hcount : ∀ k, count k + task.held charge k = s.count k + next.held charge k)
    (hwithin : ∀ k, count k ≤ limit k ∧ count k < 2 ^ 64) :
    Exact limit charge { s.replace task next with count } where
  balanced := forall_mem_cons.mpr ⟨hnext, fun other hother => h.balanced other (mem_of_mem_erase hother)⟩
  count k := by
    have hsum := sum_map_erase (f := (·.held charge k)) hmem
    have hold := h.count k
    have hnew := hcount k
    simp only [total, Counters.replace, map_cons, sum_cons] at hold ⊢
    omega
  within k := (hwithin k).1
  word k := (hwithin k).2

theorem Exact.stay (hmem : task ∈ s.tasks) (hnext : next.Balanced charge)
    (hheld : ∀ k, next.held charge k = task.held charge k) : Exact limit charge (s.replace task next) :=
  h.replace hmem hnext (fun k => by rw [hheld k]) fun k => ⟨h.within k, h.word k⟩

theorem Exact.access (task : Task κ τ) (spurious : Bool) : Exact limit charge (s.access limit task spurious) := by
  unfold Counters.access
  split
  case isFalse => exact h
  case isTrue hmem =>
    have hbalanced := h.balanced task hmem
    cases task with
    | done tokens =>
      refine ⟨fun other hother => h.balanced other (mem_of_mem_erase hother), fun k => ?_, h.within, h.word⟩
      have hsum := sum_map_erase (f := (·.held charge k)) hmem
      have hold := h.count k
      simp only [total, Task.held, map_add, sum_add, map_coe, sum_coe] at hsum hold ⊢
      omega
    | release counter amount rest =>
      have hrest : rest.Balanced charge := hbalanced
      have hle := h.held_le hmem
      refine h.replace hmem hrest (fun k => ?_) fun k => ?_
      all_goals
        have hk := hle k
        have hwithin := h.within k
        have hwordk := h.word k
        simp only [Task.held, charged, update_apply] at hk ⊢
        split at hk
        · subst_vars
          simp only [if_true]
          omega
        · rename_i hne
          simp only [if_neg hne]
          omega
    | reserve counter amount observed granted refused =>
      cases observed with
      | none => exact h.stay hmem hbalanced fun _ => rfl
      | some current =>
        dsimp only
        split
        case isFalse => exact h.stay hmem hbalanced.2.1 fun _ => rfl
        case isTrue hroom =>
          split
          case isFalse => exact h.stay hmem hbalanced fun _ => rfl
          case isTrue hsame =>
            refine h.replace hmem hbalanced.1 (fun k => ?_) fun k => ?_
            · rw [Task.held, hbalanced.2.2 k, charged, update_apply]
              split
              · subst_vars
                omega
              · omega
            · rw [update_apply]
              split
              · subst_vars
                exact ⟨hroom.2, hroom.1⟩
              · exact ⟨h.within k, h.word k⟩

theorem Exact.start {taken : List τ} (hbalanced : task.Balanced charge)
    (hheld : ∀ k, task.held charge k = (taken.map (charge · k)).sum) : Exact limit charge (s.start taken task) := by
  rw [Counters.start]
  split
  case isFalse => exact h
  case isTrue hthere =>
    refine ⟨forall_mem_cons.mpr ⟨hbalanced, h.balanced⟩, fun k => ?_, h.within, h.word⟩
    have hold := h.count k
    have hlive := congrArg (fun m => (m.map (charge · k)).sum) (tsub_add_cancel_of_le hthere)
    simp only [total, map_add, sum_add, map_coe, sum_coe, map_cons, sum_cons, hheld k] at hold hlive ⊢
    omega

end Counters

end Splinterm.Lib
