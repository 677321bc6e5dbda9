import Splinterm.Lib.Reservation

/-!
# Publication bytes

Sparse publication holds bytes under three ceilings: of the subscriber, of its Splint and of the
daemon. Leases own the bytes. Each operation on them is written as the accesses it makes to the
three counters, in order, with its ways out, so that operations on different leases interleave
between any two accesses.
-/

namespace Splinterm.Daemon

open Lib

def subscriberSparseSemanticBytes : Nat := 16 * 1024 * 1024

def splintSparseSemanticBytes : Nat := 64 * 1024 * 1024

def daemonTerminalPublicationBytes : Nat := 256 * 1024 * 1024

/-- The accounting of one subscriber, and the Splint whose metrics it shares. -/
structure QueueAccounting where
  splint : Nat
  subscriber : Nat
  localSemanticByteLimit : Nat := subscriberSparseSemanticBytes
deriving DecidableEq

/-- `sparse_semantic_bytes_current`, `local_semantic_bytes` and the daemon's counter. -/
inductive ByteCounter where
  | splint (splint : Nat)
  | subscriber (accounting : QueueAccounting)
  | daemon
deriving DecidableEq

def ByteCounter.limit : ByteCounter → Nat
  | splint _ => splintSparseSemanticBytes
  | subscriber accounting => accounting.localSemanticByteLimit
  | daemon => daemonTerminalPublicationBytes

/-- A `ProducerBuildLease`, a `SemanticByteLease` or a `TerminalPublicationMemoryLease` on its own.
The first two contain one of the last with the same number of bytes. -/
inductive ByteLease where
  | producer (accounting : QueueAccounting) (bytes : Nat)
  | semantic (accounting : QueueAccounting) (bytes : Nat)
  | publication (bytes : Nat)
deriving DecidableEq

abbrev ByteTask := Task ByteCounter ByteLease

namespace ByteLease

def charge : ByteLease → ByteCounter → Nat
  | producer accounting bytes, .splint splint => if splint = accounting.splint then bytes else 0
  | semantic accounting bytes, .splint splint => if splint = accounting.splint then bytes else 0
  | semantic accounting bytes, .subscriber other => if other = accounting then bytes else 0
  | producer _ bytes, .daemon => bytes
  | semantic _ bytes, .daemon => bytes
  | publication bytes, .daemon => bytes
  | _, _ => 0

end ByteLease

/-! ## Operations -/

section

variable (accounting : QueueAccounting) (held amount bytes : Nat) (granted refused next : ByteTask)

def tryReserveCounter (counter : ByteCounter) : ByteTask := .reserve counter amount none granted refused

def tryAdmitProducerBytes : ByteTask :=
  tryReserveCounter amount
    (tryReserveCounter amount granted (.release (.splint accounting.splint) amount refused) .daemon)
    refused (.splint accounting.splint)

def tryAdmitSemanticBytes : ByteTask :=
  tryReserveCounter amount
    (tryReserveCounter amount
      (tryReserveCounter amount granted
        (.release (.splint accounting.splint) amount (.release (.subscriber accounting) amount refused)) .daemon)
      (.release (.subscriber accounting) amount refused) (.splint accounting.splint))
    refused (.subscriber accounting)

def releaseSemanticBytes : ByteTask :=
  .release (.splint accounting.splint) amount (.release (.subscriber accounting) amount next)

/-- `Drop`: what the lease itself releases, then the daemon lease inside it. -/
def ByteLease.drop (next : ByteTask) : ByteLease → ByteTask
  | producer accounting bytes => .release (.splint accounting.splint) bytes (.release .daemon bytes next)
  | semantic accounting bytes => releaseSemanticBytes accounting bytes (.release .daemon bytes next)
  | publication bytes => .release .daemon bytes next

/-- `ProducerBuildLease::into_semantic`: the producer lease is dropped in every case, emptied when
its bytes have moved. -/
def intoSemantic : ByteTask :=
  let dropped := (ByteLease.producer accounting held).drop (.done [])
  if held < bytes then dropped
  else
    let moved := (ByteLease.producer accounting 0).drop (.done [.semantic accounting bytes])
    let released := held - bytes
    tryReserveCounter bytes
      (if 0 < released then
        .release (.splint accounting.splint) released (.release .daemon released moved)
      else moved)
      dropped (.subscriber accounting)

/-- `SemanticByteLease::resize`; a lease for the additional bytes is emptied and dropped. -/
def resizeSemantic : ByteTask :=
  let resized := Task.done [.semantic accounting bytes]
  if held < bytes then
    tryAdmitSemanticBytes accounting (bytes - held) ((ByteLease.semantic accounting 0).drop resized)
      (.done [.semantic accounting held])
  else if bytes < held then
    releaseSemanticBytes accounting (held - bytes) (.release .daemon (held - bytes) resized)
  else resized

/-- `SemanticByteLease::consolidate` of the leases of a vector, each with its bytes. -/
def consolidate (leases : List (QueueAccounting × Nat)) (bytes : Nat) : ByteTask :=
  let kept := Task.done (leases.map fun lease => .semantic lease.1 lease.2)
  match leases with
  | [] => kept
  | (accounting, _) :: _ =>
    let admitted := (leases.map (·.2)).sum
    if leases.all (·.1 = accounting) = false ∨ 2 ^ 64 ≤ admitted then kept
    else
      let emptied := (ByteLease.semantic accounting 0).drop
      let cleared := fun next => leases.foldr (fun _ => emptied) next
      let merged := Task.done [.semantic accounting bytes]
      if admitted < bytes then
        tryAdmitSemanticBytes accounting (bytes - admitted) (cleared (emptied merged)) kept
      else if bytes < admitted then
        releaseSemanticBytes accounting (admitted - bytes) (.release .daemon (admitted - bytes) (cleared merged))
      else cleared merged

end

inductive LeaseOp where
  | newProducer (accounting : QueueAccounting) (bytes : Nat)
  | newSemantic (accounting : QueueAccounting) (bytes : Nat)
  | newPublication (bytes : Nat)
  | intoSemantic (accounting : QueueAccounting) (held bytes : Nat)
  | resize (accounting : QueueAccounting) (held bytes : Nat)
  | consolidate (leases : List (QueueAccounting × Nat)) (bytes : Nat)
  | drop (lease : ByteLease)

namespace LeaseOp

/-- The leases an operation owns while it runs. -/
def taken : LeaseOp → List ByteLease
  | intoSemantic accounting held _ => [.producer accounting held]
  | resize accounting held _ => [.semantic accounting held]
  | consolidate leases _ => leases.map fun lease => .semantic lease.1 lease.2
  | drop lease => [lease]
  | _ => []

def task : LeaseOp → ByteTask
  | newProducer accounting bytes =>
    tryAdmitProducerBytes accounting bytes (.done [.producer accounting bytes]) (.done [])
  | newSemantic accounting bytes =>
    tryAdmitSemanticBytes accounting bytes (.done [.semantic accounting bytes]) (.done [])
  | newPublication bytes => tryReserveCounter bytes (.done [.publication bytes]) (.done []) .daemon
  | intoSemantic accounting held bytes => Daemon.intoSemantic accounting held bytes
  | resize accounting held bytes => resizeSemantic accounting held bytes
  | consolidate leases bytes => Daemon.consolidate leases bytes
  | drop lease => lease.drop (.done [])

end LeaseOp

/-! ## Balance -/

open ByteLease

section

variable {accounting : QueueAccounting} {granted refused next : ByteTask} {amount : Nat}

theorem charge_semantic (accounting : QueueAccounting) (bytes : Nat) (k : ByteCounter) :
    charge (.semantic accounting bytes) k = charged (.splint accounting.splint) bytes k +
      charged (.subscriber accounting) bytes k + charged .daemon bytes k := by
  cases k <;> simp [charge, charged]

theorem charge_producer (accounting : QueueAccounting) (bytes : Nat) (k : ByteCounter) :
    charge (.producer accounting bytes) k = charged (.splint accounting.splint) bytes k + charged .daemon bytes k := by
  cases k <;> simp [charge, charged]

theorem charged_add (counter k : ByteCounter) (m n : Nat) :
    charged counter (m + n) k = charged counter m k + charged counter n k := by
  rw [charged, charged, charged]
  split <;> rfl

theorem charge_add (accounting : QueueAccounting) (m n : Nat) (k : ByteCounter) :
    charge (.semantic accounting (m + n)) k = charge (.semantic accounting m) k + charge (.semantic accounting n) k := by
  simp only [charge_semantic, charged_add]
  omega

theorem charge_zero (accounting : QueueAccounting) (k : ByteCounter) : charge (.semantic accounting 0) k = 0 := by
  simp [charge_semantic, charged]

theorem held_done (lease : ByteLease) (k : ByteCounter) : (Task.done [lease]).held charge k = charge lease k := by
  simp [Task.held]

/-- Dropping a lease releases what it charges. -/
theorem held_drop (lease : ByteLease) (next : ByteTask) (k : ByteCounter) :
    (lease.drop next).held charge k = next.held charge k + charge lease k := by
  cases lease with
  | producer => simp only [drop, Task.held, charge_producer]; omega
  | semantic => simp only [drop, releaseSemanticBytes, Task.held, charge_semantic]; omega
  | publication => cases k <;> simp [drop, Task.held, charge, charged]

theorem balanced_drop (lease : ByteLease) (next : ByteTask) (h : next.Balanced charge) : (lease.drop next).Balanced charge := by
  cases lease <;> exact h

theorem balanced_tryAdmitSemanticBytes (hgranted : granted.Balanced charge) (hrefused : refused.Balanced charge)
    (hheld : ∀ k, granted.held charge k = refused.held charge k + charge (.semantic accounting amount) k) :
    (tryAdmitSemanticBytes accounting amount granted refused).Balanced charge := by
  refine ⟨⟨⟨hgranted, hrefused, fun k => ?_⟩, hrefused, fun k => ?_⟩, hrefused, fun k => ?_⟩
  · rw [hheld k, charge_semantic]
    simp only [Task.held]
    omega
  all_goals simp only [tryReserveCounter, Task.held]

/-- Leases of one subscriber charge what one lease of their sum does. -/
theorem sum_charge {leases : List (QueueAccounting × Nat)} (h : ∀ lease ∈ leases, lease.1 = accounting) (k : ByteCounter) :
    ((leases.map fun lease => ByteLease.semantic lease.1 lease.2).map (charge · k)).sum =
      charge (.semantic accounting (leases.map (·.2)).sum) k := by
  induction leases with
  | nil => exact (charge_zero accounting k).symm
  | cons lease leases ih =>
    rw [List.map_cons, List.map_cons, List.sum_cons, ih fun l hl => h l (List.mem_cons_of_mem _ hl),
      h lease List.mem_cons_self, ← charge_add]
    rfl

theorem cleared (leases : List (QueueAccounting × Nat)) (accounting : QueueAccounting) {next : ByteTask}
    (hnext : next.Balanced charge) {total : ByteCounter → Nat} (hheld : ∀ k, next.held charge k = total k) :
    let all := leases.foldr (fun _ => (ByteLease.semantic accounting 0).drop) next
    all.Balanced charge ∧ ∀ k, all.held charge k = total k := by
  induction leases with
  | nil => exact ⟨hnext, hheld⟩
  | cons lease leases ih =>
    refine ⟨ih.1, fun k => ?_⟩
    rw [List.foldr_cons, held_drop, charge_zero, ih.2 k]
    rfl

end

/-- An operation holds the leases it has taken, and whichever way it ends it gives back what it
holds. -/
def LeaseOp.Fair (taken : List ByteLease) (task : ByteTask) : Prop :=
  task.Balanced charge ∧ ∀ k, task.held charge k = (taken.map (charge · k)).sum

theorem fair_intoSemantic (accounting : QueueAccounting) (held bytes : Nat) :
    LeaseOp.Fair [.producer accounting held] (intoSemantic accounting held bytes) := by
  have hdropped (k : ByteCounter) : ((ByteLease.producer accounting held).drop (.done [])).held charge k =
      charge (.producer accounting held) k := by
    rw [held_drop, Task.held, List.map_nil, List.sum_nil, zero_add]
  have hmoved (k : ByteCounter) : ((ByteLease.producer accounting 0).drop (.done [.semantic accounting bytes])).held
      charge k = charge (.semantic accounting bytes) k := by
    rw [held_drop, held_done, charge_producer]
    simp [charged]
  rw [intoSemantic]
  split
  · exact ⟨balanced_drop _ _ trivial, hdropped⟩
  · rename_i hle
    refine ⟨⟨?_, balanced_drop _ _ trivial, fun k => ?_⟩, hdropped⟩
    · split <;> exact balanced_drop _ (.done [_]) trivial
    · obtain ⟨released, rfl⟩ := Nat.exists_eq_add_of_le (Nat.le_of_not_lt hle)
      rw [hdropped, charge_producer, Nat.add_sub_cancel_left, charged_add, charged_add]
      split
      · simp only [Task.held, hmoved, charge_semantic]
        omega
      · obtain rfl : released = 0 := by omega
        simp only [hmoved, charge_semantic, charged, ite_self]
        omega

theorem fair_resizeSemantic (accounting : QueueAccounting) (held bytes : Nat) :
    LeaseOp.Fair [.semantic accounting held] (resizeSemantic accounting held bytes) := by
  rw [resizeSemantic]
  split
  · rename_i hmore
    refine ⟨balanced_tryAdmitSemanticBytes (balanced_drop _ _ trivial) trivial fun k => ?_, fun _ => rfl⟩
    rw [held_drop, held_done, held_done, charge_zero, ← charge_add, Nat.add_sub_cancel' hmore.le]
    rfl
  · split
    · rename_i hless
      refine ⟨trivial, fun k => (held_drop (.semantic accounting (held - bytes)) _ k).trans ?_⟩
      rw [held_done, ← charge_add, Nat.add_sub_cancel' hless.le]
      exact (held_done _ k).symm
    · obtain rfl : held = bytes := by omega
      exact ⟨trivial, fun _ => rfl⟩

theorem fair_consolidate (leases : List (QueueAccounting × Nat)) (bytes : Nat) :
    LeaseOp.Fair (leases.map fun lease => .semantic lease.1 lease.2) (consolidate leases bytes) := by
  cases leases with
  | nil => exact ⟨trivial, fun _ => rfl⟩
  | cons first rest =>
    rw [consolidate]
    split
    · exact ⟨trivial, fun _ => rfl⟩
    · rename_i hsame
      have hsame : ∀ lease ∈ first :: rest, lease.1 = first.1 := by simpa using (not_or.mp hsame).1
      have hsum := sum_charge hsame
      set admitted := ((first :: rest).map (·.2)).sum
      split
      · rename_i hmore
        obtain ⟨hbalanced, hheld⟩ := cleared (first :: rest) first.1 (balanced_drop (.semantic first.1 0)
          (.done [.semantic first.1 bytes]) trivial) fun k => by rw [held_drop, held_done, charge_zero, add_zero]
        refine ⟨balanced_tryAdmitSemanticBytes hbalanced trivial fun k => ?_, fun _ => rfl⟩
        rw [hheld, Task.held, hsum, ← charge_add, Nat.add_sub_cancel' hmore.le]
      · obtain ⟨hbalanced, hheld⟩ := cleared (first :: rest) first.1
          (show Task.Balanced charge (.done [.semantic first.1 bytes]) from trivial) (held_done _)
        split
        · rename_i hless
          refine ⟨hbalanced, fun k => (held_drop (.semantic first.1 (admitted - bytes)) _ k).trans ?_⟩
          rw [hheld, hsum, ← charge_add, Nat.add_sub_cancel' hless.le]
        · obtain rfl : admitted = bytes := by omega
          exact ⟨hbalanced, fun k => (hheld k).trans (hsum k).symm⟩

theorem LeaseOp.fair (op : LeaseOp) : Fair op.taken op.task := by
  cases op with
  | newProducer accounting bytes =>
    refine ⟨⟨⟨trivial, trivial, fun k => ?_⟩, trivial, fun _ => ?_⟩, fun _ => rfl⟩
    · rw [held_done, charge_producer]
      simp [Task.held]
    · simp only [tryReserveCounter, Task.held]
  | newSemantic accounting bytes =>
    exact ⟨balanced_tryAdmitSemanticBytes trivial trivial fun k => by rw [held_done]; simp [Task.held], fun _ => rfl⟩
  | newPublication bytes =>
    refine ⟨⟨trivial, trivial, fun k => ?_⟩, fun _ => rfl⟩
    cases k <;> simp [charge, charged, Task.held]
  | intoSemantic accounting held bytes => exact fair_intoSemantic accounting held bytes
  | resize accounting held bytes => exact fair_resizeSemantic accounting held bytes
  | consolidate leases bytes => exact fair_consolidate leases bytes
  | drop lease => exact ⟨balanced_drop lease _ trivial, fun k => (held_drop lease _ k).trans (by simp [Task.held, taken])⟩

/-! ## Runs -/

/-- An operation starts, or an unfinished one makes its next access. -/
inductive ByteEvent where
  | start (op : LeaseOp)
  | access (task : ByteTask) (spurious : Bool)

def stepBytes (s : Counters ByteCounter ByteLease) : ByteEvent → Counters ByteCounter ByteLease
  | .start op => s.start op.taken op.task
  | .access task spurious => s.access ByteCounter.limit task spurious

theorem exact_run (events : List ByteEvent) : (events.foldl stepBytes {}).Exact ByteCounter.limit charge := by
  induction events using List.reverseRecOn with
  | nil => exact Counters.exact_init
  | append_singleton events event ih =>
    rw [List.foldl_append]
    cases event with
    | start op => exact ih.start op.fair.1 op.fair.2
    | access task spurious => exact ih.access task spurious

/-- Whatever operations interleave, every counter is the bytes of the live leases and what the
unfinished operations hold; it is exactly the bytes of the live leases when none is unfinished. No
counter passes its ceiling, and none is made smaller than zero. -/
theorem publication_bytes_are_exact (events : List ByteEvent) :
    let s := events.foldl stepBytes {}
    (∀ k, s.count k = (s.live.map (charge · k)).sum + (s.tasks.map (·.held charge k)).sum) ∧
      (s.tasks = 0 → ∀ k, s.count k = (s.live.map (charge · k)).sum) ∧ (∀ k, s.count k ≤ k.limit) ∧
      ∀ counter amount next, Task.release counter amount next ∈ s.tasks → amount ≤ s.count counter := by
  intro s
  have h : s.Exact ByteCounter.limit charge := exact_run events
  refine ⟨h.count, fun hnone k => ?_, h.within, fun counter amount next hmem => ?_⟩
  · rw [h.count k, Counters.total, hnone]
    rfl
  · have hle := h.held_le hmem counter
    rw [Task.held, charged, if_pos rfl] at hle
    omega

end Splinterm.Daemon
