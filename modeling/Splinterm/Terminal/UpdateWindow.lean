import Splinterm.Terminal.RunSteps

/-!
# The window of updates

A commit publishes nothing or one update under the next revision, and nothing else publishes. So the
updates of a run are numbered without gaps, the bounded history is their end, and a base is served
exactly when that end reaches back to it.
-/

namespace Splinterm.Terminal

set_option linter.dupNamespace false

open Lib Hoare Relation List Nat

/-! ## The history -/

theorem popFront_eq (limit : Nat) (history : List TerminalUpdate) :
    popFront limit history = history.drop (history.length - limit) := by
  induction history with
  | nil => rw [popFront, drop_nil]
  | cons update rest ih =>
    rw [popFront, length_cons]
    split
    · next hlong => rw [ih, succ_sub (by omega), drop_succ_cons]
    · next hshort => rw [Nat.sub_eq_zero_of_le (by omega), drop_zero]

theorem foldl_pushUpdate (limit : Nat) (updates : List TerminalUpdate) :
    updates.foldl (pushUpdate limit) [] = updates.drop (updates.length - limit) := by
  induction updates using List.reverseRecOn with
  | nil => rw [foldl_nil, drop_nil]
  | append_singleton updates update ih =>
    rw [foldl_append, ih, foldl_cons, foldl_nil, pushUpdate, popFront_eq,
      ← drop_append_of_le_length (sub_le ..), drop_drop]
    congr 1
    simp only [length_drop, length_append, length_singleton]
    omega

def Numbered (first : Nat) (updates : List TerminalUpdate) : Prop :=
  updates.map (·.revision) = List.range' first updates.length

namespace Numbered

variable {first : Nat} {updates : List TerminalUpdate}

theorem cons_iff {update : TerminalUpdate} :
    Numbered first (update :: updates) ↔ update.revision = first ∧ Numbered (first + 1) updates := by
  rw [Numbered, map_cons, length_cons, range'_succ, cons_eq_cons, Numbered]

theorem drop (h : Numbered first updates) (count : Nat) : Numbered (first + count) (updates.drop count) := by
  induction count generalizing first updates with
  | zero => exact h
  | succ count ih =>
    cases updates with
    | nil => rfl
    | cons update rest =>
      rw [drop_succ_cons, add_comm count, ← add_assoc]
      exact ih (cons_iff.mp h).2

theorem append (h : Numbered first updates) {update : TerminalUpdate}
    (hupdate : update.revision = first + updates.length) : Numbered first (updates ++ [update]) := by
  rw [Numbered, map_append, h, length_append, length_singleton, range'_concat, one_mul, map_singleton, hupdate]

/-- Those after a base are an end of them. -/
theorem filter_after (h : Numbered first updates) (base : Nat) :
    updates.filter (fun update => decide (base < update.revision)) = updates.drop (base + 1 - first) := by
  induction updates generalizing first with
  | nil => rw [drop_nil, filter_nil]
  | cons update rest ih =>
    obtain ⟨rfl, hrest⟩ := cons_iff.mp h
    rw [filter_cons, ih hrest]
    split
    · next hlater =>
      have hlater := of_decide_eq_true hlater
      rw [Nat.sub_eq_zero_of_le (by omega), Nat.sub_eq_zero_of_le (by omega), drop_zero, drop_zero]
    · next hearlier =>
      have hearlier : ¬ base < update.revision := fun hlater => hearlier (decide_eq_true hlater)
      rw [Nat.add_sub_add_right, show base + 1 - update.revision = base - update.revision + 1 by omega, drop_succ_cons]

theorem exists_iff (h : Numbered first updates) (revision : Nat) :
    (∃ update ∈ updates, update.revision = revision) ↔ first ≤ revision ∧ revision < first + updates.length := by
  rw [← mem_map, h, mem_range'_1]

end Numbered

namespace Terminal

variable {t t' t₀ : Terminal} {ext : External}

theorem updateHistory_eq (t : Terminal) :
    t.updateHistory = t.outbox.drop (t.outbox.length - t.config.updateHistoryLimit) := foldl_pushUpdate ..

/-! ## Publishing -/

/-- The revision stays and no update is added, or it grows by one and one update is added. -/
def Publishes (t t' : Terminal) : Prop :=
  (t'.revision = t.revision ∧ t'.outbox = t.outbox ∧ t'.updateHistory = t.updateHistory) ∨
  ∃ update : TerminalUpdate, update.revision = t.revision + 1 ∧ t'.revision = t.revision + 1 ∧
    t'.outbox = t.outbox ++ [update] ∧
    t'.updateHistory = pushUpdate t.config.updateHistoryLimit t.updateHistory update

/-- Nothing was published. -/
theorem publishes_of_eq (hconfig : t'.config = t.config) (hrevision : t'.revision = t.revision)
    (houtbox : t'.outbox = t.outbox) : t.Publishes t' :=
  .inl ⟨hrevision, houtbox, by rw [updateHistory, hconfig, houtbox, updateHistory]⟩

theorem publishes_commitChange (t : Terminal) : t.Publishes t.commitChange := by
  rw [commitChange]
  split
  · exact publishes_of_eq rfl rfl rfl
  · next change _ =>
    dsimp only
    split
    · exact publishes_of_eq rfl rfl rfl
    · generalize (if t.synchronizedChange.isEmpty = true then change
        else t.synchronizedChange.merge change t.config.eventLimit) = merged
      split
      · exact publishes_of_eq rfl rfl rfl
      · refine .inr ⟨_, rfl, rfl, rfl, ?_⟩
        rw [updateHistory, foldl_append, foldl_cons, foldl_nil, updateHistory]

theorem unpublished_of_steps {ok : Row → Nat → Prop} (h : ReflTransGen (Step ok) t t') :
    t'.config = t.config ∧ t'.revision = t.revision ∧ t'.outbox = t.outbox := by
  induction h with
  | refl => exact ⟨rfl, rfl, rfl⟩
  | tail _ hlast ih =>
    cases hlast with
    | beside h => exact ⟨h.config.trans ih.1, h.revision.trans ih.2.1, h.outbox.trans ih.2.2⟩
    | screen screen _ =>
      cases screen with
      | normal => exact ih
      | alternate => exact ih

theorem publishes_of_acts {ok : Row → Nat → Prop} (h : Acts ok t t') : t.Publishes t' := by
  obtain ⟨u, hsteps, hend⟩ := h
  obtain ⟨hconfig, hrevision, houtbox⟩ := unpublished_of_steps hsteps
  obtain rfl | rfl := hend
  · exact publishes_of_eq hconfig hrevision houtbox
  · have hhistory : u.updateHistory = t.updateHistory := by rw [updateHistory, hconfig, houtbox, updateHistory]
    have hcommit := publishes_commitChange u
    rw [Publishes, hrevision, houtbox, hhistory, hconfig] at hcommit
    exact hcommit

/-! ## Runs -/

/-- What was published since `t₀` is numbered on from its revision. -/
structure PublishedSince (t₀ t : Terminal) : Prop where
  revision : t.revision = t₀.revision + t.outbox.length
  numbered : Numbered (t₀.revision + 1) t.outbox

theorem Publishes.publishedSince (h : t.Publishes t') (hs : PublishedSince t₀ t) : PublishedSince t₀ t' := by
  obtain ⟨hrevision, houtbox, -⟩ | ⟨update, hupdate, hrevision, houtbox, -⟩ := h
  · exact ⟨by rw [hrevision, houtbox, hs.revision], houtbox ▸ hs.numbered⟩
  · refine ⟨?_, ?_⟩
    · rw [hrevision, houtbox, length_append, length_singleton, hs.revision, add_assoc]
    · rw [houtbox]
      exact hs.numbered.append (by rw [hupdate, hs.revision, add_right_comm])

/-- No condition on what is padded. -/
theorem padsOnly_true (d : Action × Terminal) : PadsOnly ext (fun _ _ => True) d := by
  obtain ⟨action, t⟩ := d
  cases action with
  | print character => exact fun _ _ _ => trivial
  | _ => trivial

theorem publishedSince_of_run {calls : List OwnerCall} (hstart : t₀.outbox = [])
    (hrun : performOwned ext calls t₀ = .ok () t) : PublishedSince t₀ t := by
  have hruns : Runs (fun _ _ => True) (performOwned ext calls) t₀ := runs_performOwned fun d _ => padsOnly_true d
  refine hruns.keeps hrun (fun _ _ hacts hs => (publishes_of_acts hacts).publishedSince hs) ⟨?_, ?_⟩
  · rw [hstart, length_nil, add_zero]
  · rw [hstart]
    rfl

namespace PublishedSince

variable (h : PublishedSince t₀ t)
include h

theorem oldestBase : t.oldestBase = t₀.revision + (t.outbox.length - t.config.updateHistoryLimit) := by
  have hrevision := h.revision
  have hnumbered := h.numbered.drop (t.outbox.length - t.config.updateHistoryLimit)
  rw [Terminal.oldestBase, updateHistory_eq]
  cases hhistory : t.outbox.drop (t.outbox.length - t.config.updateHistoryLimit) with
  | nil =>
    rw [drop_eq_nil_iff] at hhistory
    rw [head?_nil, Option.map_none, Option.getD_none]
    omega
  | cons update rest =>
    rw [hhistory, Numbered.cons_iff] at hnumbered
    rw [head?_cons, Option.map_some, Option.getD_some]
    omega

/-- A base is old enough and not too old when every update after it is still there. -/
theorem validateUpdateBase_iff (base : Nat) : t.validateUpdateBase base = .ok () ↔ base ≤ t.revision ∧
    ∀ revision, base < revision → revision ≤ t.revision → ∃ update ∈ t.updateHistory, update.revision = revision := by
  have hrevision := h.revision
  have hnumbered := h.numbered.drop (t.outbox.length - t.config.updateHistoryLimit)
  rw [validateUpdateBase, rejectIf_eq_ok, h.oldestBase, updateHistory_eq]
  simp only [hnumbered.exists_iff, length_drop]
  constructor
  · intro hbase
    refine ⟨by omega, fun revision hafter hupto => by omega⟩
  · rintro ⟨hbase, hall⟩ (hfuture | hold)
    · omega
    · have hnext := hall (base + 1) (lt_succ_self base) (by omega)
      omega

theorem filter_updateHistory {base : Nat} (hbase : t.validateUpdateBase base = .ok ()) :
    t.updateHistory.filter (fun update => decide (base < update.revision)) = t.outbox.drop (base - t₀.revision) := by
  rw [validateUpdateBase, rejectIf_eq_ok, h.oldestBase] at hbase
  rw [updateHistory_eq, (h.numbered.drop _).filter_after, drop_drop]
  congr 1
  omega

end PublishedSince

theorem publishes_of_handles {m : TerminalM Unit} (h : Handles (fun _ _ => True) m t)
    (hrun : m t = .ok () t') : t.Publishes t' := by
  have hacts := wp_of_ok h hrun
  exact publishes_of_acts hacts

/-- In every run from a terminal that has published nothing, a base is served exactly when it is not
in the future and every update after it is still in the history. The answer holds the updates
published after the base, one for each revision up to the current one, and the count agrees. Every
action, and every call that is not a sequence of actions, publishes one update or none. -/
theorem updatesSince_serves_window {calls : List OwnerCall} (hstart : t₀.outbox = [])
    (hrun : performOwned ext calls t₀ = .ok () t) (base : Nat) :
    ((∃ batch, t.updatesSince base = .ok batch) ↔ base ≤ t.revision ∧
      ∀ revision, base < revision → revision ≤ t.revision → ∃ update ∈ t.updateHistory, update.revision = revision) ∧
    (∀ batch, t.updatesSince base = .ok batch → batch.base = base ∧ batch.current = t.revision ∧
      batch.updates = t.outbox.filter (fun update => decide (base < update.revision)) ∧
      batch.updates.map (·.revision) = List.range' (base + 1) (t.revision - base)) ∧
    t.updateCountSince base = (t.updatesSince base).map (·.updates.length) ∧
    (∀ action u u', handle ext action u = .ok () u' → u.Publishes u') ∧
    ∀ (call : OwnerCall) u u', ¬ call.Feeds → call.perform ext u = .ok () u' → u.Publishes u' := by
  have hs := publishedSince_of_run hstart hrun
  refine ⟨?_, ?_, ?_, fun action u u' => publishes_of_handles (handles_handle (padsOnly_true (action, u))),
    fun call u u' hcall => publishes_of_handles (handles_perform hcall)⟩
  · rw [← hs.validateUpdateBase_iff, updatesSince]
    cases t.validateUpdateBase base with
    | ok _ => exact iff_of_true ⟨_, rfl⟩ rfl
    | error e => exact ⟨fun ⟨_, h⟩ => (by cases h), fun h => (by cases h)⟩
  · intro batch hbatch
    rw [updatesSince] at hbatch
    cases hbase : t.validateUpdateBase base with
    | error e =>
      rw [hbase] at hbatch
      cases hbatch
    | ok _ =>
      rw [hbase] at hbatch
      cases hbatch
      refine ⟨rfl, rfl, ?_, ?_⟩
      · rw [hs.filter_updateHistory hbase, hs.numbered.filter_after, Nat.add_sub_add_right]
      · rw [hs.filter_updateHistory hbase, hs.numbered.drop, length_drop]
        have hrevision := hs.revision
        rw [validateUpdateBase, rejectIf_eq_ok, hs.oldestBase] at hbase
        congr 1
        · omega
        · omega
  · rw [updateCountSince, updatesSince]
    cases t.validateUpdateBase base with
    | ok _ =>
      rw [countP_eq_length_filter]
      rfl
    | error e => rfl

/-- Three letters printed under a limit of two updates: the second base is served, the first is not. -/
theorem letters_updatesSince : ∃ t₀ t, Terminal.new 5 2 { updateHistoryLimit := 2 } = .ok t₀ ∧
    performOwned plainLibrary [.call (.feed [0x61, 0x62, 0x63])] t₀ = .ok () t ∧
    (∃ batch, t.updatesSince 1 = .ok batch ∧ batch.updates.map (·.revision) = [2, 3]) ∧
    ¬ ∃ batch, t.updatesSince 0 = .ok batch := by
  have hchecked : checkRun plainLibrary 5 2 { updateHistoryLimit := 2 } [.call (.feed [0x61, 0x62, 0x63])]
      (fun t₀ t => decide (t₀.outbox = [] ∧ t.revision = 3 ∧ t.updateHistory.map (·.revision) = [2, 3])) =
        true := by decide +kernel
  obtain ⟨t₀, t, hnew, hrun, hcheck⟩ := exists_run_of_check hchecked
  obtain ⟨hstart, hrevision, hhistory⟩ := of_decide_eq_true hcheck
  refine ⟨t₀, t, hnew, hrun, ?_, ?_⟩
  · obtain ⟨hserved, hbatch, -⟩ := updatesSince_serves_window hstart hrun 1
    have hall : ∀ revision, 1 < revision → revision ≤ t.revision →
        ∃ update ∈ t.updateHistory, update.revision = revision := by
      intro revision hafter hupto
      rw [← mem_map, hhistory]
      simp only [mem_cons, not_mem_nil]
      omega
    obtain ⟨batch, hok⟩ := hserved.mpr ⟨by omega, hall⟩
    refine ⟨batch, hok, ?_⟩
    rw [(hbatch batch hok).2.2.2, hrevision]
    rfl
  · rw [(updatesSince_serves_window hstart hrun 0).1]
    rintro ⟨-, hall⟩
    have hfirst := hall 1 zero_lt_one (by omega)
    rw [← mem_map, hhistory] at hfirst
    simp at hfirst

end Terminal

end Splinterm.Terminal
