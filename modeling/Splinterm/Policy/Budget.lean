import Mathlib.Data.List.Find
import Splinterm.Lib.Run
import Splinterm.Policy.StoreRun

/-!
# Spawn budgets

The first rule that matches a request decides it. A request its budget does not cover is denied,
also where a later rule matches and has spawns left, so a rule put before others can take away what
they allowed.
-/

namespace Splinterm.Policy

open Lib Daemon

/-- A request as the store is asked it. -/
structure Attempt where
  executable : ExecutableIdentity
  request : PolicyRequest
  now : Nat

namespace PolicyStore

variable {store store' : PolicyStore} {a : Attempt} {rule : PolicyRule} {attempts : List Attempt}

def attempt (store : PolicyStore) (a : Attempt) : Option PolicyMatch × PolicyStore :=
  store.authorize a.executable a.request a.now

def Matches (store : PolicyStore) (a : Attempt) (rule : PolicyRule) : Bool :=
  (store.generation.document.resolvedResources.get? rule.id).any fun resources =>
    rule.admits a.executable a.request resources a.now

/-- The rule that decides the request. -/
def first (store : PolicyStore) (a : Attempt) : Option PolicyRule :=
  store.generation.document.rules.find? (store.Matches a)

theorem authorize_first (store : PolicyStore) (a : Attempt) :
    store.generation.document.authorize a.executable a.request a.now = (store.first a).map fun rule =>
      ⟨rule.id, rule.limits.maxSpawnCount, rule.limits.maxReturnedBytes⟩ := by
  rw [PolicyDocument.authorize, first]
  induction store.generation.document.rules with
  | nil => rfl
  | cons rule rules ih =>
    rw [List.findSome?_cons, List.find?_cons, ih, Matches]
    cases store.generation.document.resolvedResources.get? rule.id with
    | none => rfl
    | some resources =>
      cases hadmits : rule.admits a.executable a.request resources a.now <;> simp [hadmits]

def used (store : PolicyStore) (ruleId : String) : Nat := (store.spawnCounts.get? ruleId).getD 0

/-- What is left of the rule's budget covers the spawns asked for. -/
def Covers (store : PolicyStore) (a : Attempt) (rule : PolicyRule) : Prop :=
  ∀ requested, a.request.limits.spawnCount = some requested → ∃ allowed,
    rule.limits.maxSpawnCount = some allowed ∧ store.used rule.id + requested ≤ min allowed u64Max

/-- The first rule that matches decides, and the spawns are counted for that rule alone. -/
theorem attempt_spec (store : PolicyStore) (a : Attempt) : (store.attempt a).2.generation = store.generation ∧
    ((store.attempt a).1.isSome = true ↔ ∃ rule, store.first a = some rule ∧ store.Covers a rule) ∧
    ∀ rule, store.first a = some rule → store.Covers a rule → ∀ id, (store.attempt a).2.used id =
      store.used id + if id = rule.id then a.request.limits.spawnCount.getD 0 else 0 := by
  rw [attempt, authorize, authorize_first]
  cases store.first a with
  | none => simp
  | some rule =>
    dsimp only [Option.map_some]
    cases hspawn : a.request.limits.spawnCount with
    | none => simp [Covers, hspawn]
    | some requested =>
      unfold chargeSpawns
      cases hmax : rule.limits.maxSpawnCount with
      | none => simp [Covers, hspawn, hmax]
      | some allowed =>
        have hcovers : store.Covers a rule ↔ store.used rule.id + requested ≤ min allowed u64Max := by
          simp [Covers, hspawn, hmax]
        dsimp only
        rw [← used]
        split
        · have hnot : ¬ store.Covers a rule := by
            rw [hcovers]
            omega
          simp [hnot]
        · have hyes : store.Covers a rule := by
            rw [hcovers]
            omega
          refine ⟨rfl, by simp [hyes], ?_⟩
          rintro _ ⟨⟩ _ id
          rw [used, OrdMap.get?_insert]
          split
          · rename_i hid
            rw [hid]
            rfl
          · rfl

def Allowed (store : PolicyStore) (a : Attempt) : Prop :=
  ∃ rule ∈ store.generation.document.rules, store.Matches a rule = true ∧ store.Covers a rule

/-- Every request is authorized. -/
def Granted : List Attempt → PolicyStore → Prop :=
  Along (fun s a => (attempt s a).2) fun s a => (attempt s a).1.isSome = true

/-- The rule covers every request it decides. -/
def Suffices (rule : PolicyRule) : List Attempt → PolicyStore → Prop :=
  Along (fun s a => (attempt s a).2) fun s a => s.first a = some rule → s.Covers a rule

/-- The second store has one more rule, and has counted no more for any other. -/
structure Extends (rule : PolicyRule) (store store' : PolicyStore) : Prop where
  rules : ∃ pre post, store.generation.document.rules = pre ++ post ∧
    store'.generation.document.rules = pre ++ rule :: post
  fresh : ∀ other ∈ store.generation.document.rules, other.id ≠ rule.id
  resolved : ∃ resources, store'.generation.document.resolvedResources =
    store.generation.document.resolvedResources.insert rule.id resources
  used : ∀ id, id ≠ rule.id → store'.used id ≤ store.used id

theorem Extends.first (h : Extends rule store store') {other : PolicyRule} (hfirst : store.first a = some other) :
    store'.first a = some other ∨ store'.first a = some rule := by
  obtain ⟨pre, post, hrules, hrules'⟩ := h.rules
  obtain ⟨resources, hresolved⟩ := h.resolved
  have hsame : ∀ o ∈ pre ++ post, store'.Matches a o = store.Matches a o := by
    intro o ho
    rw [Matches, hresolved, OrdMap.get?_insert, if_neg (h.fresh o (hrules ▸ ho)), Matches]
  rw [PolicyStore.first, hrules, ← List.find?_congr hsame, List.find?_append] at hfirst
  rw [PolicyStore.first, hrules', List.find?_append, List.find?_cons]
  cases hpre : pre.find? (store'.Matches a) with
  | some found =>
    rw [hpre] at hfirst
    exact .inl hfirst
  | none =>
    rw [hpre] at hfirst
    cases store'.Matches a rule with
    | true => exact .inr rfl
    | false => exact .inl hfirst

theorem Extends.granted (h : Extends rule store store') (hall : Granted attempts store)
    (hadded : Suffices rule attempts store') : Granted attempts store' := by
  induction attempts generalizing store store' with
  | nil => trivial
  | cons a attempts ih =>
    obtain ⟨hgen, hiff, hused⟩ := attempt_spec store a
    obtain ⟨hgen', hiff', hused'⟩ := attempt_spec store' a
    obtain ⟨other, hfirst, hcovers⟩ := hiff.mp hall.1
    have hne := h.fresh other (List.mem_of_find?_eq_some hfirst)
    -- the request is decided by the same rule, or by the new one
    obtain ⟨decider, hfirst', hcovers', hsame⟩ : ∃ decider, store'.first a = some decider ∧
        store'.Covers a decider ∧ (decider = other ∨ decider = rule) := by
      rcases h.first hfirst with hfirst' | hfirst'
      · refine ⟨other, hfirst', fun requested hrequested => ?_, .inl rfl⟩
        obtain ⟨allowed, hallowed, hle⟩ := hcovers requested hrequested
        exact ⟨allowed, hallowed, (Nat.add_le_add_right (h.used _ hne) _).trans hle⟩
      · exact ⟨rule, hfirst', hadded.1 hfirst', .inr rfl⟩
    refine ⟨hiff'.mpr ⟨decider, hfirst', hcovers'⟩, ih ⟨?_, ?_, ?_, fun id hid => ?_⟩ hall.2 hadded.2⟩
    · rw [hgen, hgen']
      exact h.rules
    · rw [hgen]
      exact h.fresh
    · rw [hgen, hgen']
      exact h.resolved
    · have hle := h.used id hid
      rw [hused other hfirst hcovers, hused' decider hfirst' hcovers']
      rcases hsame with rfl | rfl
      · omega
      · rw [if_neg hid]
        omega

theorem suffices_of_granted (h : Granted attempts store) : Suffices rule attempts store := by
  induction attempts generalizing store with
  | nil => trivial
  | cons a attempts ih =>
    refine ⟨fun hfirst => ?_, ih h.2⟩
    obtain ⟨decider, hdecider, hcovers⟩ := (attempt_spec store a).2.1.mp h.1
    obtain rfl := Option.some.inj (hdecider.symm.trans hfirst)
    exact hcovers

/-- A request that some rule allows is authorized if and only if the first rule that matches covers
it. A sequence of requests that was authorized stays so under one more rule, wherever it is put, if
and only if that rule covers each request it decides. -/
theorem first_match_decides (store : PolicyStore) : (∀ a, (store.Allowed a → (store.attempt a).1.isSome = true) ↔
      (store.Allowed a → ∃ rule, store.first a = some rule ∧ store.Covers a rule)) ∧
    ∀ rule store', Extends rule store store' → ∀ attempts, Granted attempts store →
      (Granted attempts store' ↔ Suffices rule attempts store') := by
  refine ⟨fun a => ?_, fun rule store' h attempts hall => ⟨suffices_of_granted, h.granted hall⟩⟩
  rw [(attempt_spec store a).2.1]

def serving (rules : List PolicyRule) : PolicyStore :=
  PolicyStore.initial.publish (prepare (some (.ok ⟨policySchema, rules, .empty⟩)) 100) System.oneLair

def generous : PolicyRule :=
  { System.spawner with id := "generous", limits := ⟨none, none, none, none, some 5, none⟩ }

def spawnOne : Attempt := ⟨System.client, System.askFor .processSpawn (.dojo ⟨1⟩ ⟨2⟩) (some 1), 101⟩

/-- Put behind a generous rule, a rule for one spawn denies nothing. -/
theorem granted_with_rule_behind : (serving [generous, System.spawner]).Granted [spawnOne, spawnOne] := by
  have hextends : Extends System.spawner (serving [generous]) (serving [generous, System.spawner]) :=
    { rules := ⟨[generous], [], by decide +kernel, by decide +kernel⟩
      fresh := by decide +kernel
      resolved := ⟨[.lair ⟨1⟩, .dojo ⟨2⟩, .splint ⟨3⟩ (.current "current")], OrdMap.ext (by decide +kernel)⟩
      used := fun _ _ => le_rfl }
  refine ((first_match_decides (serving [generous])).2 _ _ hextends _ ?_).mpr
    ⟨fun hfirst => absurd hfirst (by decide +kernel), fun hfirst => absurd hfirst (by decide +kernel), trivial⟩
  rw [Granted]
  decide +kernel

/-- Put before it, it denies the second spawn, although the generous rule matches and has spawns left. -/
theorem rule_before_denies : (serving [generous]).Granted [spawnOne, spawnOne] ∧
      ¬ (serving [System.spawner, generous]).Granted [spawnOne, spawnOne] ∧
      let store := ((serving [System.spawner, generous]).attempt spawnOne).2
      store.Allowed spawnOne ∧ (store.attempt spawnOne).1 = none := by
  refine ⟨?_, ?_, ⟨generous, by decide +kernel, by decide +kernel, ?_⟩, by decide +kernel⟩
  · rw [Granted]
    decide +kernel
  · rw [Granted]
    decide +kernel
  · rintro _ ⟨⟩
    exact ⟨5, rfl, by decide +kernel⟩

end PolicyStore

end Splinterm.Policy
