import Splinterm.Core.Refinement
import Splinterm.Policy.Store

/-!
# Least privilege of the policy store

`Selects` says what a selector of a rule covers in a topology, and `Permits` what a rule
has to say for a request. The expansion made at publication is compared with the first;
along every run an authorization is justified by one rule of the published document, and
the spawns charged to a rule stay within its limit.
-/

namespace Splinterm.Policy

open Core Daemon Lib Hoare List OrdMap Except Bool

/-! ## What a selector covers -/

/-- The resource is the Dojo or a Splint of its layout, whatever its incarnation. -/
def InDojo (dojo : Dojo) : PolicyResource → Prop
  | .dojo _ dojoId => dojo.id = dojoId
  | .splint _ _ splintId _ => splintId ∈ dojo.root.splintIds
  | _ => False

def Selects (topology : Topology) : ResourceSelector → PolicyResource → Prop
  | .daemon, resource => resource = .daemon
  | .lair lairId, resource =>
    ∃ lair, topology.findLair lairId = some lair ∧
      (resource = .lair lair.id ∨ ∃ dojo ∈ lair.dojos, InDojo dojo resource)
  | .dojo dojoId, resource => ∃ dojo, topology.findDojo dojoId = some dojo ∧ InDojo dojo resource
  | .splint splintId incarnation, resource =>
    (topology.findSplint splintId).isSome ∧
      ∃ lairId dojoId requested, resource = .splint lairId dojoId splintId requested ∧ incarnation.selects requested

/-- The Lair, Dojo or Splint a request names is part of the topology. -/
def Present (topology : Topology) : PolicyResource → Prop
  | .daemon => True
  | .lair lairId => ∃ lair ∈ topology.lairs.values, lair.id = lairId
  | .dojo _ dojoId => ∃ dojo ∈ allDojos topology.lairs, dojo.id = dojoId
  | .splint _ _ splintId _ => splintId ∈ allSplintIds (allDojos topology.lairs)

variable {topology : Topology} {resource : PolicyResource}

theorem InDojo.present {dojo : Dojo} (h : InDojo dojo resource) (hdojo : dojo ∈ allDojos topology.lairs) :
    Present topology resource := by
  cases resource with
  | daemon => trivial
  | lair lairId => exact h.elim
  | dojo lairId dojoId => exact ⟨dojo, hdojo, h⟩
  | splint lairId dojoId splintId incarnation => exact mem_flatMap.mpr ⟨dojo, hdojo, h⟩

theorem Selects.present {selector : ResourceSelector} (h : Selects topology selector resource) :
    Present topology resource := by
  cases selector with
  | daemon =>
    obtain rfl : resource = .daemon := h
    trivial
  | lair lairId =>
    obtain ⟨lair, hlair, h⟩ := h
    have hmem : lair ∈ topology.lairs.values := mem_values.mpr ⟨lairId, hlair⟩
    rcases h with rfl | ⟨dojo, hdojo, h⟩
    · exact ⟨lair, hmem, rfl⟩
    · exact h.present (mem_flatMap.mpr ⟨lair, hmem, hdojo⟩)
  | dojo dojoId =>
    obtain ⟨dojo, hdojo, h⟩ := h
    exact h.present (mem_of_find?_eq_some hdojo)
  | splint splintId incarnation =>
    obtain ⟨hsplint, lairId, dojoId, requested, rfl, -⟩ := h
    exact findSplint_isSome.mp hsplint

/-! ## The expansion -/

def Within (P : PolicyResource → Prop) (resources : List ResolvedResourceSelector) : Prop :=
  ∀ x ∈ resources, ∀ resource, x.selects resource = true → P resource

section Expansion

variable {P : PolicyResource → Prop} {resources resources' : List ResolvedResourceSelector}
  (h : Within P resources)

include h

theorem within_insertResolved {x : ResolvedResourceSelector} (hx : ∀ resource, x.selects resource = true → P resource)
    (hok : insertResolved x resources = .ok resources') : Within P resources' := by
  obtain ⟨_, -, hok⟩ := bind_eq_ok.mp hok
  obtain rfl := ok.inj hok
  split
  · exact h
  · exact forall_mem_append.mpr ⟨h, forall_mem_singleton.mpr hx⟩

theorem within_resolveLayout {node : LayoutNode}
    (hnode : ∀ splintId ∈ node.splintIds, ∀ lairId dojoId incarnation, P (.splint lairId dojoId splintId incarnation))
    (hok : resolveLayout node resources = .ok resources') : Within P resources' := by
  induction node generalizing resources resources' with
  | leaf splint =>
    refine within_insertResolved h (fun resource hselects => ?_) hok
    cases resource with
    | splint lairId dojoId splintId incarnation =>
      obtain rfl : splint.id = splintId := of_decide_eq_true (and_eq_true_iff.mp hselects).1
      exact hnode _ mem_cons_self ..
    | _ => cases hselects
  | branch axis ratio first second ih₁ ih₂ =>
    obtain ⟨mid, hmid, hok⟩ := bind_eq_ok.mp hok
    exact ih₂ (ih₁ h (fun id hid => hnode id (by simp [hid])) hmid) (fun id hid => hnode id (by simp [hid])) hok

theorem within_resolveDojo {dojo : Dojo} (hdojo : ∀ resource, InDojo dojo resource → P resource)
    (hok : resolveDojo resources dojo = .ok resources') : Within P resources' := by
  obtain ⟨mid, hmid, hok⟩ := bind_eq_ok.mp hok
  refine within_resolveLayout (within_insertResolved h (fun resource hselects => ?_) hmid)
    (fun _ hid _ _ _ => hdojo _ hid) hok
  cases resource with
  | dojo _ dojoId => exact hdojo _ (show dojo.id = dojoId from of_decide_eq_true hselects)
  | _ => cases hselects

/-- The expanded selectors match only what the selector covers. -/
theorem within_resolveSelector {selector : ResourceSelector}
    (hselector : ∀ resource, Selects topology selector resource → P resource)
    (hok : resolveSelector topology resources selector = .ok resources') : Within P resources' := by
  cases selector with
  | daemon =>
    refine within_insertResolved h (fun resource hselects => hselector resource ?_) hok
    cases resource with
    | daemon => rfl
    | _ => cases hselects
  | lair lairId =>
    simp only [resolveSelector] at hok
    split at hok
    · cases hok
    · rename_i lair hlair
      obtain ⟨mid, hmid, hok⟩ := bind_eq_ok.mp hok
      refine foldlM_keeps (fun dojo hdojo _ _ h => within_resolveDojo h fun resource hin =>
        hselector resource ⟨lair, hlair, .inr ⟨dojo, hdojo, hin⟩⟩) hok
        (within_insertResolved h (fun resource hselects => hselector resource ⟨lair, hlair, .inl ?_⟩) hmid)
      cases resource with
      | lair => exact congrArg _ (of_decide_eq_true hselects).symm
      | _ => cases hselects
  | dojo dojoId =>
    simp only [resolveSelector] at hok
    split at hok
    · cases hok
    · rename_i dojo hdojo
      exact within_resolveDojo h (fun resource hin => hselector resource ⟨dojo, hdojo, hin⟩) hok
  | splint splintId incarnation =>
    simp only [resolveSelector] at hok
    split at hok
    · cases hok
    · rename_i splint hsplint
      refine within_insertResolved h (fun resource hselects => hselector resource ?_) hok
      cases resource with
      | splint lairId dojoId requestedId requested =>
        obtain ⟨hid, hrequested⟩ := and_eq_true_iff.mp hselects
        obtain rfl := of_decide_eq_true hid
        exact ⟨Option.isSome_of_eq_some hsplint, lairId, dojoId, requested, rfl, hrequested⟩
      | _ => cases hselects

end Expansion

variable {rule : PolicyRule} {resources : List ResolvedResourceSelector}

theorem within_resolveRule (h : resolveRule topology rule = .ok resources) :
    Within (fun resource => ∃ selector ∈ rule.resources, Selects topology selector resource) resources :=
  foldlM_keeps (fun selector hselector _ _ h => within_resolveSelector h fun _ hin => ⟨selector, hselector, hin⟩) h
    fun _ hx => absurd hx not_mem_nil

/-! ## Publication -/

/-- Every rule of the document has its own expansion over the topology. -/
def Resolved (topology : Topology) (rules : List PolicyRule)
    (resolved : OrdMap String (List ResolvedResourceSelector)) : Prop :=
  ∀ rule ∈ rules, ∃ resources, resolved.get? rule.id = some resources ∧ resolveRule topology rule = .ok resources

theorem foldlM_resolved {rules : List PolicyRule} {before resolved : OrdMap String (List ResolvedResourceSelector)}
    (hids : (rules.map (·.id)).Nodup)
    (h : rules.foldlM (fun resolved rule => do
      let resources ← resolveRule topology rule
      .ok (resolved.insert rule.id resources)) before = .ok resolved) :
    Resolved topology rules resolved ∧ ∀ id, id ∉ rules.map (·.id) → resolved.get? id = before.get? id := by
  induction rules generalizing before with
  | nil =>
    obtain rfl : before = resolved := ok.inj h
    exact ⟨fun rule hrule => (not_mem_nil hrule).elim, fun id _ => rfl⟩
  | cons rule rules ih =>
    obtain ⟨hfresh, hids⟩ := nodup_cons.mp hids
    obtain ⟨mid, hmid, h⟩ := bind_eq_ok.mp h
    obtain ⟨resources, hresources, hmid⟩ := bind_eq_ok.mp hmid
    obtain rfl := ok.inj hmid
    obtain ⟨hrules, hkeep⟩ := ih hids h
    refine ⟨forall_mem_cons.mpr ⟨?_, hrules⟩, ?_⟩
    · exact ⟨resources, by rw [hkeep _ hfresh, get?_insert_self], hresources⟩
    · intro id hid
      obtain ⟨hne, hid⟩ := not_or.mp (mt mem_cons.mpr hid)
      rw [hkeep id hid, get?_insert, if_neg hne]

variable {document : PolicyDocument} {executable : ExecutableIdentity} {request : PolicyRequest}
  {matched : PolicyMatch} {now : Nat}

theorem resolveAgainst_eq_ok {document' : PolicyDocument} (hids : (document.rules.map (·.id)).Nodup)
    (h : document.resolveAgainst topology = .ok document') : document'.rules = document.rules ∧
      Resolved topology document.rules document'.resolvedResources := by
  obtain ⟨resolved, hresolved, h⟩ := bind_eq_ok.mp h
  obtain rfl := ok.inj h
  exact ⟨rfl, (foldlM_resolved hids hresolved).1⟩

/-! ## What an authorization needs -/

/-- A requested limit is bounded by the rule's. -/
def LimitAllowed (allowed requested : Option Nat) : Prop :=
  ∀ n, requested = some n → ∃ bound, allowed = some bound ∧ n ≤ bound

/-- The rule alone allows the whole request, its selectors read in the topology. -/
structure Permits (topology : Topology) (executable : ExecutableIdentity)
    (request : PolicyRequest) (now : Nat) (rule : PolicyRule) : Prop where
  path : components rule.executable.path = components executable.path
  digest : rule.executable.sha256 = executable.sha256
  unexpired : ∀ expiration, rule.expiresAtUnixSeconds = some expiration → now < expiration
  nonempty : request.resources ≠ []
  scopes : ∀ scope ∈ request.requiredScopes, scope ∈ rule.scopes
  anyScope : request.anyScope = [] ∨ ∃ scope ∈ request.anyScope, scope ∈ rule.scopes
  resources : ∀ resource ∈ request.resources, ∃ selector ∈ rule.resources, Selects topology selector resource
  returnedRows : LimitAllowed rule.limits.maxReturnedRows request.limits.returnedRows
  results : LimitAllowed rule.limits.maxResults request.limits.results
  returnedBytes : LimitAllowed rule.limits.maxReturnedBytes request.limits.returnedBytes
  liveSubscriptions :
    LimitAllowed rule.limits.maxLiveSubscriptions request.limits.liveSubscriptions
  spawnCount : LimitAllowed rule.limits.maxSpawnCount request.limits.spawnCount
  deadline : LimitAllowed rule.limits.deadlineMs request.limits.deadlineMs

theorem limitAllows_iff {allowed requested : Option Nat} :
    limitAllows allowed requested = true ↔ LimitAllowed allowed requested := by
  cases requested with
  | none => simp [limitAllows, LimitAllowed]
  | some n => cases allowed <;> simp [limitAllows, LimitAllowed]

/-- With its expansion at hand, a rule that matches a request permits it. -/
theorem permits_of_admits (h : resolveRule topology rule = .ok resources)
    (hadmits : rule.admits executable request resources now = true) :
    Permits topology executable request now rule := by
  have hexpired : rule.unexpired now = true ↔
      ∀ expiration, rule.expiresAtUnixSeconds = some expiration → now < expiration := by
    cases hexp : rule.expiresAtUnixSeconds <;> simp [PolicyRule.unexpired, hexp]
  simp only [PolicyRule.admits, PolicyRule.isFor, samePath, PolicyLimits.allows, and_eq_true,
    or_eq_true, not_eq_true', decide_eq_true_eq, List.isEmpty_eq_false_iff,
    List.isEmpty_iff, limitAllows_iff, hexpired, List.all_eq_true, List.any_eq_true] at hadmits
  obtain ⟨⟨⟨⟨⟨⟨⟨hpath, hdigest⟩, hexp⟩, hne⟩, hscopes⟩, hany⟩, hres⟩,
    ⟨⟨⟨⟨hrows, hresults⟩, hbytes⟩, hlive⟩, hspawn⟩, hdeadline⟩ := hadmits
  refine ⟨hpath, hdigest, hexp, hne, hscopes, hany, fun resource hmem => ?_,
    hrows, hresults, hbytes, hlive, hspawn, hdeadline⟩
  obtain ⟨x, hx, hselects⟩ := hres resource hmem
  exact within_resolveRule h x hx resource hselects

theorem authorize_eq_some
    (h : document.authorize executable request now = some matched) : ∃ rule ∈ document.rules, ∃ resources,
      document.resolvedResources.get? rule.id = some resources ∧
      rule.admits executable request resources now = true ∧
      matched = ⟨rule.id, rule.limits.maxSpawnCount, rule.limits.maxReturnedBytes⟩ := by
  obtain ⟨rule, hrule, h⟩ := exists_of_findSome?_eq_some h
  refine ⟨rule, hrule, ?_⟩
  cases hresources : document.resolvedResources.get? rule.id with
  | none => simp [hresources] at h
  | some resources =>
    simp only [hresources, Option.ite_none_right_eq_some, Option.some.injEq] at h
    exact ⟨resources, rfl, h.1, h.2.symm⟩

/-- The status of a resource shows a scope exactly if some request for it there is authorized. -/
theorem status_shows_authorized_scopes {scope : OperationScope} :
    (∃ status ∈ document.status executable resource now, scope ∈ status.scopes) ↔ ∃ request,
      resource ∈ request.resources ∧ scope ∈ request.requiredScopes ∧
        (document.authorize executable request now).isSome := by
  simp only [PolicyDocument.status, mem_map, exists_exists_and_eq_and, mem_filter, and_eq_true, Option.any_eq_true]
  constructor
  · rintro ⟨rule, ⟨hrule, ⟨hfor, hexpired⟩, resources, hget, hselects⟩, hscope : scope ∈ rule.scopes⟩
    refine ⟨⟨[scope], [], [resource], ⟨none, none, none, none, none, none⟩⟩, mem_cons_self, mem_cons_self, ?_⟩
    refine findSome?_isSome_iff.mpr ⟨rule, hrule, ?_⟩
    simp [hget, PolicyRule.admits, hfor, hexpired, hscope, hselects, PolicyLimits.allows, limitAllows]
  · rintro ⟨request, hresource, hscope, h⟩
    obtain ⟨rule, hrule, resources, hget, hadmits, -⟩ := authorize_eq_some (Option.some_get h).symm
    simp only [PolicyRule.admits, and_eq_true, all_eq_true, decide_eq_true_eq] at hadmits
    obtain ⟨⟨⟨⟨⟨hfor, -⟩, hscopes⟩, -⟩, hselected⟩, -⟩ := hadmits
    exact ⟨rule, ⟨hrule, hfor, resources, hget, hselected _ hresource⟩, hscopes _ hscope⟩

/-! ## Runs -/

def spawned (ruleId : String) (granted : List Grant) : Nat :=
  ((granted.filter fun grant => grant.ruleId = ruleId).map (·.spawns)).sum

theorem spawned_cons (ruleId : String) (grant : Grant) (granted : List Grant) :
    spawned ruleId (grant :: granted) =
      (if grant.ruleId = ruleId then grant.spawns else 0) + spawned ruleId granted := by
  by_cases h : grant.ruleId = ruleId <;> simp [spawned, h]

namespace System

structure Inv (system : System) : Prop where
  distinct : (system.store.generation.document.rules.map (·.id)).Nodup
  resolved : ∀ rule ∈ system.store.generation.document.rules, ∀ resources,
    system.store.generation.document.resolvedResources.get? rule.id = some resources →
      resolveRule system.published rule = .ok resources
  counted : ∀ ruleId, (system.store.spawnCounts.get? ruleId).getD 0 = spawned ruleId system.granted
  limited : ∀ rule ∈ system.store.generation.document.rules,
    spawned rule.id system.granted ≤ rule.limits.maxSpawnCount.getD 0

theorem Inv.start (topology : Topology) : Inv (start topology) where
  distinct := .nil
  resolved := fun _ hrule => (not_mem_nil hrule).elim
  counted := fun _ => rfl
  limited := fun _ hrule => (not_mem_nil hrule).elim

theorem resolveCandidate_resolved (candidate : PolicyCandidate) (topology : Topology) :
    ((PolicyStore.resolveCandidate candidate topology).1.rules.map (·.id)).Nodup ∧
      ∀ rule ∈ (PolicyStore.resolveCandidate candidate topology).1.rules, ∀ resources,
        (PolicyStore.resolveCandidate candidate topology).1.resolvedResources.get? rule.id =
          some resources → resolveRule topology rule = .ok resources := by
  unfold PolicyStore.resolveCandidate
  by_cases hdiagnostic : candidate.diagnostic.isSome
  · rw [if_pos hdiagnostic]
    refine ⟨candidate.distinct, fun rule _ resources h => ?_⟩
    simp [candidate.unresolved] at h
  · rw [if_neg hdiagnostic]
    cases hresolve : candidate.document.resolveAgainst topology with
    | error message => exact ⟨.nil, fun rule hrule => (not_mem_nil hrule).elim⟩
    | ok document =>
      obtain ⟨hrules, hresolved⟩ := resolveAgainst_eq_ok candidate.distinct hresolve
      refine ⟨hrules ▸ candidate.distinct, fun rule hrule resources h => ?_⟩
      obtain ⟨resources', hget, hok⟩ := hresolved rule (hrules ▸ hrule)
      obtain rfl : resources' = resources := Option.some.inj (hget.symm.trans h)
      exact hok

theorem Inv.publish (candidate : PolicyCandidate) (system : System) : Inv (system.publish candidate) where
  distinct := (resolveCandidate_resolved candidate system.topology).1
  resolved := (resolveCandidate_resolved candidate system.topology).2
  counted := fun _ => rfl
  limited := fun _ _ => Nat.zero_le _

variable {system : System}

theorem Inv.rule_unique (h : Inv system) {rule rule' : PolicyRule}
    (hrule : rule ∈ system.store.generation.document.rules)
    (hrule' : rule' ∈ system.store.generation.document.rules) (hid : rule'.id = rule.id) : rule' = rule :=
  inj_on_of_nodup_map h.distinct hrule' hrule hid

/-- Granting spawns within the limit of the rule that matched. -/
theorem Inv.charge (h : Inv system) {rule : PolicyRule} {requested : Nat}
    (hrule : rule ∈ system.store.generation.document.rules)
    (hlimit : spawned rule.id system.granted + requested ≤ rule.limits.maxSpawnCount.getD 0) :
    Inv { system with
      store := { system.store with
        spawnCounts := system.store.spawnCounts.insert rule.id
          ((system.store.spawnCounts.get? rule.id).getD 0 + requested) }
      granted := ⟨rule.id, requested⟩ :: system.granted } :=
  { h with
    counted := by
      intro id
      rw [get?_insert, spawned_cons]
      by_cases hid : id = rule.id
      · rw [if_pos hid, if_pos hid.symm, Option.getD_some, hid, h.counted rule.id, Nat.add_comm]
      · rw [if_neg hid, if_neg (Ne.symm hid), h.counted id, Nat.zero_add]
    limited := by
      intro other hother
      rw [spawned_cons]
      by_cases hid : rule.id = other.id
      · obtain rfl := h.rule_unique hrule hother hid.symm
        rw [if_pos rfl, Nat.add_comm]
        exact hlimit
      · rw [if_neg hid, Nat.zero_add]
        exact h.limited other hother }

theorem Inv.authorize (h : Inv system) (executable : ExecutableIdentity)
    (request : PolicyRequest) (now : Nat) : Inv (system.authorize executable request now) := by
  unfold System.authorize PolicyStore.authorize
  cases hmatched : system.store.generation.document.authorize executable request now with
  | none => exact h
  | some matched =>
    obtain ⟨rule, hrule, resources, -, -, rfl⟩ := authorize_eq_some hmatched
    cases hspawn : request.limits.spawnCount with
    | none =>
      -- a grant without spawns changes no count
      have hsame (id : String) : spawned id (⟨rule.id, 0⟩ :: system.granted) = spawned id system.granted := by
        rw [spawned_cons]
        simp
      exact { h with
        counted := fun id => (h.counted id).trans (hsame id).symm
        limited := fun rule hrule => (hsame rule.id).le.trans (h.limited rule hrule) }
    | some requested =>
      unfold PolicyStore.chargeSpawns
      cases hmax : rule.limits.maxSpawnCount with
      | none => exact h
      | some allowed =>
        dsimp only
        by_cases hrefuse :
            (system.store.spawnCounts.get? rule.id).getD 0 + requested > u64Max ∨
              (system.store.spawnCounts.get? rule.id).getD 0 + requested > allowed
        · rw [if_pos hrefuse]
          refine { h with counted := fun id => ?_ }
          -- the entry left for the rule stands for the same count
          rw [get?_insert]
          by_cases hid : id = rule.id
          · rw [if_pos hid, hid, Option.getD_some, h.counted rule.id]
          · rw [if_neg hid, h.counted id]
        · rw [if_neg hrefuse]
          refine h.charge hrule ?_
          rw [hmax, ← h.counted rule.id]
          exact not_lt.mp fun hlt => hrefuse (.inr hlt)

theorem Inv.step (h : Inv system) (event : Event) : Inv (system.step event) := by
  cases event with
  | change topology => exact { h with }
  | reload | reject => exact Inv.publish _ system
  | request executable request now => exact h.authorize executable request now

theorem Inv.run (topology : Topology) (events : List Event) : Inv (run topology events) := by
  unfold System.run
  generalize hs : System.start topology = system
  have h : Inv system := hs ▸ Inv.start topology
  clear hs
  induction events generalizing system with
  | nil => exact h
  | cons event events ih => exact ih (system.step event) (h.step event)

theorem store_authorize_eq_some {store : PolicyStore} (h : (store.authorize executable request now).1 = some matched) :
    store.generation.document.authorize executable request now = some matched := by
  unfold PolicyStore.authorize PolicyStore.chargeSpawns at h
  cases hdocument : store.generation.document.authorize executable request now with
  | none => simp [hdocument] at h
  | some matched' =>
    rw [hdocument] at h
    dsimp only at h
    split at h
    · exact h
    · split at h
      · cases h
      · split at h
        · cases h
        · exact h

/-- After any run, what the store authorizes is permitted by one rule alone, the one the
match names; everything it covers was part of the topology of the last publication; and
the spawns granted under a rule since then stay within its limit. -/
theorem policy_store_is_least_privilege (topology : Topology) (events : List Event) :
    (∀ executable request now matched,
      ((run topology events).store.authorize executable request now).1 = some matched →
        (∃ rule ∈ (run topology events).store.generation.document.rules, rule.id = matched.ruleId ∧
          Permits (run topology events).published executable request now rule ∧
          ∀ other ∈ (run topology events).store.generation.document.rules,
            other.id = matched.ruleId → other = rule) ∧
        ∀ resource ∈ request.resources, Present (run topology events).published resource) ∧
    ∀ rule ∈ (run topology events).store.generation.document.rules,
      spawned rule.id (run topology events).granted ≤ rule.limits.maxSpawnCount.getD 0 := by
  have hinv := Inv.run topology events
  refine ⟨?_, hinv.limited⟩
  intro executable request now matched h
  obtain ⟨rule, hrule, resources, hget, hadmits, rfl⟩ := authorize_eq_some (store_authorize_eq_some h)
  have hresolve := hinv.resolved rule hrule resources hget
  have hpermits := permits_of_admits hresolve hadmits
  refine ⟨⟨rule, hrule, rfl, hpermits, fun other hother => hinv.rule_unique hrule hother⟩, ?_⟩
  intro resource hresource
  obtain ⟨selector, -, hselects⟩ := hpermits.resources resource hresource
  exact hselects.present

/-! A Lair is published with one spawn allowed in it, the spawn is used, and the topology
changes; a request for the Splint that was there at publication is still authorized. -/

def oneLair : Topology := ⟨0, OrdMap.empty.insert ⟨1⟩ (.new ⟨⟨1⟩, ⟨2⟩, ⟨3⟩⟩ "main" [0x2F])⟩

def client : ExecutableIdentity where
  path := Json.utf8 "/usr/bin/client"
  device := 1
  inode := 1
  ownerUid := 0
  mode := 0o755
  size := 1
  sha256 := String.ofList (List.replicate 64 'a')

def spawner : PolicyRule where
  id := "spawner"
  executable := ⟨Json.utf8 "/usr//bin/client", client.sha256⟩
  expiresAtUnixSeconds := some 200
  scopes := [.processSpawn, .terminalVisibleRead]
  resources := [.lair ⟨1⟩]
  limits := ⟨none, none, none, none, some 1, none⟩

def askFor (scope : OperationScope) (resource : PolicyResource) (spawns : Option Nat) : PolicyRequest where
  requiredScopes := [scope]
  anyScope := []
  resources := [resource]
  limits := ⟨none, none, none, none, spawns, none⟩

def spawnOnce : List Event :=
  [.reload (some (.ok ⟨policySchema, [spawner], .empty⟩)) 100,
    .request client (askFor .processSpawn (.dojo ⟨1⟩ ⟨2⟩) (some 1)) 101,
    .change .new]

theorem published_splint_stays_readable : ((run oneLair spawnOnce).store.authorize client
      (askFor .terminalVisibleRead (.splint ⟨1⟩ ⟨2⟩ ⟨3⟩ (some 7)) none) 102).1 =
        some ⟨"spawner", some 1, none⟩ ∧
    Present (run oneLair spawnOnce).published (.splint ⟨1⟩ ⟨2⟩ ⟨3⟩ (some 7)) ∧
    (run oneLair spawnOnce).granted = [⟨"spawner", 1⟩] ∧
    ∀ rule ∈ (run oneLair spawnOnce).store.generation.document.rules,
      spawned rule.id (run oneLair spawnOnce).granted ≤ rule.limits.maxSpawnCount.getD 0 := by
  have hread : ((run oneLair spawnOnce).store.authorize client
      (askFor .terminalVisibleRead (.splint ⟨1⟩ ⟨2⟩ ⟨3⟩ (some 7)) none) 102).1 =
        some ⟨"spawner", some 1, none⟩ := by decide +kernel
  obtain ⟨hauthorized, hspawns⟩ := policy_store_is_least_privilege oneLair spawnOnce
  exact ⟨hread, (hauthorized _ _ _ _ hread).2 _ mem_cons_self, by decide +kernel, hspawns⟩

end System

end Splinterm.Policy
