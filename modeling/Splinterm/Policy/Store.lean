import Splinterm.Policy.Document

/-!
# The policy store

The store holds one published generation and counts the spawns granted under each of its
rules. A candidate comes from a configured file or from a reload that failed, so its
rules have distinct ids and none of its selectors is expanded yet.
-/

namespace Splinterm.Policy

open Core Daemon Lib Hoare

/-! ## What validation leaves -/

theorem validateRules_nodup {now : Nat} {rules : List PolicyRule} {ids : List String}
    (h : validateRules now ids rules = .ok ()) : (rules.map (·.id)).Nodup ∧ ∀ rule ∈ rules, rule.id ∉ ids := by
  induction rules generalizing ids with
  | nil => simp
  | cons rule rules ih =>
    obtain ⟨_, _, h⟩ := bind_eq_ok.mp h
    obtain ⟨_, hid, h⟩ := bind_eq_ok.mp h
    have hfresh : rule.id ∉ ids := rejectIf_eq_ok.mp hid
    obtain ⟨hnodup, hids⟩ := ih h
    refine ⟨List.nodup_cons.mpr ⟨?_, hnodup⟩, List.forall_mem_cons.mpr ⟨hfresh, ?_⟩⟩
    · intro hmem
      obtain ⟨other, hother, heq⟩ := List.mem_map.mp hmem
      exact hids other hother (heq ▸ List.mem_cons_self)
    · exact fun other hother hmem => hids other hother (List.mem_cons_of_mem _ hmem)

theorem inspectFile_eq_ok {decoded : Except String PolicyDocument} {now : Nat}
    {document : PolicyDocument} (h : inspectFile decoded now = .ok document) :
    (document.rules.map (·.id)).Nodup ∧ document.resolvedResources = .empty := by
  obtain ⟨read, _, h⟩ := bind_eq_ok.mp h
  obtain ⟨_, hvalid, h⟩ := bind_eq_ok.mp h
  obtain ⟨_, _, hvalid⟩ := bind_eq_ok.mp hvalid
  obtain ⟨_, _, hvalid⟩ := bind_eq_ok.mp hvalid
  obtain rfl := Except.ok.inj h
  exact ⟨(validateRules_nodup hvalid).1, rfl⟩

/-! ## The store -/

structure PolicyGeneration where
  id : Nat
  document : PolicyDocument
  diagnostic : Option String

structure PolicyStore where
  generation : PolicyGeneration
  spawnCounts : OrdMap String Nat

/-- `PolicyStore::default`. -/
def PolicyStore.initial : PolicyStore := ⟨⟨1, .denyAll, none⟩, .empty⟩

/-- The fields are private in the source; only `prepare` and `rejected` build a candidate. -/
structure PolicyCandidate where
  document : PolicyDocument
  diagnostic : Option String
  distinct : (document.rules.map (·.id)).Nodup
  unresolved : document.resolvedResources = .empty

/-- `chars().take(512)`. -/
def boundedDiagnostic (message : String) : String :=
  String.ofList (message.toList.take maxDiagnosticBytes)

def PolicyCandidate.denied (diagnostic : Option String) : PolicyCandidate :=
  ⟨.denyAll, diagnostic, .nil, rfl⟩

def PolicyCandidate.rejected (diagnostic : String) : PolicyCandidate :=
  denied (some (boundedDiagnostic diagnostic))

/-- `none` when no policy file is configured. -/
def prepare (configured : Option (Except String PolicyDocument)) (now : Nat) : PolicyCandidate :=
  match configured with
  | none => .denied none
  | some decoded =>
    match h : inspectFile decoded now with
    | .ok document => ⟨document, none, (inspectFile_eq_ok h).1, (inspectFile_eq_ok h).2⟩
    | .error error => .rejected error

namespace PolicyStore

/-- The document of the next generation and its diagnostic. -/
def resolveCandidate (candidate : PolicyCandidate) (topology : Topology) : PolicyDocument × Option String :=
  if candidate.diagnostic.isSome then (candidate.document, candidate.diagnostic)
  else
    match candidate.document.resolveAgainst topology with
    | .ok document => (document, none)
    | .error error => (.denyAll, some (boundedDiagnostic error))

def publish (candidate : PolicyCandidate) (topology : Topology) (store : PolicyStore) : PolicyStore :=
  let (document, diagnostic) := resolveCandidate candidate topology
  { generation := ⟨max (saturatingAdd store.generation.id 1) 1, document, diagnostic⟩
    spawnCounts := .empty }

/-- The entry of the rule exists after `or_default` also when the request is refused. -/
def chargeSpawns (matched : PolicyMatch) (requested : Nat) (store : PolicyStore) : Option PolicyMatch × PolicyStore :=
  match matched.maxSpawnCount with
  | none => (none, store)
  | some allowed =>
    let used := (store.spawnCounts.get? matched.ruleId).getD 0
    let next := used + requested
    -- `checked_add` on the 64-bit counter
    if next > u64Max ∨ next > allowed then
      (none, { store with spawnCounts := store.spawnCounts.insert matched.ruleId used })
    else (some matched, { store with spawnCounts := store.spawnCounts.insert matched.ruleId next })

def authorize (executable : ExecutableIdentity) (request : PolicyRequest) (now : Nat)
    (store : PolicyStore) : Option PolicyMatch × PolicyStore :=
  match store.generation.document.authorize executable request now with
  | none => (none, store)
  | some matched =>
    match request.limits.spawnCount with
    | none => (some matched, store)
    | some requested => store.chargeSpawns matched requested

end PolicyStore

/-! ## The system -/

/-- A request the store authorized. -/
structure Grant where
  ruleId : String
  spawns : Nat
deriving DecidableEq

/-- The store with the topology it serves. `published` is the topology of the last
publication and `granted` lists what was authorized since. -/
structure System where
  store : PolicyStore
  topology : Topology
  published : Topology
  granted : List Grant

inductive Event where
  | change (topology : Topology)
  | reload (configured : Option (Except String PolicyDocument)) (clock : Nat)
  | reject (diagnostic : String)
  | request (executable : ExecutableIdentity) (request : PolicyRequest) (now : Nat)

namespace System

def start (topology : Topology) : System := ⟨.initial, topology, topology, []⟩

def publish (candidate : PolicyCandidate) (system : System) : System :=
  { system with
    store := system.store.publish candidate system.topology
    published := system.topology
    granted := [] }

def authorize (executable : ExecutableIdentity) (request : PolicyRequest) (now : Nat) (system : System) : System :=
  match system.store.authorize executable request now with
  | (none, store) => { system with store }
  | (some matched, store) =>
    { system with
      store
      granted := ⟨matched.ruleId, request.limits.spawnCount.getD 0⟩ :: system.granted }

def step (system : System) : Event → System
  | .change topology => { system with topology }
  | .reload configured clock => system.publish (prepare configured clock)
  | .reject diagnostic => system.publish (.rejected diagnostic)
  | .request executable request now => system.authorize executable request now

def run (topology : Topology) (events : List Event) : System := events.foldl step (start topology)

end System

end Splinterm.Policy
